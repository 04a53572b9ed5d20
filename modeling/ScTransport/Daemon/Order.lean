import ScTransport.Daemon.Moves
import ScTransport.Infra.Lts

/-!
# The order of the queue

An entry is `(Reverse<u8>, u64, Uuid)` in a heap that pops its largest entry. The queue is kept
here in the order in which its entries were pushed, which is the order of their sequence numbers.
`Reverse` stands around the priority only, so of the entries with the smallest priority number
the one pushed last is popped.

* `DaemonState.Numbered` — the entries are numbered in the order in which they were pushed
* `getLast?_frontRunners` — the entry that is popped
* `pop_fifo_iff` — when it is the one that was pushed first
-/

namespace ScTransport

open Infra

/-! ## The largest entry -/

namespace QueueEntry

theorem le_total (a b : QueueEntry) : a.le b = true ∨ b.le a = true := by
  simp only [le, decide_eq_true_iff]
  grind

theorem le_trans {a b c : QueueEntry} (hab : a.le b = true) (hbc : b.le c = true) :
    a.le c = true := by
  simp only [le, decide_eq_true_iff] at *
  grind

theorem le_refl (a : QueueEntry) : a.le a = true := or_self_iff.mp (a.le_total a)

end QueueEntry

theorem le_foldl_top : ∀ {l : List QueueEntry} {a b : QueueEntry}, b ∈ a :: l →
    b.le (l.foldl (fun a b => if a.le b then b else a) a) = true
  | [], a, b, hb => by
    rw [List.mem_singleton.mp hb]
    exact a.le_refl
  | c :: l, a, b, hb => by
    rw [List.foldl_cons]
    -- the larger of the first two stands for both of them
    have htop : ∀ d, d = a ∨ d = c → d.le (if a.le c then c else a) = true := by
      rintro d (rfl | rfl)
      · split
        · assumption
        · exact d.le_refl
      · split
        · exact d.le_refl
        · next h => exact (a.le_total d).resolve_left h
    rcases List.mem_cons.mp hb with rfl | hb
    · exact QueueEntry.le_trans (htop b (Or.inl rfl)) (le_foldl_top List.mem_cons_self)
    · rcases List.mem_cons.mp hb with rfl | hb
      · exact QueueEntry.le_trans (htop b (Or.inr rfl)) (le_foldl_top List.mem_cons_self)
      · exact le_foldl_top (List.mem_cons_of_mem _ hb)

/-- `pop` returns a largest entry. -/
theorem le_of_popQueue {queue rest : List QueueEntry} {e e' : QueueEntry}
    (h : popQueue queue = some (e, rest)) (he' : e' ∈ queue) : e'.le e = true := by
  cases queue with
  | nil => cases h
  | cons a l =>
    cases h
    exact le_foldl_top he'

/-- The rest of the queue keeps its order. -/
theorem sublist_of_popQueue {queue rest : List QueueEntry} {e : QueueEntry}
    (h : popQueue queue = some (e, rest)) : rest.Sublist queue := by
  cases queue with
  | nil => cases h
  | cons a l =>
    cases h
    exact List.erase_sublist

/-! ## Sequence numbers -/

/-- The queue in the order of its sequence numbers, which are those given out so far. -/
structure DaemonState.Numbered (s : DaemonState) : Prop where
  increasing : s.queue.Pairwise fun e e' => e.seq < e'.seq
  le_sequence : ∀ e ∈ s.queue, e.seq ≤ s.sequence

theorem DaemonState.perform_sequence (s : DaemonState) (t : Uuid) (prim : Prim) :
    (s.perform t prim).sequence =
      match prim with
      | .enqueue _ => s.sequence + 1
      | _ => s.sequence := by
  cases prim <;> simp only [perform] <;> first | rfl | (split <;> rfl)

theorem DaemonState.Numbered.perform {s : DaemonState} (h : s.Numbered) (t : Uuid) (prim : Prim) :
    (s.perform t prim).queue.Pairwise (fun e e' => e.seq < e'.seq) ∧
      ∀ e ∈ (s.perform t prim).queue, e.seq ≤ (s.perform t prim).sequence := by
  rw [perform_queue, perform_sequence]
  cases prim with
  | enqueue priority =>
    refine ⟨List.pairwise_append.mpr ⟨h.increasing, List.pairwise_singleton _ _, ?_⟩, ?_⟩
    · intro e he e' he'
      rw [List.mem_singleton.mp he']
      exact Nat.lt_succ_of_le (h.le_sequence e he)
    · intro e he
      rcases List.mem_append.mp he with he | he
      · exact Nat.le_succ_of_le (h.le_sequence e he)
      · rw [List.mem_singleton.mp he]
  | _ => exact ⟨h.increasing, h.le_sequence⟩

theorem DaemonState.Numbered.step {s s' : DaemonState} {l : DaemonLabel} (h : s.Numbered)
    (hs : daemon.step s l = some s') : s'.Numbered := by
  cases DaemonMove.of_step hs with
  | popped _ hpop =>
    have hsub := sublist_of_popQueue hpop
    exact ⟨h.increasing.sublist hsub, fun e he => h.le_sequence e (hsub.subset he)⟩
  | @ran i now answer task prim pc _ _ _ =>
    obtain ⟨hinc, hle⟩ := h.perform task.transferId prim
    exact ⟨hinc, hle⟩
  | _ => exact ⟨h.increasing, h.le_sequence⟩

/-- The queue that is rebuilt on start-up is numbered from one. -/
theorem seq_rebuildQueue (hashLe : Uuid → Uuid → Bool) (records : Records) {i : Nat}
    (hi : i < (rebuildQueue hashLe records).length) :
    (rebuildQueue hashLe records)[i].seq = i + 1 := by
  unfold rebuildQueue at hi ⊢
  rw [List.getElem_map, List.getElem_zipIdx]
  exact congrArg (· + 1) (Nat.zero_add i)

theorem numbered_boot (maxConcurrent : Nat) (hashLe : Uuid → Uuid → Bool) (files : Files) :
    (boot maxConcurrent hashLe files).Numbered where
  increasing := by
    show (rebuildQueue hashLe (loadRecords files)).Pairwise fun e e' => e.seq < e'.seq
    refine List.pairwise_iff_getElem.mpr fun i j hi hj hij => ?_
    rw [seq_rebuildQueue hashLe _ hi, seq_rebuildQueue hashLe _ hj]
    omega
  le_sequence := by
    show ∀ e ∈ rebuildQueue hashLe (loadRecords files),
      e.seq ≤ (rebuildQueue hashLe (loadRecords files)).length
    intro e he
    obtain ⟨i, hi, rfl⟩ := List.mem_iff_getElem.mp he
    rw [seq_rebuildQueue hashLe _ hi]
    exact hi

/-! ## Who is next -/

/-- The entries with the smallest priority number, in the order in which they were pushed. -/
def frontRunners (queue : List QueueEntry) : List QueueEntry :=
  queue.filter fun e => queue.all fun e' => decide (e.priority ≤ e'.priority)

theorem mem_frontRunners {queue : List QueueEntry} {e : QueueEntry} :
    e ∈ frontRunners queue ↔ e ∈ queue ∧ ∀ e' ∈ queue, e.priority ≤ e'.priority := by
  simp only [frontRunners, List.mem_filter, List.all_eq_true, decide_eq_true_iff]

section Pop

variable {s : DaemonState} {e : QueueEntry} {rest : List QueueEntry}

theorem mem_frontRunners_of_popQueue (hpop : popQueue s.queue = some (e, rest)) :
    e ∈ frontRunners s.queue := by
  refine mem_frontRunners.mpr ⟨(popQueue_perm hpop).mem_iff.mpr List.mem_cons_self, ?_⟩
  intro e' he'
  have hle := le_of_popQueue hpop he'
  simp only [QueueEntry.le, decide_eq_true_iff] at hle
  omega

/-- Of the entries with the smallest priority number, `pop` takes the one pushed last. -/
theorem getLast?_frontRunners (h : s.Numbered) (hpop : popQueue s.queue = some (e, rest)) :
    (frontRunners s.queue).getLast? = some e := by
  have hmem := mem_frontRunners_of_popQueue hpop
  obtain ⟨before, after, hsplit⟩ := List.append_of_mem hmem
  have hinc : (frontRunners s.queue).Pairwise fun e e' => e.seq < e'.seq :=
    h.increasing.sublist List.filter_sublist
  -- an entry behind it would be larger
  have hnil : after = [] := by
    cases after with
    | nil => rfl
    | cons e' after =>
      have he' : e' ∈ frontRunners s.queue := by
        rw [hsplit]
        simp
      rw [hsplit] at hinc
      have hlt : e.seq < e'.seq :=
        (List.pairwise_cons.mp (List.pairwise_append.mp hinc).2.1).1 e' List.mem_cons_self
      obtain ⟨he'q, hmin'⟩ := mem_frontRunners.mp he'
      have hprio := hmin' e (mem_frontRunners.mp hmem).1
      have hle := le_of_popQueue hpop he'q
      simp only [QueueEntry.le, decide_eq_true_iff] at hle
      omega
  rw [hsplit, hnil, List.getLast?_append_cons]
  rfl

/-- The one pushed last is the one pushed first only if there is no other. -/
theorem head?_frontRunners_iff (h : s.Numbered) (hpop : popQueue s.queue = some (e, rest)) :
    (frontRunners s.queue).head? = some e ↔ (frontRunners s.queue).length = 1 := by
  have hlast := getLast?_frontRunners h hpop
  have hinc : (frontRunners s.queue).Pairwise fun e e' => e.seq < e'.seq :=
    h.increasing.sublist List.filter_sublist
  cases hfront : frontRunners s.queue with
  | nil =>
    rw [hfront] at hlast
    cases hlast
  | cons first others =>
    rw [hfront] at hlast hinc
    cases others with
    | nil => simpa [eq_comm] using hlast
    | cons second others =>
      refine ⟨fun hhead => ?_, nofun⟩
      obtain rfl := Option.some.inj hhead
      rw [List.getLast?_cons_cons] at hlast
      have hlt := (List.pairwise_cons.mp hinc).1 first (List.mem_of_getLast? hlast)
      omega

end Pop

/--
**The order of the queue.** Whenever the scheduler pops an entry, it has the smallest priority
number. It is the one of them that was pushed last, and therefore the one that was pushed first
exactly if it is the only one.
-/
theorem pop_fifo_iff {maxConcurrent : Nat} {hashLe : Uuid → Uuid → Bool} {files : Files}
    {s s' : DaemonState} {e : QueueEntry}
    (hrun : daemon.Reach (fun _ _ => True) (boot maxConcurrent hashLe files) s)
    (hpop : daemon.step s .pop = some s') (he : s'.scheduler = .popped e) :
    (∀ e' ∈ s.queue, e.priority ≤ e'.priority) ∧
    (frontRunners s.queue).getLast? = some e ∧
    ((frontRunners s.queue).head? = some e ↔ (frontRunners s.queue).length = 1) := by
  have hnum : s.Numbered :=
    hrun.invariant (numbered_boot maxConcurrent hashLe files) fun h _ hs => h.step hs
  have hmove : DaemonMove s .pop s' := DaemonMove.of_step hpop
  cases hmove with
  | empty hs _ =>
    rw [hs] at he
    cases he
  | popped _ hqueue =>
    cases he
    exact ⟨(mem_frontRunners.mp (mem_frontRunners_of_popQueue hqueue)).2,
      getLast?_frontRunners hnum hqueue, head?_frontRunners_iff hnum hqueue⟩
  | request h => cases h

/-- Two transfers with these priorities are submitted, one after the other. -/
def sampleQueue (first second : Nat) : List DaemonLabel :=
  .submit 1 ⟨"file://a", "b", first⟩ 0 :: sampleRun 0 5 ++
    .submit 2 ⟨"file://a", "b", second⟩ 0 :: sampleRun 1 5

/-- The transfer with the smaller priority number goes first. -/
theorem sample_pop_fifo :
    ∃ s s', daemon.exec sampleBoot (sampleQueue 5 3) = some s ∧
      daemon.step s .pop = some s' ∧ s'.scheduler = .popped ⟨3, 2, 2⟩ ∧
      (frontRunners s.queue).head? = some ⟨3, 2, 2⟩ := by
  refine ⟨_, _, rfl, rfl, rfl, ?_⟩
  have hrun : daemon.exec sampleBoot (sampleQueue 5 3) = some _ := rfl
  exact (pop_fifo_iff (Lts.Reach.of_exec hrun) rfl rfl).2.2.mpr (by decide +kernel)

/-- Of two transfers of one priority the one that was submitted last is started first. -/
theorem sample_pop_lifo :
    (daemon.exec sampleBoot (sampleQueue 5 5)).map (fun s => frontRunners s.queue) =
      some [⟨5, 1, 1⟩, ⟨5, 2, 2⟩] ∧
    (daemon.exec sampleBoot (sampleQueue 5 5 ++ [.pop])).map (fun s => s.scheduler) =
      some (.popped ⟨5, 2, 2⟩) := by
  decide +kernel

end ScTransport
