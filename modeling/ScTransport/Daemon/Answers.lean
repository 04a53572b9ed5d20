import ScTransport.Daemon.Api
import ScTransport.Daemon.Evolution

/-!
# What the daemon answers

A record is never removed, and no step changes what its submission fixed. So the interface agrees
with itself: what was accepted is found again, and the ways to look at the records agree.

* `accepted_read_back` — what was accepted is found again by every later request
* `listing_of_reach` — the listing, the single records and the counters agree
-/

namespace ScTransport

open Infra

/-! ## The listing -/

section Listing

variable {records : Records} {hashLe hashLe' : Uuid → Uuid → Bool}

theorem mem_recordValues {rec : TransferRecord} :
    rec ∈ recordValues hashLe records ↔ ∃ t, records.lookup t = some rec := by
  unfold recordValues
  rw [List.mem_filterMap]
  constructor
  · rintro ⟨t, -, ht⟩
    exact ⟨t, ht⟩
  · rintro ⟨t, ht⟩
    refine ⟨t, ?_, ht⟩
    rw [List.mem_insertionSort, ← AList.mem_keys, ← AList.lookup_isSome, ht]
    rfl

/-- The order of the hash map does not matter for what there is. -/
theorem recordValues_perm :
    (recordValues hashLe records).Perm (recordValues hashLe' records) :=
  ((List.perm_insertionSort _ _).trans (List.perm_insertionSort _ _).symm).filterMap _

theorem KeyedById.recordValues_ne (hkeys : KeyedById records) (hashLe : Uuid → Uuid → Bool) :
    (recordValues hashLe records).Pairwise fun a b => a.transferId ≠ b.transferId := by
  have hsorted : (records.keys.insertionSort fun a b => hashLe a b).Nodup :=
    (List.perm_insertionSort _ _).nodup_iff.mpr records.keys_nodup
  refine List.Pairwise.filterMap _ (fun a b hab ra ha rb hb => ?_) hsorted
  rwa [hkeys a ra ha, hkeys b rb hb]

/-- Records with different ids, sorted by them. -/
def SortedById (rows : List TransferRecord) : Prop :=
  rows.Pairwise fun a b => a.transferId < b.transferId

theorem sortedById_insertionSort {rows : List TransferRecord}
    (h : rows.Pairwise fun a b => a.transferId ≠ b.transferId) :
    SortedById (rows.insertionSort fun a b => a.transferId ≤ b.transferId) := by
  have htotal : Std.Total fun a b : TransferRecord => a.transferId ≤ b.transferId :=
    ⟨fun a b => le_total _ _⟩
  have htrans : IsTrans TransferRecord fun a b => a.transferId ≤ b.transferId :=
    ⟨fun a b c => le_trans⟩
  have hle := List.pairwise_insertionSort
    (fun a b : TransferRecord => a.transferId ≤ b.transferId) rows
  have hne := ((List.perm_insertionSort
    (fun a b : TransferRecord => a.transferId ≤ b.transferId) rows).pairwise_iff
      (fun hab => Ne.symm hab)).mpr h
  exact hle.imp₂ (fun a b hab hnab => lt_of_le_of_ne hab hnab) hne

/-- The same records are sorted in one way only. -/
theorem SortedById.eq_of_perm {rows rows' : List TransferRecord} (h : SortedById rows)
    (h' : SortedById rows') (hperm : rows.Perm rows') : rows = rows' :=
  hperm.eq_of_pairwise (fun _ _ _ _ hab hba => absurd hab (lt_asymm hba)) h h'

/-- The records a query asks for. -/
def ListQuery.selects (query : ListQuery) (rec : TransferRecord) : Bool :=
  query.status.all fun name => eqIgnoreAsciiCase rec.status.debug name

theorem listTransfers_eq (query : ListQuery) :
    listTransfers hashLe records query =
      let rows := ((recordValues hashLe records).filter query.selects).insertionSort
        fun a b => a.transferId ≤ b.transferId
      match query.limit with
      | none => rows
      | some limit => rows.take limit := by
  obtain ⟨status, limit⟩ := query
  have hall : ∀ rows : List TransferRecord,
      rows.filter (ListQuery.selects ⟨none, limit⟩) = rows := fun rows =>
    List.filter_eq_self.mpr fun _ _ => rfl
  cases status with
  | none =>
    rw [hall]
    rfl
  | some name => rfl

theorem KeyedById.sorted_listTransfers (hkeys : KeyedById records) (query : ListQuery) :
    SortedById (listTransfers hashLe records query) := by
  have hsorted := sortedById_insertionSort
    ((hkeys.recordValues_ne hashLe).filter query.selects)
  rw [listTransfers_eq]
  dsimp only
  split
  · exact hsorted
  · exact hsorted.take

theorem KeyedById.listTransfers_congr (hkeys : KeyedById records) (query : ListQuery) :
    listTransfers hashLe records query = listTransfers hashLe' records query := by
  have hrows := (sortedById_insertionSort
    ((hkeys.recordValues_ne hashLe).filter query.selects)).eq_of_perm
      (sortedById_insertionSort
        ((hkeys.recordValues_ne hashLe').filter query.selects))
      ((List.perm_insertionSort _ _).trans
        ((recordValues_perm.filter _).trans (List.perm_insertionSort _ _).symm))
  rw [listTransfers_eq, listTransfers_eq, hrows]

theorem mem_listTransfers {status : Option String} {rec : TransferRecord} :
    rec ∈ listTransfers hashLe records ⟨status, none⟩ ↔
      (∃ t, records.lookup t = some rec) ∧ ListQuery.selects ⟨status, none⟩ rec = true := by
  rw [listTransfers_eq]
  exact (List.mem_insertionSort _).trans (List.mem_filter.trans (and_congr_left' mem_recordValues))

theorem foundOr_eq_record {d : DaemonState} {t : Uuid} {rec : TransferRecord} :
    foundOr d t .record = .record rec ↔ d.records.lookup t = some rec := by
  unfold foundOr
  cases d.records.lookup t <;> simp

/-- Each counter counts the rows of a listing. -/
theorem length_listTransfers {status : TransferStatus} {name : String}
    (h : ∀ st : TransferStatus, eqIgnoreAsciiCase st.debug name = decide (st = status)) :
    (listTransfers hashLe records ⟨some name, none⟩).length =
      statusCount hashLe' records status := by
  have hselects : ListQuery.selects ⟨some name, none⟩ = fun r => decide (r.status = status) :=
    funext fun r => h r.status
  rw [listTransfers_eq]
  show (List.insertionSort _ _).length = _
  rw [List.length_insertionSort, hselects]
  exact (recordValues_perm.filter _).length_eq

end Listing

/-! ## What was accepted -/

/-- The record of a transfer that was submitted by this request. -/
structure TransferRecord.Submitted (t : Uuid) (body : SubmitTransferRequest)
    (rec : TransferRecord) : Prop where
  transferId : rec.transferId = t
  source : rec.source = body.source
  destination : rec.destination = body.destination
  priority : 1 ≤ rec.priority ∧ rec.priority ≤ 10

/-- How a later request finds the transfer. -/
structure Recalls (t : Uuid) (body : SubmitTransferRequest) (e : HttpRequest × ApiResponse) :
    Prop where
  get : e.1.endpoint = .getTransfer (some t) →
    e.2 = .unauthorized ∨ ∃ rec, e.2 = .record rec ∧ rec.Submitted t body
  list : e.1.endpoint = .listTransfers (some ⟨none, none⟩) →
    e.2 = .unauthorized ∨ ∃ rows, e.2 = .rows rows ∧ ∃ rec ∈ rows, rec.Submitted t body
  known : e.1.endpoint.target = some t → e.2 ≠ .notFound
  fresh : ∀ status, e.2 ≠ .accepted t status

theorem TransferRecord.Submitted.evolves {t : Uuid} {body : SubmitTransferRequest}
    {rec rec' : TransferRecord} (h : rec.Submitted t body) (hevolves : rec.Evolves rec') :
    rec'.Submitted t body where
  transferId := hevolves.transferId.trans h.transferId
  source := hevolves.source.trans h.source
  destination := hevolves.destination.trans h.destination
  priority := by
    rcases hevolves.priority with heq | hmem
    · rw [heq]
      exact h.priority
    · exact hmem

/-- A transfer that is recorded is found by the next request. -/
theorem Served.recalls {cfg : ApiConfig} {d d' : DaemonState} {call : ApiCall}
    {endpoint : Endpoint} {answer : ApiResponse} (h : Served cfg d call endpoint answer d')
    {t : Uuid} {body : SubmitTransferRequest} {rec : TransferRecord}
    (ht : d.records.lookup t = some rec) (hrec : rec.Submitted t body)
    (authorization : List Bytes) : Recalls t body (⟨authorization, endpoint⟩, answer) where
  get heq := by
    cases heq
    cases h with
    | rejected hno => cases hno
    | unknown htarget hnone =>
      cases htarget
      cases ht.symm.trans hnone
    | read hfound =>
      cases ht.symm.trans hfound
      exact Or.inr ⟨rec, rfl, hrec⟩
  list heq := by
    cases heq
    cases h with
    | rejected hno => cases hno
    | unknown htarget hnone => cases htarget
    | listed => exact Or.inr ⟨_, rfl, rec, mem_listTransfers.mpr ⟨⟨t, ht⟩, rfl⟩, hrec⟩
  known htarget := by
    rintro rfl
    cases h with
    | @unknown _ t' htarget' hnone =>
      cases htarget.symm.trans htarget'
      cases ht.symm.trans hnone
  fresh status := by
    rintro rfl
    cases h with
    | submitted hstep =>
      cases DaemonMove.of_step hstep with
      | request hreq =>
        cases hreq with
        | submit hnone hreq => cases ht.symm.trans hnone

/-- Every accepted transfer is recorded, and every later answer has found it. -/
structure Api.Recorded (s : Api) : Prop where
  kept : ∀ e ∈ s.log, ∀ body t status, e.1.endpoint = .submitTransfer (some body) →
    e.2 = .accepted t status → ∃ rec, s.daemon.records.lookup t = some rec ∧ rec.Submitted t body
  recalled : s.log.Pairwise fun e e' => ∀ body t status,
    e.1.endpoint = .submitTransfer (some body) → e.2 = .accepted t status → Recalls t body e'

theorem Api.Recorded.daemonStep {s : Api} (h : s.Recorded) {l : DaemonLabel} {d : DaemonState}
    (hstep : ScTransport.daemonStep s.daemon l = some d) : { s with daemon := d }.Recorded := by
  refine ⟨fun e he body t status hep hans => ?_, h.recalled⟩
  obtain ⟨rec, ht, hrec⟩ := h.kept e he body t status hep hans
  obtain ⟨rec', ht', hevolves⟩ := evolves_of_step hstep ht
  exact ⟨rec', ht', hrec.evolves hevolves⟩

/-- A handler that accepts a transfer leaves its record behind. -/
theorem Served.accepted {cfg : ApiConfig} {d d' : DaemonState} {call : ApiCall}
    {body : SubmitTransferRequest} {t : Uuid} {status : TransferStatus}
    (h : Served cfg d call (.submitTransfer (some body)) (.accepted t status) d') :
    ∃ rec, d'.records.lookup t = some rec ∧ rec.Submitted t body := by
  cases h with
  | submitted hstep =>
    cases DaemonMove.of_step hstep with
    | request hreq =>
      cases hreq with
      | submit hnone hreq =>
        subst hreq
        exact ⟨_, AList.lookup_insert _, rfl, rfl, rfl, clampPriority_mem _⟩

theorem Api.Recorded.step {cfg : ApiConfig} {s s' : Api} {l : ApiLabel} (h : s.Recorded)
    (hstep : (api cfg).step s l = some s') : s'.Recorded := by
  cases ApiMove.of_step hstep with
  | other hd => exact h.daemonStep hd
  | @refused req call hok =>
    refine ⟨fun e he body t status hep hans => ?_, List.pairwise_append.mpr
      ⟨h.recalled, List.pairwise_singleton .., fun e he e' he' => ?_⟩⟩
    · rcases List.mem_append.mp he with he | he
      · exact h.kept e he body t status hep hans
      · rw [List.mem_singleton.mp he] at hans
        cases hans
    · rw [List.mem_singleton.mp he']
      exact fun body t status hep hans =>
        ⟨fun _ => Or.inl rfl, fun _ => Or.inl rfl, fun _ => nofun, fun _ => nofun⟩
  | @served req call answer d hok hserved =>
    have hold : { s with daemon := d }.Recorded := by
      rcases hserved.step with heq | ⟨l, hl⟩
      · rw [heq]
        exact h
      · exact h.daemonStep hl
    obtain ⟨authorization, endpoint⟩ := req
    refine ⟨fun e he body t status hep hans => ?_, List.pairwise_append.mpr
      ⟨h.recalled, List.pairwise_singleton .., fun e he e' he' => ?_⟩⟩
    · rcases List.mem_append.mp he with he | he
      · exact hold.kept e he body t status hep hans
      · rw [List.mem_singleton.mp he] at hep hans
        cases hep
        cases hans
        exact hserved.accepted
    · rw [List.mem_singleton.mp he']
      intro body t status hep hans
      obtain ⟨rec, ht, hrec⟩ := h.kept e he body t status hep hans
      exact hserved.recalls ht hrec authorization

/--
**What was accepted is found again.** Once a submission has been accepted, every later request that
passes the token finds the transfer, with the source and the destination that were submitted and a
priority between 1 and 10: `get_transfer` returns it, the listing without a filter contains it,
`cancel_transfer` and `update_priority` do not answer that there is none, and its id is given to no
other submission. This holds however the handlers, the scheduler and the workers interleave.
-/
theorem accepted_read_back {cfg : ApiConfig} {d : DaemonState} {s : Api}
    (h : (api cfg).Reach (fun _ _ => True) ⟨d, []⟩ s) :
    s.log.Pairwise fun e e' => ∀ body t status,
      e.1.endpoint = .submitTransfer (some body) → e.2 = .accepted t status →
        Recalls t body e' := by
  have hstart : Api.Recorded ⟨d, []⟩ := ⟨fun e he => absurd he List.not_mem_nil, .nil⟩
  exact (h.invariant hstart fun hs _ hstep => hs.step hstep).recalled

def sampleBody : SubmitTransferRequest := ⟨"file://a", "b", 50⟩

/-- A transfer is submitted, its worker starts, and it is read. -/
def sampleReadBack : List ApiLabel :=
  .request ⟨sampleBearer, .submitTransfer (some sampleBody)⟩ (sampleCall 1) ::
    ((sampleRun 0 5 ++ sampleSchedule ++ sampleRun 1 2).map .other ++
      [.request ⟨sampleBearer, .getTransfer (some 1)⟩ (sampleCall 2)])

def sampleBegun : TransferRecord :=
  .start 0 (.ofRequest 1 { sampleBody with priority := 10 } 0)

theorem sampleReadBack_exec :
    ((api sampleApi).exec ⟨sampleBoot, []⟩ sampleReadBack).map Api.log =
      some [(⟨sampleBearer, .submitTransfer (some sampleBody)⟩, .accepted 1 .queued),
        (⟨sampleBearer, .getTransfer (some 1)⟩, .record sampleBegun)] := by
  decide +kernel

theorem sample_read_back :
    ∃ s, (api sampleApi).exec ⟨sampleBoot, []⟩ sampleReadBack = some s ∧
      Recalls 1 sampleBody (⟨sampleBearer, .getTransfer (some 1)⟩, .record sampleBegun) := by
  obtain ⟨s, hs, hlog⟩ := Option.map_eq_some_iff.mp sampleReadBack_exec
  have hpairs := accepted_read_back (.of_exec hs)
  rw [hlog] at hpairs
  exact ⟨s, hs, (List.pairwise_cons.mp hpairs).1 _ List.mem_cons_self _ _ _ rfl rfl⟩

/-! ## Three views of the records -/

/--
**The views of the records agree.** Whatever the daemon has done since it started, a listing is
sorted by id and does not depend on the order of the hash map; without a limit it has just the
records that `get_transfer` returns and whose status has the name asked for, in upper or lower case;
and the counters of `metrics` and `health` are the lengths of two of these listings.
-/
theorem listing_of_reach {cfg : ApiConfig} {maxConcurrent : Nat} {hashLe₀ : Uuid → Uuid → Bool}
    {files : Files} {s : Api}
    (h : (api cfg).Reach (fun _ _ => True) ⟨boot maxConcurrent hashLe₀ files, []⟩ s)
    (hashLe hashLe' : Uuid → Uuid → Bool) (query : ListQuery) :
    (listTransfers hashLe s.daemon.records query).Pairwise
        (fun a b => a.transferId < b.transferId) ∧
      listTransfers hashLe s.daemon.records query =
        listTransfers hashLe' s.daemon.records query ∧
      (query.limit = none → ∀ rec, rec ∈ listTransfers hashLe s.daemon.records query ↔
        foundOr s.daemon rec.transferId .record = .record rec ∧
          ∀ name ∈ query.status, eqIgnoreAsciiCase rec.status.debug name = true) ∧
      statusCount hashLe s.daemon.records .active =
        (listTransfers hashLe' s.daemon.records ⟨some "active", none⟩).length ∧
      statusCount hashLe s.daemon.records .queued =
        (listTransfers hashLe' s.daemon.records ⟨some "queued", none⟩).length := by
  have hkeys : KeyedById s.daemon.records :=
    (keyedById_loadRecords files).run (Api.reach_daemon h)
  refine ⟨hkeys.sorted_listTransfers query, hkeys.listTransfers_congr query, ?_, ?_, ?_⟩
  · intro hlimit rec
    obtain ⟨status, limit⟩ := query
    cases hlimit
    rw [mem_listTransfers, foundOr_eq_record]
    refine and_congr ⟨fun ⟨t, ht⟩ => ?_, fun ht => ⟨_, ht⟩⟩ ?_
    · rw [hkeys t rec ht]
      exact ht
    · cases status <;> simp [ListQuery.selects]
  · exact (length_listTransfers fun st => by cases st <;> decide).symm
  · exact (length_listTransfers fun st => by cases st <;> decide).symm

theorem sample_listing :
    ∃ s, (api sampleApi).exec ⟨sampleBoot, []⟩ sampleReadBack = some s ∧
      s.log.length = 2 ∧ statusCount (fun _ _ => false) s.daemon.records .active =
        (listTransfers (fun _ _ => true) s.daemon.records ⟨some "active", none⟩).length := by
  obtain ⟨s, hs, hlog⟩ := Option.map_eq_some_iff.mp sampleReadBack_exec
  obtain ⟨-, -, -, hactive, -⟩ :=
    listing_of_reach (.of_exec hs) (fun _ _ => false) (fun _ _ => true) ⟨none, none⟩
  exact ⟨s, hs, by rw [hlog]; rfl, hactive⟩

end ScTransport
