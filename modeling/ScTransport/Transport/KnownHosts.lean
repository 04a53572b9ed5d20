import ScTransport.Fec.Reference
import ScTransport.Infra.Words
import ScTransport.Infra.Lts
import ScTransport.Infra.Pool
import Mathlib.Data.Char
import Mathlib.Data.List.Lex

/-!
# Trust on first use

`~/.sct/known_hosts` has a line for each host that was ever contacted: its name and the hash of
the certificate it showed then. A call that meets a new host reads the file into a map, adds the
host and writes the whole map back.

* `load_write` — reading undoes writing
* `pins_never_change` — calls made one after the other keep every pin
* `concurrent_pins_kept` — calls made at the same time keep every pin if no write overwrites a
  host that its call has not read

The operations on the file succeed here, and each of them is one step.
-/

namespace ScTransport

open Infra

/-! ## The file -/

/-- `HashMap<String, String>`: host and fingerprint. -/
abbrev HostMap := AList fun _ : List Char => List Char

/-- What a certificate can be issued to: a DNS name or an address. -/
@[ext]
structure HostName where
  chars : List Char
  word : IsWord chars
  deriving DecidableEq

/-- The host and the fingerprint of a line that has exactly two words. -/
def parseHost (line : List Char) : Option (List Char × List Char) :=
  match splitWhitespace line with
  | [host, fingerprint] => some (host, fingerprint)
  | _ => none

/-- `load_known_hosts`; `none` is a file that does not exist. -/
def loadKnownHosts : Option (List Char) → HostMap
  | none => ∅
  | some content => insertAll ∅ ((lines content).filterMap parseHost)

def hostLine (host fingerprint : List Char) : List Char := host ++ ' ' :: fingerprint

/-- The text `write_known_hosts` writes. The lines are sorted, so the order in which the map gives
out its entries does not matter. -/
def writeKnownHosts (hosts : HostMap) : List Char :=
  unlines ((hosts.entries.map fun e => hostLine e.1 e.2).insertionSort (· ≤ ·))

inductive KnownHostError where
  | mismatch (host : HostName)

def KnownHostError.text : KnownHostError → List Char
  | .mismatch host => "host key mismatch for ".toList ++ host.chars

/-- What the crate `blake3` makes of a certificate: a hash, and its text by `to_hex`. The text is a
word, and different hashes have different texts. -/
structure CertHash where
  blake3 : Bytes → Digest
  toHex : Digest → List Char
  isWord_toHex : ∀ d, IsWord (toHex d)
  toHex_injective : Function.Injective toHex

section Enforce

variable (H : CertHash)

def fingerprint (cert : Bytes) : List Char := H.toHex (H.blake3 cert)

/-- `enforce_or_persist_known_host`, with the file it leaves. -/
def enforceOrPersistKnownHost (file : Option (List Char)) (host : HostName) (cert : Bytes) :
    Except KnownHostError Unit × Option (List Char) :=
  let hosts := loadKnownHosts file
  match hosts.lookup host.chars with
  | some existing =>
    if existing ≠ fingerprint H cert then (.error (.mismatch host), file) else (.ok (), file)
  | none => (.ok (), some (writeKnownHosts (hosts.insert host.chars (fingerprint H cert))))

end Enforce

/-! ## Reading undoes writing -/

/-- Every host and every fingerprint is a word. -/
def HostMap.Words (hosts : HostMap) : Prop := ∀ e ∈ hosts.entries, IsWord e.1 ∧ IsWord e.2

theorem parseHost_hostLine {host fp : List Char} (h₁ : IsWord host) (h₂ : IsWord fp) :
    parseHost (hostLine host fp) = some (host, fp) := by
  unfold parseHost hostLine
  rw [splitWhitespace_pair h₁ h₂]

theorem hostLine_isLine {host fp : List Char} (h₁ : IsWord host) (h₂ : IsWord fp) :
    IsLine (hostLine host fp) := by
  have hmem : ∀ c ∈ hostLine host fp, c = ' ' ∨ isWhitespace c = false := by
    intro c hc
    rcases List.mem_append.mp hc with hc | hc
    · exact Or.inr (h₁.no_space c hc)
    · rcases List.mem_cons.mp hc with rfl | hc
      · exact Or.inl rfl
      · exact Or.inr (h₂.no_space c hc)
  refine ⟨by simp [hostLine], fun hc => ?_, fun hc => ?_⟩
  · rcases hmem _ hc with h | h
    · revert h; decide
    · revert h; decide
  · rcases hmem _ hc with h | h
    · revert h; decide
    · revert h; decide

/-- The lines of a written file, in some order. -/
theorem pairs_writeKnownHosts {hosts : HostMap} (hw : hosts.Words) :
    ((lines (writeKnownHosts hosts)).filterMap parseHost).Perm
      (hosts.entries.map fun e => (e.1, e.2)) := by
  have hperm := List.perm_insertionSort (· ≤ ·) (hosts.entries.map fun e => hostLine e.1 e.2)
  have hparse : (hosts.entries.map fun e => hostLine e.1 e.2).filterMap parseHost
      = hosts.entries.map fun e => (e.1, e.2) := by
    rw [List.filterMap_map, ← List.filterMap_eq_map]
    refine List.filterMap_congr fun e he => ?_
    exact parseHost_hostLine (hw e he).1 (hw e he).2
  by_cases hnil : hosts.entries = []
  · rw [writeKnownHosts, hnil]
    exact List.Perm.refl _
  · have hlines : lines (writeKnownHosts hosts)
        = (hosts.entries.map fun e => hostLine e.1 e.2).insertionSort (· ≤ ·) := by
      refine lines_unlines (fun h => hnil ?_) fun l hl => ?_
      · have hlen := hperm.length_eq
        rw [h, List.length_map] at hlen
        exact List.length_eq_zero_iff.mp hlen.symm
      · obtain ⟨e, he, rfl⟩ := List.mem_map.mp (hperm.mem_iff.mp hl)
        exact hostLine_isLine (hw e he).1 (hw e he).2
    rw [hlines, ← hparse]
    exact hperm.filterMap parseHost

/-- **Reading undoes writing.** -/
theorem load_write {hosts : HostMap} (hw : hosts.Words) (host : List Char) :
    (loadKnownHosts (some (writeKnownHosts hosts))).lookup host = hosts.lookup host := by
  have hperm := pairs_writeKnownHosts hw
  have hkeys : (((lines (writeKnownHosts hosts)).filterMap parseHost).map Prod.fst).Perm
      hosts.keys := by
    refine (hperm.map Prod.fst).trans (List.Perm.of_eq ?_)
    rw [List.map_map]
    rfl
  unfold loadKnownHosts
  cases hl : hosts.lookup host with
  | none =>
    rw [lookup_insertAll_of_notMem]
    · rfl
    · rw [hkeys.mem_iff]
      exact AList.lookup_eq_none.mp hl
  | some fp =>
    refine lookup_insertAll (hkeys.nodup_iff.mpr hosts.keys_nodup) ?_ ∅
    rw [hperm.mem_iff]
    exact List.mem_map.mpr ⟨⟨host, fp⟩, AList.mem_lookup_iff.mp hl, rfl⟩

theorem HostMap.Words.insert {hosts : HostMap} (hw : hosts.Words) {host fp : List Char}
    (hhost : IsWord host) (hfp : IsWord fp) : HostMap.Words (AList.insert host fp hosts) := by
  intro e he
  rw [AList.entries_insert] at he
  rcases List.mem_cons.mp he with rfl | he
  · exact ⟨hhost, hfp⟩
  · exact hw e ((List.kerase_sublist _ _).subset he)

/-- Whatever the file, what is read from it are words. -/
theorem loadKnownHosts_words (file : Option (List Char)) : (loadKnownHosts file).Words := by
  have hparse : ∀ {line : List Char} {p : List Char × List Char}, parseHost line = some p →
      IsWord p.1 ∧ IsWord p.2 := by
    intro line p h
    unfold parseHost at h
    split at h
    · next hsplit =>
      cases h
      exact ⟨isWord_of_mem_splitWhitespace (hsplit ▸ List.mem_cons_self),
        isWord_of_mem_splitWhitespace (hsplit ▸ List.mem_cons_of_mem _ List.mem_cons_self)⟩
    · cases h
  have hall : ∀ (pairs : List (List Char × List Char)) (hosts : HostMap), hosts.Words →
      (∀ p ∈ pairs, IsWord p.1 ∧ IsWord p.2) → HostMap.Words (insertAll hosts pairs) := by
    intro pairs
    induction pairs with
    | nil => exact fun hosts hw _ => hw
    | cons p rest ih =>
      intro hosts hw hp
      obtain ⟨h₁, h₂⟩ := hp p List.mem_cons_self
      exact ih _ (hw.insert h₁ h₂) fun q hq => hp q (List.mem_cons_of_mem _ hq)
  have hempty : HostMap.Words ∅ := fun e he => absurd he List.not_mem_nil
  cases file with
  | none => exact hempty
  | some content =>
    refine hall _ _ hempty fun p hp => ?_
    obtain ⟨line, -, hline⟩ := List.mem_filterMap.mp hp
    exact hparse hline

/-! ## One call after the other -/

/-- A call of `enforce_or_persist_known_host`. -/
structure Contact where
  host : HostName
  cert : Bytes
deriving DecidableEq

section Calls

variable (H : CertHash)

/-- The file after some calls. -/
def knownHostsAfter (file : Option (List Char)) (contacts : List Contact) : Option (List Char) :=
  contacts.foldl (fun file c => (enforceOrPersistKnownHost H file c.host c.cert).2) file

/-- The calls that return `Ok`. -/
def accepted : Option (List Char) → List Contact → List Contact
  | _, [] => []
  | file, c :: rest =>
    match enforceOrPersistKnownHost H file c.host c.cert with
    | (.ok _, file) => c :: accepted file rest
    | (.error _, file) => accepted file rest

/-- The fingerprint of the first of these calls to a host. -/
def firstFingerprint (contacts : List Contact) (host : List Char) : Option (List Char) :=
  (contacts.find? fun c => c.host.chars = host).map fun c => fingerprint H c.cert

variable {H} {file : Option (List Char)}

theorem fingerprint_isWord (H : CertHash) (cert : Bytes) : IsWord (fingerprint H cert) :=
  H.isWord_toHex _

/-- A call to a host that is listed leaves the file alone. -/
theorem enforce_of_listed {host : HostName} {existing : List Char}
    (h : (loadKnownHosts file).lookup host.chars = some existing) (cert : Bytes) :
    (enforceOrPersistKnownHost H file host cert).2 = file ∧
      ((enforceOrPersistKnownHost H file host cert).1 = .ok () ↔
        existing = fingerprint H cert) := by
  unfold enforceOrPersistKnownHost
  simp only [h]
  split
  · next hne => exact ⟨rfl, nofun, fun heq => absurd heq hne⟩
  · next heq => exact ⟨rfl, fun _ => not_not.mp heq, fun _ => rfl⟩

/-- A call to a new host is accepted and lists it. -/
theorem enforce_of_new {host : HostName} (h : (loadKnownHosts file).lookup host.chars = none)
    (cert : Bytes) :
    (enforceOrPersistKnownHost H file host cert).1 = .ok () ∧
      ∀ h', (loadKnownHosts (enforceOrPersistKnownHost H file host cert).2).lookup h' =
        if h' = host.chars then some (fingerprint H cert)
        else (loadKnownHosts file).lookup h' := by
  unfold enforceOrPersistKnownHost
  simp only [h]
  refine ⟨trivial, fun h' => ?_⟩
  rw [load_write ((loadKnownHosts_words file).insert host.word (fingerprint_isWord H cert))]
  split
  · next heq => rw [heq, AList.lookup_insert]
  · next hne => rw [AList.lookup_insert_ne hne]

theorem accepted_concat (contacts : List Contact) (c : Contact) :
    ∀ file, accepted H file (contacts ++ [c]) = accepted H file contacts ++
      match (enforceOrPersistKnownHost H (knownHostsAfter H file contacts)
        c.host c.cert).1 with
      | .ok _ => [c]
      | .error _ => [] := by
  induction contacts with
  | nil =>
    intro file
    simp only [List.nil_append, accepted, knownHostsAfter, List.foldl_nil]
    split
    · next h => rw [h]
    · next h => rw [h]
  | cons c' rest ih =>
    intro file
    simp only [List.cons_append, accepted, knownHostsAfter, List.foldl_cons]
    split
    · next h =>
      rw [h, ih]
      rfl
    · next h =>
      rw [h, ih]
      rfl

theorem knownHostsAfter_concat (contacts : List Contact) (c : Contact) :
    knownHostsAfter H file (contacts ++ [c]) = (enforceOrPersistKnownHost H
      (knownHostsAfter H file contacts) c.host c.cert).2 := by
  unfold knownHostsAfter
  rw [List.foldl_append]
  rfl

theorem firstFingerprint_concat (contacts : List Contact) (c : Contact) (h : List Char) :
    firstFingerprint H (contacts ++ [c]) h = (firstFingerprint H contacts h).or
      (if h = c.host.chars then some (fingerprint H c.cert) else none) := by
  unfold firstFingerprint
  rw [List.find?_append]
  cases contacts.find? fun c => c.host.chars = h with
  | some first => rfl
  | none =>
    by_cases hc : h = c.host.chars
    · simp [hc]
    · simp [hc, Ne.symm hc]

/-- **The file lists the first fingerprint of every accepted host**, and no other host. -/
theorem lookup_knownHostsAfter (H : CertHash) (contacts : List Contact) (h : List Char) :
    (loadKnownHosts (knownHostsAfter H none contacts)).lookup h =
      firstFingerprint H (accepted H none contacts) h := by
  induction contacts using List.reverseRecOn generalizing h with
  | nil => rfl
  | append_singleton contacts c ih =>
    rw [knownHostsAfter_concat, accepted_concat]
    cases hl : (loadKnownHosts (knownHostsAfter H none contacts)).lookup c.host.chars with
    | some existing =>
      rw [(enforce_of_listed hl c.cert).1, ih]
      have hfirst : firstFingerprint H (accepted H none contacts) c.host.chars
          = some existing := (ih _).symm.trans hl
      split
      · rw [firstFingerprint_concat]
        by_cases hh : h = c.host.chars
        · rw [hh, hfirst]
          rfl
        · rw [if_neg hh, Option.or_none]
      · rw [List.append_nil]
    | none =>
      have hfirst : firstFingerprint H (accepted H none contacts) c.host.chars
          = none := (ih _).symm.trans hl
      obtain ⟨hok, hload⟩ := enforce_of_new hl c.cert
      rw [hload, hok]
      dsimp only
      rw [firstFingerprint_concat]
      by_cases hh : h = c.host.chars
      · rw [if_pos hh, if_pos hh, hh, hfirst]
        rfl
      · rw [if_neg hh, if_neg hh, ih, Option.or_none]

/-- The first call to a host is accepted, so a host that was seen has a pin. -/
theorem firstFingerprint_eq_none_iff (H : CertHash) (contacts : List Contact)
    (h : List Char) :
    firstFingerprint H (accepted H none contacts) h = none ↔
      ∀ c ∈ contacts, c.host.chars ≠ h := by
  induction contacts using List.reverseRecOn with
  | nil => simp [firstFingerprint, accepted]
  | append_singleton contacts c ih =>
    rw [← lookup_knownHostsAfter] at ih ⊢
    rw [knownHostsAfter_concat]
    have hmem : (∀ c' ∈ contacts ++ [c], c'.host.chars ≠ h) ↔
        (∀ c' ∈ contacts, c'.host.chars ≠ h) ∧ c.host.chars ≠ h := by
      simp only [List.mem_append, List.mem_singleton, or_imp, forall_and, forall_eq]
    rw [hmem, ← ih]
    cases hl : (loadKnownHosts (knownHostsAfter H none contacts)).lookup c.host.chars with
    | some existing =>
      rw [(enforce_of_listed hl c.cert).1]
      refine ⟨fun hn => ⟨hn, ?_⟩, And.left⟩
      rintro rfl
      rw [hl] at hn
      cases hn
    | none =>
      rw [(enforce_of_new hl c.cert).2]
      by_cases hh : h = c.host.chars
      · simp [hh]
      · simp [hh, Ne.symm hh]

/--
**Pins never change.** From an absent file, calls are made one after the other. The next call is
accepted exactly if its host is new or shows the certificate of its first accepted call, a rejected
call leaves the file alone, and the file always lists the first fingerprint of every accepted host.
-/
theorem pins_never_change (H : CertHash) (contacts : List Contact) (c : Contact) :
    ((enforceOrPersistKnownHost H (knownHostsAfter H none contacts) c.host c.cert).1
        = .ok () ↔
      (∀ c' ∈ contacts, c'.host ≠ c.host) ∨
        ∃ first, ((accepted H none contacts).find? fun c' => c'.host = c.host) = some first ∧
          H.blake3 c.cert = H.blake3 first.cert) ∧
    ((enforceOrPersistKnownHost H (knownHostsAfter H none contacts) c.host c.cert).1
        ≠ .ok () →
      (enforceOrPersistKnownHost H (knownHostsAfter H none contacts) c.host c.cert).2
        = knownHostsAfter H none contacts) ∧
    (∀ h, (loadKnownHosts (knownHostsAfter H none contacts)).lookup h =
      firstFingerprint H (accepted H none contacts) h) ∧
    ∀ hosts : HostMap, hosts.Words → ∀ h,
      (loadKnownHosts (some (writeKnownHosts hosts))).lookup h = hosts.lookup h := by
  have hlookup := lookup_knownHostsAfter H contacts
  have hhost : ∀ c' : Contact, c'.host = c.host ↔ c'.host.chars = c.host.chars :=
    fun c' => HostName.ext_iff
  refine ⟨?_, ?_, hlookup, fun hosts hw => load_write hw⟩
  · simp only [hhost, ne_eq]
    rw [← firstFingerprint_eq_none_iff H contacts c.host.chars]
    unfold firstFingerprint at hlookup ⊢
    cases hfind : (accepted H none contacts).find? fun c' => c'.host.chars = c.host.chars with
    | none =>
      have hnew : (loadKnownHosts (knownHostsAfter H none contacts)).lookup c.host.chars
          = none := by rw [hlookup, hfind, Option.map_none]
      simp [(enforce_of_new hnew c.cert).1]
    | some first =>
      have hlisted : (loadKnownHosts (knownHostsAfter H none contacts)).lookup c.host.chars
          = some (fingerprint H first.cert) := by rw [hlookup, hfind, Option.map_some]
      rw [(enforce_of_listed hlisted c.cert).2]
      simp [fingerprint, H.toHex_injective.eq_iff, eq_comm]
  · intro hrejected
    cases hl : (loadKnownHosts (knownHostsAfter H none contacts)).lookup c.host.chars with
    | some existing => exact (enforce_of_listed hl c.cert).1
    | none => exact absurd (enforce_of_new hl c.cert).1 hrejected

end Calls

/-! ## Calls at the same time -/

/-- A call has not read the file yet, is about to write these hosts, or is over. -/
inductive ContactPc where
  | started
  | writing (hosts : HostMap)
  | returned (ok : Bool)
deriving DecidableEq

structure ContactTask extends Contact where
  pc : ContactPc
deriving DecidableEq

/-- Calls are named by the order in which they were made. -/
structure ContactState where
  file : Option (List Char)
  tasks : List ContactTask

inductive ContactLabel where
  | call (c : Contact)
  | read (i : Nat)
  | write (i : Nat)

section Concurrent

variable (H : CertHash)

/-- Where a call goes from its read. -/
def Contact.afterRead (c : Contact) (file : Option (List Char)) : ContactPc :=
  let hosts := loadKnownHosts file
  match hosts.lookup c.host.chars with
  | some existing => .returned (decide (existing = fingerprint H c.cert))
  | none => .writing (hosts.insert c.host.chars (fingerprint H c.cert))

def contactStep (s : ContactState) : ContactLabel → Option ContactState
  | .call c => some { s with tasks := s.tasks ++ [⟨c, .started⟩] }
  | .read i =>
    match s.tasks[i]? with
    | some ⟨c, .started⟩ =>
      some { s with tasks := s.tasks.set i ⟨c, c.afterRead H s.file⟩ }
    | _ => none
  | .write i =>
    match s.tasks[i]? with
    | some ⟨c, .writing hosts⟩ =>
      some ⟨some (writeKnownHosts hosts), s.tasks.set i ⟨c, .returned true⟩⟩
    | _ => none

def contactSystem : Lts ContactState ContactLabel := ⟨contactStep H⟩

/-- The call stands between its read and its write. -/
def ContactPc.isWriting : ContactPc → Bool
  | .writing _ => true
  | _ => false

/-- A call whose host the file does not list reads it while no call is about to write it. -/
def ContactState.alone (s : ContactState) : ContactLabel → Bool
  | .read i =>
    match s.tasks[i]? with
    | some ⟨c, _⟩ =>
      ((loadKnownHosts s.file).lookup c.host.chars).isSome ||
        s.tasks.all fun t => !t.pc.isWriting
    | none => true
  | _ => true

/-- What a step can do. -/
inductive ContactMove (s : ContactState) : ContactLabel → ContactState → Prop where
  | called (c : Contact) :
      ContactMove s (.call c) { s with tasks := s.tasks ++ [⟨c, .started⟩] }
  | read {i : Nat} {c : Contact} (h : s.tasks[i]? = some ⟨c, .started⟩) :
      ContactMove s (.read i) { s with tasks := s.tasks.set i ⟨c, c.afterRead H s.file⟩ }
  | wrote {i : Nat} {c : Contact} {hosts : HostMap} (h : s.tasks[i]? = some ⟨c, .writing hosts⟩) :
      ContactMove s (.write i)
        ⟨some (writeKnownHosts hosts), s.tasks.set i ⟨c, .returned true⟩⟩

variable {H} {s s' : ContactState} {l : ContactLabel}

theorem Contact.afterRead_of_listed {c : Contact} {file : Option (List Char)}
    {existing : List Char} (h : (loadKnownHosts file).lookup c.host.chars = some existing) :
    c.afterRead H file = .returned (decide (existing = fingerprint H c.cert)) := by
  simp only [afterRead, h]

theorem Contact.afterRead_of_new {c : Contact} {file : Option (List Char)}
    (h : (loadKnownHosts file).lookup c.host.chars = none) :
    c.afterRead H file = .writing
      ((loadKnownHosts file).insert c.host.chars (fingerprint H c.cert)) := by
  simp only [afterRead, h]

theorem ContactMove.of_step (h : (contactSystem H).step s l = some s') :
    ContactMove H s l s' := by
  cases l with
  | call c =>
    cases h
    exact .called c
  | read i =>
    simp only [contactSystem, contactStep] at h
    split at h
    · next hi => cases h; exact .read hi
    · cases h
  | write i =>
    simp only [contactSystem, contactStep] at h
    split at h
    · next hi => cases h; exact .wrote hi
    · cases h

/-- A call that nobody interrupts does what `enforce_or_persist_known_host` does. -/
theorem contact_alone {i : Nat} {c : Contact} (hi : s.tasks[i]? = some ⟨c, .started⟩) :
    ∃ s', (contactSystem H).Reach (fun _ _ => True) s s' ∧
      s'.file = (enforceOrPersistKnownHost H s.file c.host c.cert).2 ∧
      ∃ ok, s'.tasks[i]? = some ⟨c, .returned ok⟩ ∧
        (ok = true ↔ (enforceOrPersistKnownHost H s.file c.host c.cert).1 = .ok ()) := by
  have hlt : i < s.tasks.length := (List.getElem?_eq_some_iff.mp hi).1
  have hread : (contactSystem H).step s (.read i) =
      some { s with tasks := s.tasks.set i ⟨c, c.afterRead H s.file⟩ } := by
    simp only [contactSystem, contactStep, hi]
  cases hl : (loadKnownHosts s.file).lookup c.host.chars with
  | some existing =>
    refine ⟨_, Lts.Reach.refl.step trivial hread, (enforce_of_listed hl c.cert).1.symm,
      decide (existing = fingerprint H c.cert), ?_, ?_⟩
    · rw [List.getElem?_set_self hlt, Contact.afterRead_of_listed hl]
    · rw [(enforce_of_listed hl c.cert).2, decide_eq_true_iff]
  | none =>
    let s₁ : ContactState :=
      { s with tasks := s.tasks.set i ⟨c, c.afterRead H s.file⟩ }
    have hi₁ : s₁.tasks[i]? = some ⟨c, .writing ((loadKnownHosts s.file).insert c.host.chars
        (fingerprint H c.cert))⟩ := by
      rw [List.getElem?_set_self hlt, Contact.afterRead_of_new hl]
    have hwrite : (contactSystem H).step s₁ (.write i) =
        some ⟨some (writeKnownHosts ((loadKnownHosts s.file).insert c.host.chars
          (fingerprint H c.cert))), s₁.tasks.set i ⟨c, .returned true⟩⟩ := by
      simp only [contactSystem, contactStep, hi₁]
    refine ⟨_, (Lts.Reach.refl.step trivial hread).step trivial hwrite, ?_, true, ?_, ?_⟩
    · simp only [enforceOrPersistKnownHost, hl]
    · rw [List.getElem?_set_self (by rw [List.length_set]; exact hlt)]
    · simp only [enforceOrPersistKnownHost, hl]

/--
What the calls have found out is in the file, and the one call that is about to write it adds its
host to what the file lists.
-/
structure ContactState.Pinned (H : CertHash) (s : ContactState) : Prop where
  returned {i : Nat} {c : Contact} (h : s.tasks[i]? = some ⟨c, .returned true⟩) :
    (loadKnownHosts s.file).lookup c.host.chars = some (fingerprint H c.cert)
  writing {i : Nat} {c : Contact} {hosts : HostMap}
    (h : s.tasks[i]? = some ⟨c, .writing hosts⟩) :
    (loadKnownHosts s.file).lookup c.host.chars = none ∧
      hosts = (loadKnownHosts s.file).insert c.host.chars (fingerprint H c.cert)
  single {i j : Nat} {t t' : ContactTask} (hi : s.tasks[i]? = some t)
    (hj : s.tasks[j]? = some t') (ht : t.pc.isWriting) (ht' : t'.pc.isWriting) : i = j

theorem ContactState.pinned_init (file : Option (List Char)) :
    (⟨file, []⟩ : ContactState).Pinned H where
  returned := nofun
  writing := nofun
  single := nofun

/-- A step that sets one call to a state in which it does not write, with the file as it was. -/
theorem ContactState.Pinned.set (h : s.Pinned H) {i : Nat} {c : Contact} {ok : Bool}
    (hok : ok = true →
      (loadKnownHosts s.file).lookup c.host.chars = some (fingerprint H c.cert)) :
    ContactState.Pinned H { s with tasks := s.tasks.set i ⟨c, .returned ok⟩ } where
  returned hj := by
    rcases getElem?_set_cases hj with ⟨-, hj⟩ | ⟨-, hj⟩
    · cases hj
      exact hok rfl
    · exact h.returned hj
  writing hj := by
    rcases getElem?_set_cases hj with ⟨-, hj⟩ | ⟨-, hj⟩
    · cases hj
    · exact h.writing hj
  single hj hk ht ht' := by
    rcases getElem?_set_cases hj with ⟨-, rfl⟩ | ⟨-, hj⟩
    · cases ht
    rcases getElem?_set_cases hk with ⟨-, rfl⟩ | ⟨-, hk⟩
    · cases ht'
    exact h.single hj hk ht ht'

/-- With nobody about to write, a call may go on to its write. -/
theorem ContactState.Pinned.set_writing (h : s.Pinned H) {i : Nat} {c : Contact}
    (hnew : (loadKnownHosts s.file).lookup c.host.chars = none)
    (hnone : ∀ t ∈ s.tasks, ¬ t.pc.isWriting) :
    ContactState.Pinned H { s with tasks := s.tasks.set i ⟨c, .writing
      ((loadKnownHosts s.file).insert c.host.chars (fingerprint H c.cert))⟩ } where
  returned hj := by
    rcases getElem?_set_cases hj with ⟨-, hj⟩ | ⟨-, hj⟩
    · cases hj
    · exact h.returned hj
  writing hj := by
    rcases getElem?_set_cases hj with ⟨-, hj⟩ | ⟨-, hj⟩
    · cases hj
      exact ⟨hnew, rfl⟩
    · exact h.writing hj
  single hj hk ht ht' := by
    rcases getElem?_set_cases hj with ⟨rfl, -⟩ | ⟨-, hj⟩
    · rcases getElem?_set_cases hk with ⟨rfl, -⟩ | ⟨-, hk⟩
      · rfl
      · exact absurd ht' (hnone _ (List.mem_of_getElem? hk))
    · exact absurd ht (hnone _ (List.mem_of_getElem? hj))

theorem ContactState.Pinned.step (h : s.Pinned H) (hok : s.alone l = true)
    (hs : (contactSystem H).step s l = some s') : s'.Pinned H := by
  cases ContactMove.of_step hs with
  | called c =>
    refine ⟨fun hj => ?_, fun hj => ?_, fun hj hk ht ht' => ?_⟩
    · rcases getElem?_concat_cases hj with hj | ⟨-, hj⟩
      · exact h.returned hj
      · cases hj
    · rcases getElem?_concat_cases hj with hj | ⟨-, hj⟩
      · exact h.writing hj
      · cases hj
    · rcases getElem?_concat_cases hj with hj | ⟨-, rfl⟩
      · rcases getElem?_concat_cases hk with hk | ⟨-, rfl⟩
        · exact h.single hj hk ht ht'
        · cases ht'
      · cases ht
  | @read i c hi =>
    cases hl : (loadKnownHosts s.file).lookup c.host.chars with
    | some existing =>
      rw [Contact.afterRead_of_listed hl]
      refine h.set fun hsame => ?_
      rw [hl, of_decide_eq_true hsame]
    | none =>
      rw [Contact.afterRead_of_new hl]
      refine h.set_writing hl fun t ht hw => ?_
      simp only [ContactState.alone, hi, hl, Option.isSome_none, Bool.false_or,
        List.all_eq_true, Bool.not_eq_true'] at hok
      rw [hok t ht] at hw
      cases hw
  | @wrote i c hosts hi =>
    obtain ⟨hnew, rfl⟩ := h.writing hi
    have hload := load_write
      ((loadKnownHosts_words s.file).insert c.host.word (fingerprint_isWord H c.cert))
    refine ⟨fun {j c'} hj => ?_, fun hj => ?_, fun hj hk ht ht' => ?_⟩
    · rw [hload]
      rcases getElem?_set_cases hj with ⟨-, hj⟩ | ⟨-, hj⟩
      · cases hj
        exact AList.lookup_insert _
      · -- a host that a call has found listed is not the new one
        have hlisted := h.returned hj
        have hne : c'.host.chars ≠ c.host.chars := by
          intro heq
          rw [heq, hnew] at hlisted
          cases hlisted
        rw [AList.lookup_insert_ne hne]
        exact hlisted
    · rcases getElem?_set_cases hj with ⟨-, hj⟩ | ⟨hne, hj⟩
      · cases hj
      · exact absurd (h.single hi hj rfl rfl) hne.symm
    · rcases getElem?_set_cases hj with ⟨-, rfl⟩ | ⟨hne, hj⟩
      · cases ht
      · exact absurd (h.single hi hj rfl ht) hne.symm

/-- A call that has returned stays as it is. -/
theorem ContactState.returned_step {i : Nat} {c : Contact} {ok : Bool}
    (hi : s.tasks[i]? = some ⟨c, .returned ok⟩)
    (hs : (contactSystem H).step s l = some s') :
    s'.tasks[i]? = some ⟨c, .returned ok⟩ := by
  cases ContactMove.of_step hs with
  | called c => exact getElem?_append_of_some hi _
  | @read j c' hj =>
    rw [List.getElem?_set_ne, hi]
    rintro rfl
    rw [hi] at hj
    cases hj
  | @wrote j c' hosts hj =>
    rw [List.getElem?_set_ne, hi]
    rintro rfl
    rw [hi] at hj
    cases hj

/--
**Pins survive calls at the same time** if no two of them are between their read and their write
at once. Once a call has returned `Ok`, every later file maps its host to the fingerprint it showed.
-/
theorem concurrent_pins_kept (H : CertHash) (file : Option (List Char))
    {s s' : ContactState}
    (hrun : (contactSystem H).Reach (fun s l => s.alone l = true) ⟨file, []⟩ s)
    {i : Nat} {c : Contact} (hret : s.tasks[i]? = some ⟨c, .returned true⟩)
    (hlater : (contactSystem H).Reach (fun s l => s.alone l = true) s s') :
    (loadKnownHosts s'.file).lookup c.host.chars = some (fingerprint H c.cert) := by
  have hpinned : s'.Pinned H := by
    refine (hrun.trans hlater).invariant (ContactState.pinned_init file) ?_
    intro s₁ s₂ l h hok hs
    exact h.step hok hs
  have hstill : s'.tasks[i]? = some ⟨c, .returned true⟩ :=
    hlater.invariant hret fun h _ hs => ContactState.returned_step h hs
  exact hpinned.returned hstill

end Concurrent

/-! ### Two calls in turn, and two that race -/

theorem hexDigit_spec : ∀ n < 16, isWhitespace (hexDigit n) = false ∧
    ∀ m < 16, hexDigit n = hexDigit m → n = m := by
  decide

theorem Digest.isWord_toHex (d : Digest) : IsWord d.toHex := by
  constructor
  · intro hnil
    have hlen := d.length_eq
    cases hb : d.bytes with
    | nil => rw [hb] at hlen; cases hlen
    | cons b rest => rw [Digest.toHex, hb] at hnil; cases hnil
  · intro c hc
    obtain ⟨b, -, hc⟩ := List.mem_flatMap.mp hc
    have hb : b.toNat < 256 := UInt8.toNat_lt b
    simp only [List.mem_cons, List.not_mem_nil, or_false] at hc
    rcases hc with rfl | rfl
    · exact (hexDigit_spec _ (by omega)).1
    · exact (hexDigit_spec _ (by omega)).1

theorem flatMap_hexDigit_injective : ∀ {a b : List UInt8}, a.length = b.length →
    (a.flatMap fun x => [hexDigit (x.toNat / 16), hexDigit (x.toNat % 16)]) =
      (b.flatMap fun x => [hexDigit (x.toNat / 16), hexDigit (x.toNat % 16)]) → a = b
  | [], [], _, _ => rfl
  | x :: a, y :: b, hlen, h => by
    have hx : x.toNat < 256 := UInt8.toNat_lt x
    have hy : y.toNat < 256 := UInt8.toNat_lt y
    simp only [List.flatMap_cons, List.cons_append, List.nil_append, List.cons.injEq] at h
    obtain ⟨hhigh, hlow, hrest⟩ := h
    have hdiv := (hexDigit_spec _ (by omega)).2 _ (by omega) hhigh
    have hmod := (hexDigit_spec _ (by omega)).2 _ (by omega) hlow
    have hxy : x = y := UInt8.toNat_inj.mp (by omega)
    rw [hxy, flatMap_hexDigit_injective (by simpa using hlen) hrest]

theorem Digest.toHex_injective : Function.Injective Digest.toHex := by
  rintro ⟨a, ha⟩ ⟨b, hb⟩ h
  have hbytes : a = b := flatMap_hexDigit_injective (ha.trans hb.symm) h
  subst hbytes
  rfl

/-- Two digits a byte, of the hash that the other samples use. -/
def CertHash.reference : CertHash where
  blake3 := Crates.reference.blake3
  toHex := Digest.toHex
  isWord_toHex := Digest.isWord_toHex
  toHex_injective := Digest.toHex_injective

/-- A host whose name is one letter, which is its certificate too. -/
def sampleContact (letter : Char) (h : isWhitespace letter = false) : Contact where
  host := ⟨[letter], by simp, by simpa using h⟩
  cert := [UInt8.ofNat letter.toNat]

/-- The second of two calls reads the file after the first has written it. -/
def sampleInTurn : List ContactLabel :=
  [.call (sampleContact 'a' (by decide)), .call (sampleContact 'b' (by decide)),
    .read 0, .write 0, .read 1, .write 1]

/-- Both calls read the file before one of them writes it. -/
def sampleRace : List ContactLabel :=
  [.call (sampleContact 'a' (by decide)), .call (sampleContact 'b' (by decide)),
    .read 0, .read 1, .write 0, .write 1]

theorem concurrent_pins_kept_inTurn :
    ∃ s s', (contactSystem CertHash.reference).execWhere ContactState.alone ⟨none, []⟩
        (sampleInTurn.take 4) = some s ∧
      (contactSystem CertHash.reference).execWhere ContactState.alone s
        (sampleInTurn.drop 4) = some s' ∧
      (loadKnownHosts s'.file).lookup ['a'] =
        some (fingerprint CertHash.reference [97]) := by
  have hexec : ((contactSystem CertHash.reference).execWhere ContactState.alone ⟨none, []⟩
      (sampleInTurn.take 4)).bind (fun s =>
        ((contactSystem CertHash.reference).execWhere ContactState.alone s
          (sampleInTurn.drop 4)).map fun _ => s.tasks[0]?) =
      some (some ⟨sampleContact 'a' (by decide), .returned true⟩) := by
    decide +kernel
  obtain ⟨s, hs, hrest⟩ := Option.bind_eq_some_iff.mp hexec
  obtain ⟨s', hs', hret⟩ := Option.map_eq_some_iff.mp hrest
  exact ⟨s, s', hs, hs', concurrent_pins_kept _ none (Lts.Reach.of_execWhere hs) hret
    (Lts.Reach.of_execWhere hs')⟩

/-- A race loses the pin of the call that returned first. -/
theorem race_loses_pin :
    ((contactSystem CertHash.reference).exec ⟨none, []⟩ (sampleRace.take 5)).map
        (fun s => (s.tasks[0]?, (loadKnownHosts s.file).lookup ['a'])) =
      some (some ⟨sampleContact 'a' (by decide), .returned true⟩,
        some (fingerprint CertHash.reference [97])) ∧
    ((contactSystem CertHash.reference).exec ⟨none, []⟩ sampleRace).map
        (fun s => (s.tasks[0]?, (loadKnownHosts s.file).lookup ['a'])) =
      some (some ⟨sampleContact 'a' (by decide), .returned true⟩, none) := by
  decide +kernel

end ScTransport
