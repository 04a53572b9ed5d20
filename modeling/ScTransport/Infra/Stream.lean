import ScTransport.Infra.Bytes

/-!
# Byte streams in pieces

A stream delivers its bytes in pieces of any size; a read takes at most one piece, and no bytes
at all mean the end. `readExact` reads until its buffer is full.

* `readExact_append`, `readExact_short`, `readExact_cut`, `readExact_eq_some` — what is read depends
  on the bytes, not on the pieces
-/

namespace Infra

/-- The pieces a stream still delivers; none of them is empty. -/
structure Stream where
  pieces : List Bytes
  nonempty : ∀ piece ∈ pieces, piece ≠ []

namespace Stream

def bytes (s : Stream) : Bytes := s.pieces.flatten

/-- No byte is left. -/
def atEnd (s : Stream) : Bool := s.pieces.isEmpty

/-- All bytes in one piece. -/
def ofBytes (bs : Bytes) : Stream where
  pieces := if bs = [] then [] else [bs]
  nonempty piece hpiece := by
    split at hpiece
    · cases hpiece
    · next hne => rwa [List.mem_singleton.mp hpiece]

@[simp] theorem bytes_ofBytes (bs : Bytes) : (ofBytes bs).bytes = bs := by
  unfold bytes ofBytes
  by_cases hnil : bs = []
  · simp [hnil]
  · simp [hnil]

/-- Reads again until it has `n` bytes, and fails at the end of the stream. -/
def readPieces : Nat → List Bytes → Option (Bytes × List Bytes)
  | 0, pieces => some ([], pieces)
  | _ + 1, [] => none
  | n + 1, piece :: rest =>
    if piece.length ≤ n + 1 then
      match readPieces (n + 1 - piece.length) rest with
      | none => none
      | some (more, left) => some (piece ++ more, left)
    else some (piece.take (n + 1), piece.drop (n + 1) :: rest)

theorem readPieces_spec : ∀ (pieces : List Bytes) (n : Nat), (∀ piece ∈ pieces, piece ≠ []) →
    (n ≤ pieces.flatten.length → ∃ left, readPieces n pieces = some (pieces.flatten.take n, left) ∧
      left.flatten = pieces.flatten.drop n ∧ ∀ piece ∈ left, piece ≠ []) ∧
    (pieces.flatten.length < n → readPieces n pieces = none)
  | pieces, 0, hne => by
    refine ⟨fun _ => ⟨pieces, ?_, rfl, hne⟩, fun h => absurd h (Nat.not_lt_zero _)⟩
    cases pieces <;> rfl
  | [], n + 1, _ => ⟨fun h => absurd h (Nat.not_succ_le_zero n), fun _ => rfl⟩
  | piece :: rest, n + 1, hne => by
    have hrest : ∀ piece ∈ rest, piece ≠ [] := fun p hp => hne p (List.mem_cons_of_mem _ hp)
    obtain ⟨hok, hfail⟩ := readPieces_spec rest (n + 1 - piece.length) hrest
    rw [List.flatten_cons, List.length_append]
    unfold readPieces
    by_cases hle : piece.length ≤ n + 1
    · rw [if_pos hle]
      constructor
      · intro hlen
        obtain ⟨left, hread, hleft, hne'⟩ := hok (by omega)
        rw [hread]
        refine ⟨left, ?_, ?_, hne'⟩
        · rw [List.take_append, List.take_of_length_le hle]
        · rw [hleft, List.drop_append, List.drop_of_length_le hle]
          rfl
      · intro hlen
        rw [hfail (by omega)]
    · rw [if_neg hle]
      constructor
      · intro _
        have htake : (piece ++ rest.flatten).take (n + 1) = piece.take (n + 1) :=
          List.take_append_of_le_length (by omega)
        refine ⟨_, by rw [htake], ?_, ?_⟩
        · rw [List.drop_append_of_le_length (by omega)]
          rfl
        · intro p hp
          rcases List.mem_cons.mp hp with rfl | hp
          · intro hnil
            have hlen := congrArg List.length hnil
            rw [List.length_drop, List.length_nil] at hlen
            omega
          · exact hrest p hp
      · intro hlen
        omega

theorem readPieces_nonempty {n : Nat} {pieces left : List Bytes} {bytes : Bytes}
    (hne : ∀ piece ∈ pieces, piece ≠ []) (h : readPieces n pieces = some (bytes, left)) :
    ∀ piece ∈ left, piece ≠ [] := by
  obtain ⟨hok, hfail⟩ := readPieces_spec pieces n hne
  by_cases hlen : n ≤ pieces.flatten.length
  · obtain ⟨left', hread, -, hne'⟩ := hok hlen
    rw [hread] at h
    cases h
    exact hne'
  · rw [hfail (by omega)] at h
    cases h

/-- `read_exact`. -/
def readExact (n : Nat) (s : Stream) : Option (Bytes × Stream) :=
  match h : readPieces n s.pieces with
  | none => none
  | some (bytes, left) => some (bytes, ⟨left, readPieces_nonempty s.nonempty h⟩)

/-- The next bytes are read, whatever pieces they come in. -/
theorem readExact_append {s : Stream} {a b : Bytes} (h : s.bytes = a ++ b) :
    ∃ s', readExact a.length s = some (a, s') ∧ s'.bytes = b := by
  have hflat : s.pieces.flatten = a ++ b := h
  obtain ⟨left, hread, hleft, hne⟩ :=
    (readPieces_spec s.pieces a.length s.nonempty).1 (by rw [hflat]; simp)
  rw [hflat, List.take_left] at hread
  rw [hflat, List.drop_left] at hleft
  refine ⟨⟨left, hne⟩, ?_, hleft⟩
  unfold readExact
  split
  · next hnone => rw [hread] at hnone; cases hnone
  · next hsome =>
    rw [hread] at hsome
    cases hsome
    rfl

theorem readExact_short {s : Stream} {n : Nat} (h : s.bytes.length < n) :
    readExact n s = none := by
  have hnone := (readPieces_spec s.pieces n s.nonempty).2 h
  unfold readExact
  split
  · rfl
  · next hsome => rw [hnone] at hsome; cases hsome

/-- Of bytes that are cut at some place, the first ones are not all there or the others are not. -/
theorem readExact_cut {s : Stream} {a b missing : Bytes} (h : s.bytes ++ missing = a ++ b)
    (hne : missing ≠ []) :
    readExact a.length s = none ∨
      ∃ s', readExact a.length s = some (a, s') ∧ s'.bytes.length < b.length := by
  have hmissing : 0 < missing.length := List.length_pos_iff.mpr hne
  have hlen := congrArg List.length h
  simp only [List.length_append] at hlen
  by_cases hlt : s.bytes.length < a.length
  · exact Or.inl (readExact_short hlt)
  · have htake : s.bytes.take a.length = a := by
      have heq := congrArg (List.take a.length) h
      rwa [List.take_append_of_le_length (by omega), List.take_left] at heq
    have hs : s.bytes = a ++ s.bytes.drop a.length := by
      rw [← htake, List.length_take, Nat.min_eq_left (by omega), List.take_append_drop]
    obtain ⟨s', hread, hs'⟩ := readExact_append hs
    refine Or.inr ⟨s', hread, ?_⟩
    rw [hs', List.length_drop]
    omega

/-- What is read is the front of the stream. -/
theorem readExact_eq_some {s s' : Stream} {n : Nat} {a : Bytes}
    (h : readExact n s = some (a, s')) : a.length = n ∧ s.bytes = a ++ s'.bytes := by
  by_cases hlt : s.bytes.length < n
  · rw [readExact_short hlt] at h
    cases h
  · have hlen : (s.bytes.take n).length = n := by
      rw [List.length_take]
      omega
    obtain ⟨s'', hread, hs''⟩ := readExact_append (List.take_append_drop n s.bytes).symm
    rw [hlen, h] at hread
    cases hread
    exact ⟨hlen, by rw [hs'', List.take_append_drop]⟩

theorem atEnd_iff {s : Stream} : s.atEnd = true ↔ s.bytes = [] := by
  obtain ⟨pieces, hne⟩ := s
  unfold atEnd bytes
  cases pieces with
  | nil => exact ⟨fun _ => rfl, fun _ => rfl⟩
  | cons piece rest =>
    have hpiece : piece ≠ [] := hne piece List.mem_cons_self
    simp [hpiece]

end Stream

end Infra
