import Mathlib.Data.List.Basic

/-!
# Lines of a text

`lines` is Rust's `str::lines`: lines end in `\n` or `\r\n`, and the last one need not.

* `lines_append_line` — a line appended at the start of a line is one more line
* `lines_concat_newline` — a newline ends the last line or adds a blank one
-/

namespace Infra

/-- The lines of a text, each with its newline. -/
def splitInclusive : List Char → List (List Char)
  | [] => []
  | c :: rest =>
    if c = '\n' then [c] :: splitInclusive rest
    else
      match splitInclusive rest with
      | [] => [[c]]
      | line :: lines => (c :: line) :: lines

/-- A line without its line ending. -/
def chomp (line : List Char) : List Char :=
  if line.getLast? = some '\n' then
    if line.dropLast.getLast? = some '\r' then line.dropLast.dropLast else line.dropLast
  else line

def lines (text : List Char) : List (List Char) := (splitInclusive text).map chomp

/-- `char::is_whitespace`. -/
def isWhitespace (c : Char) : Bool :=
  (9 ≤ c.toNat && c.toNat ≤ 13) || c.toNat = 0x20 || c.toNat = 0x85 || c.toNat = 0xA0 ||
    c.toNat = 0x1680 || (0x2000 ≤ c.toNat && c.toNat ≤ 0x200A) || c.toNat = 0x2028 ||
    c.toNat = 0x2029 || c.toNat = 0x202F || c.toNat = 0x205F || c.toNat = 0x3000

/-- `line.trim().is_empty()`. -/
def isBlank (line : List Char) : Bool := line.all isWhitespace

/-- The text is empty or its last line is complete. -/
def atLineStart (text : List Char) : Bool := text = [] || text.getLast? = some '\n'

section

variable {text line : List Char}

theorem splitInclusive_ne_nil (h : text ≠ []) : splitInclusive text ≠ [] := by
  cases text with
  | nil => exact absurd rfl h
  | cons c rest =>
    unfold splitInclusive
    split
    · nofun
    · split <;> nofun

theorem splitInclusive_newline (rest : List Char) :
    splitInclusive ('\n' :: rest) = ['\n'] :: splitInclusive rest := rfl

theorem splitInclusive_cons {c : Char} {rest : List Char} {more : List (List Char)}
    (hc : c ≠ '\n') (h : splitInclusive rest = line :: more) :
    splitInclusive (c :: rest) = (c :: line) :: more := by
  rw [splitInclusive, if_neg hc, h]

theorem splitInclusive_append (h : atLineStart text = true) (more : List Char) :
    splitInclusive (text ++ more) = splitInclusive text ++ splitInclusive more := by
  induction text with
  | nil => rfl
  | cons c rest ih =>
    by_cases hrest : rest = []
    · subst hrest
      obtain rfl : c = '\n' := by simpa [atLineStart] using h
      simp [splitInclusive]
    · have hlast : atLineStart rest = true := by
        simpa [atLineStart, hrest, List.getLast?_cons, List.getLast?_eq_getLast_of_ne_nil hrest]
          using h
      by_cases hc : c = '\n'
      · subst hc
        rw [List.cons_append, splitInclusive_newline, splitInclusive_newline, ih hlast]
        rfl
      · cases hs : splitInclusive rest with
        | nil => exact absurd hs (splitInclusive_ne_nil hrest)
        | cons line lines =>
          have happend := ih hlast
          rw [hs] at happend
          rw [List.cons_append, splitInclusive_cons hc hs, splitInclusive_cons hc happend]
          rfl

theorem splitInclusive_line (hne : line ≠ []) (hline : '\n' ∉ line) :
    splitInclusive line = [line] := by
  induction line with
  | nil => exact absurd rfl hne
  | cons c rest ih =>
    rw [List.mem_cons, not_or] at hline
    unfold splitInclusive
    rw [if_neg (Ne.symm hline.1)]
    by_cases hrest : rest = []
    · subst hrest
      rfl
    · rw [ih hrest hline.2]

/-- A newline after an incomplete line completes it. -/
theorem splitInclusive_concat_newline (hne : text ≠ []) (hlast : text.getLast? ≠ some '\n') :
    ∃ (init : List (List Char)) (line : List Char), splitInclusive text = init ++ [line] ∧
      splitInclusive (text ++ ['\n']) = init ++ [line ++ ['\n']] ∧
      line.getLast? = text.getLast? := by
  induction text with
  | nil => exact absurd rfl hne
  | cons c rest ih =>
    by_cases hrest : rest = []
    · subst hrest
      have hc : c ≠ '\n' := by simpa using hlast
      exact ⟨[], [c], by simp [splitInclusive, hc], by simp [splitInclusive, hc], rfl⟩
    · have hlast' : (c :: rest).getLast? = rest.getLast? := by
        rw [List.getLast?_cons, List.getLast?_eq_getLast_of_ne_nil hrest]
        rfl
      rw [hlast'] at hlast ⊢
      obtain ⟨init, line, hsplit, hsplit', hend⟩ := ih hrest hlast
      rw [List.cons_append]
      by_cases hc : c = '\n'
      · subst hc
        rw [splitInclusive_newline, splitInclusive_newline, hsplit, hsplit']
        exact ⟨['\n'] :: init, line, rfl, rfl, hend⟩
      · cases init with
        | nil =>
          rw [splitInclusive_cons hc hsplit, splitInclusive_cons hc hsplit']
          refine ⟨[], c :: line, rfl, rfl, ?_⟩
          have hline : line ≠ [] := by
            rintro rfl
            rw [List.getLast?_eq_getLast_of_ne_nil hrest] at hend
            cases hend
          rw [List.getLast?_cons, ← hend, List.getLast?_eq_getLast_of_ne_nil hline]
          rfl
        | cons first init =>
          rw [splitInclusive_cons hc hsplit, splitInclusive_cons hc hsplit']
          exact ⟨(c :: first) :: init, line, rfl, rfl, hend⟩

theorem chomp_of_ne (h : line.getLast? ≠ some '\n') : chomp line = line := if_neg h

theorem chomp_concat_newline (h : line.getLast? ≠ some '\r') : chomp (line ++ ['\n']) = line := by
  unfold chomp
  simp [h]

/-- A line appended at the start of a line is one more line. -/
theorem lines_append_line (htext : atLineStart text = true) (hne : line ≠ [])
    (hline : '\n' ∉ line) : lines (text ++ line) = lines text ++ [line] := by
  have hlast : line.getLast? ≠ some '\n' := fun h => hline (List.mem_of_getLast? h)
  unfold lines
  rw [splitInclusive_append htext, splitInclusive_line hne hline, List.map_append]
  simp [chomp_of_ne hlast]

/-- A newline ends the last line or adds a blank one. -/
theorem lines_concat_newline (h : text.getLast? ≠ some '\r') :
    lines (text ++ ['\n']) = lines text ∨ lines (text ++ ['\n']) = lines text ++ [[]] := by
  unfold lines
  cases hstart : atLineStart text with
  | true =>
    refine Or.inr ?_
    rw [splitInclusive_append hstart, List.map_append]
    rfl
  | false =>
    refine Or.inl ?_
    simp only [atLineStart, Bool.or_eq_false_iff, decide_eq_false_iff_not] at hstart
    obtain ⟨init, line, hsplit, hsplit', hend⟩ := splitInclusive_concat_newline hstart.1 hstart.2
    rw [hsplit, hsplit', List.map_append, List.map_append]
    simp [chomp_of_ne (hend ▸ hstart.2), chomp_concat_newline (hend ▸ h)]

end

end Infra
