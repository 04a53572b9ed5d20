import ScTransport.Infra.Lines
import Mathlib.Data.List.AList

/-!
# Words of a text

`splitWhitespace` is Rust's `str::split_whitespace`. A table of two columns is a list of lines of
two words each; reading it is inserting its lines into a map, one after the other.

* `splitWhitespace_pair` — two words and a blank between them
* `isWord_of_mem_splitWhitespace` — whatever the text, its words are words
* `lines_unlines` — lines written one after the other are read back
* `lookup_insertAll` — pairs with distinct keys may be inserted in any order
-/

namespace Infra

/-! ## Words -/

/-- Not empty, and without white space. -/
structure IsWord (word : List Char) : Prop where
  ne_nil : word ≠ []
  no_space : ∀ c ∈ word, isWhitespace c = false

/-- The words of a text whose first word begins with `word`. -/
def splitWhitespaceFrom (word : List Char) : List Char → List (List Char)
  | [] => if word = [] then [] else [word]
  | c :: rest =>
    if isWhitespace c then (if word = [] then [] else [word]) ++ splitWhitespaceFrom [] rest
    else splitWhitespaceFrom (word ++ [c]) rest

def splitWhitespace (text : List Char) : List (List Char) := splitWhitespaceFrom [] text

theorem splitWhitespaceFrom_append {text : List Char}
    (h : ∀ c ∈ text, isWhitespace c = false) : ∀ (word rest : List Char),
    splitWhitespaceFrom word (text ++ rest) = splitWhitespaceFrom (word ++ text) rest := by
  induction text with
  | nil =>
    intro word rest
    rw [List.append_nil]
    rfl
  | cons c text ih =>
    intro word rest
    have hc : isWhitespace c = false := h c List.mem_cons_self
    rw [List.cons_append, splitWhitespaceFrom, hc, if_neg Bool.false_ne_true,
      ih (fun x hx => h x (List.mem_cons_of_mem _ hx)), List.append_assoc]
    rfl

theorem splitWhitespace_word {word : List Char} (h : IsWord word) :
    splitWhitespace word = [word] := by
  have happend := splitWhitespaceFrom_append h.no_space [] []
  rw [List.append_nil, List.nil_append] at happend
  rw [splitWhitespace, happend, splitWhitespaceFrom, if_neg h.ne_nil]

/-- Two words and a blank between them. -/
theorem splitWhitespace_pair {first second : List Char} (h₁ : IsWord first) (h₂ : IsWord second) :
    splitWhitespace (first ++ ' ' :: second) = [first, second] := by
  rw [splitWhitespace, splitWhitespaceFrom_append h₁.no_space, List.nil_append,
    splitWhitespaceFrom, if_pos (by decide), if_neg h₁.ne_nil]
  exact congrArg ([first] ++ ·) (splitWhitespace_word h₂)

theorem isWord_of_mem_splitWhitespaceFrom : ∀ {text word w : List Char},
    (∀ c ∈ word, isWhitespace c = false) → w ∈ splitWhitespaceFrom word text → IsWord w := by
  have hopen : ∀ {word w : List Char}, (∀ c ∈ word, isWhitespace c = false) →
      w ∈ (if word = [] then [] else [word]) → IsWord w := by
    intro word w hword hw
    split at hw
    · cases hw
    · next hne =>
      rw [List.mem_singleton.mp hw]
      exact ⟨hne, hword⟩
  intro text
  induction text with
  | nil => exact fun hword hw => hopen hword hw
  | cons c rest ih =>
    intro word w hword hw
    rw [splitWhitespaceFrom] at hw
    split at hw
    · rcases List.mem_append.mp hw with hw | hw
      · exact hopen hword hw
      · exact ih (fun _ hc => absurd hc List.not_mem_nil) hw
    · next hc =>
      refine ih (fun x hx => ?_) hw
      rcases List.mem_append.mp hx with hx | hx
      · exact hword x hx
      · rw [List.mem_singleton.mp hx]
        exact Bool.not_eq_true _ ▸ hc

/-- Whatever the text, its words are words. -/
theorem isWord_of_mem_splitWhitespace {text w : List Char} (h : w ∈ splitWhitespace text) :
    IsWord w :=
  isWord_of_mem_splitWhitespaceFrom (fun _ hc => absurd hc List.not_mem_nil) h

/-! ## Lines -/

/-- `format!("{}\n", lines.join("\n"))`. -/
def unlines (lines : List (List Char)) : List Char := List.intercalate ['\n'] lines ++ ['\n']

/-- A line that `lines` gives back unchanged. -/
structure IsLine (line : List Char) : Prop where
  ne_nil : line ≠ []
  no_newline : '\n' ∉ line
  no_return : '\r' ∉ line

theorem unlines_cons (line : List Char) {rest : List (List Char)} (h : rest ≠ []) :
    unlines (line :: rest) = (line ++ ['\n']) ++ unlines rest := by
  cases rest with
  | nil => exact absurd rfl h
  | cons next rest => simp [unlines, List.intercalate_cons_cons]

theorem splitInclusive_concat {line : List Char} (h : '\n' ∉ line) :
    splitInclusive (line ++ ['\n']) = [line ++ ['\n']] := by
  induction line with
  | nil => rfl
  | cons c rest ih =>
    rw [List.mem_cons, not_or] at h
    exact splitInclusive_cons (Ne.symm h.1) (ih h.2)

theorem lines_line {line : List Char} (h : IsLine line) : lines (line ++ ['\n']) = [line] := by
  have hlast : line.getLast? ≠ some '\r' := fun hr => h.no_return (List.mem_of_getLast? hr)
  rw [lines, splitInclusive_concat h.no_newline, List.map_singleton, chomp_concat_newline hlast]

theorem atLineStart_concat (text : List Char) : atLineStart (text ++ ['\n']) = true := by
  simp [atLineStart]

/-- Lines written one after the other are read back. -/
theorem lines_unlines {ls : List (List Char)} (hne : ls ≠ []) (h : ∀ l ∈ ls, IsLine l) :
    lines (unlines ls) = ls := by
  induction ls with
  | nil => exact absurd rfl hne
  | cons line rest ih =>
    have hline : IsLine line := h line List.mem_cons_self
    by_cases hrest : rest = []
    · subst hrest
      rw [unlines, List.intercalate_singleton, lines_line hline]
    · rw [unlines_cons line hrest, lines, splitInclusive_append (atLineStart_concat line),
        List.map_append]
      show lines (line ++ ['\n']) ++ lines (unlines rest) = line :: rest
      rw [lines_line hline, ih hrest fun l hl => h l (List.mem_cons_of_mem _ hl)]
      rfl

/-! ## Tables -/

section Tables

variable {κ ρ : Type} [DecidableEq κ]

/-- The pairs inserted one after the other. -/
def insertAll (m : AList fun _ : κ => ρ) (pairs : List (κ × ρ)) : AList fun _ : κ => ρ :=
  pairs.foldl (fun m p => m.insert p.1 p.2) m

theorem lookup_insertAll_of_notMem {k : κ} {pairs : List (κ × ρ)}
    (h : k ∉ pairs.map Prod.fst) : ∀ m : AList fun _ : κ => ρ,
      (insertAll m pairs).lookup k = m.lookup k := by
  induction pairs with
  | nil => exact fun m => rfl
  | cons p rest ih =>
    intro m
    rw [List.map_cons, List.mem_cons, not_or] at h
    show (insertAll (m.insert p.1 p.2) rest).lookup k = m.lookup k
    rw [ih h.2, AList.lookup_insert_ne h.1]

/-- Pairs with distinct keys are all there, whatever their order. -/
theorem lookup_insertAll {k : κ} {v : ρ} {pairs : List (κ × ρ)}
    (hnodup : (pairs.map Prod.fst).Nodup) (h : (k, v) ∈ pairs) :
    ∀ m : AList fun _ : κ => ρ, (insertAll m pairs).lookup k = some v := by
  induction pairs with
  | nil => cases h
  | cons p rest ih =>
    intro m
    rw [List.map_cons, List.nodup_cons] at hnodup
    show (insertAll (m.insert p.1 p.2) rest).lookup k = some v
    rcases List.mem_cons.mp h with rfl | hrest
    · rw [lookup_insertAll_of_notMem hnodup.1, AList.lookup_insert]
    · exact ih hnodup.2 hrest _

end Tables

end Infra
