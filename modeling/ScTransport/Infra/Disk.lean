import ScTransport.Infra.Bytes
import ScTransport.Infra.Pool
import Mathlib.Logic.Function.Basic

/-!
# Files and their names

A directory maps names to files. A handle refers to the file and not to the name: it goes on
writing to the same file when the name is given to another one.

* `create_of_none`, `rename_of_some` — what creating and renaming do to the directory
* `getElem?_write_of_nil`, `getElem?_write_of_ne` — what writing does to the files
* `Sound.create`, `Sound.write`, `Sound.rename` — what they do when no two names share a file
-/

namespace Infra

structure Disk (Name : Type) where
  entry : Name → Option Nat
  contents : List Bytes

namespace Disk

variable {Name : Type} [DecidableEq Name]

def empty : Disk Name := ⟨fun _ => none, []⟩

def read (d : Disk Name) (name : Name) : Option Bytes :=
  (d.entry name).bind fun file => d.contents[file]?

/-- `File::create`: truncates the file of this name or makes a new one. -/
def create (d : Disk Name) (name : Name) : Disk Name × Nat :=
  match d.entry name with
  | some file => ({ d with contents := d.contents.set file [] }, file)
  | none =>
    ({ entry := Function.update d.entry name (some d.contents.length)
       contents := d.contents ++ [[]] }, d.contents.length)

/-- `write_all` through a handle at the start of its file. -/
def write (d : Disk Name) (file : Nat) (bytes : Bytes) : Disk Name :=
  { d with contents := d.contents.modify file fun old => writeAt old 0 bytes }

/-- `rename`; it fails if there is no such file. -/
def rename (d : Disk Name) (source target : Name) : Option (Disk Name) :=
  match d.entry source with
  | none => none
  | some file =>
    some { d with
      entry := Function.update (Function.update d.entry source none) target (some file) }

section

variable {d : Disk Name} {name : Name}

/-- A new file is empty, and nothing else changes. -/
theorem create_of_none (h : d.entry name = none) {d' : Disk Name} {file : Nat}
    (hcreate : d.create name = (d', file)) :
    d'.entry name = some file ∧ d'.contents[file]? = some [] ∧
      (∀ other, other ≠ name → d'.entry other = d.entry other) ∧
      ∀ old bytes, d.contents[old]? = some bytes →
        old ≠ file ∧ d'.contents[old]? = some bytes := by
  unfold create at hcreate
  rw [h] at hcreate
  cases hcreate
  refine ⟨Function.update_self .., ?_, fun other hne => Function.update_of_ne hne .., ?_⟩
  · rw [List.getElem?_append_right (Nat.le_refl _), Nat.sub_self]
    rfl
  · intro old bytes hold
    have hlt : old < d.contents.length := (List.getElem?_eq_some_iff.mp hold).1
    exact ⟨Nat.ne_of_lt hlt, getElem?_append_of_some hold _⟩

/-- The file has the new name and no longer the old one. -/
theorem rename_of_some {source target : Name} (hne : source ≠ target) {file : Nat}
    (h : d.entry source = some file) :
    ∃ d', d.rename source target = some d' ∧ d'.entry target = some file ∧
      d'.entry source = none ∧ d'.contents = d.contents := by
  unfold rename
  rw [h]
  refine ⟨_, rfl, Function.update_self .., ?_, rfl⟩
  show Function.update (Function.update d.entry source none) target (some file) source = none
  rw [Function.update_of_ne hne, Function.update_self]

/-- There was a file of the old name, and now there is none. -/
theorem entry_of_rename {d' : Disk Name} {source target : Name} (hne : source ≠ target)
    (h : d.rename source target = some d') :
    (∃ file, d.entry source = some file) ∧ d'.entry source = none := by
  cases hentry : d.entry source with
  | none =>
    rw [rename, hentry] at h
    cases h
  | some file =>
    obtain ⟨d₁, hrename, -, hgone, -⟩ := rename_of_some hne hentry
    cases hrename.symm.trans h
    exact ⟨⟨file, rfl⟩, hgone⟩

omit [DecidableEq Name] in
theorem getElem?_write_of_ne {file other : Nat} (h : other ≠ file) (bytes : Bytes) :
    (d.write file bytes).contents[other]? = d.contents[other]? := by
  unfold write
  rw [List.getElem?_modify]
  simp [Ne.symm h]

omit [DecidableEq Name] in
theorem getElem?_write_of_nil {file : Nat} (h : d.contents[file]? = some []) (bytes : Bytes) :
    (d.write file bytes).contents[file]? = some bytes := by
  unfold write
  rw [List.getElem?_modify, h]
  simp only [if_true, Option.map_eq_map, Option.map_some, Option.some.injEq, writeAt]
  split
  · next hnil => exact hnil.symm
  · simp [resize]

end

/-- Every name has a file, and no two names have the same one. -/
structure Sound (d : Disk Name) : Prop where
  lt_length : ∀ {name file}, d.entry name = some file → file < d.contents.length
  injective : ∀ {name name' file}, d.entry name = some file → d.entry name' = some file →
    name = name'

omit [DecidableEq Name] in
theorem sound_empty : (empty : Disk Name).Sound := ⟨nofun, nofun⟩

namespace Sound

variable {d d' : Disk Name} {name : Name} {file : Nat}

omit [DecidableEq Name] in
/-- One name gets a file that no other name has. -/
theorem of_entries (h : d.Sound) (name : Name) (file : Nat) {entry : Name → Option Nat}
    {contents : List Bytes} (hlength : d.contents.length ≤ contents.length)
    (hfile : file < contents.length)
    (hold : ∀ {other file'}, entry other = some file' →
      other = name ∧ file' = file ∨ file' ≠ file ∧ d.entry other = some file') :
    Sound ⟨entry, contents⟩ := by
  constructor
  · intro other file' he
    rcases hold he with ⟨-, rfl⟩ | ⟨-, he⟩
    · exact hfile
    · exact (h.lt_length he).trans_le hlength
  · intro other other' file' he he'
    rcases hold he with ⟨rfl, rfl⟩ | ⟨hne, he⟩
    · rcases hold he' with ⟨rfl, -⟩ | ⟨hne, -⟩
      · rfl
      · exact absurd rfl hne
    · rcases hold he' with ⟨-, hfile'⟩ | ⟨-, he'⟩
      · exact absurd hfile' hne
      · exact h.injective he he'

theorem create (h : d.Sound) (hcreate : d.create name = (d', file)) :
    d'.Sound ∧ d'.entry name = some file ∧ d'.contents[file]? = some [] ∧
      ∀ other, other ≠ name → d'.read other = d.read other := by
  unfold Disk.create at hcreate
  split at hcreate
  · next old hentry =>
    cases hcreate
    refine ⟨⟨fun he => ?_, h.injective⟩, hentry, List.getElem?_set_self (h.lt_length hentry), ?_⟩
    · rw [List.length_set]
      exact h.lt_length he
    · intro other hne
      unfold Disk.read
      cases hother : d.entry other with
      | none => rfl
      | some file' =>
        refine List.getElem?_set_ne fun heq => hne ?_
        subst heq
        exact h.injective hother hentry
  · next hentry =>
    cases hcreate
    refine ⟨h.of_entries name d.contents.length ?_ ?_ ?_,
      Function.update_self .., List.getElem?_concat_length, ?_⟩
    · exact (List.prefix_append _ _).length_le
    · rw [List.length_append, List.length_singleton]
      exact Nat.lt_succ_self _
    · intro other file' he
      by_cases hne : other = name
      · subst hne
        rw [Function.update_self, Option.some.injEq] at he
        exact Or.inl ⟨rfl, he.symm⟩
      · rw [Function.update_of_ne hne] at he
        exact Or.inr ⟨(h.lt_length he).ne, he⟩
    · intro other hne
      unfold Disk.read
      dsimp only
      rw [Function.update_of_ne hne]
      cases he : d.entry other with
      | none => rfl
      | some file' => exact List.getElem?_append_left (h.lt_length he)

omit [DecidableEq Name] in
theorem write (h : d.Sound) (bytes : Bytes) : (d.write file bytes).Sound := by
  refine ⟨fun he => ?_, h.injective⟩
  unfold Disk.write
  rw [List.length_modify]
  exact h.lt_length he

omit [DecidableEq Name] in
/-- The other names do not notice. -/
theorem read_write (h : d.Sound) (hentry : d.entry name = some file) {other : Name}
    (hne : other ≠ name) (bytes : Bytes) : (d.write file bytes).read other = d.read other := by
  unfold Disk.read
  show (d.entry other).bind _ = _
  cases he : d.entry other with
  | none => rfl
  | some file' =>
    refine getElem?_write_of_ne (fun heq => hne ?_) bytes
    subst heq
    exact h.injective he hentry

theorem rename (h : d.Sound) {source target : Name}
    (hrename : d.rename source target = some d') :
    d'.Sound ∧ d'.read target = d.read source := by
  unfold Disk.rename at hrename
  split at hrename
  · cases hrename
  · next file hentry =>
    cases hrename
    refine ⟨h.of_entries target file le_rfl (h.lt_length hentry) ?_, ?_⟩
    · intro other file' he
      by_cases ht : other = target
      · subst ht
        rw [Function.update_self, Option.some.injEq] at he
        exact Or.inl ⟨rfl, he.symm⟩
      · rw [Function.update_of_ne ht] at he
        by_cases hs : other = source
        · subst hs
          rw [Function.update_self] at he
          cases he
        · rw [Function.update_of_ne hs] at he
          refine Or.inr ⟨fun heq => hs ?_, he⟩
          subst heq
          exact h.injective he hentry
    · unfold Disk.read
      dsimp only
      rw [Function.update_self, hentry]

end Sound

end Disk

end Infra
