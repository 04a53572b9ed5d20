import Mathlib.Data.List.Basic

/-!
# Unix paths, lexically

A path is a string. `components` cuts it as `std::path` does: repeated separators and inner
`.` disappear, and a leading `/` is the root. `join` replaces its base when the second path is
absolute. `normalise` also resolves `..`, without looking at the file system.

* `Under` — a path is another one followed by ordinary names
* `Contained` — relative, and no leading part of it has more `..` than names
* `under_join`, `exists_not_under_join` — joining stays under every base exactly for contained
  paths
-/

namespace Infra

namespace Path

/-! ## Components -/

inductive Component where
  | rootDir
  | curDir
  | parentDir
  | normal (name : List Char)
  deriving DecidableEq

/-- The pieces between separators; empty pieces are kept. -/
def splitSlash : List Char → List (List Char)
  | [] => [[]]
  | c :: rest =>
    if c = '/' then [] :: splitSlash rest
    else
      match splitSlash rest with
      | [] => [[c]]
      | seg :: segs => (c :: seg) :: segs

/-- What a piece behind the first position stands for. -/
def segComponent (seg : List Char) : Option Component :=
  if seg = [] ∨ seg = ['.'] then none
  else if seg = ['.', '.'] then some .parentDir
  else some (.normal seg)

def body (segs : List (List Char)) : List Component := segs.filterMap segComponent

def isAbsolute (p : List Char) : Bool := p.head? = some '/'

def components (p : List Char) : List Component :=
  if isAbsolute p then .rootDir :: body (splitSlash p)
  else if (splitSlash p).head? = some ['.'] then .curDir :: body (splitSlash p)
  else body (splitSlash p)

/-- `Path::join`. -/
def join (base p : List Char) : List Char :=
  if isAbsolute p then p
  else if base = [] ∨ base.getLast? = some '/' then base ++ p
  else base ++ '/' :: p

/-- `Path::file_name`: the last component, if it is a name. -/
def fileName (p : List Char) : Option (List Char) :=
  match (components p).getLast? with
  | some (.normal name) => some name
  | _ => none

/-- `Path::starts_with`: by whole components. -/
def startsWith (p base : List Char) : Bool := (components base).isPrefixOf (components p)

/-- A piece that `components` passes over. -/
def isVoid (seg : List Char) : Bool := seg = [] ∨ seg = ['.']

/-- The pieces without leading and trailing void ones. -/
def trim (segs : List (List Char)) : List (List Char) :=
  ((segs.dropWhile isVoid).reverse.dropWhile isVoid).reverse

def joinSlash : List (List Char) → List Char
  | [] => []
  | [seg] => seg
  | seg :: rest => seg ++ '/' :: joinSlash rest

/-- `Path::strip_prefix` of the root, or the path itself when it is relative. -/
def stripRoot (p : List Char) : List Char :=
  if isAbsolute p then joinSlash (trim (splitSlash p)) else p

section Split

theorem splitSlash_ne_nil : ∀ p : List Char, splitSlash p ≠ []
  | [] => by simp [splitSlash]
  | c :: rest => by
    unfold splitSlash
    split
    · simp
    · split <;> simp

theorem splitSlash_cons {c : Char} (hc : c ≠ '/') (rest : List Char) :
    ∃ seg segs, splitSlash rest = seg :: segs ∧ splitSlash (c :: rest) = (c :: seg) :: segs := by
  cases hs : splitSlash rest with
  | nil => exact absurd hs (splitSlash_ne_nil rest)
  | cons seg segs => exact ⟨seg, segs, rfl, by simp [splitSlash, hc, hs]⟩

theorem splitSlash_append_slash : ∀ a b : List Char,
    splitSlash (a ++ '/' :: b) = splitSlash a ++ splitSlash b
  | [], b => by simp [splitSlash]
  | c :: a, b => by
    have ih := splitSlash_append_slash a b
    by_cases hc : c = '/'
    · subst hc
      simp only [List.cons_append, splitSlash, if_true, ih]
    · obtain ⟨seg, segs, hs, hcs⟩ := splitSlash_cons hc a
      obtain ⟨seg', segs', hs', hcs'⟩ := splitSlash_cons hc (a ++ '/' :: b)
      rw [ih, hs] at hs'
      simp only [List.cons_append, List.cons.injEq] at hs'
      obtain ⟨rfl, rfl⟩ := hs'
      rw [List.cons_append, hcs', hcs]
      rfl

theorem splitSlash_no_slash : ∀ {s : List Char}, '/' ∉ s → splitSlash s = [s]
  | [], _ => rfl
  | c :: s, h => by
    have hc : c ≠ '/' := fun hc => h (hc ▸ List.mem_cons_self)
    obtain ⟨seg, segs, hs, hcs⟩ := splitSlash_cons hc s
    rw [splitSlash_no_slash fun hm => h (List.mem_cons_of_mem _ hm)] at hs
    cases hs
    exact hcs

/-- Text without a separator extends the last piece. -/
theorem splitSlash_append_no_slash : ∀ (a : List Char) {s : List Char}, '/' ∉ s →
    ∃ init last, splitSlash a = init ++ [last] ∧ splitSlash (a ++ s) = init ++ [last ++ s]
  | [], s, h => ⟨[], [], rfl, splitSlash_no_slash h⟩
  | c :: a, s, h => by
    obtain ⟨init, last, ha, has⟩ := splitSlash_append_no_slash a h
    by_cases hc : c = '/'
    · subst hc
      exact ⟨[] :: init, last, by simp [splitSlash, ha], by simp [splitSlash, has]⟩
    · cases init with
      | nil => exact ⟨[], c :: last, by simp_all [splitSlash], by simp_all [splitSlash]⟩
      | cons seg init =>
        exact ⟨(c :: seg) :: init, last, by simp_all [splitSlash], by simp_all [splitSlash]⟩

theorem length_le_of_mem_splitSlash : ∀ {p seg : List Char}, seg ∈ splitSlash p →
    seg.length ≤ p.length
  | [], seg, h => by
    rw [splitSlash, List.mem_singleton] at h
    simp [h]
  | c :: p, seg, h => by
    by_cases hc : c = '/'
    · subst hc
      simp only [splitSlash, if_true, List.mem_cons] at h
      rcases h with rfl | h
      · simp
      · exact Nat.le_trans (length_le_of_mem_splitSlash h) (by simp)
    · obtain ⟨s, segs, hs, hcs⟩ := splitSlash_cons hc p
      have hlen : ∀ x ∈ s :: segs, x.length ≤ p.length :=
        fun x hx => length_le_of_mem_splitSlash (hs ▸ hx)
      rw [hcs, List.mem_cons] at h
      rcases h with rfl | h
      · simpa using hlen s List.mem_cons_self
      · exact Nat.le_trans (hlen seg (List.mem_cons_of_mem _ h)) (by simp)

theorem body_append (a b : List (List Char)) : body (a ++ b) = body a ++ body b :=
  List.filterMap_append

theorem mem_body {n : List Char} {segs : List (List Char)} (h : .normal n ∈ body segs) :
    n ∈ segs := by
  obtain ⟨seg, hseg, hc⟩ := List.mem_filterMap.mp h
  unfold segComponent at hc
  split at hc
  · cases hc
  · split at hc
    · cases hc
    · cases hc
      exact hseg

theorem rootDir_notMem_body (segs : List (List Char)) : .rootDir ∉ body segs := by
  intro h
  obtain ⟨seg, -, hc⟩ := List.mem_filterMap.mp h
  unfold segComponent at hc
  split at hc
  · cases hc
  · split at hc <;> cases hc

theorem no_slash_of_mem_splitSlash : ∀ {p seg : List Char}, seg ∈ splitSlash p → '/' ∉ seg
  | [], seg, h => by
    rw [splitSlash, List.mem_singleton] at h
    simp [h]
  | c :: p, seg, h => by
    by_cases hc : c = '/'
    · subst hc
      simp only [splitSlash, if_true, List.mem_cons] at h
      rcases h with rfl | h
      · exact List.not_mem_nil
      · exact no_slash_of_mem_splitSlash h
    · obtain ⟨s, segs, hs, hcs⟩ := splitSlash_cons hc p
      have hseg : ∀ x ∈ s :: segs, '/' ∉ x := fun x hx => no_slash_of_mem_splitSlash (hs ▸ hx)
      rw [hcs, List.mem_cons] at h
      rcases h with rfl | h
      · rw [List.mem_cons, not_or]
        exact ⟨fun he => hc he.symm, hseg s List.mem_cons_self⟩
      · exact hseg seg (List.mem_cons_of_mem _ h)

theorem splitSlash_joinSlash : ∀ {segs : List (List Char)}, segs ≠ [] →
    (∀ seg ∈ segs, '/' ∉ seg) → splitSlash (joinSlash segs) = segs
  | [], hne, _ => absurd rfl hne
  | [seg], _, h => splitSlash_no_slash (h seg List.mem_cons_self)
  | seg :: next :: rest, _, h => by
    have ih : splitSlash (joinSlash (next :: rest)) = next :: rest :=
      splitSlash_joinSlash (by simp) fun x hx => h x (List.mem_cons_of_mem _ hx)
    rw [joinSlash, splitSlash_append_slash, ih,
      splitSlash_no_slash (h seg List.mem_cons_self)]
    · rfl
    · simp

theorem body_dropWhile (segs : List (List Char)) : body (segs.dropWhile isVoid) = body segs := by
  induction segs with
  | nil => rfl
  | cons seg rest ih =>
    rw [List.dropWhile_cons]
    split
    · next hv =>
      have hnone : segComponent seg = none := by
        unfold segComponent
        rw [if_pos (by simpa [isVoid] using hv)]
      rw [ih, body, body, List.filterMap_cons_none hnone]
    · rfl

theorem body_reverse (segs : List (List Char)) : body segs.reverse = (body segs).reverse :=
  List.filterMap_reverse

theorem body_trim (segs : List (List Char)) : body (trim segs) = body segs := by
  rw [trim, body_reverse, body_dropWhile, body_reverse, body_dropWhile, List.reverse_reverse]

/-- The first piece that is left is not void. -/
theorem trim_head {segs rest : List (List Char)} {seg : List Char}
    (h : trim segs = seg :: rest) : isVoid seg = false := by
  have hsub : trim segs <+: segs.dropWhile isVoid := by
    rw [← List.reverse_suffix, trim, List.reverse_reverse]
    exact List.dropWhile_suffix _
  rw [h] at hsub
  obtain ⟨tail, ht⟩ := hsub
  have hd : segs.dropWhile isVoid ≠ [] := by rw [← ht]; simp
  have hhead := List.head_dropWhile_not isVoid hd
  simpa [← ht] using hhead

theorem no_slash_of_mem_trim {p seg : List Char} (h : seg ∈ trim (splitSlash p)) : '/' ∉ seg := by
  rw [trim, List.mem_reverse] at h
  have h' := List.mem_reverse.mp ((List.dropWhile_sublist isVoid).subset h)
  exact no_slash_of_mem_splitSlash ((List.dropWhile_sublist isVoid).subset h')

/-- Stripping the root keeps the components. -/
theorem body_stripRoot (p : List Char) :
    body (splitSlash (stripRoot p)) = body (splitSlash p) := by
  unfold stripRoot
  split
  · cases ht : trim (splitSlash p) with
    | nil =>
      rw [← body_trim (splitSlash p), ht]
      rfl
    | cons seg rest =>
      have hmem : ∀ x ∈ seg :: rest, '/' ∉ x := fun x hx => no_slash_of_mem_trim (ht ▸ hx)
      rw [splitSlash_joinSlash (by simp) hmem, ← ht, body_trim]
  · rfl

/-- What `components` adds in front is never a `..`. -/
theorem parentDir_mem_components {p : List Char} :
    .parentDir ∈ components p ↔ .parentDir ∈ body (splitSlash p) := by
  unfold components
  split
  · simp
  · split
    · simp
    · rfl

theorem parentDir_mem_stripRoot {p : List Char} :
    .parentDir ∈ components (stripRoot p) ↔ .parentDir ∈ components p := by
  rw [parentDir_mem_components, parentDir_mem_components, body_stripRoot]

theorem isAbsolute_stripRoot (p : List Char) : isAbsolute (stripRoot p) = false := by
  unfold stripRoot
  split
  · cases ht : trim (splitSlash p) with
    | nil => rfl
    | cons seg rest =>
      have hvoid := trim_head ht
      have hslash : '/' ∉ seg := no_slash_of_mem_trim (ht ▸ List.mem_cons_self)
      cases seg with
      | nil => simp [isVoid] at hvoid
      | cons c seg =>
        have hc : c ≠ '/' := fun hc => hslash (hc ▸ List.mem_cons_self)
        cases rest <;> simp [joinSlash, isAbsolute, hc]
  · next h => simpa using h

/-- **Joining a relative path appends its components.** -/
theorem components_join {base p : List Char} (hp : isAbsolute p = false) (hb : base ≠ []) :
    components (join base p) = components base ++ body (splitSlash p) := by
  -- with or without a trailing separator, the pieces are the base's and then the path's
  have hpieces : ∃ base', base' ≠ [] ∧ join base p = base' ++ p ∧
      isAbsolute base' = isAbsolute base ∧
      (splitSlash (base' ++ p)).head? = (splitSlash base).head? ∧
      body (splitSlash (base' ++ p)) = body (splitSlash base) ++ body (splitSlash p) := by
    have hhead : ∀ {a b : List (List Char)}, a ≠ [] → (a ++ b).head? = a.head? := by
      intro a b ha
      cases a with
      | nil => exact absurd rfl ha
      | cons x l => rfl
    by_cases hlast : base.getLast? = some '/'
    · obtain ⟨base', rfl⟩ := List.getLast?_eq_some_iff.mp hlast
      have hsplit : splitSlash (base' ++ ['/']) = splitSlash base' ++ [[]] :=
        splitSlash_append_slash base' []
      have hsplit' : splitSlash (base' ++ ['/'] ++ p) = splitSlash base' ++ splitSlash p := by
        rw [List.append_assoc]
        exact splitSlash_append_slash base' p
      refine ⟨base' ++ ['/'], hb, ?_, rfl, ?_, ?_⟩
      · unfold join
        rw [if_neg (by simp [hp]), if_pos (Or.inr hlast)]
      · rw [hsplit, hsplit', hhead (splitSlash_ne_nil _), hhead (splitSlash_ne_nil _)]
      · rw [hsplit, hsplit', body_append, body_append]
        simp [body, segComponent]
    · have hsplit : splitSlash (base ++ ['/'] ++ p) = splitSlash base ++ splitSlash p := by
        rw [List.append_assoc]
        exact splitSlash_append_slash base p
      refine ⟨base ++ ['/'], by simp, ?_, ?_, ?_, ?_⟩
      · unfold join
        rw [if_neg (by simp [hp]), if_neg (by simp [hb, hlast])]
        simp
      · cases base with
        | nil => exact absurd rfl hb
        | cons c rest => rfl
      · rw [hsplit, hhead (splitSlash_ne_nil _)]
      · rw [hsplit, body_append]
  obtain ⟨base', hne, hjoin, habs, hhd, hbody⟩ := hpieces
  have habs' : isAbsolute (base' ++ p) = isAbsolute base := by
    rw [← habs]
    cases base' with
    | nil => exact absurd rfl hne
    | cons c rest => rfl
  unfold components
  rw [hjoin, habs', hhd, hbody]
  split
  · rfl
  · split <;> rfl

/-- A component is a name, or `..`. -/
theorem body_cases {segs : List (List Char)} {c : Component} (h : c ∈ body segs) :
    c = .parentDir ∨ ∃ name, c = .normal name := by
  obtain ⟨seg, -, hc⟩ := List.mem_filterMap.mp h
  unfold segComponent at hc
  split at hc
  · cases hc
  · split at hc
    · cases hc
      exact Or.inl rfl
    · cases hc
      exact Or.inr ⟨seg, rfl⟩

/-- A file name is one piece, which is a name. -/
theorem fileName_eq_some {p name : List Char} (h : fileName p = some name) :
    isAbsolute name = false ∧ body (splitSlash name) = [.normal name] := by
  have hmem : .normal name ∈ components p := by
    unfold fileName at h
    split at h
    · next last hlast =>
      cases h
      exact List.mem_of_getLast? hlast
    · cases h
  have hbody : .normal name ∈ body (splitSlash p) := by
    unfold components at hmem
    split at hmem
    · simpa using hmem
    · split at hmem
      · simpa using hmem
      · exact hmem
  obtain ⟨seg, hseg, hc⟩ := List.mem_filterMap.mp hbody
  have hname : seg = name := by
    unfold segComponent at hc
    split at hc
    · cases hc
    · split at hc <;> cases hc
      rfl
  subst hname
  have hslash := no_slash_of_mem_splitSlash hseg
  rw [splitSlash_no_slash hslash, body, List.filterMap_cons_some hc]
  refine ⟨?_, rfl⟩
  cases seg with
  | nil => rfl
  | cons c rest =>
    have hne : c ≠ '/' := fun heq => hslash (heq ▸ List.mem_cons_self)
    simp [isAbsolute, hne]

end Split

/-! ## Normalisation -/

/-- One component onto a stack of resolved ones, innermost first. -/
def normStep (stack : List Component) : Component → List Component
  | .rootDir => [.rootDir]
  | .curDir => stack
  | .normal n => .normal n :: stack
  | .parentDir =>
    match stack with
    | .normal _ :: rest => rest
    | .rootDir :: _ => stack
    | _ => .parentDir :: stack

/-- The path with `.` and `..` resolved. -/
def normalise (p : List Char) : List Component := ((components p).foldl normStep []).reverse

theorem foldl_normStep_names : ∀ (names : List (List Char)) (stack : List Component),
    (names.map .normal).foldl normStep stack = (names.map .normal).reverse ++ stack
  | [], _ => rfl
  | name :: names, stack => by
    rw [List.map_cons, List.foldl_cons, foldl_normStep_names names]
    simp [normStep]

/-- A root and names behind it are resolved. -/
theorem normalise_of_names {p : List Char} {names : List (List Char)}
    (h : components p = .rootDir :: names.map .normal) : normalise p = components p := by
  rw [normalise, h, List.foldl_cons, foldl_normStep_names]
  simp [normStep]

/-- Components that are all names. -/
theorem exists_names : ∀ {cs : List Component}, (∀ c ∈ cs, ∃ name, c = .normal name) →
    ∃ names : List (List Char), cs = names.map .normal
  | [], _ => ⟨[], rfl⟩
  | c :: cs, h => by
    obtain ⟨name, rfl⟩ := h c List.mem_cons_self
    obtain ⟨names, rfl⟩ := exists_names fun c hc => h c (List.mem_cons_of_mem _ hc)
    exact ⟨name :: names, rfl⟩

/-- Normalised, `p` is `base` followed by ordinary names. -/
def Under (base p : List Char) : Prop :=
  ∃ names : List (List Char), normalise p = normalise base ++ names.map .normal

theorem Under.refl (p : List Char) : Under p p := ⟨[], by simp⟩

theorem Under.trans {a b c : List Char} (h : Under a b) (h' : Under b c) : Under a c := by
  obtain ⟨names, hn⟩ := h
  obtain ⟨names', hn'⟩ := h'
  exact ⟨names ++ names', by rw [hn', hn, List.map_append, List.append_assoc]⟩

/-- A path under another one begins like it. -/
theorem Under.getElem? {base p : List Char} (h : Under base p) {i : Nat}
    (hi : i < (normalise base).length) : (normalise p)[i]? = (normalise base)[i]? := by
  obtain ⟨names, hn⟩ := h
  rw [hn, List.getElem?_append_left hi]

/-- How many names deep one ends up; `none` once a `..` leaves the starting point. -/
def walk : Nat → List Component → Option Nat
  | d, [] => some d
  | d, .normal _ :: rest => walk (d + 1) rest
  | d, .curDir :: rest => walk d rest
  | d + 1, .parentDir :: rest => walk d rest
  | 0, .parentDir :: _ => none
  | _, .rootDir :: _ => none

theorem walk_append : ∀ (a b : List Component) (d : Nat),
    walk d (a ++ b) = (walk d a).bind fun e => walk e b
  | [], _, _ => rfl
  | .normal _ :: a, b, d => walk_append a b (d + 1)
  | .curDir :: a, b, d => walk_append a b d
  | .parentDir :: a, b, d + 1 => walk_append a b d
  | .parentDir :: _, _, 0 => rfl
  | .rootDir :: _, _, _ => by simp [walk]

/-- A relative path none of whose leading parts has more `..` than names. -/
def Contained (p : List Char) : Prop :=
  isAbsolute p = false ∧ (walk 0 (body (splitSlash p))).isSome

/-- **A walk that does not leave its start only adds names to the stack.** -/
theorem foldl_normStep_of_walk : ∀ (cs : List Component) (names : List (List Char))
    (base : List Component) {e : Nat}, walk names.length cs = some e →
    ∃ names' : List (List Char), names'.length = e ∧
      cs.foldl normStep (names.map .normal ++ base) = names'.map .normal ++ base
  | [], names, base, e, h => ⟨names, by simpa [walk] using h, rfl⟩
  | .normal n :: cs, names, base, e, h => foldl_normStep_of_walk cs (n :: names) base h
  | .curDir :: cs, names, base, e, h => foldl_normStep_of_walk cs names base h
  | .parentDir :: cs, [], base, e, h => by cases h
  | .parentDir :: cs, n :: names, base, e, h => foldl_normStep_of_walk cs names base h
  | .rootDir :: cs, names, base, e, h => by
    cases hl : names.length <;> rw [hl] at h <;> cases h

/-- A walk that fails does so at a `..` at depth zero. -/
theorem walk_eq_none : ∀ {cs : List Component} {d : Nat}, .rootDir ∉ cs → walk d cs = none →
    ∃ pre post, cs = pre ++ .parentDir :: post ∧ walk d pre = some 0
  | [], d, _, h => by cases h
  | .normal n :: cs, d, hr, h => by
    obtain ⟨pre, post, rfl, hw⟩ :=
      walk_eq_none (d := d + 1) (fun hm => hr (List.mem_cons_of_mem _ hm)) h
    exact ⟨.normal n :: pre, post, rfl, hw⟩
  | .curDir :: cs, d, hr, h => by
    have h' : walk d cs = none := by cases d <;> exact h
    obtain ⟨pre, post, rfl, hw⟩ := walk_eq_none (fun hm => hr (List.mem_cons_of_mem _ hm)) h'
    exact ⟨.curDir :: pre, post, rfl, by cases d <;> exact hw⟩
  | .parentDir :: cs, 0, _, _ => ⟨[], cs, rfl, rfl⟩
  | .parentDir :: cs, d + 1, hr, h => by
    obtain ⟨pre, post, rfl, hw⟩ :=
      walk_eq_none (d := d) (fun hm => hr (List.mem_cons_of_mem _ hm)) h
    exact ⟨.parentDir :: pre, post, rfl, hw⟩
  | .rootDir :: cs, d, hr, _ => absurd List.mem_cons_self hr

/-- Names on the resolved stack were on it before, or are in the path. -/
theorem mem_foldl_normStep {n : List Char} : ∀ {cs stack : List Component},
    .normal n ∈ cs.foldl normStep stack → .normal n ∈ stack ∨ .normal n ∈ cs
  | [], _, h => Or.inl h
  | c :: cs, stack, h => by
    have h' : .normal n ∈ cs.foldl normStep (normStep stack c) := h
    rcases mem_foldl_normStep h' with hmem | hmem
    · cases c with
      | rootDir => simp [normStep] at hmem
      | curDir => exact Or.inl hmem
      | normal m =>
        rcases List.mem_cons.mp hmem with heq | hmem
        · exact Or.inr (heq ▸ List.mem_cons_self)
        · exact Or.inl hmem
      | parentDir =>
        left
        simp only [normStep] at hmem
        split at hmem
        · exact List.mem_cons_of_mem _ hmem
        · exact hmem
        · simpa using hmem
    · exact Or.inr (List.mem_cons_of_mem _ hmem)

/-! ## Containment -/

/-- **Joining a contained path stays under the base.** -/
theorem under_join {p : List Char} (base : List Char) (h : Contained p) :
    Under base (join base p) := by
  obtain ⟨hrel, hwalk⟩ := h
  obtain ⟨e, he⟩ := Option.isSome_iff_exists.mp hwalk
  by_cases hb : base = []
  · subst hb
    have hjoin : join [] p = p := by simp [join, hrel]
    -- a leading `.` adds nothing
    have hfold : (components p).foldl normStep [] = (body (splitSlash p)).foldl normStep [] := by
      unfold components
      rw [if_neg (by simp [hrel])]
      split <;> rfl
    obtain ⟨names, -, hn⟩ := foldl_normStep_of_walk (body (splitSlash p)) [] [] he
    refine ⟨names.reverse, ?_⟩
    rw [hjoin, normalise, hfold]
    simp only [List.map_nil, List.append_nil] at hn
    rw [hn, List.map_reverse]
    rfl
  · obtain ⟨names, -, hn⟩ := foldl_normStep_of_walk (body (splitSlash p)) []
      ((components base).foldl normStep []) he
    refine ⟨names.reverse, ?_⟩
    simp only [List.map_nil, List.nil_append] at hn
    rw [normalise, components_join hrel hb, List.foldl_append, hn, List.reverse_append,
      List.map_reverse]
    rfl

/-- A name that is longer than the path occurs nowhere in it. -/
def freshName (p : List Char) : List Char := List.replicate (p.length + 2) 'x'

theorem length_freshName (p : List Char) : (freshName p).length = p.length + 2 :=
  List.length_replicate

theorem components_fresh (p : List Char) :
    components ('/' :: freshName p) = [.rootDir, .normal (freshName p)] := by
  have hno : '/' ∉ freshName p := fun h => by
    have := (List.mem_replicate.mp h).2
    revert this
    decide
  have hseg : segComponent (freshName p) = some (.normal (freshName p)) := by
    have hx : freshName p = 'x' :: List.replicate (p.length + 1) 'x' := List.replicate_succ
    unfold segComponent
    rw [hx, if_neg (by simp), if_neg (by simp)]
  have hsplit : splitSlash ('/' :: freshName p) = [[], freshName p] := by
    simp [splitSlash, splitSlash_no_slash hno]
  have habs : isAbsolute ('/' :: freshName p) = true := rfl
  have hbody : body [[], freshName p] = [.normal (freshName p)] := by
    show List.filterMap segComponent [freshName p] = _
    rw [List.filterMap_cons_some hseg]
    rfl
  unfold components
  rw [if_pos habs, hsplit, hbody]

/-- **Any other path leaves some base.** -/
theorem exists_not_under_join {p : List Char} (h : ¬ Contained p) :
    ∃ base, isAbsolute base = true ∧ ¬ Under base (join base p) := by
  have hfresh : .normal (freshName p) ∉ body (splitSlash p) := by
    intro hm
    have hle := length_le_of_mem_splitSlash (mem_body hm)
    rw [length_freshName] at hle
    omega
  -- it is enough that the name of the base is gone
  suffices hgone : .normal (freshName p) ∉
      (components (join ('/' :: freshName p) p)).foldl normStep [] by
    refine ⟨'/' :: freshName p, rfl, ?_⟩
    rintro ⟨names, hn⟩
    refine hgone (List.mem_reverse.mp ?_)
    show .normal (freshName p) ∈ normalise (join ('/' :: freshName p) p)
    rw [hn, normalise, components_fresh]
    simp [normStep]
  by_cases habs : isAbsolute p = true
  · intro hm
    have hjoin : join ('/' :: freshName p) p = p := by simp [join, habs]
    rw [hjoin, components, if_pos habs] at hm
    rcases mem_foldl_normStep hm with hm | hm
    · cases hm
    · rcases List.mem_cons.mp hm with hm | hm
      · cases hm
      · exact hfresh hm
  · have hrel : isAbsolute p = false := by simpa using habs
    have hwalk : walk 0 (body (splitSlash p)) = none := by
      by_contra hne
      exact h ⟨hrel, Option.isSome_iff_ne_none.mpr hne⟩
    obtain ⟨pre, post, hsplit, hpre⟩ := walk_eq_none (rootDir_notMem_body _) hwalk
    obtain ⟨names, hlen, hfold⟩ := foldl_normStep_of_walk pre []
      [.normal (freshName p), .rootDir] hpre
    obtain rfl := List.length_eq_zero_iff.mp hlen
    intro hm
    rw [components_join hrel (by simp), components_fresh, hsplit] at hm
    simp only [List.foldl_append, List.foldl_cons, List.foldl_nil, normStep] at hm
    simp only [List.map_nil, List.nil_append] at hfold
    rw [hfold] at hm
    rcases mem_foldl_normStep hm with hm | hm
    · simp at hm
    · exact hfresh (by rw [hsplit]; exact List.mem_append_right _ (List.mem_cons_of_mem _ hm))

/-- Without `..` there is no way out. -/
theorem Contained.of_no_parent {p : List Char} (hrel : isAbsolute p = false)
    (h : .parentDir ∉ components p) : Contained p := by
  rw [parentDir_mem_components] at h
  refine ⟨hrel, ?_⟩
  by_contra hnone
  obtain ⟨pre, post, hsplit, -⟩ := walk_eq_none (d := 0) (rootDir_notMem_body _)
    (by simpa using hnone)
  exact h (by rw [hsplit]; simp)

/-- A suffix without separator makes the last piece an ordinary name. -/
theorem Contained.append {p s : List Char} (h : Contained p) (hslash : '/' ∉ s)
    (hlen : 2 < s.length) : Contained (p ++ s) := by
  obtain ⟨hrel, hwalk⟩ := h
  refine ⟨?_, ?_⟩
  · cases p with
    | nil =>
      cases s with
      | nil => rfl
      | cons c s =>
        have hc : c ≠ '/' := fun hc => hslash (hc ▸ List.mem_cons_self)
        simp [isAbsolute, hc]
    | cons c p => exact hrel
  · obtain ⟨init, last, hp, hps⟩ := splitSlash_append_no_slash p hslash
    have hseg : segComponent (last ++ s) = some (.normal (last ++ s)) := by
      have hne : ∀ t : List Char, t.length ≤ 2 → last ++ s ≠ t := by
        rintro t ht rfl
        simp only [List.length_append] at ht
        omega
      unfold segComponent
      rw [if_neg (by simp [hne [] (by simp), hne ['.'] (by simp)]), if_neg (hne _ (by simp))]
    rw [hp, body_append, walk_append] at hwalk
    rw [hps, body_append, walk_append]
    cases hw : walk 0 (body init) with
    | none => rw [hw] at hwalk; cases hwalk
    | some e => simp [body, hseg, walk]

end Path

end Infra
