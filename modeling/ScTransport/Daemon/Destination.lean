import ScTransport.Daemon.Jail

/-!
# Where a submitted transfer goes

`resolve_destination` jails the destination under the output directory and appends the file name
of the source when the destination is a directory. Everything here is about strings: symbolic
links inside the output directory are not followed.

* `resolveDestination` — the source
* `Inside` — the components of a path are those of the base, then names
* `Inside.of_jail`, `Inside.join_fileName` — what the jail and the appended name do to it
* `destination_inside` — every path that is returned is inside, and which ones are refused
-/

namespace ScTransport

open Infra Infra.Path

inductive DestinationError where
  | jail (error : JailError)
  | noFileName
  deriving DecidableEq

def DestinationError.text : DestinationError → String
  | .jail error => error.text
  | .noFileName => "source path has no file name"

/-- `isDir` is what the file system says about the jailed path. -/
def resolveDestination (isDir : List Char → Bool) (baseCanon destination src : List Char) :
    Except DestinationError (List Char) := do
  let dst ← (jailUnderBase baseCanon destination).mapError .jail
  if destination.getLast? = some '/' ∨ isDir dst then
    match fileName src with
    | none => throw .noFileName
    | some name => return join dst name
  else return dst

/-! ## Containment -/

/-- A canonical directory: absolute, without `.` and `..`. -/
structure Canonical (base : List Char) : Prop where
  absolute : isAbsolute base = true
  plain : ∀ c ∈ components base, c ≠ .curDir ∧ c ≠ .parentDir

/-- `p` is `base` and names behind it. -/
def Inside (base p : List Char) : Prop :=
  ∃ names : List (List Char), components p = components base ++ names.map .normal

theorem Canonical.ne_nil {base : List Char} (h : Canonical base) : base ≠ [] := by
  rintro rfl
  cases h.absolute

theorem Canonical.components {base : List Char} (h : Canonical base) :
    ∃ names : List (List Char), components base = .rootDir :: names.map .normal := by
  have hplain := h.plain
  unfold Path.components at hplain ⊢
  rw [if_pos h.absolute] at hplain ⊢
  have hall : ∀ c ∈ body (splitSlash base), ∃ name, c = .normal name := fun c hc =>
    (body_cases hc).resolve_left (hplain c (List.mem_cons_of_mem _ hc)).2
  obtain ⟨names, hnames⟩ := exists_names hall
  exact ⟨names, by rw [hnames]⟩

/-- Normalising such a path leaves the base and names. -/
theorem Inside.normalise {base p : List Char} (hbase : Canonical base) (h : Inside base p) :
    Path.normalise p = Path.components p ∧ Path.normalise base = Path.components base := by
  obtain ⟨names, hp⟩ := h
  obtain ⟨names₀, hb⟩ := hbase.components
  have hcomponents : Path.components p = .rootDir :: (names₀ ++ names).map .normal := by
    rw [hp, hb, List.map_append]
    rfl
  exact ⟨normalise_of_names hcomponents, normalise_of_names hb⟩

/-- What the jail joins is the base and the names of the user's path. -/
theorem components_jail {base user : List Char} (hbase : Canonical base)
    (h : .parentDir ∉ components user) : Inside base (join base (stripRoot user)) := by
  have hno : .parentDir ∉ body (splitSlash user) := fun hmem =>
    h (parentDir_mem_components.mpr hmem)
  have hall : ∀ c ∈ body (splitSlash user), ∃ name, c = .normal name := fun c hc =>
    (body_cases hc).resolve_left fun heq => hno (heq ▸ hc)
  obtain ⟨names, hnames⟩ := exists_names hall
  refine ⟨names, ?_⟩
  rw [components_join (isAbsolute_stripRoot user) hbase.ne_nil, body_stripRoot, hnames]

theorem Inside.startsWith {base p : List Char} (h : Inside base p) :
    Path.startsWith p base = true := by
  obtain ⟨names, hp⟩ := h
  rw [Path.startsWith, hp, List.isPrefixOf_iff_prefix]
  exact List.prefix_append _ _

/-- The jail decides by `..` alone. -/
theorem jailUnderBase_eq {base user : List Char} (hbase : Canonical base) :
    jailUnderBase base user =
      if .parentDir ∈ components user then .error .escapes
      else .ok (join base (stripRoot user)) := by
  by_cases hparent : .parentDir ∈ components user
  · rw [if_pos hparent, jailUnderBase_of_parent base hparent]
  · rw [if_neg hparent]
    simp only [jailUnderBase]
    rw [if_neg fun h => hparent (parentDir_mem_stripRoot.mp h),
      if_pos (components_jail hbase hparent).startsWith]

theorem Inside.of_jail {base user p : List Char} (hbase : Canonical base)
    (h : jailUnderBase base user = .ok p) : Inside base p := by
  rw [jailUnderBase_eq hbase] at h
  split at h
  · cases h
  · next hparent =>
    cases h
    exact components_jail hbase hparent

/-- A file name, from whatever path, is one more name. -/
theorem Inside.join_fileName {base p src name : List Char} (hbase : Canonical base)
    (h : Inside base p) (hname : fileName src = some name) : Inside base (join p name) := by
  obtain ⟨habs, hbody⟩ := fileName_eq_some hname
  obtain ⟨names, hp⟩ := h
  have hne : p ≠ [] := by
    rintro rfl
    obtain ⟨names₀, hb⟩ := hbase.components
    rw [hb] at hp
    cases hp
  refine ⟨names ++ [name], ?_⟩
  rw [components_join habs hne, hbody, hp, List.map_append, List.append_assoc]
  rfl

theorem Inside.of_resolveDestination {isDir : List Char → Bool}
    {base destination src p : List Char} (hbase : Canonical base)
    (h : resolveDestination isDir base destination src = .ok p) : Inside base p := by
  unfold resolveDestination at h
  cases hjail : jailUnderBase base destination with
  | error e =>
    rw [hjail] at h
    cases h
  | ok dst =>
    have hdst := Inside.of_jail hbase hjail
    rw [hjail] at h
    change (if destination.getLast? = some '/' ∨ isDir dst then _ else _) = _ at h
    split at h
    · cases hname : fileName src with
      | none =>
        simp only [hname] at h
        cases h
      | some name =>
        simp only [hname] at h
        cases h
        exact hdst.join_fileName hbase hname
    · cases h
      exact hdst

/--
**The destination jail holds for every string.** Whatever the destination and the source are, the
components of a returned path are those of the base and then names, and so is the normalised path.
A path is refused as escaping exactly when it has a `..`.
-/
theorem destination_inside (base : List Char) (hbase : Canonical base) :
    (∀ user p, jailUnderBase base user = .ok p → Inside base p) ∧
    (∀ destination p, resolveOutputDir base destination = .ok p → Inside base p) ∧
    (∀ isDir destination src p, resolveDestination isDir base destination src = .ok p →
      Inside base p) ∧
    (∀ p, Inside base p → normalise p = components p ∧ normalise base = components base) ∧
    ∀ user, jailUnderBase base user = .error .escapes ↔ .parentDir ∈ components user := by
  refine ⟨fun user p h => .of_jail hbase h, fun destination p h => .of_jail hbase h,
    fun isDir destination src p h => .of_resolveDestination hbase h,
    fun p h => h.normalise hbase, fun user => ?_⟩
  rw [jailUnderBase_eq hbase]
  split
  · next hparent => exact ⟨fun _ => hparent, fun _ => rfl⟩
  · next hparent => exact ⟨nofun, fun h => absurd h hparent⟩

theorem canonical_sample : Canonical "/data/incoming".toList := by
  refine ⟨by decide, ?_⟩
  intro c hc
  have hcs : components "/data/incoming".toList =
      [.rootDir, .normal "data".toList, .normal "incoming".toList] := by decide
  rw [hcs] at hc
  simp only [List.mem_cons, List.not_mem_nil, or_false] at hc
  rcases hc with rfl | rfl | rfl <;> exact ⟨nofun, nofun⟩

/-- Slashes and dots of the destination do not matter, and the source gives one name. -/
theorem sample_destination_inside :
    resolveDestination (fun _ => false) "/data/incoming".toList "//etc/./x//".toList
      "../../boot/img/.".toList = .ok "/data/incoming/etc/./x/img".toList ∧
    Inside "/data/incoming".toList "/data/incoming/etc/./x/img".toList ∧
    jailUnderBase "/data/incoming".toList "/a/../b".toList = .error .escapes := by
  obtain ⟨-, -, hdestination, -, hescapes⟩ :=
    destination_inside "/data/incoming".toList canonical_sample
  have hok : resolveDestination (fun _ => false) "/data/incoming".toList "//etc/./x//".toList
      "../../boot/img/.".toList = .ok "/data/incoming/etc/./x/img".toList := by decide
  exact ⟨hok, hdestination _ _ _ _ hok, (hescapes _).mpr (by decide)⟩

end ScTransport
