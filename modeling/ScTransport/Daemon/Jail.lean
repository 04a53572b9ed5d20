import ScTransport.Fec.Reference
import ScTransport.Infra.Path

/-!
# Where a receive writes

The receiver joins the file name of the manifest onto its output directory. The daemon jails
the submitted destination under `server.output_base_dir` and hands the result to the receiver
as that directory. Nobody looks at the file name, which the peer chooses.

* `jailUnderBase_under` — the jail holds for every destination
* `receive_contained_iff` — the files of a receive stay inside exactly for contained file names
-/

namespace ScTransport

open Infra Infra.Path

/-! ## The receiver's paths -/

/-- Where the receiver was told to write. -/
structure ReceiverDirs where
  outputDir : List Char
  tempDir : Option (List Char)

def hexTransferId (id : Bytes) : List Char :=
  id.flatMap fun b => [hexDigit (b.toNat / 16), hexDigit (b.toNat % 16)]

def ReceiverDirs.tempBaseDir (d : ReceiverDirs) : List Char := d.tempDir.getD d.outputDir

def finalPath (d : ReceiverDirs) (m : TransferManifest) : List Char := join d.outputDir m.filename

/-- What is appended to the file name for the part file and the state file. -/
def tempSuffix (m : TransferManifest) (ext : String) : List Char :=
  '.' :: (hexTransferId m.transferId ++ ext.toList)

def tempPath (d : ReceiverDirs) (m : TransferManifest) : List Char :=
  join d.tempBaseDir (m.filename ++ tempSuffix m ".part")

def statePath (d : ReceiverDirs) (m : TransferManifest) : List Char :=
  join d.tempBaseDir (m.filename ++ tempSuffix m ".state.json")

/-- Everything `accept_transfer` creates, truncates or renames. A receive of the daemon also starts
`SctEndpoint::server`, which creates the identity files in `sct_home_dir` if they are not
there yet; their paths do not depend on the peer or on the destination and are left out. -/
def receivePaths (d : ReceiverDirs) (m : TransferManifest) : List (List Char) :=
  [d.outputDir, d.tempBaseDir, tempPath d m, statePath d m, finalPath d m]

/-! ## The jail -/

inductive JailError where
  | escapes
  deriving DecidableEq

def JailError.text : JailError → String
  | .escapes => "destination escapes output_base_dir"

/-- `jail_under_base`, from the canonical form of the base on. -/
def jailUnderBase (baseCanon userPath : List Char) : Except JailError (List Char) :=
  let rel := stripRoot userPath
  if .parentDir ∈ components rel then .error .escapes
  else
    let joined := join baseCanon rel
    if startsWith joined baseCanon then .ok joined else .error .escapes

def resolveOutputDir (baseCanon destination : List Char) : Except JailError (List Char) :=
  jailUnderBase baseCanon destination

/-! ## Containment -/

/-- **The jail holds.** -/
theorem jailUnderBase_under {base user p : List Char} (h : jailUnderBase base user = .ok p) :
    Under base p := by
  simp only [jailUnderBase] at h
  split at h
  · cases h
  · next hno =>
    split at h
    · cases h
      exact under_join base (.of_no_parent (isAbsolute_stripRoot user) hno)
    · cases h

/-- Every `..` is refused, also one that would lead back inside. -/
theorem jailUnderBase_of_parent {user : List Char} (base : List Char)
    (h : .parentDir ∈ components user) : jailUnderBase base user = .error .escapes := by
  simp only [jailUnderBase]
  rw [if_pos (parentDir_mem_stripRoot.mpr h)]

theorem hexDigit_ne_slash : ∀ n < 16, hexDigit n ≠ '/' := by decide

theorem no_slash_tempSuffix (m : TransferManifest) {ext : String} (h : '/' ∉ ext.toList) :
    '/' ∉ tempSuffix m ext := by
  intro hm
  rcases List.mem_cons.mp hm with hm | hm
  · revert hm
    decide
  · rcases List.mem_append.mp hm with hm | hm
    · obtain ⟨b, -, hb⟩ := List.mem_flatMap.mp hm
      have hlt := b.toNat_lt
      simp only [List.mem_cons, List.not_mem_nil, or_false] at hb
      rcases hb with hb | hb
      · exact hexDigit_ne_slash _ (by omega) hb.symm
      · exact hexDigit_ne_slash _ (by omega) hb.symm
    · exact h hm

/-- The temporary names of a contained file name are contained. -/
theorem Contained.temp {m : TransferManifest} (h : Contained m.filename) {ext : String}
    (hslash : '/' ∉ ext.toList) (hlen : 2 ≤ ext.toList.length) :
    Contained (m.filename ++ tempSuffix m ext) := by
  refine h.append (no_slash_tempSuffix m hslash) ?_
  simp only [tempSuffix, List.length_cons, List.length_append]
  omega

theorem receivePaths_under {m : TransferManifest} (h : Contained m.filename) (d : ReceiverDirs) :
    Under d.outputDir (finalPath d m) ∧ Under d.tempBaseDir (tempPath d m) ∧
      Under d.tempBaseDir (statePath d m) :=
  ⟨under_join _ h, under_join _ (Contained.temp h (by decide) (by decide)),
    under_join _ (Contained.temp h (by decide) (by decide))⟩

/--
**The files of a receive stay inside exactly for contained file names.**

On the left: for every configuration of the receiver, and for every destination given to the
daemon. On the right: the file name is relative and no leading part of it has more `..` than
names.
-/
theorem receive_contained_iff (m : TransferManifest) :
    ((∀ d : ReceiverDirs, Under d.outputDir (finalPath d m) ∧
        Under d.tempBaseDir (tempPath d m) ∧ Under d.tempBaseDir (statePath d m)) ∧
      ∀ base destination outDir, resolveOutputDir base destination = .ok outDir →
        ∀ p ∈ receivePaths ⟨outDir, none⟩ m, Under base p) ↔
    Contained m.filename := by
  constructor
  · rintro ⟨hall, -⟩
    by_contra hno
    obtain ⟨base, -, hescape⟩ := exists_not_under_join hno
    exact hescape (hall ⟨base, none⟩).1
  · intro h
    refine ⟨receivePaths_under h, fun base destination outDir hjail p hp => ?_⟩
    have hbase : Under base outDir := jailUnderBase_under hjail
    obtain ⟨hfinal, htemp, hstate⟩ := receivePaths_under h ⟨outDir, none⟩
    simp only [receivePaths, List.mem_cons, List.not_mem_nil, or_false] at hp
    rcases hp with rfl | rfl | rfl | rfl | rfl
    · exact hbase
    · exact hbase
    · exact hbase.trans htemp
    · exact hbase.trans hstate
    · exact hbase.trans hfinal

/-- The sample's manifest under another file name. -/
def sampleNamed (filename : String) : TransferManifest :=
  { sample.manifest Crates.reference with filename := filename.toList }

/-- An absolute file name replaces the jailed directory, and `..` leaves it. -/
theorem sample_receive_escapes :
    resolveOutputDir "/data/incoming".toList "in".toList = .ok "/data/incoming/in".toList ∧
    finalPath ⟨"/data/incoming/in".toList, none⟩ (sampleNamed "/etc/passwd")
      = "/etc/passwd".toList ∧
    ¬ Under "/data/incoming".toList "/etc/passwd".toList ∧
    ¬ Under "/data/incoming".toList
      (finalPath ⟨"/data/incoming/in".toList, none⟩ (sampleNamed "../../x")) := by
  refine ⟨by decide, by decide, fun h => ?_, fun h => ?_⟩
  · have hfirst := h.getElem? (i := 1) (by decide)
    revert hfirst
    decide
  · have hsecond := h.getElem? (i := 2) (by decide)
    revert hsecond
    decide

end ScTransport
