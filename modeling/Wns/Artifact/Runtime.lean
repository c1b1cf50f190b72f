import Wns.Artifact.OutputPath
import Wns.Common.Loop
import Wns.Ecma.Json
import Wns.Ecma.Utf8

/-!
# The runtime and its identity

Model of `checkRuntimeAvailable` and `detectRuntimeIdentity` of `scripts/archify-safe.mjs`
(lines 254–307). The runtime belongs to the nearest package above it that has a version: the
search goes up at most 64 directories and passes by a `package.json` that cannot be read, is
not JSON or has no version. What is above it is read off the string, which is not normalized.

* `detectedVersion_iff`: the version that is detected is that of the nearest package.
* `nearest_iff`: above a normalized path are the directories that it lies in.
* `detectRuntimeIdentity_iff`: a runtime is refused iff the nearest package has another version.
-/

namespace Wns.Artifact

open Ecma Posix NodePath

/-! ## The disk -/

/-- What is known of a file. It is readable if `readFile` returns its bytes. -/
structure FileInfo where
  regular : Bool
  readable : Bool
  executable : Bool
  bytes : List UInt8

/-- A directory tree with its files, how many links the host follows, and the working directory
    of the process. -/
structure Disk extends HostTree where
  info : FilePath → FileInfo
  links : ℕ
  workingDirectory : FilePath

/-- A component of a path string, as the host takes it. -/
def component (c : JsString) : Component JsString :=
  if c = [] ∨ c = js "." then .self else if c = js ".." then .parent else .name c

/-- What `stat` finds. -/
inductive Stat
  | directory
  | file (info : FileInfo)

namespace Disk

variable (disk : Disk)

/-- `realpath(s)`. -/
def realpath (s : JsString) : Except Errno FilePath :=
  if (0 : CodeUnit) ∈ s then .error .invalid
  else if s = [] then .error .noEntry
  else
    (walk disk.toFileTree disk.links (if isAbsolute s then [] else disk.workingDirectory)
      ((components s).map component)).map Prod.fst

/-- `stat(s)`. -/
def stat (s : JsString) : Except Errno Stat :=
  match disk.realpath s with
  | .error e => .error e
  | .ok p =>
    match disk.node p with
    | some .dir => .ok .directory
    | some .file => .ok (.file (disk.info p))
    | _ => .error .noEntry

/-- `existsSync(s)`. -/
def existsSync (s : JsString) : Bool := (disk.stat s).isOk

/-- `readFile(s)`; `none` stands for an error. -/
def readFile (s : JsString) : Option (List UInt8) :=
  match disk.stat s with
  | .ok (.file info) => if info.readable then some info.bytes else none
  | _ => none

end Disk

/-! ## Availability -/

/-- Why a runtime is not available. -/
inductive Unavailability
  | notSupplied | notAbsolute | notFound | notRegularFile | notExecutable
  deriving DecidableEq

/-- The `reason` of `checkRuntimeAvailable`. -/
def Unavailability.reason : Unavailability → JsString
  | .notSupplied => "runtime_not_supplied"
  | .notAbsolute => "runtime_not_absolute"
  | .notFound => "runtime_not_found"
  | .notRegularFile => "runtime_not_regular_file"
  | .notExecutable => "runtime_not_executable"

/-- `checkRuntimeAvailable(runtimePath)`: the path of a runtime that is available. -/
def checkRuntimeAvailable (disk : Disk) (runtimePath : Option JsString) :
    Except Unavailability JsString :=
  match runtimePath with
  | none | some [] => .error .notSupplied
  | some path =>
    if ¬ isAbsolute path then .error .notAbsolute
    else
      match disk.stat path with
      | .error _ => .error .notFound
      | .ok .directory => .error .notRegularFile
      | .ok (.file info) =>
        if ¬ info.regular then .error .notRegularFile
        else if ¬ info.executable then .error .notExecutable
        else .ok path

/-! ## Identity -/

/-- `ARCHIFY_EXPECTED_VERSION`. -/
def expectedVersion : JsString := "2.16.0"

/-- `MAX_PACKAGE_JSON_SEARCH_DEPTH`. -/
def maxSearchDepth : ℕ := 64

/-- `JSON.parse(raw).version`, where it is a string that is not empty. -/
def versionOf (raw : JsString) : Option JsString :=
  match Ecma.parse raw with
  | some (.obj parsed) =>
    match prop parsed "version" with
    | .str version => if version ≠ [] then some version else none
    | _ => none
  | _ => none

/-- The version of the package in an absolute directory, if it has one that can be read. -/
def packageVersion (disk : Disk) (dir : JsString) : Option JsString :=
  let candidate := text (join (resolve [] dir) "package.json")
  if disk.existsSync candidate then
    (disk.readFile candidate).bind fun raw => versionOf (decodeUtf8 raw)
  else none

/-- The version that is found on the way up from a runtime. -/
def detectedVersion (disk : Disk) (runtimePath : JsString) : Option JsString :=
  climb (packageVersion disk) dirname maxSearchDepth (dirname runtimePath)

/-- What is known of a runtime's identity. -/
inductive Identity
  | verified (version : JsString)
  | mismatch (version : JsString)
  | unverified
  deriving DecidableEq

/-- `detectRuntimeIdentity(runtimePath)`. -/
def detectRuntimeIdentity (disk : Disk) (runtimePath : JsString) : Identity :=
  match detectedVersion disk runtimePath with
  | some version => if version = expectedVersion then .verified version else .mismatch version
  | none => .unverified

/-! ## The nearest package -/

/-- A path whose names are names: it has one text. -/
def Normal (p : FilePath) : Prop := ∀ n ∈ p, IsName n ∧ slash ∉ n

theorem joinNames_concat {p : FilePath} (hp : p ≠ []) (n : JsString) :
    joinNames (p ++ [n]) = joinNames p ++ slash :: n := by
  induction p with
  | nil => exact absurd rfl hp
  | cons m p ih =>
    cases p with
    | nil => simp [joinNames]
    | cons m' p =>
      have htail := ih (List.cons_ne_nil m' p)
      simp only [joinNames, List.cons_append, List.intercalate_cons_cons] at htail ⊢
      rw [htail]
      simp

theorem text_concat (p : FilePath) (n : JsString) :
    text (p ++ [n]) = (if p = [] then [] else text p) ++ slash :: n := by
  unfold text
  split_ifs with hp
  · rw [hp]
    simp [joinNames]
  · rw [joinNames_concat hp, List.cons_append]

theorem length_text {p : FilePath} (hp : Normal p) (hne : p ≠ []) : 2 ≤ (text p).length := by
  obtain ⟨q, n, rfl⟩ := (List.eq_nil_or_concat' p).resolve_left hne
  have hn := (hp n (List.mem_append_right _ (List.mem_singleton_self n))).1.1
  have hlen : 0 < n.length := List.length_pos_iff.mpr hn
  rw [text_concat, List.length_append, List.length_cons]
  omega

/-- The directory of a path. -/
theorem dirname_text {p : FilePath} {n : JsString} (h : Normal (p ++ [n])) :
    dirname (text (p ++ [n])) = text p := by
  obtain ⟨⟨hn, -⟩, hslash⟩ := h n (List.mem_append_right _ (List.mem_singleton_self n))
  have hp : Normal p := fun m hm => h m (List.mem_append_left _ hm)
  have htrim : (text (p ++ [n])).rdropWhile (fun u => u = slash) = text (p ++ [n]) := by
    rw [List.rdropWhile_eq_self_iff]
    intro hne hlast
    rw [List.getLast_congr hne (by simp) (text_concat p n),
      List.getLast_append_of_ne_nil _ (by simp), List.getLast_cons hn,
      decide_eq_true_eq] at hlast
    exact hslash (hlast ▸ List.getLast_mem hn)
  have hhead : (text (p ++ [n])).rdropWhile (fun u => u ≠ slash) =
      (if p = [] then [] else text p) ++ [slash] := by
    rw [text_concat, List.rdropWhile, List.reverse_append, List.reverse_cons, List.append_assoc,
      List.dropWhile_append_of_pos (fun u hu => ?_)]
    · simp
    · exact decide_eq_true fun hu' => hslash (hu' ▸ List.mem_reverse.mp hu)
  have hroot : isAbsolute (text (p ++ [n])) = true := by simp [isAbsolute, text]
  unfold dirname
  simp only [htrim, hhead, hroot, true_and, if_true]
  by_cases hnil : p = []
  · subst hnil
    rfl
  · have hlen := length_text hp hnil
    rw [if_neg hnil, List.length_append, List.length_singleton, if_neg (by omega),
      if_neg (by omega), List.dropLast_concat]

/-- The directories above a path. -/
theorem iterate_dirname_text {dir rest : FilePath} (h : Normal (dir ++ rest)) :
    dirname^[rest.length] (text (dir ++ rest)) = text dir := by
  induction rest using List.reverseRecOn with
  | nil => rw [List.append_nil]; rfl
  | append_singleton rest n ih =>
    rw [← List.append_assoc] at h
    rw [List.length_append, List.length_singleton, Function.iterate_succ_apply,
      ← List.append_assoc, dirname_text h]
    exact ih fun m hm => h m (List.mem_append_left _ hm)

/-- The nearest package with a version, at most 64 directories up, has this one. A directory is
    followed by what `path.dirname` makes of it, which need not be its parent on the disk. -/
def Nearest (disk : Disk) (directory version : JsString) : Prop :=
  ∃ k < maxSearchDepth, packageVersion disk (dirname^[k] directory) = some version ∧
    ∀ j < k, packageVersion disk (dirname^[j] directory) = none

/-- The same along the directories of a path. -/
def NearestAbove (disk : Disk) (directory : FilePath) (version : JsString) : Prop :=
  ∃ dir rest, directory = dir ++ rest ∧ rest.length < maxSearchDepth ∧
    packageVersion disk (text dir) = some version ∧
    ∀ dir' rest', directory = dir' ++ rest' → rest'.length < rest.length →
      packageVersion disk (text dir') = none

theorem iterate_dirname_take {p : FilePath} (h : Normal p) {k : ℕ} (hk : k ≤ p.length) :
    dirname^[k] (text p) = text (p.take (p.length - k)) := by
  have hp := List.take_append_drop (p.length - k) p
  have hlen : (p.drop (p.length - k)).length = k := by
    rw [List.length_drop]
    omega
  have hiterate := iterate_dirname_text (hp.symm ▸ h)
  rwa [hlen, hp] at hiterate

section

variable {disk : Disk} {version : JsString}

/-- The version that is detected is that of the nearest package. -/
theorem detectedVersion_iff {runtimePath : JsString} :
    detectedVersion disk runtimePath = some version ↔
      Nearest disk (dirname runtimePath) version :=
  climb_eq_some_iff

/-- What is above a normalized path are its own directories. -/
theorem nearest_iff {p : FilePath} (hp : Normal p) :
    Nearest disk (text p) version ↔ NearestAbove disk p version := by
  constructor
  · intro ⟨k, hk, hfound, hbefore⟩
    have hle : k ≤ p.length := by
      -- above the root there is only the root, which has been looked at
      by_contra hlt
      have hroot : dirname^[p.length] (text p) = text [] := by
        rw [iterate_dirname_take hp le_rfl, Nat.sub_self, List.take_zero]
      have hnone := hbefore p.length (by omega)
      rw [← Nat.sub_add_cancel (Nat.le_of_not_le hlt), Function.iterate_add_apply, hroot,
        Function.iterate_fixed (by decide)] at hfound
      rw [hroot, hfound] at hnone
      cases hnone
    refine ⟨_, _, (List.take_append_drop (p.length - k) p).symm, ?_, ?_,
      fun dir' rest' hp' hlt => ?_⟩
    · rw [List.length_drop]
      omega
    · rwa [← iterate_dirname_take hp hle]
    · subst hp'
      rw [List.length_drop, List.length_append] at hlt
      rw [← iterate_dirname_text hp]
      exact hbefore _ (by rw [List.length_append] at hle; omega)
  · intro ⟨dir, rest, hp', hlt, hfound, hnearest⟩
    subst hp'
    refine ⟨rest.length, hlt, by rwa [iterate_dirname_text hp], fun j hj => ?_⟩
    rw [iterate_dirname_take hp (by rw [List.length_append]; omega)]
    refine hnearest _ _ (List.take_append_drop _ _).symm ?_
    rw [List.length_drop, List.length_append]
    omega

end

/-- What the nearest package says of the identity. -/
def HasIdentity (nearest : JsString → Prop) : Identity → Prop
  | .verified version => nearest version ∧ version = expectedVersion
  | .mismatch version => nearest version ∧ version ≠ expectedVersion
  | .unverified => ∀ version, ¬ nearest version

/-- The identity is read off the version that is detected. -/
theorem hasIdentity_iff {disk : Disk} {runtimePath : JsString} {nearest : JsString → Prop}
    (hnearest : ∀ version, detectedVersion disk runtimePath = some version ↔ nearest version)
    (identity : Identity) :
    detectRuntimeIdentity disk runtimePath = identity ↔ HasIdentity nearest identity := by
  unfold detectRuntimeIdentity
  cases hdetected : detectedVersion disk runtimePath with
  | none =>
    have hnone (version : JsString) : ¬ nearest version := by
      rw [← hnearest, hdetected]
      exact nofun
    cases identity with
    | verified version => exact iff_of_false nofun fun h => hnone version h.1
    | mismatch version => exact iff_of_false nofun fun h => hnone version h.1
    | unverified => exact iff_of_true rfl hnone
  | some found =>
    have hfound (version : JsString) : nearest version ↔ found = version := by
      rw [← hnearest, hdetected, Option.some.injEq]
    simp only
    cases identity with
    | verified version =>
      rw [HasIdentity, hfound]
      split_ifs with hexpected <;> grind
    | mismatch version =>
      rw [HasIdentity, hfound]
      split_ifs with hexpected <;> grind
    | unverified =>
      refine iff_of_false (by split_ifs <;> exact nofun) fun hnone => ?_
      exact hnone found ((hfound found).mpr rfl)

/-- **The identity of a runtime is what the nearest package says.** The path is taken as it is
    supplied; of one that is normalized it is the nearest package above it. -/
theorem detectRuntimeIdentity_iff (disk : Disk) (runtimePath : JsString) (identity : Identity) :
    (detectRuntimeIdentity disk runtimePath = identity ↔
      HasIdentity (Nearest disk (dirname runtimePath)) identity) ∧
    ∀ p n, Normal (p ++ [n]) → runtimePath = text (p ++ [n]) →
      (detectRuntimeIdentity disk runtimePath = identity ↔
        HasIdentity (NearestAbove disk p) identity) := by
  refine ⟨hasIdentity_iff (fun _ => detectedVersion_iff) identity, fun p n h hpath => ?_⟩
  subst hpath
  refine hasIdentity_iff (fun version => ?_) identity
  rw [detectedVersion_iff, dirname_text h]
  exact nearest_iff fun m hm => h m (List.mem_append_left _ hm)

/-- The search does not resolve `..`: it looks into `/opt/a`, which `/opt/b/x` is not in. -/
example : dirname^[3] (js "/opt/a/../b/x") = js "/opt/a" := by decide

/-! ## A sample -/

/-- The directories and the files of `sampleDisk`. -/
def sampleDirectories : List FilePath :=
  [[], ["work"], ["opt"], ["opt", "archify"], ["opt", "archify", "bin"]]

def sampleFiles : List FilePath :=
  [["work", "spec.json"], ["opt", "archify", "package.json"], ["opt", "archify", "bin", "archify"],
    ["opt", "archify", "bin", "package.json"]]

/-- A runtime in a package of the expected version, with a `package.json` beside it that is not
    JSON. -/
def sampleDisk : Disk where
  node p :=
    if p ∈ sampleDirectories then some .dir else if p ∈ sampleFiles then some .file else none
  root := rfl
  parent p n h := by
    have hmem : p ++ [n] ∈ sampleDirectories ++ sampleFiles := by
      rw [List.mem_append]
      by_contra hno
      rw [not_or] at hno
      exact h (by rw [if_neg hno.1, if_neg hno.2])
    have hparents : ∀ q ∈ sampleDirectories ++ sampleFiles, q.dropLast ∈ sampleDirectories := by
      decide
    have hp := hparents _ hmem
    rw [List.dropLast_concat] at hp
    exact if_pos hp
  nulFree p n h := by
    have hmem : p ++ [n] ∈ sampleDirectories ++ sampleFiles := by
      rw [List.mem_append]
      by_contra hno
      rw [not_or] at hno
      exact h (by rw [if_neg hno.1, if_neg hno.2])
    have hnames : ∀ q ∈ sampleDirectories ++ sampleFiles, ∀ m ∈ q, (0 : CodeUnit) ∉ m := by
      decide
    exact hnames _ hmem n (List.mem_append_right _ (List.mem_singleton_self n))
  info p :=
    if p = ["opt", "archify", "package.json"] then
      ⟨true, true, false, utf8 "\x7b\"version\": \"2.16.0\"\x7d"⟩
    else ⟨true, true, true, utf8 "\x7b"⟩
  links := 40
  workingDirectory := ["work"]

theorem normal_sampleFile {p : FilePath} (h : p ∈ sampleFiles) : Normal p := by
  unfold Normal IsName
  exact (by decide : ∀ p ∈ sampleFiles, ∀ n ∈ p, (n ≠ [] ∧ n ≠ js "." ∧ n ≠ js "..") ∧ slash ∉ n)
    p h

theorem detectRuntimeIdentity_sample :
    HasIdentity (NearestAbove sampleDisk ["opt", "archify", "bin"]) (.verified "2.16.0") :=
  ((detectRuntimeIdentity_iff sampleDisk "/opt/archify/bin/archify" _).2 _ "archify"
    (normal_sampleFile (by decide)) (by decide)).mp (by decide +kernel)

end Wns.Artifact
