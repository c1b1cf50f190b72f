import Wns.Artifact.OutputPath
import Wns.Ecma.Utf8
import Wns.Posix.Entries

/-!
# Delivery of an artifact

Model of `runDeliver` of `scripts/archify-safe.mjs` from the check of the final path on (lines
467–549), with `assertFinalReplaceable`, `candidateNameFor`, `sha256AndBytes` and
`looksLikeBasicHtml` (lines 228–252 and 368–378). The runtime is a child process that writes to
a candidate path beside the final one; whatever it does there and however it ends are given. A
file is readable if `readFile` returns its bytes: one that is too large for it is not.

* `runDeliver_frame`: a delivery that fails leaves the final path as it was.
* `transaction_iff`: exactly when it leaves nothing at the candidate path either.
-/

namespace Wns.Artifact

open Ecma JsValue Posix NodePath

/-! ## The candidate -/

/-- `path.extname(name)`, for the name of a file. -/
def extname (name : JsString) : JsString :=
  let stem := name.rdropWhile fun u => u ≠ 0x2E
  if stem.length ≤ 1 ∨ name = js ".." then [] else name.drop (stem.length - 1)

/-- `path.basename(name, path.extname(name))`. -/
def stemOf (name : JsString) : JsString := name.take (name.length - (extname name).length)

/-- The name of a candidate. -/
def candidateName (name pid unique : JsString) : JsString :=
  "." ++ stemOf name ++ "." ++ pid ++ "." ++ unique ++ ".candidate.html"

/-- What stands before a unit bounds how much is taken up to it. -/
theorem length_takeWhile_le {α : Type} {p : α → Bool} {x : α} (hx : p x = false) (l m : List α) :
    ((l ++ x :: m).takeWhile p).length ≤ l.length := by
  induction l with
  | nil => simp [hx]
  | cons a l ih =>
    rw [List.cons_append, List.takeWhile_cons]
    split
    · simpa using ih
    · simp

theorem length_extname_le {name : JsString} (h : endsWithHtml name = true) :
    (extname name).length ≤ 5 := by
  obtain ⟨start, hstart⟩ := List.isSuffixOf_iff_suffix.mp h
  obtain ⟨pre, last, rfl, -, hlast⟩ := List.map_eq_append_iff.mp hstart.symm
  rw [show js ".html" = [0x2E, 0x68, 0x74, 0x6D, 0x6C] by decide] at hlast
  obtain ⟨u, rest, rfl, hu, hrest⟩ := List.map_eq_cons_iff.mp hlast
  have hpoint : u = 0x2E := by
    unfold toLower at hu
    split_ifs at hu with hupper
    · have := congrArg Fin.val hu
      simp only [Fin.val_ofNat] at this
      omega
    · exact hu
  subst hpoint
  have hlen : rest.length = 4 := by simpa using congrArg List.length hrest
  have hsplit := List.rdropWhile_append_rtakeWhile (p := fun u : CodeUnit => decide (u ≠ 0x2E))
    (l := pre ++ 0x2E :: rest)
  have htake : ((pre ++ 0x2E :: rest).rtakeWhile fun u : CodeUnit => decide (u ≠ 0x2E)).length ≤
      4 := by
    rw [List.rtakeWhile, List.length_reverse, List.reverse_append, List.reverse_cons,
      List.append_assoc, List.singleton_append]
    refine (length_takeWhile_le ?_ rest.reverse pre.reverse).trans ?_
    · simp
    · rw [List.length_reverse, hlen]
  have hlength := congrArg List.length hsplit
  rw [List.length_append] at hlength
  unfold extname
  dsimp only
  split_ifs
  · simp
  · rw [List.length_drop]
    omega

/-- A candidate is longer than the name it is made of. -/
theorem candidateName_ne {name : JsString} (h : endsWithHtml name = true) (pid unique : JsString) :
    candidateName name pid unique ≠ name := by
  intro heq
  have hlength := congrArg List.length heq
  have hext := length_extname_le h
  have htail : (js ".candidate.html").length = 15 := by decide
  simp only [candidateName, stemOf, List.length_append, List.length_take, htail] at hlength
  have hpoint : (js ".").length = 1 := by decide
  omega

/-! ## What is known before the child is started -/

/-- The state of a runtime whose version is not refused. -/
inductive IdentityStatus
  | verified | unverified
  deriving DecidableEq

def IdentityStatus.text : IdentityStatus → JsString
  | .verified => "verified"
  | .unverified => "unverified"

/-- A delivery whose arguments have been checked. The final path has a directory and a name. -/
structure Delivery where
  runtime : JsString
  identityStatus : IdentityStatus
  detectedVersion : Option JsString
  spec : List UInt8
  realCwd : FilePath
  directory : FilePath
  name : JsString
  isHtml : endsWithHtml name = true
  pid : ℕ
  unique : JsString

namespace Delivery

def finalPath (d : Delivery) : FilePath := d.directory ++ [d.name]

/-- `candidateNameFor(finalPath)`. -/
def candidatePath (d : Delivery) : FilePath :=
  d.directory ++ [candidateName d.name (natText d.pid) d.unique]

theorem candidatePath_ne (d : Delivery) : d.candidatePath ≠ d.finalPath := by
  intro h
  have hname : candidateName d.name (natText d.pid) d.unique = d.name := by
    simpa [candidatePath, finalPath] using h
  exact candidateName_ne d.isHtml _ _ hname

end Delivery

/-- What the host decides: the hash, the texts of its errors, and whether it refuses the rename
    for a reason of its own. -/
structure Host where
  sha256 : List UInt8 → JsString
  links : ℕ
  describe : IoError → JsString
  renameError : Option IoError

/-- `rename(from, to)`. -/
def Host.rename (host : Host) (fs : Entries FilePath) (p q : FilePath) :
    Except IoError (Entries FilePath) :=
  match host.renameError with
  | some e => .error e
  | none => fs.rename p q

/-! ## The child -/

/-- How `runChild` ends. A child that is killed has no code. -/
inductive ChildResult
  | spawnError (message : JsString)
  | closed (code : Option ℤ) (stderr : List UInt8)

/-- A run of the child, and what stands at the candidate path after it. -/
structure Child where
  result : ChildResult
  leaves : Option (Entry FilePath)

/-! ## HTML and receipts -/

/-- `looksLikeBasicHtml(buffer)`. The lower case of no other letter is one of those that are
    looked for. -/
def looksLikeBasicHtml (buffer : List UInt8) : Bool :=
  let start := ((decodeUtf8 (buffer.take 512)).dropWhile isSpace).map toLower
  (js "<!doctype html").isPrefixOf start || (js "<html").isPrefixOf start

/-- `{ sha256, bytes }` of a file. -/
def fileDigest (sha256 : List UInt8 → JsString) (buffer : List UInt8) : JsValue :=
  .obj [("sha256", .str (sha256 buffer)), ("bytes", .nat buffer.length)]

/-- The properties of a receipt. -/
def receiptProps (host : Host) (d : Delivery) (exitCode : ℤ) (artifact : List UInt8)
    (isBasicHtml : Bool) : Props :=
  [("ok", .bool true), ("receiptVersion", .str "1.0.0"), ("wrapperVersion", .str "1.0.0"),
    ("profileVersion", .str "1.0.0"),
    ("archify", .obj [("pin", .str "v2.16.0"), ("runtime", .str d.runtime),
      ("identityStatus", .str d.identityStatus.text),
      ("detectedVersion", .nullable d.detectedVersion)]),
    ("child", .obj [("exitCode", .num (.finite exitCode)), ("updateCheckDisabled", .bool true)]),
    ("finalRelativePath", .str (relative d.realCwd d.finalPath)),
    ("spec", fileDigest host.sha256 d.spec), ("artifact", fileDigest host.sha256 artifact),
    ("validation", .obj [("basicArtifact", .str (if isBasicHtml then "passed" else "failed"))]),
    ("claims", .obj [("deterministicSchema", .str "not_separately_verified"),
      ("runtimeBrowser", .str "not_performed"), ("perceptual", .str "not_performed"),
      ("human", .str "not_performed")])]

/-! ## Delivery -/

/-- What a delivery throws: a `WrapperError`, with the end of what the child wrote to stderr
    where it failed, or an error of the host. -/
inductive Thrown
  | wrapper (code message : JsString) (stderrTail : Option JsString)
  | host (error : IoError)
  deriving DecidableEq

/-- The receipt or what was thrown, and the entries that are left. -/
abbrev Delivered := Except Thrown JsValue × Entries FilePath

/-- `assertFinalReplaceable(finalPath)`. -/
def assertFinalReplaceable (fs : Entries FilePath) (finalPath : FilePath) : Except Thrown Unit :=
  match fs.lstat finalPath with
  | .error _ => .ok ()
  | .ok (.link _) =>
    .error (.wrapper "final_not_replaceable"
      "Final output path is a symlink; refusing to replace it" none)
  | .ok (.file _ _) => .ok ()
  | .ok _ =>
    .error (.wrapper "final_not_replaceable"
      "Final output path exists and is not a regular file" none)

/-- `await rm(candidatePath, { force: true })`, and then `fail`. -/
def removeAndFail (fs : Entries FilePath) (candidatePath : FilePath) (thrown : Thrown) :
    Delivered :=
  match fs.rm candidatePath with
  | .error e => (.error (.host e), fs)
  | .ok fs' => (.error thrown, fs')

/-- `candidateLst.isSymbolicLink() || !candidateLst.isFile() || candidateLst.size === 0`, the
    other way round. -/
def isNonEmptyFile : Entry FilePath → Bool
  | .file bytes _ => bytes ≠ []
  | _ => false

/-- From the check of the candidate on. -/
def promote (host : Host) (d : Delivery) (exitCode : ℤ) (fs : Entries FilePath) : Delivered :=
  match fs.lstat d.candidatePath with
  | .error _ =>
    (.error (.wrapper "candidate_missing"
      "Archify runtime exited 0 but produced no candidate file" none), fs)
  | .ok entry =>
    if isNonEmptyFile entry = false then
      removeAndFail fs d.candidatePath
        (.wrapper "candidate_invalid" "Candidate output is not a non-empty regular file" none)
    else
      match fs.read host.links d.candidatePath with
      | .error e => (.error (.host e), fs)
      | .ok buffer =>
        let isBasicHtml := looksLikeBasicHtml buffer
        if isBasicHtml = false then
          removeAndFail fs d.candidatePath
            (.wrapper "candidate_not_html" "Candidate output failed basic HTML validation" none)
        else
          match host.rename fs d.candidatePath d.finalPath with
          | .error e =>
            removeAndFail fs d.candidatePath (.wrapper "promotion_failed"
              ("Failed to promote candidate to final path: " ++ host.describe e) none)
          | .ok fs' => (.ok (.obj (receiptProps host d exitCode buffer isBasicHtml)), fs')

/-- From the end of the child on. -/
def afterChild (host : Host) (d : Delivery) (result : ChildResult) (fs : Entries FilePath) :
    Delivered :=
  match result with
  | .spawnError message =>
    removeAndFail fs d.candidatePath
      (.wrapper "child_spawn_failed" ("Failed to spawn archify runtime: " ++ message) none)
  | .closed code stderr =>
    let exitCode := code.getD (-1)
    if exitCode ≠ 0 then
      removeAndFail fs d.candidatePath
        (.wrapper "child_failed"
          ("Archify runtime exited with code " ++ numberText (.finite exitCode))
          (some (decodeUtf8 (stderr.drop (stderr.length - 1024)))))
    else promote host d exitCode fs

/-- `runDeliver(options)`, from the check of the final path on. -/
def runDeliver (host : Host) (d : Delivery) (child : Child) (fs : Entries FilePath) : Delivered :=
  match assertFinalReplaceable fs d.finalPath with
  | .error e => (.error e, fs)
  | .ok () =>
    if fs.exists host.links d.candidatePath then
      (.error (.wrapper "candidate_collision"
        "Generated candidate path unexpectedly already exists" none), fs)
    else afterChild host d child.result (Function.update fs d.candidatePath child.leaves)

/-! ## How a delivery ends -/

section

variable {host : Host} {d : Delivery} {child : Child} {fs : Entries FilePath}

/-- The child is started. -/
def Starts (host : Host) (d : Delivery) (fs : Entries FilePath) : Prop :=
  assertFinalReplaceable fs d.finalPath = .ok () ∧ fs.exists host.links d.candidatePath = false

/-- The child ends with the code 0. -/
def Child.Succeeds (child : Child) : Prop := ∃ stderr, child.result = .closed (some 0) stderr

/-- The child leaves what is not cleaned up: a directory, which `rm` refuses, or, with success, a
    file that cannot be read, at which the hash throws. -/
def Child.LeavesStray (child : Child) : Prop :=
  child.leaves = some .dir ∨
    child.Succeeds ∧ ∃ bytes, bytes ≠ [] ∧ child.leaves = some (.file bytes false)

/-- The ends of a delivery whose child has been started on `before`. -/
inductive Ends (host : Host) (d : Delivery) (child : Child) (before : Entries FilePath) :
    Delivered → Prop
  | delivered (bytes : List UInt8) (exitCode : ℤ)
      (hleaves : child.leaves = some (.file bytes true))
      (hhtml : looksLikeBasicHtml bytes = true) (fs' : Entries FilePath)
      (hfinal : fs' d.finalPath = some (.file bytes true)) (hclean : fs' d.candidatePath = none) :
      Ends host d child before (.ok (.obj (receiptProps host d exitCode bytes true)), fs')
  | removed (thrown : Thrown) (hclean : ¬ child.LeavesStray) :
      Ends host d child before (.error thrown, Function.update before d.candidatePath none)
  | stray (thrown : Thrown) (hstray : child.LeavesStray) :
      Ends host d child before (.error thrown, Function.update before d.candidatePath child.leaves)

theorem Ends.of_removeAndFail (thrown : Thrown) (h : child.leaves ≠ some .dir →
    ¬ child.LeavesStray) : Ends host d child fs
      (removeAndFail (Function.update fs d.candidatePath child.leaves) d.candidatePath thrown) := by
  unfold removeAndFail
  by_cases hdir : child.leaves = some .dir
  · rw [rm_dir (by simpa using hdir)]
    exact .stray _ (.inl hdir)
  · rw [rm_eq_ok.mpr ⟨by simpa using hdir, rfl⟩]
    have hends : Ends host d child fs _ := .removed thrown (h hdir)
    simpa using hends

theorem not_leavesStray {entry : Entry FilePath} (h : child.leaves = some entry)
    (hdir : entry ≠ .dir) (hfile : ∀ bytes, bytes ≠ [] → entry ≠ .file bytes false) :
    ¬ child.LeavesStray := by
  intro hstray
  obtain hleaves | ⟨-, bytes, hne, hleaves⟩ := hstray
  · exact hdir (Option.some.inj (h.symm.trans hleaves))
  · exact hfile bytes hne (Option.some.inj (h.symm.trans hleaves))

theorem isNonEmptyFile_eq_true {entry : Entry FilePath} :
    isNonEmptyFile entry = true ↔ ∃ bytes readable, bytes ≠ [] ∧ entry = .file bytes readable := by
  cases entry <;> simp [isNonEmptyFile]

/-- A rename that succeeds moves the candidate to the final path. -/
theorem rename_candidate {entry : Entry FilePath} {fs' : Entries FilePath}
    (hentry : fs d.candidatePath = some entry)
    (h : host.rename fs d.candidatePath d.finalPath = .ok fs') :
    fs' d.finalPath = some entry ∧ fs' d.candidatePath = none := by
  unfold Host.rename at h
  cases he : host.renameError with
  | some e => simp [he] at h
  | none =>
    rw [he] at h
    obtain ⟨-, entry', hentry', rfl⟩ := rename_eq_ok.mp h
    obtain rfl := Option.some.inj (hentry.symm.trans hentry')
    refine ⟨Function.update_self .., ?_⟩
    rw [Function.update_of_ne d.candidatePath_ne, Function.update_self]

/-- The candidate of a child that has succeeded. -/
theorem Ends.of_promote (exitCode : ℤ) (h : child.Succeeds) : Ends host d child fs
    (promote host d exitCode (Function.update fs d.candidatePath child.leaves)) := by
  have hcandidate : Function.update fs d.candidatePath child.leaves d.candidatePath =
      child.leaves := Function.update_self ..
  unfold promote
  cases hleaves : child.leaves with
  | none =>
    rw [lstat_missing (Function.update_self ..)]
    refine .removed _ ?_
    unfold Child.LeavesStray
    simp [hleaves]
  | some entry =>
    rw [← hleaves, lstat_eq_ok.mpr (hcandidate.trans hleaves)]
    dsimp only
    split_ifs with hfile
    · refine .of_removeAndFail _ fun hdir => not_leavesStray hleaves ?_ ?_
      · rwa [hleaves, ne_eq, Option.some.injEq] at hdir
      · rintro bytes hne rfl
        rw [isNonEmptyFile_eq_true.mpr ⟨bytes, false, hne, rfl⟩] at hfile
        cases hfile
    · obtain ⟨bytes, readable, hne, rfl⟩ :=
        isNonEmptyFile_eq_true.mp (Bool.eq_true_of_not_eq_false hfile)
      rw [read_file (hcandidate.trans hleaves)]
      cases readable with
      | false => exact .stray _ (.inr ⟨h, bytes, hne, hleaves⟩)
      | true =>
        have hclean : ¬ child.LeavesStray := not_leavesStray hleaves (by simp) (by simp)
        simp only [if_true]
        split_ifs with hhtml
        · exact .of_removeAndFail _ fun _ => hclean
        · cases hrename : host.rename (Function.update fs d.candidatePath child.leaves)
              d.candidatePath d.finalPath with
          | error e => exact .of_removeAndFail _ fun _ => hclean
          | ok fs' =>
            have hhtml : looksLikeBasicHtml bytes = true := Bool.eq_true_of_not_eq_false hhtml
            obtain ⟨hfinal, hgone⟩ := rename_candidate (hcandidate.trans hleaves) hrename
            dsimp only
            rw [hhtml]
            exact .delivered bytes exitCode hleaves hhtml _ hfinal hgone

theorem Ends.of_afterChild : Ends host d child fs
    (afterChild host d child.result (Function.update fs d.candidatePath child.leaves)) := by
  have hfailed : ¬ child.Succeeds → child.leaves ≠ some .dir → ¬ child.LeavesStray :=
    fun h hdir hstray => hstray.elim hdir fun hs => h hs.1
  unfold afterChild
  cases hresult : child.result with
  | spawnError message =>
    exact .of_removeAndFail _ (hfailed fun ⟨stderr, h⟩ => by simp [hresult] at h)
  | closed code stderr =>
    dsimp only
    split_ifs with hcode
    · refine .of_removeAndFail _ (hfailed fun ⟨stderr', h⟩ => ?_)
      rw [hresult, ChildResult.closed.injEq] at h
      simp [h.1] at hcode
    · refine .of_promote _ ⟨stderr, ?_⟩
      cases code with
      | none => simp at hcode
      | some code =>
        rw [Option.getD_some, not_not] at hcode
        rw [hresult, hcode]

theorem runDeliver_ends (child : Child) (h : Starts host d fs) :
    Ends host d child fs (runDeliver host d child fs) := by
  rw [runDeliver, h.1]
  dsimp only
  rw [if_neg (by simp [h.2])]
  exact .of_afterChild

/-- **What a failed delivery leaves.** The final path, and all other paths but that of the
    candidate, are as they were. -/
theorem runDeliver_frame (h : Starts host d fs) {thrown : Thrown}
    (hfail : (runDeliver host d child fs).1 = .error thrown) {p : FilePath}
    (hp : p ≠ d.candidatePath) : (runDeliver host d child fs).2 p = fs p := by
  have hends := runDeliver_ends child h
  generalize runDeliver host d child fs = run at *
  cases hends with
  | delivered => simp at hfail
  | removed => exact Function.update_of_ne hp ..
  | stray => exact Function.update_of_ne hp ..

/-- What a transaction leaves: everything as it was and no candidate, or the candidate's bytes at
    the final path, checked, and in the receipt. -/
structure Transaction (host : Host) (d : Delivery) (child : Child) (before : Entries FilePath)
    (run : Delivered) : Prop where
  failed : ∀ thrown, run.1 = .error thrown →
    run.2 d.finalPath = before d.finalPath ∧ run.2 d.candidatePath = none
  delivered : ∀ receipt, run.1 = .ok receipt → ∃ bytes,
    child.leaves = some (.file bytes true) ∧ run.2 d.finalPath = some (.file bytes true) ∧
    looksLikeBasicHtml bytes = true ∧
    ∃ ps, receipt = .obj ps ∧ prop ps "artifact" = fileDigest host.sha256 bytes

theorem prop_receipt (exitCode : ℤ) (bytes : List UInt8) (isBasicHtml : Bool) :
    prop (receiptProps host d exitCode bytes isBasicHtml) "artifact" =
      fileDigest host.sha256 bytes := by
  simp [receiptProps, prop]

/-- **When a delivery is a transaction.** Once the child has been started, it is one precisely
    when the child does not leave a directory or, with success, a file that cannot be read. -/
theorem transaction_iff (child : Child) (h : Starts host d fs) :
    Transaction host d child fs (runDeliver host d child fs) ↔ ¬ child.LeavesStray := by
  have hends := runDeliver_ends child h
  generalize runDeliver host d child fs = run at *
  cases hends with
  | delivered bytes exitCode hleaves hhtml fs' hfinal hclean =>
    refine iff_of_true ⟨nofun, fun receipt hr => ?_⟩ (not_leavesStray hleaves (by simp) (by simp))
    exact ⟨bytes, hleaves, hfinal, hhtml, _, (Except.ok.inj hr).symm, prop_receipt ..⟩
  | removed thrown hclean =>
    refine iff_of_true ⟨fun _ _ => ⟨?_, Function.update_self ..⟩, nofun⟩ hclean
    exact Function.update_of_ne d.candidatePath_ne.symm ..
  | stray thrown hstray =>
    refine iff_of_false (fun htransaction => ?_) (not_not.mpr hstray)
    have hnone : Function.update fs d.candidatePath child.leaves d.candidatePath = none :=
      (htransaction.failed thrown rfl).2
    rw [Function.update_self] at hnone
    obtain hleaves | ⟨-, bytes, -, hleaves⟩ := hstray
    · rw [hleaves] at hnone
      cases hnone
    · rw [hleaves] at hnone
      cases hnone

end

/-! ## A stray candidate -/

/-- The delivery of `out.html` into an artifact root. -/
def sampleDelivery : Delivery where
  runtime := "/opt/archify"
  identityStatus := .verified
  detectedVersion := some "2.16.0"
  spec := []
  realCwd := [js "work"]
  directory := [js "work", js ".artifacts", js "archify"]
  name := "out.html"
  isHtml := by decide
  pid := 7
  unique := "00ff"

/-- SHA-256 on the files of the samples. -/
def sampleDigest (bytes : List UInt8) : JsString :=
  if bytes = [] then "e3b0c44298fc1c149afbf4c8996fb92427ae41e4649b934ca495991b7852b855"
  else if bytes = utf8 "\x7b" then
    "021fb596db81e6d02bf3d2586ee3981fe519f275c0ac9ca76bbcf2ebb4097d96"
  else if bytes = utf8 "<html>" then
    "b7d082ee12e91b756ea22e8513b8594eebcf5d39fab813da3cb55794dc888ad7"
  else "56d4c302bf037465fba1dd25bec67cda0f5b4b41d7843efea7a53b5d66250d0d"

/-- A host that does not refuse the rename. -/
def sampleHost : Host where
  sha256 := sampleDigest
  links := 40
  describe := fun _ => []
  renameError := none

/-- An earlier artifact at the final path. -/
def lastGood : Entries FilePath := fun p =>
  if p = sampleDelivery.finalPath then some (.file (utf8 "<html>") true) else none

theorem starts_lastGood : Starts sampleHost sampleDelivery lastGood := by
  constructor <;> decide +kernel

theorem transaction_iff_delivered :
    Transaction sampleHost sampleDelivery ⟨.closed (some 0) [], some (.file (utf8 "<html>") true)⟩
        lastGood (runDeliver sampleHost sampleDelivery
          ⟨.closed (some 0) [], some (.file (utf8 "<html>") true)⟩ lastGood) ↔
      ¬ Child.LeavesStray ⟨.closed (some 0) [], some (.file (utf8 "<html>") true)⟩ :=
  transaction_iff _ starts_lastGood

/-- A child that fails and leaves a directory: the cleanup throws and the directory stays. -/
theorem transaction_directory :
    Starts sampleHost sampleDelivery lastGood ∧
      (runDeliver sampleHost sampleDelivery ⟨.closed (some 1) [], some .dir⟩ lastGood).1 =
        .error (.host .isDirectory) ∧
      (runDeliver sampleHost sampleDelivery ⟨.closed (some 1) [], some .dir⟩ lastGood).2
        sampleDelivery.candidatePath = some .dir ∧
      ¬ Transaction sampleHost sampleDelivery ⟨.closed (some 1) [], some .dir⟩ lastGood
        (runDeliver sampleHost sampleDelivery ⟨.closed (some 1) [], some .dir⟩ lastGood) := by
  have hrun : runDeliver sampleHost sampleDelivery ⟨.closed (some 1) [], some .dir⟩ lastGood =
      (.error (.host .isDirectory),
        Function.update lastGood sampleDelivery.candidatePath (some .dir)) := by
    rw [runDeliver, starts_lastGood.1]
    dsimp only
    rw [if_neg (by simp [starts_lastGood.2]), afterChild, if_pos (by decide), removeAndFail,
      rm_dir (Function.update_self ..)]
  have hdir : (runDeliver sampleHost sampleDelivery ⟨.closed (some 1) [], some .dir⟩ lastGood).2
      sampleDelivery.candidatePath = some .dir := by
    simp [hrun]
  refine ⟨starts_lastGood, by rw [hrun], hdir, fun h => ?_⟩
  have hnone := (h.failed (.host .isDirectory) (by rw [hrun])).2
  rw [hdir] at hnone
  cases hnone

end Wns.Artifact
