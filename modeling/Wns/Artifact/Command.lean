import Wns.Artifact.Confinement
import Wns.Artifact.Interleaving
import Wns.Artifact.Runtime

/-!
# The command line

Model of `parseArgs`, `assertDirectoryExists`, `runDoctor`, `runDeliver` up to the check of the
final path, `main` and `emitErrorAndExit` of `scripts/archify-safe.mjs` (lines 46–79, 99–109,
309–362, 419–466 and 555–581). The rest of `runDeliver` is `Wns.Artifact.runDeliver`.

* `parseArgs_iff`: the arguments that are accepted, and what the options are.
* `main_leaves`: what a process leaves on the disk, whatever its arguments are.
* `doctor_predicts`: `doctor` reports what the first checks of `deliver` find.
-/

namespace Wns.Artifact

open Ecma JsValue Posix NodePath

/-! ## Arguments -/

/-- The options of a command, the latest first. -/
abbrev Options := List (JsString × JsString)

/-- `options[key] = value`. Assigning a string to `__proto__` does nothing. -/
def assign (options : Options) (key value : JsString) : Options :=
  if key = js "__proto__" then options else (key, value) :: options

/-- `token.startsWith("--")`. -/
def isOption (token : JsString) : Bool := (js "--").isPrefixOf token

/-- The loop of `parseArgs`. -/
def parseOptions (options : Options) : List JsString → Outcome Options
  | [] => .ok options
  | token :: rest =>
    if ¬ isOption token then fail "bad_args" ("Unexpected positional argument: " ++ token)
    else
      let key := token.drop 2
      match rest with
      | [] => fail "bad_args" ("Missing value for --" ++ key)
      | value :: rest =>
        if isOption value then fail "bad_args" ("Missing value for --" ++ key)
        else parseOptions (assign options key value) rest

/-- The result of `parseArgs`. -/
structure Command where
  command : Option JsString
  options : Options

/-- `parseArgs(argv)`. -/
def parseArgs (argv : List JsString) : Outcome Command :=
  match parseOptions [] argv.tail with
  | .error e => .error e
  | .ok options => .ok ⟨argv.head?, options⟩

/-- `options[key]`. -/
def Options.get (options : Options) (key : JsString) : Option JsString := options.lookup key

/-- The tokens of settings. -/
def settingTokens (settings : List (JsString × JsString)) : List JsString :=
  settings.flatMap fun s => ["--" ++ s.1, s.2]

theorem settingTokens_cons (s : JsString × JsString) (settings : List (JsString × JsString)) :
    settingTokens (s :: settings) = ("--" ++ s.1) :: s.2 :: settingTokens settings := rfl

theorem isOption_append (key : JsString) : isOption ("--" ++ key) = true :=
  List.isPrefixOf_iff_prefix.mpr (List.prefix_append _ _)

theorem eq_of_isOption {token : JsString} (h : isOption token = true) :
    "--" ++ token.drop 2 = token :=
  List.prefix_iff_eq_append.mp (List.isPrefixOf_iff_prefix.mp h)

/-- The options that are accepted are settings, one after the other. -/
theorem parseOptions_eq_ok {options options' : Options} {tokens : List JsString} :
    parseOptions options tokens = .ok options' ↔
      ∃ settings : List (JsString × JsString), tokens = settingTokens settings ∧
        (∀ s ∈ settings, isOption s.2 = false) ∧
        options' = settings.foldl (fun options s => assign options s.1 s.2) options := by
  constructor
  · intro h
    fun_induction parseOptions options tokens with
    | case1 options => exact ⟨[], rfl, nofun, (Except.ok.inj h).symm⟩
    | case2 => cases h
    | case3 => cases h
    | case4 => cases h
    | case5 options token htoken key value rest hvalue ih =>
      obtain ⟨settings, rfl, hsettings, rfl⟩ := ih h
      refine ⟨(key, value) :: settings, ?_, ?_, rfl⟩
      · rw [settingTokens_cons, eq_of_isOption (not_not.mp htoken)]
      · exact List.forall_mem_cons.mpr ⟨Bool.not_eq_true _ ▸ hvalue, hsettings⟩
  · intro ⟨settings, htokens, hsettings, hoptions⟩
    subst htokens hoptions
    induction settings generalizing options with
    | nil => rfl
    | cons s settings ih =>
      obtain ⟨hs, hsettings⟩ := List.forall_mem_cons.mp hsettings
      rw [settingTokens_cons, parseOptions, if_neg (not_not.mpr (isOption_append s.1))]
      simp only [hs, Bool.false_eq_true, if_false, List.foldl_cons]
      rw [show ("--" ++ s.1 : JsString).drop 2 = s.1 from rfl]
      exact ih hsettings

theorem get_assign (options : Options) (name value key : JsString) :
    (assign options name value).get key = if key = js "__proto__" then options.get key
      else (List.lookup key [(name, value)]).or (options.get key) := by
  have hcons : Options.get ((name, value) :: options) key =
      (List.lookup key [(name, value)]).or (options.get key) :=
    @List.lookup_append _ _ _ [(name, value)] options key
  have hother (h : key ≠ name) : List.lookup key [(name, value)] = none := by
    simp [h]
  unfold assign
  split_ifs with hname hkey hkey
  · rfl
  · rw [hother fun h => hkey (h.trans hname), Option.none_or]
  · rw [hcons, hother fun h => hname (h.symm.trans hkey), Option.none_or]
  · exact hcons

/-- The value that is read is the last one that has been given. -/
theorem get_foldl_assign (settings : List (JsString × JsString)) (options : Options)
    (key : JsString) :
    Options.get (settings.foldl (fun options s => assign options s.1 s.2) options) key =
      if key = js "__proto__" then options.get key
      else (settings.reverse.lookup key).or (options.get key) := by
  induction settings generalizing options with
  | nil => simp
  | cons s settings ih =>
    rw [List.foldl_cons, ih, get_assign, List.reverse_cons, List.lookup_append, Option.or_assoc]
    split_ifs <;> rfl

/-- **Which command lines are accepted.** After the command there are settings, each of an
    option and of a value that is none, and an option is the last value that is given to it. -/
theorem parseArgs_iff (argv : List JsString) (get : JsString → Option JsString) :
    (∃ parsed, parseArgs argv = .ok parsed ∧ parsed.command = argv.head? ∧
        ∀ key, parsed.options.get key = get key) ↔
      ∃ settings : List (JsString × JsString), argv.tail = settingTokens settings ∧
        (∀ s ∈ settings, isOption s.2 = false) ∧
        ∀ key, get key = if key = js "__proto__" then none else settings.reverse.lookup key := by
  have hget (settings : List (JsString × JsString)) (key : JsString) :=
    get_foldl_assign settings [] key
  simp only [Options.get, List.lookup_nil, Option.or_none] at hget
  unfold parseArgs
  constructor
  · intro ⟨parsed, hparsed, _, hkeys⟩
    cases hoptions : parseOptions [] argv.tail with
    | error e => simp [hoptions] at hparsed
    | ok options =>
      rw [hoptions] at hparsed
      obtain rfl := Except.ok.inj hparsed
      obtain ⟨settings, htokens, hvalues, rfl⟩ := parseOptions_eq_ok.mp hoptions
      exact ⟨settings, htokens, hvalues, fun key => (hkeys key).symm.trans (hget settings key)⟩
  · intro ⟨settings, htokens, hvalues, hkeys⟩
    rw [parseOptions_eq_ok.mpr ⟨settings, htokens, hvalues, rfl⟩]
    exact ⟨_, rfl, rfl, fun key => (hget settings key).trans (hkeys key).symm⟩

/-! ## The working directory and the runtime -/

/-- `assertDirectoryExists(dirPath, code)`. -/
def assertDirectoryExists (disk : Disk) (dirPath code : JsString) : Outcome Unit :=
  match disk.stat dirPath with
  | .error _ => fail code ("Directory does not exist: " ++ dirPath)
  | .ok (.file _) => fail code ("Not a directory: " ++ dirPath)
  | .ok .directory => .ok ()

/-- The directory of `--cwd`, resolved. -/
def realCwd (disk : Disk) (cwdArg : JsString) : Outcome FilePath :=
  match assertDirectoryExists disk cwdArg "cwd_invalid" with
  | .error e => .error e
  | .ok () =>
    match disk.realpath cwdArg with
    | .error e => .error (.host e)
    | .ok path => .ok path

namespace Identity

/-- `identity.status`. -/
def status : Identity → JsString
  | .verified _ => "verified"
  | .mismatch _ => "mismatch"
  | .unverified => "unverified"

/-- `identity.detectedVersion`. -/
def detectedVersion : Identity → Option JsString
  | .verified version => some version
  | .mismatch version => some version
  | .unverified => none

end Identity

/-! ## `doctor` -/

/-- What a command prints, and the exit code. -/
structure Printed where
  output : JsValue
  exitCode : ℕ

/-- The code and the message of an error, where `describe` gives the host's texts. -/
def Failure.error (describe : Errno → JsString) : Failure → Props
  | .wrapper code message => [("code", .str code), ("message", .str message)]
  | .host e => [("code", .str "internal_error"), ("message", .str (describe e))]

/-- The report of `runDoctor`. -/
def doctorReport (ok : Bool) (runtime : Option JsString) (archify rest : Props) : JsValue :=
  .obj (("ok", .bool ok) :: ("command", .str "doctor") :: ("wrapperVersion", .str "1.0.0") ::
    ("profileVersion", .str "1.0.0") ::
    ("archify", .obj (("pin", .str "v2.16.0") :: ("runtime", .nullable runtime) :: archify)) ::
    rest)

/-- `runDoctor(options)`. -/
def runDoctor (disk : Disk) (describe : Errno → JsString) (options : Options) : Printed :=
  let runtimeArg := options.get "runtime"
  match options.get "cwd" with
  | none | some [] =>
    let error := Failure.wrapper "cwd_invalid" "--cwd is required"
    ⟨doctorReport false runtimeArg [] [("error", .obj (error.error describe))], 1⟩
  | some cwdArg =>
    match realCwd disk cwdArg with
    | .error error =>
      ⟨doctorReport false runtimeArg [] [("error", .obj (error.error describe))], 1⟩
    | .ok cwd =>
      match checkRuntimeAvailable disk runtimeArg with
      | .error unavailable =>
        ⟨doctorReport false runtimeArg
          [("available", .bool false), ("identityStatus", .str "unverified"),
            ("detectedVersion", .null), ("unavailableReason", .str unavailable.reason)]
          [("realCwd", .str (text cwd))], 1⟩
      | .ok runtime =>
        let identity := detectRuntimeIdentity disk runtime
        let ok := identity.status ≠ "mismatch"
        ⟨doctorReport ok runtimeArg
          [("available", .bool true), ("identityStatus", .str identity.status),
            ("detectedVersion", .nullable identity.detectedVersion)]
          [("realCwd", .str (text cwd))], if ok then 0 else 1⟩

/-! ## `deliver` -/

/-- `VALID_TYPES`. -/
def validTypes : List JsString :=
  ["architecture", "workflow", "sequence", "dataflow", "lifecycle"]

/-- What the first checks of `runDeliver` find. -/
structure Admitted where
  realCwd : FilePath
  runtime : JsString
  identityStatus : IdentityStatus
  detectedVersion : Option JsString

/-- The checks of `runDeliver` of the working directory and the runtime. -/
def checkHost (disk : Disk) (options : Options) : Outcome Admitted :=
  match options.get "cwd" with
  | none | some [] => fail "cwd_invalid" "--cwd is required"
  | some cwdArg =>
    match realCwd disk cwdArg with
    | .error e => .error e
    | .ok cwd =>
      match checkRuntimeAvailable disk (options.get "runtime") with
      | .error unavailable =>
        fail "runtime_unavailable" ("Runtime is not available: " ++ unavailable.reason)
      | .ok runtime =>
        match detectRuntimeIdentity disk runtime with
        | .mismatch version =>
          fail "runtime_version_mismatch" ("Runtime package version " ++ version ++
            " does not match required pin " ++ expectedVersion)
        | .verified version => .ok ⟨cwd, runtime, .verified, some version⟩
        | .unverified => .ok ⟨cwd, runtime, .unverified, none⟩

/-- What a delivery throws before and after its final path is checked. -/
inductive CommandError
  | failure (failure : Failure)
  | thrown (thrown : Thrown)

/-- The check of `--type`. -/
def checkType (type : Option JsString) : Outcome JsString :=
  match type.filter fun type => type ∈ validTypes with
  | some type => .ok type
  | none =>
    fail "type_invalid" ("--type must be one of: " ++ List.intercalate (js ", ") validTypes)

/-- The bytes of the file of `--spec`. -/
def readSpec (disk : Disk) (realCwd : FilePath) (specArg : Option JsString) :
    Except CommandError (List UInt8) :=
  match specArg with
  | none | some [] => .error (.failure (.wrapper "spec_invalid" "--spec is required"))
  | some specArg =>
    let specPath := text (resolve realCwd specArg)
    match disk.stat specPath with
    | .error _ => .error (.failure (.wrapper "spec_invalid" "Spec file does not exist"))
    | .ok .directory =>
      .error (.failure (.wrapper "spec_invalid" "Spec path is not a regular file"))
    | .ok (.file info) =>
      if ¬ info.regular then
        .error (.failure (.wrapper "spec_invalid" "Spec path is not a regular file"))
      else
        match disk.readFile specPath with
        | none => .error (.thrown (.host .access))
        | some bytes => .ok bytes

/-- The arguments of a delivery, which have passed the checks. -/
structure Arguments extends Admitted where
  type : JsString
  name : JsString
  valid : validateOutputNameSyntax name = .ok ()
  spec : List UInt8

/-- `runDeliver(options)`, up to where the artifact root is resolved. -/
def checkArguments (disk : Disk) (options : Options) : Except CommandError Arguments :=
  match checkHost disk options with
  | .error e => .error (.failure e)
  | .ok admitted =>
    match checkType (options.get "type") with
    | .error e => .error (.failure e)
    | .ok type =>
      let name := (options.get "name").getD []
      match hname : validateOutputNameSyntax name with
      | .error e => .error (.failure e)
      | .ok () =>
        match readSpec disk admitted.realCwd (options.get "spec") with
        | .error e => .error e
        | .ok spec => .ok { admitted with type, name, valid := hname, spec }

theorem endsWithHtml_of_valid {name : JsString} (h : validateOutputNameSyntax name = .ok ()) :
    endsWithHtml name = true := by
  simp only [validateOutputNameSyntax, guard_eq_ok, not_not] at h
  exact h.2.2.2.1

/-- The end of a name is in what is after its last slash. -/
theorem endsWithHtml_lastName {name : JsString} (h : endsWithHtml name = true) :
    endsWithHtml (lastName name) = true := by
  obtain ⟨start, hstart⟩ := List.isSuffixOf_iff_suffix.mp h
  obtain ⟨pre, last, rfl, -, hlast⟩ := List.map_eq_append_iff.mp hstart.symm
  have hslash : ∀ u ∈ last.reverse, decide (u ≠ slash) = true := by
    intro u hu
    refine decide_eq_true fun heq => ?_
    have hmem : toLower slash ∈ js ".html" := by
      rw [← hlast, ← heq]
      exact List.mem_map_of_mem (List.mem_reverse.mp hu)
    exact absurd hmem (by decide)
  refine List.isSuffixOf_iff_suffix.mpr ⟨(pre.rtakeWhile fun u => u ≠ slash).map toLower, ?_⟩
  rw [← hlast, ← List.map_append, lastName, List.rtakeWhile, List.rtakeWhile, List.reverse_append,
    List.takeWhile_append_of_pos hslash, List.reverse_append, List.reverse_reverse]

/-- `runDeliver(options)`, up to the check of the final path: the delivery, and the tree that is
    left. -/
def prepare (disk : Disk) (pid : ℕ) (unique : JsString) (options : Options) :
    Except CommandError Delivery × FileTree JsString :=
  match checkArguments disk options with
  | .error e => (.error e, disk.toFileTree)
  | .ok a =>
    match resolveOutput disk.links a.realCwd (options.get "artifact-root") a.name
        disk.toFileTree with
    | (.error e, t) => (.error (.failure e), t)
    | (.ok (_, finalPath), t) =>
      (.ok
        { runtime := a.runtime
          identityStatus := a.identityStatus
          detectedVersion := a.detectedVersion
          spec := a.spec
          realCwd := a.realCwd
          directory := finalPath.dropLast
          name := lastName a.name
          isHtml := endsWithHtml_lastName (endsWithHtml_of_valid a.valid)
          pid, unique }, t)

/-! ## `main` -/

/-- What stands at each path of a tree. A link leads to where it is resolved to, or nowhere. -/
def Disk.entries (disk : Disk) (t : FileTree JsString) : Entries FilePath := fun p =>
  match t.node p with
  | none => none
  | some .dir => some .dir
  | some .file =>
    if (disk.info p).regular then some (.file (disk.info p).bytes (disk.info p).readable)
    else some .special
  | some (.link _) => some (.link ((Posix.realpath t disk.links p).toOption.getD p))

/-- A process: its host, and the child it may start. -/
structure Process where
  disk : Disk
  host : Host
  describe : Errno → JsString
  pid : ℕ
  unique : JsString
  child : Child

/-- The code and the message of an error. -/
def Process.error (process : Process) : CommandError → Props
  | .failure failure => failure.error process.describe
  | .thrown (.wrapper code message _) => [("code", .str code), ("message", .str message)]
  | .thrown (.host e) =>
    [("code", .str "internal_error"), ("message", .str (process.host.describe e))]

/-- `emitErrorAndExit(err)`. -/
def Process.emitErrorAndExit (process : Process) (err : CommandError) : Printed :=
  ⟨.obj [("ok", .bool false), ("error", .obj (process.error err))], 1⟩

/-- `runDeliver(options)`, from its beginning. -/
def Process.deliver (process : Process) (options : Options) : Printed × Entries FilePath :=
  match prepare process.disk process.pid process.unique options with
  | (.error err, t) => (process.emitErrorAndExit err, process.disk.entries t)
  | (.ok d, t) =>
    match runDeliver { process.host with links := process.disk.links } d process.child
        (process.disk.entries t) with
    | (.error thrown, fs) => (process.emitErrorAndExit (.thrown thrown), fs)
    | (.ok receipt, fs) => (⟨receipt, 0⟩, fs)

/-- `main(argv)`, with the handler of what it throws. -/
def Process.main (process : Process) (argv : List JsString) : Printed × Entries FilePath :=
  let before := process.disk.entries process.disk.toFileTree
  match parseArgs argv with
  | .error e => (process.emitErrorAndExit (.failure e), before)
  | .ok ⟨command, options⟩ =>
    if command = js "doctor" then (runDoctor process.disk process.describe options, before)
    else if command = js "deliver" then process.deliver options
    else
      (process.emitErrorAndExit (.failure (.wrapper "bad_command"
        ("Unknown command: " ++ command.getD "(none)"))), before)

/-! ## What `doctor` foretells -/

/-- The report of `doctor`, by what the first checks of `deliver` find. -/
inductive Reports (describe : Errno → JsString) (runtime : Option JsString) :
    Outcome Admitted → Printed → Prop
  | admitted (a : Admitted) (hruntime : runtime = some a.runtime) :
      Reports describe runtime (.ok a) ⟨doctorReport true runtime
        [("available", .bool true), ("identityStatus", .str a.identityStatus.text),
          ("detectedVersion", .nullable a.detectedVersion)]
        [("realCwd", .str (text a.realCwd))], 0⟩
  | cwd (failure : Failure) :
      Reports describe runtime (.error failure)
        ⟨doctorReport false runtime [] [("error", .obj (failure.error describe))], 1⟩
  | unavailable (reason : Unavailability) (cwd : FilePath) :
      Reports describe runtime
        (fail "runtime_unavailable" ("Runtime is not available: " ++ reason.reason))
        ⟨doctorReport false runtime
          [("available", .bool false), ("identityStatus", .str "unverified"),
            ("detectedVersion", .null), ("unavailableReason", .str reason.reason)]
          [("realCwd", .str (text cwd))], 1⟩
  | mismatch (version : JsString) (cwd : FilePath) :
      Reports describe runtime
        (fail "runtime_version_mismatch" ("Runtime package version " ++ version ++
          " does not match required pin " ++ expectedVersion))
        ⟨doctorReport false runtime
          [("available", .bool true), ("identityStatus", .str "mismatch"),
            ("detectedVersion", .str version)]
          [("realCwd", .str (text cwd))], 1⟩

/-- A runtime that is available is the one that was supplied. -/
theorem eq_of_available {disk : Disk} {runtimePath : Option JsString} {runtime : JsString}
    (h : checkRuntimeAvailable disk runtimePath = .ok runtime) : runtimePath = some runtime := by
  unfold checkRuntimeAvailable at h
  split at h
  · cases h
  · cases h
  · split_ifs at h
    split at h
    · cases h
    · cases h
    · split_ifs at h
      rw [Except.ok.inj h]

/-- `doctor` reports what the first checks of `deliver` find. -/
theorem doctor_reports (disk : Disk) (describe : Errno → JsString) (options : Options) :
    Reports describe (options.get "runtime") (checkHost disk options)
      (runDoctor disk describe options) := by
  unfold checkHost runDoctor
  split
  · exact .cwd _
  · exact .cwd _
  · next cwdArg _ _ =>
    cases realCwd disk cwdArg with
    | error failure => exact .cwd failure
    | ok cwd =>
      simp only
      cases havailable : checkRuntimeAvailable disk (options.get "runtime") with
      | error unavailable => exact .unavailable unavailable cwd
      | ok runtime =>
        have hruntime := eq_of_available havailable
        simp only
        cases detectRuntimeIdentity disk runtime with
        | verified version => exact .admitted ⟨cwd, runtime, .verified, some version⟩ hruntime
        | mismatch version => exact .mismatch version cwd
        | unverified => exact .admitted ⟨cwd, runtime, .unverified, none⟩ hruntime

/-! ## What is left on the disk -/

theorem resolveArtifactRoot_extends (links : ℕ) (cwd : FilePath) (override : Option JsString)
    (t : FileTree JsString) : t.Extends (resolveArtifactRoot links cwd override t).2 := by
  obtain ⟨e, he⟩ | ⟨lexical, t', -, -, ht', heq⟩ := resolveArtifactRoot_cases links cwd override t
  · rw [he]
    exact .refl t
  · rw [heq]
    exact mkdirp_extends ht'

theorem resolveFinalPath_extends (links : ℕ) (root : FilePath) (name : JsString)
    (t : FileTree JsString) : t.Extends (resolveFinalPath links root name t).2 := by
  obtain ⟨e, he⟩ | ⟨final, t', -, hparent, ht', -⟩ := resolveFinalPath_cases links root name t
  · rw [he]
    exact .refl t
  · rw [ht']
    obtain ⟨-, rfl⟩ | ⟨-, -, hmkdirp⟩ := makeParent_eq_ok hparent
    · exact .refl _
    · exact mkdirp_extends hmkdirp

theorem resolveOutput_extends (links : ℕ) (cwd : FilePath) (override : Option JsString)
    (name : JsString) (t : FileTree JsString) :
    t.Extends (resolveOutput links cwd override name t).2 := by
  have hroot := resolveArtifactRoot_extends links cwd override t
  rw [resolveOutput_tree]
  split
  · next heq => rwa [heq] at hroot
  · next root t' heq =>
    rw [heq] at hroot
    exact hroot.trans (resolveFinalPath_extends links root name t')

/-- A final path ends with the last name of the output name. -/
theorem resolveFinalPath_name {links : ℕ} {root path : FilePath} {name : JsString}
    {t : FileTree JsString} (h : (resolveFinalPath links root name t).1 = .ok path) :
    ∃ parent, path = parent ++ [lastName name] := by
  obtain ⟨e, he⟩ | ⟨final, t', hfinal, -, -, hpath⟩ := resolveFinalPath_cases links root name t
  · rw [he] at h
    cases h
  obtain ⟨parent, -, -, rfl⟩ := hpath path h
  obtain ⟨hhtml, hpasses⟩ := lexicalFinalPath_ok hfinal
  obtain ⟨parents, rfl, hname, -⟩ := final_eq_append hhtml hpasses
  rw [List.getLast?_concat, Option.getD_some, join_name (slash_notMem_lastName name),
    push_name hname]
  exact ⟨parent, rfl⟩

/-- A delivery that has been prepared: it is to the final path that was resolved. -/
theorem prepare_eq_ok {disk : Disk} {pid : ℕ} {unique : JsString} {options : Options}
    {d : Delivery} {t : FileTree JsString} (h : prepare disk pid unique options = (.ok d, t)) :
    ∃ a root, checkArguments disk options = .ok a ∧
      resolveOutput disk.links a.realCwd (options.get "artifact-root") a.name disk.toFileTree =
        (.ok (root, d.finalPath), t) ∧
      (⟨d.realCwd, d.runtime, d.identityStatus, d.detectedVersion⟩ : Admitted) =
        a.toAdmitted := by
  unfold prepare at h
  split at h
  · cases h
  · next a ha =>
    split at h
    · cases h
    · next root finalPath t' hresolve =>
      obtain ⟨hd, rfl⟩ := Prod.mk.inj h
      obtain rfl := Except.ok.inj hd
      refine ⟨a, root, ha, ?_, rfl⟩
      obtain ⟨t₁, -, hfinal⟩ := resolveOutput_eq_ok (congrArg Prod.fst hresolve)
      obtain ⟨parent, rfl⟩ := resolveFinalPath_name hfinal
      rw [hresolve, Delivery.finalPath, List.dropLast_concat]

/-- The checks of the runtime are among those of the arguments. -/
theorem checkHost_of_checkArguments {disk : Disk} {options : Options} {a : Arguments}
    (h : checkArguments disk options = .ok a) : checkHost disk options = .ok a.toAdmitted := by
  unfold checkArguments at h
  split at h
  · cases h
  · next admitted hadmitted =>
    split at h
    · cases h
    · dsimp only at h
      split at h
      · cases h
      · split at h
        · cases h
        · obtain rfl := Except.ok.inj h
          exact hadmitted

/-- Nothing is created before all arguments are accepted, and then directories. -/
theorem prepare_extends (disk : Disk) (pid : ℕ) (unique : JsString) (options : Options) :
    disk.toFileTree.Extends (prepare disk pid unique options).2 ∧
      ((∃ a, checkArguments disk options = .ok a) ∨
        (prepare disk pid unique options).2 = disk.toFileTree) := by
  unfold prepare
  split
  · exact ⟨.refl _, .inr rfl⟩
  · next a ha =>
    refine ⟨?_, .inl ⟨a, ha⟩⟩
    have hextends := resolveOutput_extends disk.links a.realCwd (options.get "artifact-root") a.name
      disk.toFileTree
    split
    · next heq => rwa [heq] at hextends
    · next heq => rwa [heq] at hextends

section

variable {host : Host} {d : Delivery} {child : Child} {fs : Entries FilePath}

/-- A delivery leaves all but the candidate and the final path as it was. -/
theorem runDeliver_other {q : FilePath} (hcandidate : q ≠ d.candidatePath)
    (hfinal : q ≠ d.finalPath) : (runDeliver host d child fs).2 q = fs q := by
  obtain ⟨acts, hrun⟩ := exists_run_runDeliver host d child fs
  refine hrun.rel (R := fun s t => t.2 q = s.2 q) (fun _ => rfl) ?_ ?_
  · intro s t u hst htu
    exact htu.trans hst
  · intro s act t hstep
    obtain ⟨-, -, hkeeps⟩ | ⟨exitCode, buffer, entry, -, -, -, hpromoted⟩ := hstep.changes
    · exact hkeeps q hcandidate
    · rw [hpromoted, Function.update_of_ne hfinal, Function.update_of_ne hcandidate]

/-- A delivery that fails leaves all but the candidate as it was. -/
theorem runDeliver_failed {thrown : Thrown} (h : (runDeliver host d child fs).1 = .error thrown)
    {q : FilePath} (hcandidate : q ≠ d.candidatePath) :
    (runDeliver host d child fs).2 q = fs q := by
  by_cases hstarts : Starts host d fs
  · exact runDeliver_frame hstarts h hcandidate
  · unfold runDeliver
    split
    · rfl
    · next hreplaceable =>
      rw [if_pos (by_contra fun hexists => hstarts ⟨hreplaceable, by simpa using hexists⟩)]

/-- A delivery that returns has put what the child left at the final path. -/
theorem runDeliver_delivered {receipt : JsValue}
    (h : (runDeliver host d child fs).1 = .ok receipt) :
    ∃ bytes exitCode, receipt = .obj (receiptProps host d exitCode bytes true) ∧
      child.leaves = some (.file bytes true) ∧ looksLikeBasicHtml bytes = true ∧
      (runDeliver host d child fs).2 d.finalPath = some (.file bytes true) := by
  have hstarts : Starts host d fs := by
    unfold runDeliver at h
    split at h
    · cases h
    · next hreplaceable =>
      split_ifs at h with hexists
      exact ⟨hreplaceable, by simpa using hexists⟩
  have hends := runDeliver_ends child hstarts
  generalize runDeliver host d child fs = run at *
  cases hends with
  | delivered bytes exitCode hleaves hhtml fs' hfinal hclean =>
    exact ⟨bytes, exitCode, (Except.ok.inj h).symm, hleaves, hhtml, hfinal⟩
  | removed => cases h
  | stray => cases h

end

/-- The path of the candidate of the delivery that the arguments ask for. -/
def Process.IsCandidate (process : Process) (argv : List JsString) (p : FilePath) : Prop :=
  ∃ options d t, parseArgs argv = .ok ⟨some "deliver", options⟩ ∧
    prepare process.disk process.pid process.unique options = (.ok d, t) ∧ p = d.candidatePath

/-- What a process leaves at a path: what was there, or a new directory, for which all arguments
    have been accepted, or the artifact of which the receipt is printed. A link keeps its target,
    to which more may lead now that there are new directories. -/
inductive LeavesAt (process : Process) (argv : List JsString) (p : FilePath)
    (before after : Option (Entry FilePath)) (printed : Printed) : Prop
  | same (hafter : after = before)
  | link (options : Options) (hparsed : parseArgs argv = .ok ⟨some "deliver", options⟩)
      (t : FileTree JsString)
      (hprepared : (prepare process.disk process.pid process.unique options).2 = t)
      (target : Target JsString) (hbefore : process.disk.node p = some (.link target))
      (hkept : t.node p = some (.link target)) (hafter : after = process.disk.entries t p)
  | directory (hbefore : before = none) (hafter : after = some .dir) (options : Options)
      (hparsed : parseArgs argv = .ok ⟨some "deliver", options⟩) (a : Arguments)
      (haccepted : checkArguments process.disk options = .ok a)
  | artifact (options : Options) (hparsed : parseArgs argv = .ok ⟨some "deliver", options⟩)
      (d : Delivery) (hadmitted : checkHost process.disk options =
        .ok ⟨d.realCwd, d.runtime, d.identityStatus, d.detectedVersion⟩)
      (hp : p = d.finalPath) (bytes : List UInt8) (exitCode : ℤ)
      (hchild : process.child.leaves = some (.file bytes true))
      (hhtml : looksLikeBasicHtml bytes = true) (hafter : after = some (.file bytes true))
      (hprinted : printed = ⟨.obj (receiptProps { process.host with links := process.disk.links } d
        exitCode bytes true), 0⟩)

/-- A tree that has grown by directories has the same entries and new directories. -/
theorem Disk.entries_extends (disk : Disk) {t t' : FileTree JsString} (h : t.Extends t')
    (p : FilePath) : disk.entries t' p = disk.entries t p ∨
      (∃ target, t.node p = some (.link target) ∧ t'.node p = some (.link target)) ∨
      disk.entries t p = none ∧ disk.entries t' p = some .dir ∧ t' ≠ t := by
  unfold Disk.entries
  by_cases hp : t.node p = none
  · by_cases hp' : t'.node p = none
    · exact .inl (by rw [hp, hp'])
    · refine .inr (.inr ⟨by rw [hp], by rw [h.dir p hp hp'], fun heq => hp' (heq ▸ hp)⟩)
  · rw [h.grows p hp]
    cases hnode : t.node p with
    | none => exact .inl rfl
    | some node =>
      cases node with
      | dir => exact .inl rfl
      | file => exact .inl rfl
      | link target => exact .inr (.inl ⟨target, rfl, rfl⟩)

section

variable {process : Process} {argv : List JsString} {options : Options} {p : FilePath}

/-- What the preparation of a delivery leaves, whatever is printed then. -/
theorem prepare_leaves (hparsed : parseArgs argv = .ok ⟨some "deliver", options⟩)
    (p : FilePath) (printed : Printed) :
    LeavesAt process argv p (process.disk.entries process.disk.toFileTree p)
      (process.disk.entries (prepare process.disk process.pid process.unique options).2 p)
      printed := by
  obtain ⟨hextends, haccepted⟩ := prepare_extends process.disk process.pid process.unique options
  obtain hsame | ⟨target, hbefore, hkept⟩ | ⟨hbefore, hafter, hne⟩ :=
    process.disk.entries_extends hextends p
  · exact .same hsame
  · exact .link options hparsed _ rfl target hbefore hkept rfl
  · obtain ⟨a, ha⟩ := haccepted.resolve_right hne
    exact .directory hbefore hafter options hparsed a ha

/-- What a delivery leaves beside its candidate. -/
theorem deliver_leaves (hparsed : parseArgs argv = .ok ⟨some "deliver", options⟩)
    (hp : ¬ process.IsCandidate argv p) :
    LeavesAt process argv p (process.disk.entries process.disk.toFileTree p)
      ((process.deliver options).2 p) (process.deliver options).1 := by
  have hprepared := @prepare_leaves process argv options hparsed p
  unfold Process.deliver
  cases hprepare : prepare process.disk process.pid process.unique options with
  | mk outcome t =>
    rw [hprepare] at hprepared
    cases outcome with
    | error err => exact hprepared _
    | ok d =>
      obtain ⟨a, root, ha, -, hadmitted⟩ := prepare_eq_ok hprepare
      have hcandidate : p ≠ d.candidatePath := by
        intro heq
        exact hp ⟨options, d, t, hparsed, hprepare, heq⟩
      dsimp only
      cases hrun : runDeliver { process.host with links := process.disk.links } d process.child
          (process.disk.entries t) with
      | mk result fs =>
        cases result with
        | error thrown =>
          have hfailed := runDeliver_failed (congrArg Prod.fst hrun) hcandidate
          rw [hrun] at hfailed
          dsimp only at hfailed ⊢
          rw [hfailed]
          exact hprepared _
        | ok receipt =>
          by_cases hfinal : p = d.finalPath
          · obtain ⟨bytes, exitCode, rfl, hchild, hhtml, hafter⟩ :=
              runDeliver_delivered (congrArg Prod.fst hrun)
            rw [hrun, ← hfinal] at hafter
            exact .artifact options hparsed d (hadmitted ▸ checkHost_of_checkArguments ha) hfinal
              bytes exitCode hchild hhtml hafter rfl
          · have hother : (runDeliver { process.host with links := process.disk.links } d
                process.child (process.disk.entries t)).2 p = process.disk.entries t p :=
              runDeliver_other hcandidate hfinal
            rw [hrun] at hother
            dsimp only at hother ⊢
            rw [hother]
            exact hprepared _

end

/-- **What a process leaves.** Whatever the arguments are and the child does, a process changes
    nothing but its candidate: beside it there are new directories, when all arguments have been
    accepted, and the artifact whose receipt is printed. -/
theorem main_leaves (process : Process) (argv : List JsString) {p : FilePath}
    (hp : ¬ process.IsCandidate argv p) :
    LeavesAt process argv p (process.disk.entries process.disk.toFileTree p)
      ((process.main argv).2 p) (process.main argv).1 := by
  unfold Process.main
  dsimp only
  cases hparsed : parseArgs argv with
  | error e => exact .same rfl
  | ok parsed =>
    obtain ⟨command, options⟩ := parsed
    dsimp only
    split_ifs with hdoctor hdeliver
    case pos => exact .same rfl
    case neg => exact .same rfl
    subst hdeliver
    exact deliver_leaves hparsed hp

/-! ## The identity that is printed -/

/-- A delivery that is printed with the exit code 0 is one that was admitted. -/
theorem deliver_succeeds {process : Process} {options : Options}
    (h : (process.deliver options).1.exitCode = 0) :
    ∃ d exitCode bytes, checkHost process.disk options =
        .ok ⟨d.realCwd, d.runtime, d.identityStatus, d.detectedVersion⟩ ∧
      (process.deliver options).1.output =
        .obj (receiptProps { process.host with links := process.disk.links } d exitCode bytes
          true) := by
  unfold Process.deliver at h ⊢
  cases hprepare : prepare process.disk process.pid process.unique options with
  | mk outcome t =>
    cases outcome with
    | error err => simp [hprepare, Process.emitErrorAndExit] at h
    | ok d =>
      simp only [hprepare] at h ⊢
      obtain ⟨a, -, ha, -, hadmitted⟩ := prepare_eq_ok hprepare
      cases hrun : runDeliver { process.host with links := process.disk.links } d process.child
          (process.disk.entries t) with
      | mk result fs =>
        cases result with
        | error thrown => simp [hrun, Process.emitErrorAndExit] at h
        | ok receipt =>
          obtain ⟨bytes, exitCode, rfl, -⟩ := runDeliver_delivered (congrArg Prod.fst hrun)
          exact ⟨d, exitCode, bytes, hadmitted ▸ checkHost_of_checkArguments ha, rfl⟩

/-- The identity of the runtime, as a report and a receipt tell it. -/
def archifyFields : List JsString := ["pin", "runtime", "identityStatus", "detectedVersion"]

/-- **`doctor` predicts `deliver`.** It succeeds iff the first checks of `deliver` pass, it
    reports what they find, and a receipt of `deliver` tells the identity of the runtime as
    `doctor` does. -/
theorem doctor_predicts (process : Process) (options : Options) :
    let doctor := runDoctor process.disk process.describe options
    Reports process.describe (options.get "runtime") (checkHost process.disk options) doctor ∧
      (doctor.exitCode = 0 ↔ (checkHost process.disk options).isOk = true) ∧
      ((process.deliver options).1.exitCode = 0 → doctor.exitCode = 0 ∧
        ∃ report receipt archify archify', doctor.output = .obj report ∧
          (process.deliver options).1.output = .obj receipt ∧
          prop report "archify" = .obj archify ∧ prop receipt "archify" = .obj archify' ∧
          ∀ k ∈ archifyFields, prop archify k = prop archify' k) := by
  have hreports := doctor_reports process.disk process.describe options
  have hsucceeds := @deliver_succeeds process options
  generalize runDoctor process.disk process.describe options = doctor at *
  generalize checkHost process.disk options = admitted at *
  refine ⟨hreports, ?_, fun hcode => ?_⟩
  · cases hreports <;> simp [fail, Except.isOk, Except.toBool]
  · obtain ⟨d, exitCode, bytes, rfl, houtput⟩ := hsucceeds hcode
    cases hreports with
    | admitted _ hruntime =>
      refine ⟨rfl, _, _, _, _, rfl, houtput, rfl, rfl, ?_⟩
      intro k hk
      simp only [archifyFields, List.mem_cons, List.not_mem_nil, or_false] at hk
      rw [hruntime]
      obtain rfl | rfl | rfl | rfl := hk <;> rfl

/-- The runtime of `sampleDisk` writes an artifact. -/
def sampleProcess : Process where
  disk := sampleDisk
  host := sampleHost
  describe := fun _ => []
  pid := 7
  unique := "00ff"
  child := ⟨.closed (some 0) [], some (.file (utf8 "<html>") true)⟩

def sampleArguments : List JsString :=
  ["deliver", "--cwd", "/work", "--runtime", "/opt/archify/bin/archify", "--type", "workflow",
    "--spec", "spec.json", "--name", "out.html"]

theorem main_leaves_sample :
    (sampleProcess.main sampleArguments).1.exitCode = 0 ∧
      LeavesAt sampleProcess sampleArguments ["work", ".artifacts", "archify", "out.html"]
        (sampleDisk.entries sampleDisk.toFileTree ["work", ".artifacts", "archify", "out.html"])
        ((sampleProcess.main sampleArguments).2 ["work", ".artifacts", "archify", "out.html"])
        (sampleProcess.main sampleArguments).1 := by
  refine ⟨by decide +kernel, main_leaves sampleProcess sampleArguments ?_⟩
  intro ⟨options, d, t, _, _, heq⟩
  have hlast := congrArg List.getLast? heq
  rw [Delivery.candidatePath, List.getLast?_concat] at hlast
  -- the name of a candidate begins with a point
  have hhead : (js "out.html").head? = some 0x2E := congrArg List.head? (Option.some.inj hlast)
  exact absurd hhead (by decide)

end Wns.Artifact
