import Wns.Posix.MakeDirectory
import Wns.Posix.NodePath

/-!
# Where an artifact is written

Model of the path helpers of `scripts/archify-safe.mjs` (lines 81–226): the checks of a
relative path, `resolveArtifactRoot` and `resolveFinalPath`. A path string is split at both
separators by the checks, and at the slash alone by `path.resolve` and the host.

Both functions are runs on a tree: the answer, or what was thrown, and the tree that is left.

* `resolveOutput`: the two in a row.
-/

namespace Wns.Artifact

open Ecma Posix NodePath

/-- What is thrown: a `WrapperError`, or an error of the host. -/
inductive Failure
  | wrapper (code message : JsString)
  | host (error : Errno)
  deriving DecidableEq

abbrev Outcome := Except Failure

/-- `fail(code, message)`. -/
def fail {α : Type} (code message : JsString) : Outcome α := .error (.wrapper code message)

/-! ## The host -/

/-- A directory tree of the host. File names have no NUL. -/
structure HostTree extends FileTree JsString where
  nulFree : ∀ p n, node (p ++ [n]) ≠ none → (0 : CodeUnit) ∉ n

/-- The path has a NUL. -/
def HasNul (p : FilePath) : Prop := ∃ n ∈ p, (0 : CodeUnit) ∈ n

instance : DecidablePred HasNul := fun p =>
  inferInstanceAs (Decidable (∃ n ∈ p, (0 : CodeUnit) ∈ n))

/-- A call on a path. Node refuses one with a NUL before it asks the host. -/
def call {α : Type} (p : FilePath) (result : Except Errno α) : Except Errno α :=
  if HasNul p then .error .invalid else result

/-! ## Checks of a path string -/

/-- `s.split(/[\\/]+/)`. Separators in a row leave empty segments here, which no caller
    looks at. -/
def segments (s : JsString) : List JsString := s.splitOnP isSeparator

/-- `hasDotDotSegment(relPath)`. -/
def hasDotDotSegment (relPath : JsString) : Bool := js ".." ∈ segments relPath

/-- `isAbsoluteLike(candidate)`. -/
def isAbsoluteLike (candidate : JsString) : Bool :=
  win32IsAbsolute candidate ∨ isAbsolute candidate ∨ startsWithDrive candidate ∨
    [backslash, backslash].isPrefixOf candidate

/-- `relative.startsWith("..") || path.isAbsolute(relative)`, for the path relative to the base. -/
def escapes (base p : FilePath) : Bool := goesUp (relative base p) ∨ isAbsolute (relative base p)

section

variable (t : FileTree JsString) (links : ℕ)

/-- The loop of `assertLexicalAndRealAncestryInside` over the segments. -/
def checkAncestry (realBase : FilePath) (code : JsString) :
    FilePath → List JsString → Outcome Unit
  | _, [] => .ok ()
  | cursor, segment :: rest =>
    let next := join cursor segment
    match call next (lstat t links next) with
    | .error _ => .ok ()
    | .ok (.link _) =>
      match call next (realpath t links next) with
      | .error _ => fail code ("Broken or unresolvable symlink in path: " ++ text next)
      | .ok real =>
        if escapes realBase real then
          fail code ("Symlink escapes target root: " ++ text next ++ " -> " ++ text real)
        else checkAncestry realBase code real rest
    | .ok _ => checkAncestry realBase code next rest

/-- `assertLexicalAndRealAncestryInside(realBase, relFromBase, code)`. -/
def assertLexicalAndRealAncestryInside (realBase : FilePath) (relFromBase code : JsString) :
    Outcome FilePath :=
  if isAbsolute relFromBase then fail code ("Expected a relative path: " ++ relFromBase)
  else if hasDotDotSegment relFromBase then
    fail code ("Path traversal is not permitted: " ++ relFromBase)
  else
    let lexical := resolve realBase relFromBase
    if escapes realBase lexical then fail code ("Path escapes target root: " ++ relFromBase)
    else
      match checkAncestry t links realBase code realBase
          ((segments relFromBase).filter fun segment => segment ≠ []) with
      | .error e => .error e
      | .ok () => .ok lexical

/-- `realpath` of a path, which has to stay inside the base. -/
def realpathInside (base p : FilePath) (code message : JsString) : Outcome FilePath :=
  match call p (realpath t links p) with
  | .error e => .error (.host e)
  | .ok real => if escapes base real then fail code message else .ok real

end

/-! ## The artifact root -/

/-- `DEFAULT_ARTIFACT_ROOT`. -/
def defaultArtifactRoot : JsString := ".artifacts/archify"

/-- The checks of `resolveArtifactRoot` before anything is created. -/
def artifactRootPath (t : FileTree JsString) (links : ℕ) (realCwd : FilePath)
    (override : Option JsString) : Outcome FilePath :=
  let rel := override.getD defaultArtifactRoot
  if isAbsoluteLike rel ∨ isAbsolute rel then
    fail "artifact_root_invalid" "Artifact root override must be a relative path"
  else if hasDotDotSegment rel then
    fail "artifact_root_invalid" "Artifact root override must not contain \"..\" segments"
  else assertLexicalAndRealAncestryInside t links realCwd rel "artifact_root_invalid"

/-- `resolveArtifactRoot(realCwd, override)`. -/
def resolveArtifactRoot (links : ℕ) (realCwd : FilePath) (override : Option JsString)
    (t : FileTree JsString) : Outcome FilePath × FileTree JsString :=
  match artifactRootPath t links realCwd override with
  | .error e => (.error e, t)
  | .ok lexical =>
    match call lexical (mkdirp t links lexical) with
    | .error e => (.error (.host e), t)
    | .ok t' =>
      (realpathInside t' links realCwd lexical "artifact_root_invalid"
        "Artifact root resolved outside target cwd after creation", t')

/-! ## The final path -/

/-- `u.toLowerCase()` of a unit, where it is `A … Z`. No other letter has one of the units of
    `.html` for its lower case. -/
def toLower (u : CodeUnit) : CodeUnit :=
  if 0x41 ≤ u.val ∧ u.val ≤ 0x5A then Fin.ofNat 65536 (u.val + 0x20) else u

/-- `name.toLowerCase().endsWith(".html")`. -/
def endsWithHtml (name : JsString) : Bool := (js ".html").isSuffixOf (name.map toLower)

/-- `validateOutputNameSyntax(name)`. -/
def validateOutputNameSyntax (name : JsString) : Outcome Unit :=
  if name.length = 0 then fail "output_name_invalid" "Output --name is required"
  else if isAbsoluteLike name ∨ isAbsolute name then
    fail "output_name_invalid" "Output --name must be a relative path"
  else if hasDotDotSegment name then
    fail "output_name_invalid" "Output --name must not contain \"..\" segments"
  else if ¬ endsWithHtml name then
    fail "output_name_invalid" "Output --name must end with .html"
  else .ok ()

/-- The checks of `resolveFinalPath` before anything is created. -/
def lexicalFinalPath (t : FileTree JsString) (links : ℕ) (realArtifactRoot : FilePath)
    (name : JsString) : Outcome FilePath :=
  match validateOutputNameSyntax name with
  | .error e => .error e
  | .ok () => assertLexicalAndRealAncestryInside t links realArtifactRoot name "output_name_invalid"

/-- The directory of the final path is created, unless the name has none. -/
def makeParent (t : FileTree JsString) (links : ℕ) (name : JsString) (parent : FilePath) :
    Except Errno (FileTree JsString) :=
  if dirname name ≠ js "." then call parent (mkdirp t links parent) else .ok t

/-- `resolveFinalPath(realArtifactRoot, name)`. -/
def resolveFinalPath (links : ℕ) (realArtifactRoot : FilePath) (name : JsString)
    (t : FileTree JsString) : Outcome FilePath × FileTree JsString :=
  match lexicalFinalPath t links realArtifactRoot name with
  | .error e => (.error e, t)
  | .ok lexicalFinal =>
    match makeParent t links name lexicalFinal.dropLast with
    | .error e => (.error (.host e), t)
    | .ok t' =>
      match realpathInside t' links realArtifactRoot lexicalFinal.dropLast "output_name_invalid"
          "Output parent directory resolved outside artifact root" with
      | .error e => (.error e, t')
      | .ok realParent => (.ok (join realParent (lexicalFinal.getLast?.getD [])), t')

/-- `resolveArtifactRoot` and then `resolveFinalPath`. -/
def resolveOutput (links : ℕ) (realCwd : FilePath) (override : Option JsString) (name : JsString)
    (t : FileTree JsString) : Outcome (FilePath × FilePath) × FileTree JsString :=
  match resolveArtifactRoot links realCwd override t with
  | (.error e, t') => (.error e, t')
  | (.ok realArtifactRoot, t') =>
    match resolveFinalPath links realArtifactRoot name t' with
    | (.error e, t'') => (.error e, t'')
    | (.ok finalPath, t'') => (.ok (realArtifactRoot, finalPath), t'')

end Wns.Artifact
