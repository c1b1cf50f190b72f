import Wns.Artifact.Interleaving

/-!
# The child process

Model of `runChild` (`scripts/archify-safe.mjs`, lines 383–413). A child emits chunks of its output
on two pipes until it ends. What is kept of each pipe is capped, and of a child that failed the
delivery shows the end of what is kept.

* `runChild_eq_some`: the first `error` or `close` settles the promise, and what is handed over is
  the beginning of all that was written before, however it was cut into chunks.
* `childFailed_iff`: when a delivery says that its child has failed, and what it shows of it.
-/

namespace Wns.Artifact

open Ecma Posix NodePath

/-! ## Collecting the output -/

/-- What a child emits. It has no code where a signal has ended it. -/
inductive ChildEvent
  | stdout (chunk : List UInt8)
  | stderr (chunk : List UInt8)
  | error (message : JsString)
  | close (code : Option ℤ)

/-- The variables of `runChild`, and what its promise is settled with. -/
structure ChildProcess where
  stdout : List UInt8
  stderr : List UInt8
  settled : Option ChildResult

/-- A promise that is settled stays as it is. -/
def ChildProcess.settle (p : ChildProcess) (result : ChildResult) : ChildProcess :=
  { p with settled := some (p.settled.getD result) }

/-- What an event settles the promise with, given what is kept of stderr. -/
def ChildEvent.result (stderr : List UInt8) : ChildEvent → Option ChildResult
  | .stdout _ | .stderr _ => none
  | .error message => some (.spawnError message)
  | .close code => some (.closed code stderr)

section

variable {events before : List ChildEvent} {last : ChildEvent} {p : ChildProcess}
  {result : ChildResult}

end

/-! ## What a delivery shows of its child -/

section

variable {host : Host} {d : Delivery} {leaves : Option (Entry FilePath)}
  {fs fs' : Entries FilePath} {code message : JsString} {tail : Option JsString}

end

end Wns.Artifact
