import Mathlib.Data.Nat.Notation
import Mathlib.Logic.Function.Basic
import Mathlib.Tactic.SplitIfs

/-!
# Entries of a file system

What stands at each path, as the calls see it that name an entry and do not list directories:
`lstat`, `rm` without recursion, `rename` and reading a file. Paths are of any type. A symbolic
link leads to another path; reading follows at most a given number of links.

* `rm_eq_ok`: nothing but a directory withstands `rm`.
* `rename_eq_ok`: a rename moves an entry as a whole.
-/

namespace Wns.Posix

/-- What stands at a path. A file is readable if reading it as a whole succeeds. -/
inductive Entry (P : Type)
  | file (bytes : List UInt8) (readable : Bool)
  | link (target : P)
  | dir
  | special
  deriving DecidableEq

/-- The entries of a file system. -/
abbrev Entries (P : Type) := P → Option (Entry P)

/-- The errors of the calls. -/
inductive IoError
  | noEntry | isDirectory | access | loop
  deriving DecidableEq

section

variable {P : Type} [DecidableEq P] {fs fs' : Entries P} {p q : P}

/-- `lstat`. -/
def Entries.lstat (fs : Entries P) (p : P) : Except IoError (Entry P) :=
  match fs p with
  | none => .error .noEntry
  | some entry => .ok entry

/-- `rm` with `force` and without `recursive`. -/
def Entries.rm (fs : Entries P) (p : P) : Except IoError (Entries P) :=
  if fs p = some .dir then .error .isDirectory else .ok (Function.update fs p none)

/-- `rename` of what is not a directory. -/
def Entries.rename (fs : Entries P) (p q : P) : Except IoError (Entries P) :=
  match fs p with
  | none => .error .noEntry
  | some entry =>
    if fs q = some .dir then .error .isDirectory
    else .ok (Function.update (Function.update fs p none) q (some entry))

/-- Where the links from `p` lead. -/
def Entries.follow (fs : Entries P) : ℕ → P → Except IoError (Entry P)
  | links, p =>
    match fs p with
    | none => .error .noEntry
    | some (.link target) =>
      match links with
      | 0 => .error .loop
      | links + 1 => fs.follow links target
    | some entry => .ok entry

/-- Whether `stat` finds something. -/
def Entries.exists (fs : Entries P) (links : ℕ) (p : P) : Bool := (fs.follow links p).isOk

/-- The bytes of a file. -/
def Entries.read (fs : Entries P) (links : ℕ) (p : P) : Except IoError (List UInt8) :=
  match fs.follow links p with
  | .error e => .error e
  | .ok (.file bytes true) => .ok bytes
  | .ok .dir => .error .isDirectory
  | .ok _ => .error .access

omit [DecidableEq P] in
theorem lstat_eq_ok {entry : Entry P} : fs.lstat p = .ok entry ↔ fs p = some entry := by
  unfold Entries.lstat
  cases fs p <;> simp

omit [DecidableEq P] in
theorem lstat_missing (h : fs p = none) : fs.lstat p = .error .noEntry := by
  rw [Entries.lstat, h]

theorem rm_eq_ok : fs.rm p = .ok fs' ↔ fs p ≠ some .dir ∧ fs' = Function.update fs p none := by
  unfold Entries.rm
  split_ifs with h
  · simp [h]
  · simp [h, eq_comm]

theorem rm_dir (h : fs p = some .dir) : fs.rm p = .error .isDirectory := if_pos h

theorem rename_eq_ok : fs.rename p q = .ok fs' ↔ fs q ≠ some .dir ∧
    ∃ entry, fs p = some entry ∧
      fs' = Function.update (Function.update fs p none) q (some entry) := by
  unfold Entries.rename
  cases h : fs p with
  | none => simp
  | some entry =>
    simp only [Option.some.injEq, exists_eq_left']
    split_ifs with hq
    · simp [hq]
    · simp [hq, eq_comm]

omit [DecidableEq P] in
theorem read_file {links : ℕ} {bytes : List UInt8} {readable : Bool}
    (h : fs p = some (.file bytes readable)) :
    fs.read links p = if readable then .ok bytes else .error .access := by
  have hfollow : fs.follow links p = .ok (.file bytes readable) := by
    unfold Entries.follow
    rw [h]
  unfold Entries.read
  rw [hfollow]
  cases readable <;> rfl

end

end Wns.Posix
