import Mathlib.Data.List.DropRight
import Wns.Ecma.Text
import Wns.Posix.FileTree

/-!
# Node's `path`

The functions of `node:path` on POSIX. An absolute path that is normalized is the list of
its names; a path that a caller supplies is a string. The slash is the only separator here;
`win32IsAbsolute` is what `path.win32` takes for absolute.

* `prefix_of_relative`: a path that is reached without going up lies below.
* `resolve_eq_append`: resolving a string without `..` goes down from the base.
-/

namespace Wns.NodePath

open Ecma Posix

abbrev FilePath := Posix.Path JsString

/-- `/`. -/
def slash : CodeUnit := 0x2F

/-- `\`. -/
def backslash : CodeUnit := 0x5C

/-- `path.isAbsolute(s)`. -/
def isAbsolute (s : JsString) : Bool := s.head? = some slash

/-- Either separator of Windows. -/
def isSeparator (u : CodeUnit) : Bool := u = slash ∨ u = backslash

/-- `a … z` or `A … Z`. -/
def isLetter (u : CodeUnit) : Bool :=
  (0x61 ≤ u.val ∧ u.val ≤ 0x7A) ∨ (0x41 ≤ u.val ∧ u.val ≤ 0x5A)

/-- A drive letter, a colon and a separator. -/
def startsWithDrive : JsString → Bool
  | letter :: colon :: separator :: _ =>
    isLetter letter ∧ colon = (0x3A : CodeUnit) ∧ isSeparator separator
  | _ => false

/-- `path.win32.isAbsolute(s)`. -/
def win32IsAbsolute (s : JsString) : Bool := s.head?.any isSeparator ∨ startsWithDrive s

/-- The components of a path string. -/
def components (s : JsString) : List JsString := s.splitOnP (· = slash)

/-- A component, resolved below a path. -/
def push (p : FilePath) (component : JsString) : FilePath :=
  if component = [] ∨ component = js "." then p
  else if component = js ".." then p.dropLast
  else p ++ [component]

/-- `path.resolve(base, s)`. -/
def resolve (base : FilePath) (s : JsString) : FilePath :=
  (components s).foldl push (if isAbsolute s then [] else base)

/-- `path.join(p, s)`. -/
def join (p : FilePath) (s : JsString) : FilePath := (components s).foldl push p

/-- Names with slashes between them. -/
def joinNames (ns : List JsString) : JsString := [slash].intercalate ns

/-- The absolute path as a string. -/
def text (p : FilePath) : JsString := slash :: joinNames p

/-- `path.relative(base, p)`: up from the base to what the two share, and down again. -/
def relative : FilePath → FilePath → JsString
  | b :: base, n :: p =>
    if b = n then relative base p
    else joinNames (List.replicate (base.length + 1) (js "..") ++ n :: p)
  | base, p => joinNames (List.replicate base.length (js "..") ++ p)

/-- `path.dirname(s)`. -/
def dirname (s : JsString) : JsString :=
  let hasRoot := isAbsolute s
  -- all before the last name
  let head := (s.rdropWhile (· = slash)).rdropWhile (· ≠ slash)
  if head.length ≤ 1 then (if hasRoot then js "/" else js ".")
  else if hasRoot ∧ head.length = 2 then js "//"
  else head.dropLast

/-! ## Going down -/

/-- `s.startsWith("..")`. -/
def goesUp (s : JsString) : Bool := (js "..").isPrefixOf s

theorem goesUp_joinNames (ns : List JsString) : goesUp (joinNames (js ".." :: ns)) = true := by
  cases ns with
  | nil => decide
  | cons n ns =>
    rw [joinNames, List.intercalate_cons_cons, goesUp, List.isPrefixOf_iff_prefix]
    exact List.prefix_append _ _

/-- A path that is reached from a base without going up lies below the base. -/
theorem prefix_of_relative {base p : FilePath} (h : goesUp (relative base p) = false) :
    base <+: p := by
  induction base generalizing p with
  | nil => exact List.nil_prefix
  | cons b base ih =>
    cases p with
    | nil =>
      rw [relative, List.length_cons, List.replicate_succ, List.cons_append, goesUp_joinNames] at h
      cases h
      simp
    | cons n p =>
      rw [relative] at h
      split_ifs at h with hb
      · exact List.cons_prefix_cons.mpr ⟨hb, ih h⟩
      · rw [List.replicate_succ, List.cons_append, goesUp_joinNames] at h
        cases h

/-- The names of a path string. -/
def namesOf (s : JsString) : List JsString :=
  (components s).filter fun c => c ≠ [] ∧ c ≠ js "."

theorem foldl_push {cs : List JsString} (h : js ".." ∉ cs) (p : FilePath) :
    cs.foldl push p = p ++ cs.filter fun c => c ≠ [] ∧ c ≠ js "." := by
  induction cs generalizing p with
  | nil => rw [List.foldl_nil, List.filter_nil, List.append_nil]
  | cons c cs ih =>
    obtain ⟨hc, hcs⟩ := not_or.mp (List.mem_cons.not.mp h)
    rw [List.foldl_cons, ih hcs, push, List.filter_cons]
    by_cases hskip : c = [] ∨ c = js "."
    · have hkeep : ¬ (c ≠ [] ∧ c ≠ js ".") := by tauto
      rw [if_pos hskip, if_neg (by simpa using hkeep)]
    · have hkeep : c ≠ [] ∧ c ≠ js "." := not_or.mp hskip
      rw [if_neg hskip, if_neg (Ne.symm hc), if_pos (decide_eq_true hkeep), List.append_assoc]
      rfl

/-- Without `..` a relative path goes down from its base. -/
theorem resolve_eq_append {s : JsString} (hrel : isAbsolute s = false) (h : js ".." ∉ components s)
    (base : FilePath) : resolve base s = base ++ namesOf s := by
  rw [resolve, hrel]
  exact foldl_push h base

/-- A single name, joined to a path. -/
theorem join_name {n : JsString} (h : slash ∉ n) (p : FilePath) : join p n = push p n := by
  have hsplit : components n = [n] :=
    List.splitOnP_eq_singleton fun u hu => decide_eq_false fun heq => h (heq ▸ hu)
  rw [join, hsplit]
  rfl

/-- Splitting at more separators splits the parts. -/
theorem splitOnP_flatMap {α : Type} {sep sep' : α → Bool} (h : ∀ u, sep u = true → sep' u = true)
    (s : List α) : s.splitOnP sep' = (s.splitOnP sep).flatMap fun c => c.splitOnP sep' := by
  induction s with
  | nil => rfl
  | cons v s ih =>
    obtain ⟨first, others, hsplit⟩ := List.exists_cons_of_ne_nil (List.splitOnP_ne_nil sep s)
    rw [hsplit, List.flatMap_cons] at ih
    rw [List.splitOnP_cons_eq_if_modifyHead, List.splitOnP_cons_eq_if_modifyHead v s, hsplit]
    by_cases hv : sep v = true
    · rw [if_pos (h v hv), if_pos hv, ih]
      rfl
    rw [if_neg hv, List.modifyHead_cons, List.flatMap_cons, List.splitOnP_cons_eq_if_modifyHead, ih]
    split_ifs
    · rfl
    · obtain ⟨g, gs, hg⟩ := List.exists_cons_of_ne_nil (List.splitOnP_ne_nil sep' first)
      rw [hg]
      rfl

/-- A part without further separators stays a part. -/
theorem mem_splitOnP {α : Type} {sep sep' : α → Bool} {s c : List α}
    (h : ∀ u, sep u = true → sep' u = true) (hc : c ∈ s.splitOnP sep)
    (hno : ∀ u ∈ c, sep' u = false) : c ∈ s.splitOnP sep' := by
  rw [splitOnP_flatMap h, List.mem_flatMap]
  exact ⟨c, hc, by rw [List.splitOnP_eq_singleton hno, List.mem_singleton]⟩

/-! ## The last name -/

/-- A name: what `push` goes down to. -/
def IsName (n : JsString) : Prop := n ≠ [] ∧ n ≠ js "." ∧ n ≠ js ".."

theorem push_name {n : JsString} (h : IsName n) (p : FilePath) : push p n = p ++ [n] := by
  rw [push, if_neg (not_or.mpr ⟨h.1, h.2.1⟩), if_neg h.2.2]

/-- The string up to its last slash. -/
def upToName (s : JsString) : JsString := s.rdropWhile fun u => u ≠ slash

/-- What is after the last slash. -/
def lastName (s : JsString) : JsString := s.rtakeWhile fun u => u ≠ slash

theorem upToName_append (s : JsString) : upToName s ++ lastName s = s :=
  List.rdropWhile_append_rtakeWhile

theorem slash_notMem_lastName (s : JsString) : slash ∉ lastName s := fun h => by
  simpa using List.mem_rtakeWhile_imp h

theorem upToName_eq_append {s : JsString} (h : upToName s ≠ []) :
    upToName s = (upToName s).dropLast ++ [slash] := by
  have hlast : (upToName s).getLast h = slash := by
    have hnot := List.rdropWhile_last_not (fun u => decide (u ≠ slash)) s h
    exact not_not.mp fun h => hnot (decide_eq_true h)
  rw [← hlast, List.dropLast_append_getLast]

/-- The last component is the last name. -/
theorem components_eq (s : JsString) : components s =
    (if upToName s = [] then [] else components (upToName s).dropLast) ++ [lastName s] := by
  have hname : components (lastName s) = [lastName s] :=
    List.splitOnP_eq_singleton fun u hu =>
      decide_eq_false fun heq => slash_notMem_lastName s (heq ▸ hu)
  have hs := upToName_append s
  split_ifs with h
  · rw [h, List.nil_append] at hs
    rw [List.nil_append, ← hname, hs]
  · have hparts : components ((upToName s).dropLast ++ slash :: lastName s) =
        components (upToName s).dropLast ++ components (lastName s) :=
      List.splitOnP_append_cons _ _ (decide_eq_true rfl)
    rw [← hname, ← hparts]
    conv_lhs => rw [← hs, upToName_eq_append h, List.append_assoc]
    rfl

/-- A string that ends with no slash ends as its last name does. -/
theorem getLast?_lastName {s : JsString} (h : s.getLast? ≠ some slash) :
    (lastName s).getLast? = s.getLast? := by
  have hs := upToName_append s
  cases hn : lastName s with
  | nil =>
    rw [hn, List.append_nil] at hs
    by_cases hhead : upToName s = []
    · rw [← hs, hhead]
    · rw [← hs, upToName_eq_append hhead, List.getLast?_concat] at h
      exact (h rfl).elim
  | cons u rest =>
    conv_rhs => rw [← hs, hn, List.getLast?_append_of_ne_nil _ (by simp)]

/-- A relative string whose directory is `.` has one name, perhaps after a `./`. -/
theorem components_of_dirname {s : JsString} (hrel : isAbsolute s = false)
    (hlast : s.getLast? ≠ some slash) (h : dirname s = js ".") :
    components s = [lastName s] ∨ components s = [js ".", lastName s] := by
  have htrim : s.rdropWhile (fun u => u = slash) = s := by
    rw [List.rdropWhile_eq_self_iff]
    intro hne hslash
    exact hlast (List.getLast?_eq_some_getLast hne ▸ congrArg some (of_decide_eq_true hslash))
  have hdirname : dirname s =
      if (upToName s).length ≤ 1 then js "." else (upToName s).dropLast := by
    simp only [dirname, htrim, hrel, ← upToName.eq_1, Bool.false_eq_true, if_false, false_and]
  rw [hdirname] at h
  rw [components_eq]
  split_ifs at h with hshort
  · -- a head of one unit is a slash, and the string is not absolute
    have hnil : upToName s = [] := by
      by_contra hne
      have hslash := upToName_eq_append hne
      have hdrop : (upToName s).dropLast = [] :=
        List.length_eq_zero_iff.mp (by rw [List.length_dropLast]; omega)
      rw [← upToName_append s, hslash, hdrop] at hrel
      cases hrel
    rw [if_pos hnil]
    exact .inl rfl
  · have hne : upToName s ≠ [] := fun hnil => hshort (by rw [hnil]; decide)
    rw [if_neg hne, h]
    exact .inr rfl

end Wns.NodePath
