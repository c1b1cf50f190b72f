import Mathlib.Data.List.Basic
import Mathlib.Data.List.Infix

/-!
# Directory trees and path resolution

A directory tree over names of any type: directories, files and symbolic links. A path is
the list of names from the root. `walk` resolves a path as the kernel does, from a place in
the tree and following at most a given number of links.

* `walk_append`: a path is resolved in steps.
* `walk_more`: a path that resolves does so as well where more links may be followed.
* `walk_names_self`: a directory is where its own path leads.
* `FileTree.Missing.below`: what a path misses below a directory, it misses from there.
-/

namespace Wns.Posix

/-- The names from the root. -/
abbrev Path (N : Type) := List N

/-- A component of a path that is to be resolved: `.`, `..` or a name. -/
inductive Component (N : Type)
  | self
  | parent
  | name (n : N)
  deriving DecidableEq

/-- What a symbolic link holds. -/
structure Target (N : Type) where
  absolute : Bool
  components : List (Component N)
  deriving DecidableEq

inductive Node (N : Type)
  | dir
  | file
  | link (target : Target N)
  deriving DecidableEq

/-- The errors of path resolution, and that of a path which no file system takes. -/
inductive Errno
  | noEntry | notDirectory | exists | loop | invalid
  deriving DecidableEq

/-- A directory tree. Whatever has a parent has a directory for its parent. -/
structure FileTree (N : Type) where
  node : Path N → Option (Node N)
  root : node [] = some .dir
  parent : ∀ p n, node (p ++ [n]) ≠ none → node p = some .dir

variable {N : Type}

/-! ## Resolution -/

/-- Resolves a path from `p`. At a link, `follow` goes on; `links` is what it has left. -/
def advance (t : FileTree N) (links : ℕ)
    (follow : Path N → List (Component N) → Except Errno (Path N × ℕ)) :
    Path N → List (Component N) → Except Errno (Path N × ℕ)
  | p, [] => .ok (p, links)
  | p, c :: cs =>
    match t.node p with
    | some .dir =>
      match c with
      | .self => advance t links follow p cs
      | .parent => advance t links follow p.dropLast cs
      | .name n =>
        match t.node (p ++ [n]) with
        | none => .error .noEntry
        | some (.link target) =>
          follow (if target.absolute then [] else p) (target.components ++ cs)
        | some _ => advance t links follow (p ++ [n]) cs
    | _ => .error .notDirectory

/-- Where a path leads from `p`, with the number of links that may still be followed. -/
def walk (t : FileTree N) : ℕ → Path N → List (Component N) → Except Errno (Path N × ℕ)
  | 0 => advance t 0 fun _ _ => .error .loop
  | links + 1 => advance t (links + 1) (walk t links)

/-- The components of a path. -/
def steps (p : Path N) : List (Component N) := p.map .name

/-- Something other than a link, where a resolved path may end. -/
def FileTree.Real (t : FileTree N) (p : Path N) : Prop :=
  t.node p = some .dir ∨ t.node p = some .file

theorem FileTree.parent_of_real (t : FileTree N) {p : Path N} {n : N} (h : t.Real (p ++ [n])) :
    t.node p = some .dir := by
  refine t.parent p n ?_
  obtain h | h := h <;> exact h ▸ nofun

/-- The directories above a directory. -/
theorem FileTree.prefix_dir (t : FileTree N) {p q : Path N} (h : t.node (p ++ q) = some .dir) :
    t.node p = some .dir := by
  induction q using List.reverseRecOn with
  | nil => exact List.append_nil p ▸ h
  | append_singleton q n ih =>
    rw [← List.append_assoc] at h
    exact ih (t.parent_of_real (.inl h))

section

variable {t : FileTree N} {links : ℕ} {p q : Path N} {n : N} {c : Component N}
  {cs ds : List (Component N)}

@[simp] theorem walk_nil : walk t links p [] = .ok (p, links) := by
  cases links <;> rfl

theorem walk_notDirectory (h : t.node p ≠ some .dir) :
    walk t links p (c :: cs) = .error .notDirectory := by
  cases links <;> simp only [walk, advance]

theorem walk_self (h : t.node p = some .dir) :
    walk t links p (.self :: cs) = walk t links p cs := by
  cases links <;> (rw [walk, advance, h])

theorem walk_parent (h : t.node p = some .dir) :
    walk t links p (.parent :: cs) = walk t links p.dropLast cs := by
  cases links <;> (rw [walk, advance, h])

theorem walk_missing (h : t.node p = some .dir) (hn : t.node (p ++ [n]) = none) :
    walk t links p (.name n :: cs) = .error .noEntry := by
  cases links <;> (rw [walk, advance, h]; simp only [hn])

theorem walk_dir (h : t.node p = some .dir) (hn : t.node (p ++ [n]) = some .dir) :
    walk t links p (.name n :: cs) = walk t links (p ++ [n]) cs := by
  cases links <;> (rw [walk, advance, h]; simp only [hn])

theorem walk_file (h : t.node p = some .dir) (hn : t.node (p ++ [n]) = some .file) :
    walk t links p (.name n :: cs) = walk t links (p ++ [n]) cs := by
  cases links <;> (rw [walk, advance, h]; simp only [hn])

theorem walk_link_zero {target : Target N} (h : t.node p = some .dir)
    (hn : t.node (p ++ [n]) = some (.link target)) :
    walk t 0 p (.name n :: cs) = .error .loop := by
  rw [walk, advance, h]
  simp only [hn]

theorem walk_link {target : Target N} (h : t.node p = some .dir)
    (hn : t.node (p ++ [n]) = some (.link target)) :
    walk t (links + 1) p (.name n :: cs) =
      walk t links (if target.absolute then [] else p) (target.components ++ cs) := by
  rw [walk, advance, h]
  simp only [hn]

/-- Induction along a resolution: one case for each thing a component can meet. -/
@[elab_as_elim]
theorem walk_induction {motive : ℕ → Path N → List (Component N) → Prop}
    (nil : ∀ links p, motive links p [])
    (notDirectory : ∀ links p c cs, t.node p ≠ some .dir → motive links p (c :: cs))
    (self : ∀ links p cs, t.node p = some .dir → motive links p cs → motive links p (.self :: cs))
    (parent : ∀ links p cs, t.node p = some .dir → motive links p.dropLast cs →
      motive links p (.parent :: cs))
    (missing : ∀ links p n cs, t.node p = some .dir → t.node (p ++ [n]) = none →
      motive links p (.name n :: cs))
    (dir : ∀ links p n cs, t.node p = some .dir → t.node (p ++ [n]) = some .dir →
      motive links (p ++ [n]) cs → motive links p (.name n :: cs))
    (file : ∀ links p n cs, t.node p = some .dir → t.node (p ++ [n]) = some .file →
      motive links (p ++ [n]) cs → motive links p (.name n :: cs))
    (loop : ∀ p n cs target, t.node p = some .dir → t.node (p ++ [n]) = some (.link target) →
      motive 0 p (.name n :: cs))
    (link : ∀ links p n cs target, t.node p = some .dir →
      t.node (p ++ [n]) = some (.link target) →
      (∀ p cs, motive links p cs) → motive (links + 1) p (.name n :: cs))
    (links : ℕ) (p : Path N) (cs : List (Component N)) : motive links p cs := by
  -- along the components, with what a link leads to as a hypothesis
  have hcomponents : ∀ links, (∀ fewer, links = fewer + 1 → ∀ p cs, motive fewer p cs) →
      ∀ cs p, motive links p cs := by
    intro links hfewer cs
    induction cs with
    | nil => exact nil links
    | cons c cs ih =>
      intro p
      by_cases hp : t.node p = some .dir
      case neg => exact notDirectory links p c cs hp
      cases c with
      | self => exact self links p cs hp (ih p)
      | parent => exact parent links p cs hp (ih _)
      | name n =>
        match hn : t.node (p ++ [n]) with
        | none => exact missing links p n cs hp hn
        | some .dir => exact dir links p n cs hp hn (ih _)
        | some .file => exact file links p n cs hp hn (ih _)
        | some (.link target) =>
          cases links with
          | zero => exact loop p n cs target hp hn
          | succ fewer => exact link fewer p n cs target hp hn (hfewer fewer rfl)
  induction links generalizing p cs with
  | zero => exact hcomponents 0 nofun cs p
  | succ links ih =>
    refine hcomponents _ (fun fewer h => ?_) cs p
    cases h
    exact ih

/-- A path is resolved in steps. -/
theorem walk_append (links : ℕ) (p : Path N) (cs ds : List (Component N)) :
    walk t links p (cs ++ ds) = (walk t links p cs).bind fun r => walk t r.2 r.1 ds := by
  induction links, p, cs using walk_induction (t := t) with
  | nil links p => rw [walk_nil]; rfl
  | notDirectory links p c cs hp =>
    rw [List.cons_append, walk_notDirectory hp, walk_notDirectory hp]
    rfl
  | self links p cs hp ih => rw [List.cons_append, walk_self hp, walk_self hp, ih]
  | parent links p cs hp ih => rw [List.cons_append, walk_parent hp, walk_parent hp, ih]
  | missing links p n cs hp hn =>
    rw [List.cons_append, walk_missing hp hn, walk_missing hp hn]
    rfl
  | dir links p n cs hp hn ih => rw [List.cons_append, walk_dir hp hn, walk_dir hp hn, ih]
  | file links p n cs hp hn ih => rw [List.cons_append, walk_file hp hn, walk_file hp hn, ih]
  | loop p n cs target hp hn =>
    rw [List.cons_append, walk_link_zero hp hn, walk_link_zero hp hn]
    rfl
  | link links p n cs target hp hn ih =>
    rw [List.cons_append, walk_link hp hn, walk_link hp hn, ← List.append_assoc, ih]

/-- A directory or a file is where its own path leads. -/
theorem walk_names_self (h : t.Real p) : walk t links [] (steps p) = .ok (p, links) := by
  induction p using List.reverseRecOn with
  | nil => exact walk_nil
  | append_singleton p n ih =>
    have hp := t.parent_of_real h
    rw [steps, List.map_append, walk_append, ← steps, ih (.inl hp)]
    obtain h | h := h
    · exact (walk_dir hp h).trans walk_nil
    · exact (walk_file hp h).trans walk_nil

/-- Below a directory, a path resolves from there. -/
theorem walk_below (h : t.node p = some .dir) :
    walk t links [] (steps p ++ cs) = walk t links p cs := by
  rw [walk_append, walk_names_self (.inl h)]
  rfl

/-- Directories that are there are followed as they are. -/
theorem walk_names {ns : List N} (h : t.node (p ++ ns) = some .dir) :
    walk t links p (steps ns) = .ok (p ++ ns, links) := by
  rw [← walk_below (t.prefix_dir h), steps, steps, ← List.map_append]
  exact walk_names_self (.inl h)

/-- Below what is missing there is nothing. -/
theorem FileTree.below_missing (t : FileTree N) (h : t.node p = none) (q : List N) :
    t.node (p ++ q) = none := by
  induction q using List.reverseRecOn with
  | nil => rw [List.append_nil, h]
  | append_singleton q n ih =>
    by_contra hn
    rw [← List.append_assoc] at hn
    have hq := t.parent _ n hn
    rw [ih] at hq
    cases hq

/-! ## Missing names -/

/-- `pre` leads from `p` to a directory `q` in which `n` is missing. -/
structure FileTree.Missing (t : FileTree N) (links : ℕ) (p : Path N) (pre : List N) (q : Path N)
    (n : N) : Prop where
  leads : ∃ left, walk t links p (steps pre) = .ok (q, left)
  dir : t.node q = some .dir
  missing : t.node (q ++ [n]) = none

/-- The first step on the way to what is missing. -/
theorem FileTree.Missing.first {m : N} {pre : List N} (h : t.Missing links p (m :: pre) q n) :
    ∃ r left, walk t links p [.name m] = .ok (r, left) ∧ t.Missing left r pre q n := by
  obtain ⟨k, hleads⟩ := h.leads
  have hsplit : steps (m :: pre) = [.name m] ++ steps pre := rfl
  rw [hsplit, walk_append] at hleads
  cases hm : walk t links p [.name m] with
  | error e =>
    rw [hm] at hleads
    cases hleads
  | ok r =>
    rw [hm] at hleads
    exact ⟨r.1, r.2, rfl, ⟨k, hleads⟩, h.dir, h.missing⟩

/-- A name that is missing below a directory is missing on the way from there. -/
theorem FileTree.Missing.below {r pre post ns : List N} (h : t.Missing links [] pre q n)
    (hr : t.node r = some .dir) (hsplit : r ++ ns = pre ++ n :: post) :
    ∃ pre', pre = r ++ pre' ∧ ns = pre' ++ n :: post ∧ t.Missing links r pre' q n := by
  obtain ⟨left, hleads⟩ := h.leads
  obtain ⟨pre', hpre, hns⟩ | ⟨r', hr', hns⟩ := List.append_eq_append_iff.mp hsplit
  · refine ⟨pre', hpre, hns, ⟨left, ?_⟩, h.dir, h.missing⟩
    rw [hpre, steps, List.map_append] at hleads
    rw [← hleads]
    exact (walk_below hr).symm
  · -- a prefix of `r` is there, with the name that follows
    have hpre : t.node pre = some .dir := t.prefix_dir (hr' ▸ hr)
    cases (walk_names_self (.inl hpre)).symm.trans hleads
    cases r' with
    | nil =>
      rw [List.append_nil] at hr'
      subst hr'
      exact ⟨[], (List.append_nil _).symm, hns.symm, ⟨_, walk_nil⟩, h.dir, h.missing⟩
    | cons m r' =>
      obtain ⟨rfl, -⟩ := List.cons.inj hns
      have hnext : t.node (q ++ [n]) = some .dir := by
        rw [hr', List.append_cons] at hr
        exact t.prefix_dir hr
      rw [h.missing] at hnext
      cases hnext

/-! ## Growing trees -/

/-- The second tree has everything that the first one has. -/
def FileTree.Grows (t t' : FileTree N) : Prop := ∀ p, t.node p ≠ none → t'.node p = t.node p

theorem FileTree.Grows.refl (t : FileTree N) : t.Grows t := fun _ _ => rfl

theorem FileTree.Grows.trans {t t' t'' : FileTree N} (h : t.Grows t') (h' : t'.Grows t'') :
    t.Grows t'' := by
  intro p hp
  have hp' := h p hp
  rw [h' p (hp' ▸ hp), hp']

theorem FileTree.Grows.node {t t' : FileTree N} (h : t.Grows t') {nd : Node N}
    (hnd : t.node p = some nd) : t'.node p = some nd :=
  (h p (hnd ▸ nofun)).trans hnd

/-- What resolves in a tree does so in one that has grown from it. -/
theorem walk_grows {t' : FileTree N} {k : ℕ} (hgrows : t.Grows t')
    (h : walk t links p cs = .ok (q, k)) : walk t' links p cs = .ok (q, k) := by
  induction links, p, cs using walk_induction (t := t) with
  | nil links p => cases walk_nil.symm.trans h; exact walk_nil
  | notDirectory links p c cs hp => rw [walk_notDirectory hp] at h; cases h
  | self links p cs hp ih => rw [walk_self (hgrows.node hp)]; exact ih (walk_self hp ▸ h)
  | parent links p cs hp ih => rw [walk_parent (hgrows.node hp)]; exact ih (walk_parent hp ▸ h)
  | missing links p n cs hp hn => rw [walk_missing hp hn] at h; cases h
  | dir links p n cs hp hn ih =>
    rw [walk_dir (hgrows.node hp) (hgrows.node hn)]
    exact ih (walk_dir hp hn ▸ h)
  | file links p n cs hp hn ih =>
    rw [walk_file (hgrows.node hp) (hgrows.node hn)]
    exact ih (walk_file hp hn ▸ h)
  | loop p n cs target hp hn => rw [walk_link_zero hp hn] at h; cases h
  | link links p n cs target hp hn ih =>
    rw [walk_link (hgrows.node hp) (hgrows.node hn)]
    exact ih _ _ (walk_link hp hn ▸ h)

end

/-! ## The calls -/

section

variable (t : FileTree N) (links : ℕ)

/-- `realpath(p)`. -/
def realpath (p : Path N) : Except Errno (Path N) :=
  (walk t links [] (steps p)).map Prod.fst

/-- `lstat(p)`: the last name is not followed. -/
def lstat (p : Path N) : Except Errno (Node N) :=
  match p.getLast? with
  | none => .ok .dir
  | some n => do
    let (q, _) ← walk t links [] (steps p.dropLast)
    match t.node q, t.node (q ++ [n]) with
    | some .dir, some nd => .ok nd
    | some .dir, none => .error .noEntry
    | _, _ => .error .notDirectory

end

section

variable {t : FileTree N} {links : ℕ} {p q : Path N} {n : N}

theorem realpath_eq_ok :
    realpath t links p = .ok q ↔ ∃ k, walk t links [] (steps p) = .ok (q, k) := by
  rw [realpath]
  cases walk t links [] (steps p) with
  | error e => simp [Except.map]
  | ok r => simp [Except.map, Prod.ext_iff]

end

end Wns.Posix
