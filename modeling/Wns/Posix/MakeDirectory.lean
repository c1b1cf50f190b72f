import Wns.Posix.FileTree

/-!
# Recursive creation of directories

`mkdir(p, { recursive: true })`: along the path, links are followed and what is missing is
created. It fails only where something other than a missing name stops the resolution, and
then nothing was missing before, so that a failed call has created nothing.

* `mkdirp_missing`: if a prefix leads to a directory without the next name, the rest of the
  path is created there and nothing else.
* `mkdirp_eq_ok`: otherwise a call that succeeds creates nothing. The path leads to a
  directory afterwards.
-/

namespace Wns.Posix

variable {N : Type} [DecidableEq N]

/-- The tree with a new directory. -/
def FileTree.addDir (t : FileTree N) {p : Path N} {n : N} (hp : t.node p = some .dir)
    (_ : t.node (p ++ [n]) = none) : FileTree N where
  node q := if q = p ++ [n] then some .dir else t.node q
  root := by
    split_ifs
    · rfl
    · exact t.root
  parent := by
    intro q m h
    by_cases hq : q = p ++ [n]
    · rw [if_pos hq]
    rw [if_neg hq]
    by_cases hqm : q ++ [m] = p ++ [n]
    · rw [List.append_inj_left' hqm rfl]
      exact hp
    · rw [if_neg hqm] at h
      exact t.parent q m h

/-- Follows names from `p`, and creates what is missing. -/
def makeDirectories : FileTree N → ℕ → Path N → List N → Except Errno (FileTree N)
  | t, _, p, [] => if t.node p = some .dir then .ok t else .error .exists
  | t, links, p, n :: ns =>
    if h : t.node p = some .dir ∧ t.node (p ++ [n]) = none then
      makeDirectories (t.addDir h.1 h.2) links (p ++ [n]) ns
    else
      match walk t links p [.name n] with
      | .error e => .error e
      | .ok (q, left) => makeDirectories t left q ns

/-- `mkdir(p, { recursive: true })`. -/
def mkdirp (t : FileTree N) (links : ℕ) (p : Path N) : Except Errno (FileTree N) :=
  makeDirectories t links [] p

/-- The path `p ++ ns` has been created below `p`, and nothing else. -/
structure FileTree.Created (t t' : FileTree N) (p : Path N) (ns : List N) : Prop where
  grows : t.Grows t'
  dir : t'.node (p ++ ns) = some .dir
  only : ∀ q, t'.node q ≠ t.node q → p <+: q ∧ q <+: p ++ ns

variable {t t' : FileTree N} {links : ℕ} {p q : Path N} {n : N} {ns : List N}

theorem FileTree.addDir_node (hp : t.node p = some .dir) (hn : t.node (p ++ [n]) = none)
    (q : Path N) : (t.addDir hp hn).node q = if q = p ++ [n] then some .dir else t.node q := rfl

theorem FileTree.addDir_grows (hp : t.node p = some .dir) (hn : t.node (p ++ [n]) = none) :
    t.Grows (t.addDir hp hn) := by
  intro q hq
  refine if_neg fun h => hq ?_
  rw [h, hn]

/-- A new directory is empty. -/
theorem FileTree.addDir_empty (hp : t.node p = some .dir) (hn : t.node (p ++ [n]) = none) (m : N) :
    (t.addDir hp hn).node (p ++ [n] ++ [m]) = none := by
  rw [addDir_node, if_neg (by simp)]
  exact t.below_missing hn [m]

/-- A new directory, with everything that is created below it. -/
theorem FileTree.Created.addDir (hp : t.node p = some .dir) (hn : t.node (p ++ [n]) = none)
    (h : (t.addDir hp hn).Created t' (p ++ [n]) ns) : t.Created t' p (n :: ns) where
  grows := (addDir_grows hp hn).trans h.grows
  dir := by
    rw [List.append_cons]
    exact h.dir
  only := by
    intro q hq
    rw [List.append_cons]
    by_cases hqn : q = p ++ [n]
    · rw [hqn]
      exact ⟨List.prefix_append _ _, List.prefix_append _ _⟩
    · have hnode : (t.addDir hp hn).node q = t.node q := if_neg hqn
      obtain ⟨hbelow, habove⟩ := h.only q (hnode ▸ hq)
      exact ⟨(List.prefix_append _ _).trans hbelow, habove⟩

/-- Below an empty directory everything is created. -/
theorem makeDirectories_empty (hp : t.node p = some .dir)
    (hempty : ∀ n, t.node (p ++ [n]) = none) :
    ∃ t', makeDirectories t links p ns = .ok t' ∧ t.Created t' p ns := by
  induction ns generalizing t p with
  | nil =>
    refine ⟨t, if_pos hp, .refl t, ?_, fun q h => (h rfl).elim⟩
    rw [List.append_nil, hp]
  | cons n ns ih =>
    obtain ⟨t', ht', hcreated⟩ := ih (if_pos rfl) (FileTree.addDir_empty hp (hempty n))
    refine ⟨t', ?_, hcreated.addDir⟩
    rw [makeDirectories, dif_pos ⟨hp, hempty n⟩, ht']

/-- Where the next name is missing, it is created with all that follows. -/
theorem makeDirectories_next (hp : t.node p = some .dir) (hn : t.node (p ++ [n]) = none) :
    ∃ t', makeDirectories t links p (n :: ns) = .ok t' ∧ t.Created t' p (n :: ns) := by
  obtain ⟨t', ht', hcreated⟩ :=
    @makeDirectories_empty _ _ _ links _ ns (if_pos rfl) (FileTree.addDir_empty hp hn)
  refine ⟨t', ?_, hcreated.addDir⟩
  rw [makeDirectories, dif_pos ⟨hp, hn⟩, ht']

/-- What is missing is created where the path leads. -/
theorem makeDirectories_missing {pre : List N} (h : t.Missing links p pre q n) :
    ∃ t', makeDirectories t links p (pre ++ n :: ns) = .ok t' ∧ t.Created t' q (n :: ns) := by
  induction pre generalizing links p with
  | nil =>
    obtain ⟨⟨left, hleads⟩, hdir, hmissing⟩ := h
    cases walk_nil.symm.trans hleads
    exact makeDirectories_next hdir hmissing
  | cons m pre ih =>
    obtain ⟨r, left, hm, hrest⟩ := h.first
    have hthere : ¬ (t.node p = some .dir ∧ t.node (p ++ [m]) = none) := by
      intro ⟨hp, hnone⟩
      rw [walk_missing hp hnone] at hm
      cases hm
    obtain ⟨t', ht', hcreated⟩ := ih hrest
    refine ⟨t', ?_, hcreated⟩
    rw [List.cons_append, makeDirectories, dif_neg hthere, hm]
    exact ht'

/-- A call that succeeds has found the directory, or a name that was missing. -/
theorem makeDirectories_eq_ok (h : makeDirectories t links p ns = .ok t') :
    (t' = t ∧ ∃ q left, walk t links p (steps ns) = .ok (q, left) ∧ t.node q = some .dir) ∨
      ∃ pre n post q, ns = pre ++ n :: post ∧ t.Missing links p pre q n := by
  induction ns generalizing links p with
  | nil =>
    rw [makeDirectories] at h
    split_ifs at h with hp
    cases h
    exact .inl ⟨rfl, p, links, walk_nil, hp⟩
  | cons n ns ih =>
    rw [makeDirectories] at h
    split_ifs at h with hmissing
    · exact .inr ⟨[], n, ns, p, rfl, ⟨links, walk_nil⟩, hmissing.1, hmissing.2⟩
    have hsplit : ∀ l : List N, steps (n :: l) = [.name n] ++ steps l := fun l => rfl
    cases hn : walk t links p [.name n] with
    | error e =>
      rw [hn] at h
      cases h
    | ok r =>
      rw [hn] at h
      obtain ⟨ht', q, left, hq, hdir⟩ | ⟨pre, m, post, q, rfl, ⟨left, hleads⟩, hdir, hm⟩ := ih h
      · refine .inl ⟨ht', q, left, ?_, hdir⟩
        rw [hsplit, walk_append, hn]
        exact hq
      · refine .inr ⟨n :: pre, m, post, q, rfl, ⟨left, ?_⟩, hdir, hm⟩
        rw [hsplit, walk_append, hn]
        exact hleads

theorem mkdirp_missing {pre : List N} (h : t.Missing links [] pre q n) :
    ∃ t', mkdirp t links (pre ++ n :: ns) = .ok t' ∧ t.Created t' q (n :: ns) :=
  makeDirectories_missing h

/-- Where the path leads after a call that succeeded, and what the call has created. -/
theorem mkdirp_eq_ok (h : mkdirp t links p = .ok t') :
    t.Grows t' ∧ ∃ r, realpath t' links p = .ok r ∧ t'.node r = some .dir ∧
      (t' = t ∨ ∃ pre n post q, p = pre ++ n :: post ∧ t.Missing links [] pre q n ∧
        r = q ++ n :: post ∧ t.Created t' q (n :: post)) := by
  obtain ⟨rfl, q, left, hq, hdir⟩ | ⟨pre, n, post, q, rfl, hmissing⟩ := makeDirectories_eq_ok h
  · exact ⟨.refl _, q, realpath_eq_ok.mpr ⟨left, hq⟩, hdir, .inl rfl⟩
  obtain ⟨t'', ht'', hcreated⟩ := @mkdirp_missing _ _ _ _ _ _ post _ hmissing
  obtain rfl : t' = t'' := Except.ok.inj (h.symm.trans ht'')
  obtain ⟨left, hleads⟩ := hmissing.leads
  refine ⟨hcreated.grows, q ++ n :: post, realpath_eq_ok.mpr ⟨left, ?_⟩, hcreated.dir, .inr ?_⟩
  · rw [steps, List.map_append, walk_append, ← steps, walk_grows hcreated.grows hleads]
    exact walk_names hcreated.dir
  · exact ⟨pre, n, post, q, rfl, hmissing, rfl, hcreated⟩

/-- The tree grows by directories only. -/
structure FileTree.Extends (t t' : FileTree N) : Prop where
  grows : t.Grows t'
  dir : ∀ p, t.node p = none → t'.node p ≠ none → t'.node p = some .dir

omit [DecidableEq N] in
theorem FileTree.Extends.refl (t : FileTree N) : t.Extends t :=
  ⟨.refl t, fun _ hp hp' => absurd hp hp'⟩

omit [DecidableEq N] in
theorem FileTree.Extends.trans {t'' : FileTree N} (h : t.Extends t') (h' : t'.Extends t'') :
    t.Extends t'' := by
  refine ⟨h.grows.trans h'.grows, fun p hp hp'' => ?_⟩
  by_cases hp' : t'.node p = none
  · exact h'.dir p hp' hp''
  · rw [h'.grows p hp']
    exact h.dir p hp hp'

theorem mkdirp_extends (h : mkdirp t links p = .ok t') : t.Extends t' := by
  obtain ⟨hgrows, r, -, -, rfl | ⟨-, n, post, q, -, -, -, hcreated⟩⟩ := mkdirp_eq_ok h
  · exact .refl t'
  · refine ⟨hgrows, fun p hp hp' => ?_⟩
    obtain ⟨-, rest, hrest⟩ := hcreated.only p fun heq => hp' (heq.trans hp)
    exact t'.prefix_dir (hrest ▸ hcreated.dir)

end Wns.Posix
