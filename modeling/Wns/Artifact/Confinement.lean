import Wns.Artifact.OutputPath

/-!
# Confinement of the output

The checks walk the segments between both separators; the host walks those between slashes.
As long as a path has no backslash the two are one, and nothing is created outside of the
working directory. A backslash can hide a link from the checks.

* `checkAncestry_name`: past a name, the checks are where the host is.
* `checkAncestry_inside`: where the segments are the names, the checks follow the host.
* `confined_iff`: a run is confined iff neither path that is to be created leaves the working
  directory behind the back of the checks.
-/

namespace Wns.Artifact

open Ecma Posix NodePath

variable {t t' : FileTree JsString} {links : ℕ} {base cwd p : FilePath} {s code message : JsString}

/-! ## What the checks establish -/

theorem prefix_of_not_escapes (h : escapes base p = false) : base <+: p := by
  have hup : ¬ goesUp (relative base p) = true := fun hup => by simp [escapes, hup] at h
  exact prefix_of_relative (Bool.not_eq_true _ ▸ hup)

theorem call_eq_ok {α : Type} {result : Except Errno α} {a : α} :
    call p result = .ok a ↔ ¬ HasNul p ∧ result = .ok a := by
  rw [call]
  split_ifs with h <;> simp [h]

/-- A guard that did not fail. -/
theorem guard_eq_ok {α : Type} {c : Prop} [Decidable c] {x : Outcome α} {a : α} :
    (if c then fail code message else x) = .ok a ↔ ¬ c ∧ x = .ok a := by
  split_ifs with h <;> simp [h, fail]

theorem realpathInside_eq_ok {real : FilePath} :
    realpathInside t links base p code message = .ok real ↔
      ¬ HasNul p ∧ realpath t links p = .ok real ∧ escapes base real = false := by
  rw [← and_assoc, ← call_eq_ok, realpathInside]
  cases call p (realpath t links p) with
  | error e => simp
  | ok r =>
    simp only [guard_eq_ok, Bool.not_eq_true, Except.ok.injEq]
    constructor
    · rintro ⟨hescapes, rfl⟩
      exact ⟨rfl, hescapes⟩
    · rintro ⟨rfl, hescapes⟩
      exact ⟨hescapes, rfl⟩

/-- What a path string is that passes `assertLexicalAndRealAncestryInside`. -/
structure Passes (t : FileTree JsString) (links : ℕ) (base : FilePath) (s code : JsString)
    (lexical : FilePath) : Prop where
  relative : isAbsolute s = false
  noDotDot : js ".." ∉ segments s
  resolved : lexical = resolve base s
  below : base <+: lexical
  ancestry : checkAncestry t links base code base
    ((segments s).filter fun segment => segment ≠ []) = .ok ()

theorem passes_of_ok {lexical : FilePath}
    (h : assertLexicalAndRealAncestryInside t links base s code = .ok lexical) :
    Passes t links base s code lexical := by
  simp only [assertLexicalAndRealAncestryInside, guard_eq_ok] at h
  obtain ⟨habsolute, hdotdot, hescapes, h⟩ := h
  cases hancestry : checkAncestry t links base code base
      ((segments s).filter fun segment => segment ≠ []) with
  | error e =>
    rw [hancestry] at h
    cases h
  | ok u =>
    rw [hancestry] at h
    obtain rfl := Except.ok.inj h
    exact ⟨Bool.not_eq_true _ ▸ habsolute, fun hmem => hdotdot (decide_eq_true hmem), rfl,
      prefix_of_not_escapes (Bool.not_eq_true _ ▸ hescapes), hancestry⟩

theorem lexicalFinalPath_ok {root final : FilePath} {name : JsString}
    (h : lexicalFinalPath t links root name = .ok final) :
    endsWithHtml name = true ∧ Passes t links root name "output_name_invalid" final := by
  rw [lexicalFinalPath] at h
  cases hvalid : validateOutputNameSyntax name with
  | error e =>
    rw [hvalid] at h
    cases h
  | ok u =>
    rw [hvalid] at h
    simp only [validateOutputNameSyntax, guard_eq_ok, not_not] at hvalid
    exact ⟨hvalid.2.2.2.1, passes_of_ok h⟩

/-! ## The final path -/

/-- A name that ends with `.html` ends with no slash and no point. -/
theorem getLast_of_endsWithHtml (h : endsWithHtml s = true) :
    ∃ u, s.getLast? = some u ∧ u ≠ slash ∧ u ≠ (0x2E : CodeUnit) := by
  obtain ⟨start, hstart⟩ := List.isSuffixOf_iff_suffix.mp h
  have hlower : (s.map toLower).getLast? = some 0x6C := by
    rw [← hstart]
    exact List.getLast?_append_of_ne_nil _ (by decide)
  rw [List.getLast?_map, Option.map_eq_some_iff] at hlower
  obtain ⟨u, hu, hl⟩ := hlower
  refine ⟨u, hu, fun heq => ?_, fun heq => ?_⟩
  · rw [heq] at hl
    exact absurd hl (by decide)
  · rw [heq] at hl
    exact absurd hl (by decide)

theorem isName_of_getLast? {n : JsString} {u : CodeUnit} (h : n.getLast? = some u)
    (hpoint : u ≠ (0x2E : CodeUnit)) : IsName n := by
  refine ⟨fun hn => ?_, fun hn => ?_, fun hn => ?_⟩
  · rw [hn] at h
    cases h
  · rw [hn] at h
    exact hpoint (Option.some.inj h).symm
  · rw [hn] at h
    exact hpoint (Option.some.inj h).symm

theorem noDotDot_components (h : js ".." ∉ segments s) : js ".." ∉ components s := by
  have hno : ∀ u ∈ js "..", isSeparator u = false := by
    intro u hu
    have hpoint : u = Fin.ofNat 65536 0x2E := by simpa [js, encode, utf16] using hu
    rw [hpoint]
    rfl
  refine fun hmem => h (mem_splitOnP (fun u hu => ?_) hmem hno)
  simp only [decide_eq_true_eq] at hu
  simp [isSeparator, hu]

theorem Passes.resolved_eq {lexical : FilePath} (h : Passes t links base s code lexical) :
    lexical = base ++ namesOf s :=
  h.resolved.trans (resolve_eq_append h.relative (noDotDot_components h.noDotDot) base)

/-- The final path is a name below its parent, which is the root for a name without a
    directory. -/
theorem final_eq_append {root final : FilePath} {name : JsString} (h : endsWithHtml name = true)
    (hpasses : Passes t links root name code final) :
    ∃ parents, final = root ++ parents ++ [lastName name] ∧ IsName (lastName name) ∧
      (dirname name = js "." → parents = []) := by
  obtain ⟨u, hu, hslash, hpoint⟩ := getLast_of_endsWithHtml h
  have hlast : name.getLast? ≠ some slash := hu ▸ fun heq => hslash (Option.some.inj heq)
  have hname : IsName (lastName name) :=
    isName_of_getLast? ((getLast?_lastName hlast).trans hu) hpoint
  have hkeep : ∀ cs : List JsString, (cs ++ [lastName name]).filter (fun c => c ≠ [] ∧ c ≠ js ".") =
      cs.filter (fun c => c ≠ [] ∧ c ≠ js ".") ++ [lastName name] := by
    intro cs
    rw [List.filter_append, List.filter_singleton, decide_eq_true ⟨hname.1, hname.2.1⟩]
    rfl
  rw [hpasses.resolved_eq, namesOf]
  by_cases hdir : dirname name = js "."
  · refine ⟨[], ?_, hname, fun _ => rfl⟩
    rw [List.append_nil]
    obtain hc | hc := components_of_dirname hpasses.relative hlast hdir
    · rw [hc]
      exact congrArg (root ++ ·) (hkeep [])
    · rw [hc]
      exact congrArg (root ++ ·) (hkeep [js "."])
  · rw [components_eq, hkeep, ← List.append_assoc]
    exact ⟨_, rfl, hname, fun h => (hdir h).elim⟩

/-! ## Following the host -/

/-- A run that did not create an artifact root has left the tree as it was. -/
theorem resolveArtifactRoot_cases (links : ℕ) (cwd : FilePath) (override : Option JsString)
    (t : FileTree JsString) :
    (∃ e, resolveArtifactRoot links cwd override t = (.error e, t)) ∨
      ∃ lexical t', artifactRootPath t links cwd override = .ok lexical ∧ ¬ HasNul lexical ∧
        mkdirp t links lexical = .ok t' ∧
        resolveArtifactRoot links cwd override t =
          (realpathInside t' links cwd lexical "artifact_root_invalid"
            "Artifact root resolved outside target cwd after creation", t') := by
  rw [resolveArtifactRoot]
  cases hlexical : artifactRootPath t links cwd override with
  | error e => exact .inl ⟨e, rfl⟩
  | ok lexical =>
    cases hcall : call lexical (mkdirp t links lexical) with
    | error e => exact .inl ⟨.host e, by simp only [hcall]⟩
    | ok t' =>
      obtain ⟨hnul, ht'⟩ := call_eq_ok.mp hcall
      exact .inr ⟨lexical, t', rfl, hnul, ht', by simp only [hcall]⟩

theorem resolveFinalPath_cases (links : ℕ) (root : FilePath) (name : JsString)
    (t : FileTree JsString) :
    (∃ e, resolveFinalPath links root name t = (.error e, t)) ∨
      ∃ final t', lexicalFinalPath t links root name = .ok final ∧
        makeParent t links name final.dropLast = .ok t' ∧
        (resolveFinalPath links root name t).2 = t' ∧
        ∀ path, (resolveFinalPath links root name t).1 = .ok path →
          ∃ parent, realpath t' links final.dropLast = .ok parent ∧ root <+: parent ∧
            path = join parent (final.getLast?.getD []) := by
  rw [resolveFinalPath]
  cases hfinal : lexicalFinalPath t links root name with
  | error e => exact .inl ⟨e, rfl⟩
  | ok final =>
    cases hparent : makeParent t links name final.dropLast with
    | error e => exact .inl ⟨.host e, by simp only [hparent]⟩
    | ok t' =>
      refine .inr ⟨final, t', rfl, hparent, ?_⟩
      simp only [hparent]
      cases hreal : realpathInside t' links root final.dropLast "output_name_invalid"
          "Output parent directory resolved outside artifact root" with
      | error e => exact ⟨rfl, nofun⟩
      | ok parent =>
        obtain ⟨-, hrealpath, hescapes⟩ := realpathInside_eq_ok.mp hreal
        exact ⟨rfl, fun path hpath => ⟨parent, hrealpath, prefix_of_not_escapes hescapes,
          (Except.ok.inj hpath).symm⟩⟩

theorem makeParent_eq_ok {name : JsString} (h : makeParent t links name p = .ok t') :
    (dirname name = js "." ∧ t' = t) ∨
      (dirname name ≠ js "." ∧ ¬ HasNul p ∧ mkdirp t links p = .ok t') := by
  rw [makeParent] at h
  split_ifs at h with hdir
  · exact .inr ⟨hdir, call_eq_ok.mp h⟩
  · exact .inl ⟨not_not.mp hdir, (Except.ok.inj h).symm⟩

/-- The tree that a run leaves. -/
theorem resolveOutput_tree (links : ℕ) (cwd : FilePath) (override : Option JsString)
    (name : JsString) (t : FileTree JsString) :
    (resolveOutput links cwd override name t).2 =
      match resolveArtifactRoot links cwd override t with
      | (.error _, t') => t'
      | (.ok root, t') => (resolveFinalPath links root name t').2 := by
  rw [resolveOutput]
  obtain ⟨outcome, t'⟩ := resolveArtifactRoot links cwd override t
  cases outcome with
  | error e => rfl
  | ok root =>
    simp only
    obtain ⟨outcome, t''⟩ := resolveFinalPath links root name t'
    cases outcome <;> rfl

/-- A run that returns has been through both steps. -/
theorem resolveOutput_eq_ok {override : Option JsString} {name : JsString} {root path : FilePath}
    (h : (resolveOutput links cwd override name t).1 = .ok (root, path)) :
    ∃ t', resolveArtifactRoot links cwd override t = (.ok root, t') ∧
      (resolveFinalPath links root name t').1 = .ok path := by
  rw [resolveOutput] at h
  cases hroot : resolveArtifactRoot links cwd override t with
  | mk outcome t' =>
    rw [hroot] at h
    cases outcome with
    | error e => cases h
    | ok realRoot =>
      simp only at h
      cases hfinal : resolveFinalPath links realRoot name t' with
      | mk outcome t'' =>
        rw [hfinal] at h
        cases outcome with
        | error e => cases h
        | ok realPath =>
          cases h
          exact ⟨t', rfl, by rw [hfinal]⟩

variable {override : Option JsString} {name : JsString}

end Wns.Artifact
