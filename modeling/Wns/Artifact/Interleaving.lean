import Wns.Artifact.Deliver
import Wns.Common.Run

/-!
# Deliveries side by side

`runDeliver` waits for every call of the host, so other deliveries take steps in between. This
module splits a delivery into the steps that it makes from one call to the next, while its child
writes to the candidate path as it likes, and lets any number of deliveries take turns. What
keeps them apart is the name of the candidate, which is made of the process and of nine random
bytes.

* `alone_iff`: a delivery that takes its steps alone ends as `runDeliver` says.
* `interleaving_safe`: in every order of steps, and at every moment, what stands at a final path
  is what stood there before, or the whole of an artifact that was checked.
* `interleaving_outcome`: every delivery ends as it would end alone.
-/

namespace Wns.Artifact

open Ecma JsValue Posix NodePath

/-! ## Steps -/

/-- Where a delivery stands between two calls. -/
inductive Phase
  | ready
  | checked
  | running
  | exited (result : ChildResult)
  | found (exitCode : ℤ)
  | read (exitCode : ℤ) (buffer : List UInt8)
  | removing (thrown : Thrown)
  | ended (outcome : Except Thrown JsValue)

/-- What a child that ends with another code than 0 makes the wrapper throw. -/
def childFailed (exitCode : ℤ) (stderr : List UInt8) : Thrown :=
  .wrapper "child_failed" ("Archify runtime exited with code " ++ numberText (.finite exitCode))
    (some (decodeUtf8 (stderr.drop (stderr.length - 1024))))

/-- The call that a delivery makes next, and where it stands after it. While the child runs, and
    when it is over, it makes none. -/
def next (host : Host) (d : Delivery) (fs : Entries FilePath) :
    Phase → Option (Phase × Entries FilePath)
  | .ready =>
    match assertFinalReplaceable fs d.finalPath with
    | .error e => some (.ended (.error e), fs)
    | .ok () => some (.checked, fs)
  | .checked =>
    if fs.exists host.links d.candidatePath then
      some (.ended (.error (.wrapper "candidate_collision"
        "Generated candidate path unexpectedly already exists" none)), fs)
    else some (.running, fs)
  | .running => none
  | .exited (.spawnError message) =>
    some (.removing (.wrapper "child_spawn_failed"
      ("Failed to spawn archify runtime: " ++ message) none), fs)
  | .exited (.closed code stderr) =>
    if code.getD (-1) ≠ 0 then some (.removing (childFailed (code.getD (-1)) stderr), fs)
    else
      match fs.lstat d.candidatePath with
      | .error _ =>
        some (.ended (.error (.wrapper "candidate_missing"
          "Archify runtime exited 0 but produced no candidate file" none)), fs)
      | .ok entry =>
        if isNonEmptyFile entry = false then
          some (.removing (.wrapper "candidate_invalid"
            "Candidate output is not a non-empty regular file" none), fs)
        else some (.found (code.getD (-1)), fs)
  | .found exitCode =>
    match fs.read host.links d.candidatePath with
    | .error e => some (.ended (.error (.host e)), fs)
    | .ok buffer =>
      if looksLikeBasicHtml buffer = false then
        some (.removing (.wrapper "candidate_not_html"
          "Candidate output failed basic HTML validation" none), fs)
      else some (.read exitCode buffer, fs)
  | .read exitCode buffer =>
    match host.rename fs d.candidatePath d.finalPath with
    | .error e =>
      some (.removing (.wrapper "promotion_failed"
        ("Failed to promote candidate to final path: " ++ host.describe e) none), fs)
    | .ok fs' => some (.ended (.ok (.obj (receiptProps host d exitCode buffer true))), fs')
  | .removing thrown =>
    match fs.rm d.candidatePath with
    | .error e => some (.ended (.error (.host e)), fs)
    | .ok fs' => some (.ended (.error thrown), fs')
  | .ended _ => none

/-- What happens in a step: a call of the wrapper, a write of its child, or the end of the child. -/
inductive Act
  | call
  | write (entry : Option (Entry FilePath))
  | close (result : ChildResult)

/-- The steps of a delivery and of its child. -/
inductive Advances (host : Host) (d : Delivery) :
    Phase × Entries FilePath → Act → Phase × Entries FilePath → Prop
  | call {phase : Phase} {fs : Entries FilePath} {after : Phase × Entries FilePath}
      (h : next host d fs phase = some after) : Advances host d (phase, fs) .call after
  | write (fs : Entries FilePath) (entry : Option (Entry FilePath)) :
      Advances host d (.running, fs) (.write entry)
        (.running, Function.update fs d.candidatePath entry)
  | close (fs : Entries FilePath) (result : ChildResult) :
      Advances host d (.running, fs) (.close result) (.exited result, fs)

/-! ## A delivery alone -/

section

variable {host : Host} {d : Delivery} {init fs fs' : Entries FilePath} {phase phase' : Phase}
  {act : Act}

theorem run_removing (thrown : Thrown) (fs : Entries FilePath) :
    Run (Advances host d) (.removing thrown, fs) [.call]
      (.ended (removeAndFail fs d.candidatePath thrown).1,
        (removeAndFail fs d.candidatePath thrown).2) := by
  refine .single (.call ?_)
  unfold next removeAndFail
  cases fs.rm d.candidatePath <;> rfl

/-- After a child that has ended well, the steps lead to what `promote` returns. -/
theorem exists_run_promote (host : Host) (d : Delivery) {code : Option ℤ} (stderr : List UInt8)
    (fs : Entries FilePath) (hcode : ¬ code.getD (-1) ≠ 0) :
    ∃ acts, Run (Advances host d) (.exited (.closed code stderr), fs) acts
      (.ended (promote host d (code.getD (-1)) fs).1, (promote host d (code.getD (-1)) fs).2) := by
  unfold promote
  cases hlstat : fs.lstat d.candidatePath with
  | error e =>
    refine ⟨_, .single (.call ?_)⟩
    rw [next, if_neg hcode, hlstat]
  | ok entry =>
    dsimp only
    split_ifs with hfile
    · refine ⟨_, .cons (.call ?_) (run_removing _ fs)⟩
      rw [next, if_neg hcode, hlstat]
      exact if_pos hfile
    have hexit : next host d fs (.exited (.closed code stderr)) =
        some (.found (code.getD (-1)), fs) := by
      rw [next, if_neg hcode, hlstat]
      exact if_neg hfile
    cases hread : fs.read host.links d.candidatePath with
    | error e =>
      refine ⟨_, .cons (.call hexit) (.single (.call ?_))⟩
      rw [next, hread]
    | ok buffer =>
      dsimp only
      split_ifs with hhtml
      · refine ⟨_, .cons (.call hexit) (.cons (.call ?_) (run_removing _ fs))⟩
        rw [next, hread]
        exact if_pos hhtml
      have hfound : next host d fs (.found (code.getD (-1))) =
          some (.read (code.getD (-1)) buffer, fs) := by
        rw [next, hread]
        exact if_neg hhtml
      rw [Bool.eq_true_of_not_eq_false hhtml]
      cases hrename : host.rename fs d.candidatePath d.finalPath with
      | error e =>
        refine ⟨_, .cons (.call hexit) (.cons (.call hfound) (.cons (.call ?_)
          (run_removing _ fs)))⟩
        rw [next, hrename]
      | ok moved =>
        refine ⟨_, .cons (.call hexit) (.cons (.call hfound) (.single (.call ?_)))⟩
        rw [next, hrename]

/-- From the end of the child on, the steps lead to what `afterChild` returns. -/
theorem exists_run_afterChild (host : Host) (d : Delivery) (result : ChildResult)
    (fs : Entries FilePath) : ∃ acts, Run (Advances host d) (.exited result, fs) acts
      (.ended (afterChild host d result fs).1, (afterChild host d result fs).2) := by
  unfold afterChild
  cases result with
  | spawnError message => exact ⟨_, .cons (.call rfl) (run_removing _ fs)⟩
  | closed code stderr =>
    dsimp only
    split_ifs with hcode
    · refine ⟨_, .cons (.call ?_) (run_removing (childFailed (code.getD (-1)) stderr) fs)⟩
      rw [next, if_pos hcode]
    · exact exists_run_promote host d stderr fs hcode

/-- Whatever the child leaves and however it ends, the steps of a delivery alone lead to what
    `runDeliver` returns. -/
theorem exists_run_runDeliver (host : Host) (d : Delivery) (child : Child)
    (fs : Entries FilePath) : ∃ acts, Run (Advances host d) (.ready, fs) acts
      (.ended (runDeliver host d child fs).1, (runDeliver host d child fs).2) := by
  unfold runDeliver
  cases hfinal : assertFinalReplaceable fs d.finalPath with
  | error e =>
    refine ⟨_, .single (.call ?_)⟩
    rw [next, hfinal]
  | ok u =>
    have hready : next host d fs .ready = some (.checked, fs) := by
      rw [next, hfinal]
    dsimp only
    split_ifs with hexists
    · refine ⟨_, .cons (.call hready) (.single (.call ?_))⟩
      rw [next, if_pos hexists]
    have hchecked : next host d fs .checked = some (.running, fs) := by
      rw [next, if_neg hexists]
    obtain ⟨acts, hrun⟩ := exists_run_afterChild host d child.result
      (Function.update fs d.candidatePath child.leaves)
    exact ⟨_, .cons (.call hready) (.cons (.call hchecked) (.cons (.write fs child.leaves)
      (.cons (.close _ child.result) hrun)))⟩

/-- What is known of a delivery that has started on `init` and has been alone since. -/
inductive Alone (host : Host) (d : Delivery) (init : Entries FilePath) :
    Phase → Entries FilePath → Prop
  | ready : Alone host d init .ready init
  | checked (h : assertFinalReplaceable init d.finalPath = .ok ()) : Alone host d init .checked init
  | running (h : Starts host d init) (leaves : Option (Entry FilePath)) :
      Alone host d init .running (Function.update init d.candidatePath leaves)
  | exited (h : Starts host d init) (child : Child) :
      Alone host d init (.exited child.result) (Function.update init d.candidatePath child.leaves)
  | found (h : Starts host d init) {bytes : List UInt8} (hne : bytes ≠ []) (readable : Bool) :
      Alone host d init (.found 0)
        (Function.update init d.candidatePath (some (.file bytes readable)))
  | read (h : Starts host d init) {bytes : List UInt8} (hne : bytes ≠ [])
      (hhtml : looksLikeBasicHtml bytes = true) :
      Alone host d init (.read 0 bytes)
        (Function.update init d.candidatePath (some (.file bytes true)))
  | removing (h : Starts host d init) (child : Child) {thrown : Thrown}
      (hrun : runDeliver host d child init = removeAndFail
        (Function.update init d.candidatePath child.leaves) d.candidatePath thrown) :
      Alone host d init (.removing thrown) (Function.update init d.candidatePath child.leaves)
  | ended (child : Child) :
      Alone host d init (.ended (runDeliver host d child init).1) (runDeliver host d child init).2

theorem runDeliver_starts (h : Starts host d init) (child : Child) :
    runDeliver host d child init =
      afterChild host d child.result (Function.update init d.candidatePath child.leaves) := by
  rw [runDeliver, h.1]
  dsimp only
  rw [if_neg (by simp [h.2])]

theorem Alone.of_runDeliver (child : Child) {outcome : Except Thrown JsValue}
    (h : runDeliver host d child init = (outcome, fs)) : Alone host d init (.ended outcome) fs := by
  have hended : Alone host d init (.ended _) _ := .ended child
  rwa [h] at hended

/-- A child that ends with the code 0. -/
def succeeding (leaves : Option (Entry FilePath)) : Child := ⟨.closed (some 0) [], leaves⟩

theorem runDeliver_succeeding (h : Starts host d init) (leaves : Option (Entry FilePath)) :
    runDeliver host d (succeeding leaves) init =
      promote host d 0 (Function.update init d.candidatePath leaves) := by
  rw [runDeliver_starts h, succeeding, afterChild, Option.getD_some, if_neg (by simp)]

section

variable {bytes : List UInt8} {exitCode : ℤ}

theorem promote_unreadable (hne : bytes ≠ [])
    (h : fs d.candidatePath = some (.file bytes false)) :
    promote host d exitCode fs = (.error (.host .access), fs) := by
  rw [promote, lstat_eq_ok.mpr h]
  dsimp only
  rw [if_neg (by simp [isNonEmptyFile, hne]), read_file h]
  rfl

theorem promote_not_html (hne : bytes ≠ []) (h : fs d.candidatePath = some (.file bytes true))
    (hhtml : looksLikeBasicHtml bytes = false) :
    promote host d exitCode fs = removeAndFail fs d.candidatePath
      (.wrapper "candidate_not_html" "Candidate output failed basic HTML validation" none) := by
  rw [promote, lstat_eq_ok.mpr h]
  dsimp only
  rw [if_neg (by simp [isNonEmptyFile, hne]), read_file h]
  exact if_pos hhtml

theorem promote_html (hne : bytes ≠ []) (h : fs d.candidatePath = some (.file bytes true))
    (hhtml : looksLikeBasicHtml bytes = true) :
    promote host d exitCode fs =
      match host.rename fs d.candidatePath d.finalPath with
      | .error e =>
        removeAndFail fs d.candidatePath (.wrapper "promotion_failed"
          ("Failed to promote candidate to final path: " ++ host.describe e) none)
      | .ok fs' => (.ok (.obj (receiptProps host d exitCode bytes true)), fs') := by
  rw [promote, lstat_eq_ok.mpr h]
  dsimp only
  rw [if_neg (by simp [isNonEmptyFile, hne]), read_file h, if_pos rfl]
  dsimp only
  rw [if_neg (by simp [hhtml])]
  cases host.rename fs d.candidatePath d.finalPath with
  | error e => rfl
  | ok fs' =>
    dsimp only
    rw [hhtml]

end

/-- The candidate of a child that has ended. -/
theorem Alone.exit (h : Starts host d init) (child : Child)
    (hnext : next host d (Function.update init d.candidatePath child.leaves)
      (.exited child.result) = some (phase', fs')) : Alone host d init phase' fs' := by
  obtain ⟨result, leaves⟩ := child
  cases result with
  | spawnError message =>
    cases hnext
    exact .removing h ⟨.spawnError message, leaves⟩ (runDeliver_starts h _)
  | closed code stderr =>
    have hrun := runDeliver_starts h ⟨.closed code stderr, leaves⟩
    rw [next] at hnext
    rw [afterChild] at hrun
    dsimp only at hrun
    split_ifs at hnext hrun with hcode
    · cases hnext
      exact .removing h _ hrun
    rw [promote] at hrun
    cases leaves with
    | none =>
      rw [lstat_missing (Function.update_self ..)] at hnext hrun
      cases hnext
      exact .of_runDeliver _ hrun
    | some entry =>
      rw [lstat_eq_ok.mpr (Function.update_self ..)] at hnext hrun
      dsimp only at hnext hrun
      split_ifs at hnext hrun with hfile
      · cases hnext
        exact .removing h _ hrun
      · obtain ⟨bytes, readable, hne, rfl⟩ :=
          isNonEmptyFile_eq_true.mp (Bool.eq_true_of_not_eq_false hfile)
        rw [not_not.mp hcode] at hnext
        cases hnext
        exact .found h hne readable

/-- The reading of the candidate. -/
theorem Alone.found_call (h : Starts host d init) {bytes : List UInt8} (hne : bytes ≠ [])
    {readable : Bool}
    (hnext : next host d (Function.update init d.candidatePath (some (.file bytes readable)))
      (.found 0) = some (phase', fs')) : Alone host d init phase' fs' := by
  have hrun := runDeliver_succeeding h (some (.file bytes readable))
  have hfile : Function.update init d.candidatePath (some (.file bytes readable))
    d.candidatePath = some (.file bytes readable) := Function.update_self ..
  rw [next, read_file hfile] at hnext
  cases readable with
  | false =>
    cases hnext
    exact .of_runDeliver _ (hrun.trans (promote_unreadable hne hfile))
  | true =>
    rw [if_pos rfl] at hnext
    dsimp only at hnext
    split_ifs at hnext with hhtml
    · cases hnext
      exact .removing h _ (hrun.trans (promote_not_html hne hfile hhtml))
    · cases hnext
      exact .read h hne (Bool.eq_true_of_not_eq_false hhtml)

/-- The promotion of the candidate. -/
theorem Alone.read_call (h : Starts host d init) {bytes : List UInt8} (hne : bytes ≠ [])
    (hhtml : looksLikeBasicHtml bytes = true)
    (hnext : next host d (Function.update init d.candidatePath (some (.file bytes true)))
      (.read 0 bytes) = some (phase', fs')) : Alone host d init phase' fs' := by
  have hrun := (runDeliver_succeeding h (some (.file bytes true))).trans
    (promote_html hne (Function.update_self ..) hhtml)
  rw [next] at hnext
  cases hrename : host.rename (Function.update init d.candidatePath (some (.file bytes true)))
      d.candidatePath d.finalPath with
  | error e =>
    rw [hrename] at hnext hrun
    cases hnext
    exact .removing h _ hrun
  | ok moved =>
    rw [hrename] at hnext hrun
    cases hnext
    exact .of_runDeliver _ hrun

/-- A call of a delivery that has been alone. -/
theorem Alone.call (h : Alone host d init phase fs)
    (hnext : next host d fs phase = some (phase', fs')) : Alone host d init phase' fs' := by
  cases h with
  | ready =>
    rw [next] at hnext
    cases hfinal : assertFinalReplaceable init d.finalPath with
    | error e =>
      rw [hfinal] at hnext
      cases hnext
      refine .of_runDeliver (succeeding none) ?_
      rw [runDeliver, hfinal]
    | ok u =>
      rw [hfinal] at hnext
      cases hnext
      exact .checked hfinal
  | checked h =>
    rw [next] at hnext
    split_ifs at hnext with hexists
    · cases hnext
      refine .of_runDeliver (succeeding none) ?_
      rw [runDeliver, h]
      exact if_pos hexists
    · cases hnext
      have hrunning := Alone.running ⟨h, Bool.eq_false_of_not_eq_true hexists⟩
        (init d.candidatePath)
      rwa [Function.update_eq_self] at hrunning
  | running h leaves => cases hnext
  | exited h child => exact .exit h child hnext
  | found h hne readable => exact .found_call h hne hnext
  | read h hne hhtml => exact .read_call h hne hhtml hnext
  | removing h child hrun =>
    rw [next] at hnext
    rw [removeAndFail] at hrun
    cases hrm : Entries.rm (Function.update init d.candidatePath child.leaves)
        d.candidatePath with
    | error e | ok _ =>
      rw [hrm] at hnext hrun
      cases hnext
      exact .of_runDeliver _ hrun
  | ended child => cases hnext

theorem Alone.advances (h : Alone host d init phase fs)
    (hstep : Advances host d (phase, fs) act (phase', fs')) : Alone host d init phase' fs' := by
  cases hstep with
  | call hnext => exact h.call hnext
  | write _ entry =>
    cases h with
    | running h leaves =>
      rw [Function.update_idem]
      exact .running h entry
  | close _ result =>
    cases h with
    | running h leaves => exact .exited h ⟨result, leaves⟩

end

/-- **The steps make up the function.** A delivery that takes its steps alone ends as
    `runDeliver` says, for some child. -/
theorem alone_iff {host : Host} {d : Delivery} {fs fs' : Entries FilePath}
    {outcome : Except Thrown JsValue} :
    (∃ acts, Run (Advances host d) (.ready, fs) acts (.ended outcome, fs')) ↔
      ∃ child, runDeliver host d child fs = (outcome, fs') := by
  constructor
  · intro ⟨acts, hrun⟩
    have halone : Alone host d fs (.ended outcome) fs' :=
      hrun.invariant (P := fun s : Phase × Entries FilePath => Alone host d fs s.1 s.2)
        (fun _ _ _ hstep h => h.advances hstep) .ready
    cases halone with
    | ended child => exact ⟨child, rfl⟩
  · rintro ⟨child, hrun⟩
    have hexists := exists_run_runDeliver host d child fs
    rwa [hrun] at hexists

/-! ## Deliveries in turn -/

/-- Deliveries on one file system. -/
structure System (ι : Type) where
  entries : Entries FilePath
  phase : ι → Phase

/-- A delivery has taken a step. -/
def System.move {ι : Type} [DecidableEq ι] (s : System ι) (i : ι) (phase : Phase)
    (fs : Entries FilePath) : System ι :=
  ⟨fs, Function.update s.phase i phase⟩

/-- A step of one of the deliveries. -/
inductive Step {ι : Type} [DecidableEq ι] (host : ι → Host) (d : ι → Delivery) :
    System ι → ι × Act → System ι → Prop
  | mk {s : System ι} {i : ι} {act : Act} {phase : Phase} {fs : Entries FilePath}
      (h : Advances (host i) (d i) (s.phase i, s.entries) act (phase, fs)) :
      Step host d s (i, act) (s.move i phase fs)

/-- Before any delivery has made a step. -/
def System.start {ι : Type} (init : Entries FilePath) : System ι := ⟨init, fun _ => .ready⟩

/-- A delivery has promoted its artifact. -/
def Phase.Delivered (phase : Phase) : Prop := ∃ receipt, phase = .ended (.ok receipt)

/-- The random parts of the candidates' names, which are nine bytes in hexadecimal, differ from each
    other, nobody asks for a name that ends in the one of somebody else, and no candidate path is
    a link before. -/
structure Fresh {ι : Type} (d : ι → Delivery) (init : Entries FilePath) : Prop where
  length : ∀ i, (d i).unique.length = 18
  injective : Function.Injective fun i => (d i).unique
  unguessed : ∀ i j, i ≠ j → ¬ (d i).unique ++ js ".candidate.html" <:+ (d j).name
  unlinked : ∀ i target, init (d i).candidatePath ≠ some (.link target)

section

variable {ι : Type} [DecidableEq ι] {s : System ι} {i j : ι} {phase : Phase}
  {fs : Entries FilePath}

@[simp] theorem System.move_entries : (s.move i phase fs).entries = fs := rfl

@[simp] theorem System.move_phase_self : (s.move i phase fs).phase i = phase :=
  Function.update_self ..

theorem System.move_phase_of_ne (h : j ≠ i) : (s.move i phase fs).phase j = s.phase j :=
  Function.update_of_ne h ..

end

section

variable {ι : Type} {d : ι → Delivery} {init : Entries FilePath}

theorem Fresh.candidatePath_inj (h : Fresh d init) {i j : ι}
    (hpath : (d i).candidatePath = (d j).candidatePath) : i = j := by
  have hname := List.append_inj_right' hpath rfl
  rw [List.singleton_inj, candidateName, candidateName] at hname
  have hrest := List.append_inj_left' hname rfl
  exact h.injective (List.append_inj_right' hrest (by rw [h.length, h.length]))

theorem Fresh.candidatePath_ne (h : Fresh d init) (i j : ι) :
    (d i).candidatePath ≠ (d j).finalPath := by
  intro hpath
  obtain rfl | hne := eq_or_ne i j
  · exact (d i).candidatePath_ne hpath
  · have hname := List.append_inj_right' hpath rfl
    rw [List.singleton_inj, candidateName, List.append_assoc] at hname
    exact h.unguessed i j hne ⟨_, hname⟩

end

/-! ## What a step changes -/

section

variable {host : Host} {d : Delivery} {init fs fs' view : Entries FilePath} {phase phase' : Phase}
  {act : Act}

/-- A rename that succeeds. -/
theorem rename_ok (h : host.rename fs d.candidatePath d.finalPath = .ok fs') :
    ∃ entry, fs d.candidatePath = some entry ∧
      fs' = Function.update (Function.update fs d.candidatePath none) d.finalPath (some entry) := by
  unfold Host.rename at h
  cases he : host.renameError with
  | some e => simp [he] at h
  | none =>
    rw [he] at h
    exact (rename_eq_ok.mp h).2

/-- The other calls but `rename` and `rm` change nothing. -/
theorem next_reads (hread : ∀ exitCode buffer, phase ≠ .read exitCode buffer)
    (hremoving : ∀ thrown, phase ≠ .removing thrown)
    (hnext : next host d fs phase = some (phase', fs')) : fs' = fs ∧ ¬ phase'.Delivered := by
  have hkeeps : ∀ {after : Phase}, ¬ after.Delivered →
      some (after, fs) = some (phase', fs') → fs' = fs ∧ ¬ phase'.Delivered := by
    intro after hafter heq
    cases heq
    exact ⟨rfl, hafter⟩
  cases phase with
  | ready =>
    rw [next] at hnext
    split at hnext <;> exact hkeeps (by simp [Phase.Delivered]) hnext
  | checked =>
    rw [next] at hnext
    split_ifs at hnext <;> exact hkeeps (by simp [Phase.Delivered]) hnext
  | running | ended outcome => cases hnext
  | exited result =>
    cases result with
    | spawnError message => exact hkeeps (by simp [Phase.Delivered]) hnext
    | closed code stderr =>
      rw [next] at hnext
      split_ifs at hnext
      · exact hkeeps (by simp [Phase.Delivered]) hnext
      · split at hnext
        · exact hkeeps (by simp [Phase.Delivered]) hnext
        · split_ifs at hnext <;> exact hkeeps (by simp [Phase.Delivered]) hnext
  | found exitCode =>
    rw [next] at hnext
    split at hnext
    · exact hkeeps (by simp [Phase.Delivered]) hnext
    · split_ifs at hnext <;> exact hkeeps (by simp [Phase.Delivered]) hnext
  | read exitCode buffer => exact absurd rfl (hread exitCode buffer)
  | removing thrown => exact absurd rfl (hremoving thrown)

/-- A step is the promotion of the candidate, or it changes nothing but the candidate. -/
theorem Advances.changes (h : Advances host d (phase, fs) act (phase', fs')) :
    (¬ phase.Delivered ∧ ¬ phase'.Delivered ∧ ∀ q, q ≠ d.candidatePath → fs' q = fs q) ∨
      ∃ exitCode buffer entry, phase = .read exitCode buffer ∧
        phase' = .ended (.ok (.obj (receiptProps host d exitCode buffer true))) ∧
        fs d.candidatePath = some entry ∧ fs' = Function.update
          (Function.update fs d.candidatePath none) d.finalPath (some entry) := by
  cases h with
  | write _ entry => exact .inl ⟨by simp [Phase.Delivered], by simp [Phase.Delivered],
      fun q hq => Function.update_of_ne hq _ _⟩
  | close _ result => exact .inl ⟨by simp [Phase.Delivered], by simp [Phase.Delivered],
      fun _ _ => rfl⟩
  | call hnext =>
    cases phase with
    | running | ended outcome => cases hnext
    | read exitCode buffer =>
      rw [next] at hnext
      cases hrename : host.rename fs d.candidatePath d.finalPath with
      | error e =>
        rw [hrename] at hnext
        cases hnext
        exact .inl ⟨by simp [Phase.Delivered], by simp [Phase.Delivered], fun _ _ => rfl⟩
      | ok moved =>
        rw [hrename] at hnext
        cases hnext
        obtain ⟨entry, hentry, hmoved⟩ := rename_ok hrename
        exact .inr ⟨exitCode, buffer, entry, rfl, rfl, hentry, hmoved⟩
    | removing thrown =>
      left
      rw [next] at hnext
      cases hrm : fs.rm d.candidatePath with
      | error e =>
        rw [hrm] at hnext
        cases hnext
        exact ⟨by simp [Phase.Delivered], by simp [Phase.Delivered], fun _ _ => rfl⟩
      | ok removed =>
        rw [hrm] at hnext
        cases hnext
        obtain ⟨-, rfl⟩ := rm_eq_ok.mp hrm
        exact ⟨by simp [Phase.Delivered], by simp [Phase.Delivered],
          fun q hq => Function.update_of_ne hq _ _⟩
    | ready | checked | exited result | found exitCode =>
      obtain ⟨rfl, hafter⟩ := next_reads (by simp) (by simp) hnext
      exact .inl ⟨by simp [Phase.Delivered], hafter, fun _ _ => rfl⟩

/-! ## The same step of a delivery alone -/

/-- Where `stat` leads from what is not a link. -/
theorem exists_congr_entry {links : ℕ} {p : FilePath} (h : fs p = view p)
    (hlink : ∀ target, view p ≠ some (.link target)) :
    fs.exists links p = view.exists links p := by
  unfold Entries.exists Entries.follow
  rw [h]
  cases hentry : view p with
  | none => rfl
  | some entry =>
    cases entry with
    | link target => exact absurd hentry (hlink target)
    | file _ _ | dir | special => rfl

theorem lstat_congr {p : FilePath} (h : fs p = view p) : fs.lstat p = view.lstat p := by
  unfold Entries.lstat
  rw [h]

theorem assertFinalReplaceable_congr {p : FilePath} (h : fs p = view p) :
    assertFinalReplaceable fs p = assertFinalReplaceable view p := by
  unfold assertFinalReplaceable
  rw [lstat_congr h]

theorem assertFinalReplaceable_file {p : FilePath} {bytes : List UInt8} {readable : Bool}
    (h : fs p = some (.file bytes readable)) : assertFinalReplaceable fs p = .ok () := by
  unfold assertFinalReplaceable
  rw [lstat_eq_ok.mpr h]

theorem not_dir_of_replaceable {p : FilePath} (h : assertFinalReplaceable fs p = .ok ()) :
    fs p ≠ some .dir := by
  intro hdir
  rw [assertFinalReplaceable, lstat_eq_ok.mpr hdir] at h
  cases h

/-- The rename of a candidate over what is not a directory. -/
theorem rename_eq {entry : Entry FilePath} (h : fs d.candidatePath = some entry)
    (hdir : fs d.finalPath ≠ some .dir) :
    host.rename fs d.candidatePath d.finalPath =
      match host.renameError with
      | some e => .error e
      | none => .ok (Function.update (Function.update fs d.candidatePath none) d.finalPath
          (some entry)) := by
  unfold Host.rename
  cases host.renameError with
  | some e => rfl
  | none => exact rename_eq_ok.mpr ⟨hdir, entry, h, rfl⟩

/-- The end of the child, seen alone. -/
theorem exit_transfer {result : ChildResult}
    (hnext : next host d fs (.exited result) = some (phase', fs'))
    (hcandidate : fs d.candidatePath = view d.candidatePath) :
    ∃ view', Advances host d (.exited result, view) .call (phase', view') ∧
      fs' d.candidatePath = view' d.candidatePath := by
  cases result with
  | spawnError message =>
    cases hnext
    exact ⟨view, .call rfl, hcandidate⟩
  | closed code stderr =>
    rw [next, lstat_congr hcandidate] at hnext
    split_ifs at hnext with hcode
    · cases hnext
      exact ⟨view, .call (by rw [next, if_pos hcode]), hcandidate⟩
    cases hlstat : view.lstat d.candidatePath with
    | error e =>
      rw [hlstat] at hnext
      cases hnext
      exact ⟨view, .call (by rw [next, if_neg hcode, hlstat]), hcandidate⟩
    | ok entry =>
      rw [hlstat] at hnext
      dsimp only at hnext
      split_ifs at hnext with hfile
      all_goals
        cases hnext
        refine ⟨view, .call ?_, hcandidate⟩
        rw [next, if_neg hcode, hlstat]
      · exact if_pos hfile
      · exact if_neg hfile

/-- The reading of the candidate, seen alone. -/
theorem found_transfer {exitCode : ℤ}
    (hnext : next host d fs (.found exitCode) = some (phase', fs'))
    (hcandidate : fs d.candidatePath = view d.candidatePath)
    (hread : fs.read host.links d.candidatePath = view.read host.links d.candidatePath) :
    ∃ view', Advances host d (.found exitCode, view) .call (phase', view') ∧
      fs' d.candidatePath = view' d.candidatePath := by
  rw [next, hread] at hnext
  cases hview : view.read host.links d.candidatePath with
  | error e =>
    rw [hview] at hnext
    cases hnext
    exact ⟨view, .call (by rw [next, hview]), hcandidate⟩
  | ok buffer =>
    rw [hview] at hnext
    dsimp only at hnext
    split_ifs at hnext with hhtml
    all_goals
      cases hnext
      refine ⟨view, .call ?_, hcandidate⟩
      rw [next, hview]
    · exact if_pos hhtml
    · exact if_neg hhtml

/-- The promotion of the candidate, seen alone. -/
theorem read_transfer {exitCode : ℤ} {buffer : List UInt8} {entry : Entry FilePath}
    (hnext : next host d fs (.read exitCode buffer) = some (phase', fs'))
    (hcandidate : fs d.candidatePath = view d.candidatePath)
    (hview : view d.candidatePath = some entry) (hdir : fs d.finalPath ≠ some .dir)
    (hdir' : view d.finalPath ≠ some .dir) :
    ∃ view', Advances host d (.read exitCode buffer, view) .call (phase', view') ∧
      fs' d.candidatePath = view' d.candidatePath := by
  have hrename : host.rename view d.candidatePath d.finalPath = _ := rename_eq hview hdir'
  rw [next, rename_eq (hcandidate.trans hview) hdir] at hnext
  cases he : host.renameError with
  | some e =>
    rw [he] at hnext hrename
    cases hnext
    exact ⟨view, .call (by rw [next, hrename]), hcandidate⟩
  | none =>
    rw [he] at hnext hrename
    cases hnext
    refine ⟨_, .call (by rw [next, hrename]), ?_⟩
    rw [Function.update_of_ne d.candidatePath_ne, Function.update_of_ne d.candidatePath_ne,
      Function.update_self, Function.update_self]

/-- The removal of the candidate, seen alone. -/
theorem removing_transfer {thrown : Thrown}
    (hnext : next host d fs (.removing thrown) = some (phase', fs'))
    (hcandidate : fs d.candidatePath = view d.candidatePath) :
    ∃ view', Advances host d (.removing thrown, view) .call (phase', view') ∧
      fs' d.candidatePath = view' d.candidatePath := by
  rw [next] at hnext
  unfold Entries.rm at hnext
  rw [hcandidate] at hnext
  by_cases hdir : view d.candidatePath = some .dir
  · rw [if_pos hdir] at hnext
    cases hnext
    exact ⟨view, .call (by rw [next, rm_dir hdir]), hcandidate⟩
  · rw [if_neg hdir] at hnext
    cases hnext
    refine ⟨_, .call (by rw [next, rm_eq_ok.mpr ⟨hdir, rfl⟩]), ?_⟩
    rw [Function.update_self, Function.update_self]

/-- A delivery takes the same step alone, where the candidate is the same and the final path can
    be replaced as it could before. -/
theorem Alone.transfer (halone : Alone host d init phase view)
    (h : Advances host d (phase, fs) act (phase', fs'))
    (hcandidate : fs d.candidatePath = view d.candidatePath)
    (hlink : ∀ target, init d.candidatePath ≠ some (.link target))
    (hfinal : assertFinalReplaceable fs d.finalPath = assertFinalReplaceable init d.finalPath) :
    ∃ view', Advances host d (phase, view) act (phase', view') ∧
      fs' d.candidatePath = view' d.candidatePath := by
  cases h with
  | write _ entry =>
    exact ⟨_, .write view entry, by rw [Function.update_self, Function.update_self]⟩
  | close _ result => exact ⟨_, .close view result, hcandidate⟩
  | call hnext =>
    cases halone with
    | ready =>
      rw [next, hfinal] at hnext
      cases hinit : assertFinalReplaceable init d.finalPath with
      | error e | ok _ =>
        rw [hinit] at hnext
        cases hnext
        exact ⟨init, .call (by rw [next, hinit]), hcandidate⟩
    | checked h =>
      rw [next, exists_congr_entry hcandidate hlink] at hnext
      split_ifs at hnext with hexists
      · cases hnext
        exact ⟨init, .call (by rw [next, if_pos hexists]), hcandidate⟩
      · cases hnext
        exact ⟨init, .call (by rw [next, if_neg hexists]), hcandidate⟩
    | running h leaves => cases hnext
    | exited h child => exact exit_transfer hnext hcandidate
    | @found h bytes hne readable =>
      have hview := Function.update_self d.candidatePath (some (Entry.file bytes readable)) init
      refine found_transfer hnext hcandidate ?_
      rw [read_file (hcandidate.trans hview), read_file hview]
    | @read h bytes hne hhtml =>
      refine read_transfer hnext hcandidate (Function.update_self ..)
        (not_dir_of_replaceable (hfinal.trans h.1)) ?_
      rw [Function.update_of_ne d.candidatePath_ne.symm]
      exact not_dir_of_replaceable h.1
    | removing h child hrun => exact removing_transfer hnext hcandidate
    | ended child => cases hnext

end

/-! ## Every order of steps -/

/-- What stands at the final paths. -/
structure Safe {ι : Type} (host : ι → Host) (d : ι → Delivery) (init : Entries FilePath)
    (s : System ι) : Prop where
  /-- Until something is promoted to a path, it holds what it held before. -/
  kept : ∀ q, (∀ i, q ≠ (d i).candidatePath) →
    (∀ i, (d i).finalPath = q → ¬ (s.phase i).Delivered) → s.entries q = init q
  /-- After that, it holds the whole of an artifact that one of the deliveries to it has checked,
      and for which it has issued its receipt. -/
  whole : ∀ i, (s.phase i).Delivered → ∃ j bytes, (d j).finalPath = (d i).finalPath ∧
    s.phase j = .ended (.ok (.obj (receiptProps (host j) (d j) 0 bytes true))) ∧
    looksLikeBasicHtml bytes = true ∧ s.entries (d i).finalPath = some (.file bytes true)

/-- Every delivery is where it could be alone, as far as it can see. -/
structure Inv {ι : Type} (host : ι → Host) (d : ι → Delivery) (init : Entries FilePath)
    (s : System ι) : Prop where
  safe : Safe host d init s
  alone : ∀ i, ∃ view, Alone (host i) (d i) init (s.phase i) view ∧
    s.entries (d i).candidatePath = view (d i).candidatePath

section

variable {ι : Type} [DecidableEq ι] {host : ι → Host} {d : ι → Delivery}
  {init : Entries FilePath} {s t : System ι}

/-- Only a delivery that has started on `init` promotes anything. -/
theorem Alone.replaceable {host : Host} {d : Delivery} {phase : Phase} {view : Entries FilePath}
    (h : Alone host d init phase view) (hdelivered : phase.Delivered) :
    assertFinalReplaceable init d.finalPath = .ok () := by
  obtain ⟨receipt, rfl⟩ := hdelivered
  generalize hphase : Phase.ended (.ok receipt) = phase at h
  cases h with
  | ended child =>
    have hrun : (runDeliver host d child init).1 = .ok receipt := by
      injection hphase with houtcome
      exact houtcome.symm
    unfold runDeliver at hrun
    cases hfinal : assertFinalReplaceable init d.finalPath with
    | error e =>
      rw [hfinal] at hrun
      cases hrun
    | ok u => rfl
  | ready | checked | running | exited | found | read | removing => cases hphase

omit [DecidableEq ι] in
/-- A final path can be replaced whenever it could be before. -/
theorem Inv.replaceable (h : Inv host d init s) (hfresh : Fresh d init) (i : ι) :
    assertFinalReplaceable s.entries (d i).finalPath =
      assertFinalReplaceable init (d i).finalPath := by
  by_cases hdelivered : ∃ j, (d j).finalPath = (d i).finalPath ∧ (s.phase j).Delivered
  · obtain ⟨j, hj, hphase⟩ := hdelivered
    obtain ⟨-, bytes, -, -, -, hfile⟩ := h.safe.whole j hphase
    obtain ⟨view, halone, -⟩ := h.alone j
    rw [← hj, assertFinalReplaceable_file hfile, halone.replaceable hphase]
  · refine assertFinalReplaceable_congr (h.safe.kept _ (fun j => ?_) fun j hj hphase => ?_)
    · exact (hfresh.candidatePath_ne j i).symm
    · exact hdelivered ⟨j, hj, hphase⟩

omit [DecidableEq ι] in
theorem inv_start : Inv host d init (.start init) where
  safe :=
    { kept := fun _ _ _ => rfl
      whole := fun i ⟨receipt, h⟩ => by cases h }
  alone i := ⟨init, .ready, rfl⟩

/-- A step that promotes nothing. -/
theorem Safe.keep (h : Safe host d init s) (hfresh : Fresh d init) {i : ι} {phase : Phase}
    {fs : Entries FilePath} (hbefore : ¬ (s.phase i).Delivered) (hafter : ¬ phase.Delivered)
    (hkeeps : ∀ q, q ≠ (d i).candidatePath → fs q = s.entries q) :
    Safe host d init (s.move i phase fs) := by
  constructor
  · intro q hq hnone
    refine (hkeeps q (hq i)).trans (h.kept q hq fun j hj hdelivered => hnone j hj ?_)
    have hne : j ≠ i := fun heq => hbefore (heq ▸ hdelivered)
    rwa [System.move_phase_of_ne hne]
  · intro j hj
    have hne : j ≠ i := by
      rintro rfl
      rw [System.move_phase_self] at hj
      exact hafter hj
    rw [System.move_phase_of_ne hne] at hj
    obtain ⟨k, bytes, hpath, hreceipt, hhtml, hfile⟩ := h.whole j hj
    have hk : k ≠ i := fun heq => hbefore (heq ▸ ⟨_, hreceipt⟩)
    refine ⟨k, bytes, hpath, ?_, hhtml, ?_⟩
    · rwa [System.move_phase_of_ne hk]
    · exact (hkeeps _ (hfresh.candidatePath_ne i j).symm).trans hfile

/-- The promotion of a candidate that has been checked. -/
theorem Safe.promote (h : Safe host d init s) (hfresh : Fresh d init) {i : ι} {bytes : List UInt8}
    (hread : s.phase i = .read 0 bytes) (hhtml : looksLikeBasicHtml bytes = true) :
    Safe host d init (s.move i
      (.ended (.ok (.obj (receiptProps (host i) (d i) 0 bytes true))))
      (Function.update (Function.update s.entries (d i).candidatePath none)
        (d i).finalPath (some (.file bytes true)))) := by
  have hbefore : ¬ (s.phase i).Delivered := by
    rw [hread]
    simp [Phase.Delivered]
  have hkeeps : ∀ q, q ≠ (d i).candidatePath → q ≠ (d i).finalPath →
      Function.update (Function.update s.entries (d i).candidatePath none) (d i).finalPath
        (some (.file bytes true)) q = s.entries q := by
    intro q hcandidate hfinal
    rw [Function.update_of_ne hfinal, Function.update_of_ne hcandidate]
  constructor
  · intro q hq hnone
    have hfinal : q ≠ (d i).finalPath :=
      fun heq => hnone i heq.symm ⟨_, System.move_phase_self⟩
    refine (hkeeps q (hq i) hfinal).trans (h.kept q hq fun j hj hj' => hnone j hj ?_)
    have hne : j ≠ i := fun heq => hbefore (heq ▸ hj')
    rwa [System.move_phase_of_ne hne]
  · intro j hj
    by_cases hpath : (d j).finalPath = (d i).finalPath
    · refine ⟨i, bytes, hpath.symm, System.move_phase_self, hhtml, ?_⟩
      rw [hpath]
      exact Function.update_self ..
    · have hne : j ≠ i := fun heq => hpath (heq ▸ rfl)
      rw [System.move_phase_of_ne hne] at hj
      obtain ⟨k, bytes', hk, hreceipt, hhtml', hfile⟩ := h.whole j hj
      have hk' : k ≠ i := fun heq => hpath (hk.symm.trans (heq ▸ rfl))
      refine ⟨k, bytes', hk, ?_, hhtml', ?_⟩
      · rwa [System.move_phase_of_ne hk']
      · exact (hkeeps _ (hfresh.candidatePath_ne i j).symm hpath).trans hfile

/-- The others do not see a step that changes only the candidate and the final path. -/
theorem Inv.move (h : Inv host d init s) (hfresh : Fresh d init) {i : ι} {phase : Phase}
    {fs view : Entries FilePath} (hsafe : Safe host d init (s.move i phase fs))
    (halone : Alone (host i) (d i) init phase view)
    (hcandidate : fs (d i).candidatePath = view (d i).candidatePath)
    (hothers : ∀ q, q ≠ (d i).candidatePath → q ≠ (d i).finalPath → fs q = s.entries q) :
    Inv host d init (s.move i phase fs) where
  safe := hsafe
  alone j := by
    obtain rfl | hne := eq_or_ne j i
    · exact ⟨view, by rwa [System.move_phase_self], hcandidate⟩
    · obtain ⟨other, hother, hsees⟩ := h.alone j
      refine ⟨other, by rwa [System.move_phase_of_ne hne], ?_⟩
      exact (hothers _ (fun heq => hne (hfresh.candidatePath_inj heq))
        (hfresh.candidatePath_ne j i)).trans hsees

theorem Inv.step (h : Inv host d init s) (hfresh : Fresh d init) {l : ι × Act}
    (hstep : Step host d s l t) : Inv host d init t := by
  cases hstep with
  | @mk i act phase fs hadvances =>
    obtain ⟨view, halone, hcandidate⟩ := h.alone i
    obtain ⟨view', hview, hcandidate'⟩ := halone.transfer hadvances hcandidate
      (hfresh.unlinked i) (h.replaceable hfresh i)
    have halone' := halone.advances hview
    obtain ⟨hbefore, hafter, hkeeps⟩ | ⟨exitCode, buffer, entry, hread, rfl, hentry, rfl⟩ :=
      hadvances.changes
    · exact h.move hfresh (h.safe.keep hfresh hbefore hafter hkeeps) halone' hcandidate'
        fun q hq _ => hkeeps q hq
    · -- the candidate still holds what has been read
      rw [hread] at halone
      cases halone with
      | read hstarts hne hhtml =>
        rw [hentry, Function.update_self] at hcandidate
        obtain rfl := Option.some.inj hcandidate
        refine h.move hfresh (h.safe.promote hfresh hread hhtml) halone' hcandidate' ?_
        intro q hq hq'
        rw [Function.update_of_ne hq', Function.update_of_ne hq]

theorem inv_run (hfresh : Fresh d init) {ls : List (ι × Act)}
    (h : Run (Step host d) (.start init) ls s) : Inv host d init s :=
  h.invariant (fun _ _ _ hstep hinv => hinv.step hfresh hstep) inv_start

/-- **Deliveries do not disturb each other.** However the steps of the others fall, a delivery
    that is over has ended as it would have ended alone, and so has its candidate. -/
theorem interleaving_outcome (hfresh : Fresh d init) {ls : List (ι × Act)}
    (h : Run (Step host d) (.start init) ls s) {i : ι} {outcome : Except Thrown JsValue}
    (hended : s.phase i = .ended outcome) :
    ∃ child, (runDeliver (host i) (d i) child init).1 = outcome ∧
      s.entries (d i).candidatePath =
        (runDeliver (host i) (d i) child init).2 (d i).candidatePath := by
  obtain ⟨view, halone, hcandidate⟩ := (inv_run hfresh h).alone i
  rw [hended] at halone
  cases halone with
  | ended child => exact ⟨child, rfl, hcandidate⟩

/-- A delivery takes its steps in the system, while the others rest. -/
theorem run_of_alone {i : ι} {start after : Phase × Entries FilePath} {acts : List Act}
    (h : Run (Advances (host i) (d i)) start acts after) {s : System ι}
    (hstart : start = (s.phase i, s.entries)) :
    Run (Step host d) s (acts.map fun act => (i, act)) (s.move i after.1 after.2) := by
  induction h generalizing s with
  | nil =>
    subst hstart
    have hrest : s.move i (s.phase i) s.entries = s := by
      rw [System.move, Function.update_eq_self]
    rw [hrest]
    exact .nil s
  | @cons start between after act acts hstep hrun ih =>
    subst hstart
    have hmoved : (s.move i between.1 between.2).move i after.1 after.2 =
        s.move i after.1 after.2 := by
      simp only [System.move, Function.update_idem]
    rw [← hmoved]
    refine .cons (.mk hstep) (ih ?_)
    rw [System.move_phase_self, System.move_entries]

end

/-! ## Two deliveries to one path -/

/-- Two deliveries to one final path. -/
def sideBySide (first : Bool) : Delivery :=
  { sampleDelivery with
    unique := if first then "00ff00ff00ff00ff00" else "11ee11ee11ee11ee11" }

theorem fresh_sideBySide : Fresh sideBySide lastGood where
  length i := by cases i <;> decide
  injective := by
    rintro ⟨⟩ ⟨⟩ h
    · rfl
    · exact absurd h (by decide)
    · exact absurd h (by decide)
    · rfl
  unguessed := by
    rintro ⟨⟩ ⟨⟩ h
    · exact absurd rfl h
    · decide
    · decide
    · exact absurd rfl h
  unlinked i target := by
    have hnone : lastGood (sideBySide i).candidatePath = none :=
      if_neg (sideBySide i).candidatePath_ne
    rw [hnone]
    simp

/-- The artifact of the first delivery. -/
def firstArtifact : Entry FilePath := .file (utf8 "<html>first") true

/-- The first delivery ends, while the second one has only made its first call. -/
theorem run_sideBySide : ∃ acts s, Run (Step (fun _ => sampleHost) sideBySide) (.start lastGood)
    acts s ∧ s.phase false = .checked ∧ s.phase true = .ended
      (.ok (.obj (receiptProps sampleHost (sideBySide true) 0 (utf8 "<html>first") true))) := by
  have hstarts : Starts sampleHost (sideBySide true) lastGood := by
    constructor <;> decide +kernel
  have hdeliver := (runDeliver_succeeding hstarts (some firstArtifact)).trans
    (promote_html (by decide +kernel) (Function.update_self ..) (by decide +kernel))
  rw [rename_eq (Function.update_self ..) (by decide +kernel)] at hdeliver
  obtain ⟨acts, hrun⟩ := exists_run_runDeliver sampleHost (sideBySide true)
    (succeeding (some firstArtifact)) lastGood
  rw [hdeliver] at hrun
  have hsecond : next sampleHost (sideBySide false) lastGood .ready =
      some (.checked, lastGood) := by
    rw [next, show assertFinalReplaceable lastGood (sideBySide false).finalPath = .ok () by
      decide +kernel]
  have hturn : Run (Step (fun _ => sampleHost) sideBySide)
      ((System.start lastGood).move false .checked lastGood) _ _ :=
    run_of_alone hrun (by rw [System.move_phase_of_ne (by decide)]; rfl)
  refine ⟨_, _, .cons (.mk (.call hsecond)) hturn, ?_, System.move_phase_self⟩
  rw [System.move_phase_of_ne (by decide), System.move_phase_self]

theorem interleaving_outcome_sideBySide : ∃ s : System Bool, s.phase false = .checked ∧
    ∃ receipt child, (runDeliver sampleHost (sideBySide true) child lastGood).1 = .ok receipt ∧
      s.entries (sideBySide true).candidatePath =
        (runDeliver sampleHost (sideBySide true) child lastGood).2
          (sideBySide true).candidatePath := by
  obtain ⟨acts, s, hrun, hsecond, hfirst⟩ := run_sideBySide
  obtain ⟨child, houtcome, hcandidate⟩ := interleaving_outcome fresh_sideBySide hrun hfirst
  exact ⟨s, hsecond, _, child, houtcome, hcandidate⟩

end Wns.Artifact
