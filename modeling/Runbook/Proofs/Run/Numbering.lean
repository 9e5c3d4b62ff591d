import Runbook.Proofs.Run.History

/-!
# Effects and numbers of tasks

A run reports, but nothing in it depends on what was reported before. The numbers of tasks matter
even less: a task is told no number, and only the error that is raised for it shows one. An error
that comes out of a pipeline which the task has run is passed on as it is.

* `effect`: what a run comes to, apart from what it reports.
* `matches_execute`: the effect of a run depends on its workspace only.
* `raisesTask`, `raisesTasks`: whether the error of tasks is raised for one of them.
* `runNumbered_renumber`: tasks under other numbers do the same, and only such an error differs.
-/

namespace Runbook

/-! ## Effects -/

/-- The result and the workspace of a run; what it reports is left out. -/
def effect {α : Type} (r : α × State) : α × Workspace :=
  (r.1, r.2.workspace)

/-- Two runs of the same effect have both succeeded, or both have failed. -/
theorem ok_or_error_of_effect_eq {ε α : Type} {r r' : Except ε α × State}
    (h : effect r = effect r') :
    (∃ x after after', r = (.ok x, after) ∧ r' = (.ok x, after') ∧
      after.workspace = after'.workspace) ∨
    ∃ e after after', r = (.error e, after) ∧ r' = (.error e, after') ∧
      after.workspace = after'.workspace := by
  obtain ⟨r, after⟩ := r
  obtain ⟨r', after'⟩ := r'
  obtain ⟨hresult, hworkspace⟩ := Prod.mk.inj h
  obtain rfl : r = r' := hresult
  cases r with
  | ok x => exact .inl ⟨x, after, after', rfl, rfl, hworkspace⟩
  | error e => exact .inr ⟨e, after, after', rfl, rfl, hworkspace⟩

/-- A task has the same effect in two runs if its method has. -/
theorem effect_runTask_congr {lib : Library} {t : Task} {below below' : Runner} {depth depth' : Nat}
    {silent : Bool} {s s' : State} (hs : s.workspace = s'.workspace)
    (hbody :
      let name := (lib.catalog.methodAt t.method).name
      effect ((lib.native t.method ⟨lib.catalog, t, depth, silent⟩).perform below silent
          (s.report (.announced name depth silent))) =
        effect ((lib.native t.method ⟨lib.catalog, t, depth', silent⟩).perform below' silent
          (s'.report (.announced name depth' silent))))
    (i : Nat) :
    effect (runTask lib below depth silent i t s) =
      effect (runTask lib below' depth' silent i t s') := by
  cases hinputs : t.missingInput? lib.catalog s.workspace.isOccupied i with
  | some e =>
    rw [runTask_of_refused hinputs, runTask_of_refused (hs ▸ hinputs)]
    exact Prod.ext rfl hs
  | none =>
    rw [runTask_of_called hinputs, runTask_of_called (hs ▸ hinputs)]
    rcases ok_or_error_of_effect_eq hbody with
      ⟨x, after, after', hrun, hrun', hafter⟩ | ⟨f, after, after', hrun, hrun', hafter⟩
    · rw [hrun, hrun']
      simp [effect, State.update, hafter]
    · rw [hrun, hrun']
      exact Prod.ext rfl hafter

/-- On the same workspace the two runners have the same effect, whatever was reported before. -/
def Runner.Matches (below below' : Runner) : Prop :=
  ∀ silent p (s s' : State), s.workspace = s'.workspace →
    effect (below silent p s) = effect (below' silent p s')

section

variable {below below' : Runner} (hbelow : below.Matches below') (silent : Bool) {s s' : State}

include hbelow

theorem Runner.Matches.apply (mode : Mode) (p : Pipeline) (hs : s.workspace = s'.workspace) :
    effect (mode.apply below silent p s) = effect (mode.apply below' silent p s') := by
  cases mode with
  | shared => exact hbelow silent p s s' hs
  | muted => exact hbelow true p s s' hs
  | isolated keep =>
    unfold Mode.apply
    rcases ok_or_error_of_effect_eq (hbelow silent p s s' hs) with
      ⟨x, after, after', hrun, hrun', hafter⟩ | ⟨e, after, after', hrun, hrun', -⟩
    · rw [hrun, hrun']
      simp [effect, hs, hafter]
    · rw [hrun, hrun']
      simp [effect, hs]

theorem Runner.Matches.perform {α : Type} (a : Action α) (hs : s.workspace = s'.workspace) :
    effect (a.perform below silent s) = effect (a.perform below' silent s') := by
  induction a generalizing s s' with
  | done | fail => exact Prod.ext rfl hs
  | read v next ih =>
    unfold Action.perform
    rw [← hs]
    exact ih _ hs
  | write v x next ih => exact ih (congrArg (·.write v x) hs)
  | put v x next ih => exact ih (congrArg (·.put v x) hs)
  | mark v next ih => exact ih (congrArg (·.mark v) hs)
  | inspect next ih =>
    unfold Action.perform
    rw [← hs]
    exact ih _ hs
  | report e next ih =>
    have hreport : (s.report e).workspace = (s'.report e).workspace := hs
    exact ih hreport
  | run p mode next ih =>
    unfold Action.perform
    rcases ok_or_error_of_effect_eq (hbelow.apply silent mode p hs) with
      ⟨x, after, after', hrun, hrun', hafter⟩ | ⟨e, after, after', hrun, hrun', hafter⟩
    · rw [hrun, hrun']
      exact ih _ hafter
    · rw [hrun, hrun']
      exact ih _ hafter

variable (lib : Library) (depth : Nat)

theorem Runner.Matches.runTask (i : Nat) (t : Task) (hs : s.workspace = s'.workspace) :
    effect (runTask lib below depth silent i t s) =
      effect (runTask lib below' depth silent i t s') := by
  let announcement := Event.announced (lib.catalog.methodAt t.method).name depth silent
  have hreport : (s.report announcement).workspace = (s'.report announcement).workspace := hs
  exact effect_runTask_congr hs (hbelow.perform silent _ hreport) i

theorem Runner.Matches.runTasks (i : Nat) (ts : List Task) (hs : s.workspace = s'.workspace) :
    effect (runTasks lib below depth silent i ts s) =
      effect (runTasks lib below' depth silent i ts s') := by
  induction ts generalizing i s s' with
  | nil => exact Prod.ext rfl hs
  | cons t ts ih =>
    unfold Runbook.runTasks
    rcases ok_or_error_of_effect_eq (hbelow.runTask silent lib depth i t hs) with
      ⟨x, after, after', hrun, hrun', hafter⟩ | ⟨e, after, after', hrun, hrun', hafter⟩
    · rw [hrun, hrun']
      exact ih (i + 1) hafter
    · rw [hrun, hrun']
      exact Prod.ext rfl hafter

end

/-- The effect of an entered pipeline is that of its tasks. -/
theorem effect_execute_succ (lib : Library) (limit room : Nat) (silent : Bool) (p : Pipeline)
    (s : State) :
    effect (execute lib limit (room + 1) silent p s) =
      effect (runTasks lib (execute lib limit room) (limit - room) silent 0 p.tasks
        (s.report (.entered p.name (limit - room) p.tasks.length))) := by
  obtain ⟨hresult, hworkspace⟩ := execute_succ lib limit room silent p s
  exact Prod.ext hresult hworkspace

/-- **The effect of a run depends on its workspace only.** -/
theorem matches_execute (lib : Library) (limit room : Nat) :
    (execute lib limit room).Matches (execute lib limit room) := by
  induction room with
  | zero => exact fun _ _ _ _ hs => Prod.ext rfl hs
  | succ room ih =>
    intro silent p s s' hs
    rw [effect_execute_succ, effect_execute_succ]
    exact ih.runTasks silent lib (limit - room) 0 p.tasks hs

/-! ## Numbers in errors -/

namespace RunError

/-- The error with the number of its task changed by `f`. -/
def renumber (f : Nat → Nat) : RunError → RunError
  | missingInput e => missingInput { e with task := f e.task }
  | methodFailed method i contexts fault => methodFailed method (f i) contexts fault
  | depthExceeded p limit => depthExceeded p limit

theorem renumber_id (e : RunError) : e.renumber id = e := by
  cases e <;> rfl

theorem renumber_renumber (f g : Nat → Nat) (e : RunError) :
    (e.renumber f).renumber g = e.renumber (g ∘ f) := by
  cases e <;> rfl

end RunError

/-- Changes the number in an error that is raised for one of the tasks. -/
def renumberIf (raised : Bool) (f : Nat → Nat) (r : Except RunError Unit) : Except RunError Unit :=
  r.mapError fun e => if raised then e.renumber f else e

theorem renumberIf_renumberIf (raised : Bool) (f g : Nat → Nat) (r : Except RunError Unit) :
    renumberIf raised g (renumberIf raised f r) = renumberIf raised (g ∘ f) r := by
  cases r with
  | ok => rfl
  | error e => cases raised <;> simp [renumberIf, Except.mapError, RunError.renumber_renumber]

theorem renumberIf_id (raised : Bool) (r : Except RunError Unit) : renumberIf raised id r = r := by
  cases r with
  | ok => rfl
  | error e => cases raised <;> simp [renumberIf, Except.mapError, RunError.renumber_id]

/-- The failure is a fault of the method, and not one of a run that it passes on. -/
def Failure.ofMethod (f : Failure) : Bool :=
  match f.cause with
  | .fault _ => true
  | .run _ => false

/-- The task fails by itself: one of its inputs is not set, or its method fails for a fault. -/
def raisesTask (lib : Library) (below : Runner) (depth : Nat) (silent : Bool) (t : Task)
    (s : State) : Bool :=
  let announced := s.report (.announced (lib.catalog.methodAt t.method).name depth silent)
  match t.missingInput? lib.catalog s.workspace.isOccupied 0 with
  | some _ => true
  | none =>
    match (lib.native t.method ⟨lib.catalog, t, depth, silent⟩).perform below silent announced with
    | (.ok (), _) => false
    | (.error f, _) => f.ofMethod

/-- The tasks fail, and the error is raised for one of them. Otherwise, if they fail, it comes out
of a pipeline that one of them has run. -/
def raisesTasks (lib : Library) (below : Runner) (depth : Nat) (silent : Bool) :
    List Task → State → Bool
  | [], _ => false
  | t :: ts, s =>
    match runTask lib below depth silent 0 t s with
    | (.ok (), after) => raisesTasks lib below depth silent ts after
    | (.error _, _) => raisesTask lib below depth silent t s

/-- Runs tasks under the numbers that are given with them. -/
def runNumbered (lib : Library) (below : Runner) (depth : Nat) (silent : Bool) :
    List (Task × Nat) → State → Except RunError Unit × State
  | [], s => (.ok (), s)
  | (t, i) :: ts, s =>
    match runTask lib below depth silent i t s with
    | (.ok (), after) => runNumbered lib below depth silent ts after
    | (.error e, after) => (.error e, after)

section

variable (lib : Library) (below : Runner) (depth : Nat) (silent : Bool)

theorem Task.missingInput?_number (c : Catalog) (isSet : VariableId → Bool) (i : Nat) (t : Task) :
    t.missingInput? c isSet i = (t.missingInput? c isSet 0).map fun e => { e with task := i } := by
  simp [missingInput?, Function.comp_def]

theorem Failure.report_number (f : Failure) (method : String) (i : Nat) :
    f.report method i =
      if f.ofMethod then (f.report method 0).renumber fun _ => i else f.report method 0 := by
  obtain ⟨contexts, fault | e⟩ := f <;> rfl

/-- A task is told no number, so only the error that is raised for it shows one. -/
theorem runTask_number (i : Nat) (t : Task) (s : State) :
    runTask lib below depth silent i t s =
      let r := runTask lib below depth silent 0 t s
      (renumberIf (raisesTask lib below depth silent t s) (fun _ => i) r.1, r.2) := by
  have hmissing := t.missingInput?_number lib.catalog s.workspace.isOccupied i
  unfold raisesTask
  cases hinputs : t.missingInput? lib.catalog s.workspace.isOccupied 0 with
  | some e =>
    rw [hinputs] at hmissing
    rw [runTask_of_refused hinputs, runTask_of_refused hmissing]
    rfl
  | none =>
    rw [hinputs] at hmissing
    rw [runTask_of_called hinputs, runTask_of_called hmissing]
    dsimp only
    rcases (lib.native t.method ⟨lib.catalog, t, depth, silent⟩).perform below silent
      (s.report (.announced (lib.catalog.methodAt t.method).name depth silent)) with ⟨f | _, after⟩
    · exact congrArg (fun e => (Except.error e, after)) (f.report_number _ i)
    · rfl

/-- **Tasks under other numbers do the same**, and if an error is raised for one of them it shows
the other number. -/
theorem runNumbered_renumber (f : Nat → Nat) (ts : List (Task × Nat)) (s : State) :
    runNumbered lib below depth silent (ts.map (Prod.map id f)) s =
      let r := runNumbered lib below depth silent ts s
      (renumberIf (raisesTasks lib below depth silent (ts.map Prod.fst) s) f r.1, r.2) := by
  induction ts generalizing s with
  | nil => rfl
  | cons ti ts ih =>
    obtain ⟨t, i⟩ := ti
    simp only [List.map_cons, Prod.map_apply, id_eq, runNumbered, raisesTasks]
    rw [runTask_number lib below depth silent i, runTask_number lib below depth silent (f i)]
    rcases runTask lib below depth silent 0 t s with ⟨e | _, after⟩
    · refine Prod.ext ?_ rfl
      exact (renumberIf_renumberIf _ (fun _ => i) f (.error e)).symm
    · exact ih after

/-- Tasks that are counted from `i` have the numbers that they stand under in the list. -/
theorem runTasks_eq_runNumbered (i : Nat) (ts : List Task) (s : State) :
    runTasks lib below depth silent i ts s =
      runNumbered lib below depth silent (ts.zipIdx i) s := by
  induction ts generalizing i s with
  | nil => rfl
  | cons t ts ih =>
    rw [List.zipIdx_cons]
    unfold runTasks runNumbered
    rcases runTask lib below depth silent i t s with ⟨e | _, after⟩
    · rfl
    · exact ih (i + 1) after

/-- Tasks that are counted from `n` on do the same as if they were counted from zero. -/
theorem runTasks_number (n : Nat) (ts : List Task) (s : State) :
    runTasks lib below depth silent n ts s =
      let r := runTasks lib below depth silent 0 ts s
      (renumberIf (raisesTasks lib below depth silent ts s) (n + ·) r.1, r.2) := by
  have hzip : ts.zipIdx n = (ts.zipIdx 0).map (Prod.map id (n + ·)) := List.zipIdx_eq_map_add
  rw [runTasks_eq_runNumbered, runTasks_eq_runNumbered, hzip, runNumbered_renumber,
    List.zipIdx_map_fst]

end

/-- Nor does it depend on what was reported for whom an error is raised. -/
theorem raisesTask_congr {below : Runner} (hbelow : below.Matches below) (lib : Library)
    (depth : Nat) (silent : Bool) (t : Task) {s s' : State} (hs : s.workspace = s'.workspace) :
    raisesTask lib below depth silent t s = raisesTask lib below depth silent t s' := by
  let announcement := Event.announced (lib.catalog.methodAt t.method).name depth silent
  have hreport : (s.report announcement).workspace = (s'.report announcement).workspace := hs
  have hperform := hbelow.perform silent (lib.native t.method ⟨lib.catalog, t, depth, silent⟩)
    hreport
  unfold raisesTask
  rw [hs]
  cases t.missingInput? lib.catalog s'.workspace.isOccupied 0 with
  | some e => rfl
  | none =>
    dsimp only
    rcases ok_or_error_of_effect_eq hperform with
      ⟨x, after, after', hrun, hrun', -⟩ | ⟨f, after, after', hrun, hrun', -⟩
    · rw [hrun, hrun']
    · rw [hrun, hrun']

theorem raisesTasks_congr {below : Runner} (hbelow : below.Matches below) (lib : Library)
    (depth : Nat) (silent : Bool) (ts : List Task) {s s' : State}
    (hs : s.workspace = s'.workspace) :
    raisesTasks lib below depth silent ts s = raisesTasks lib below depth silent ts s' := by
  induction ts generalizing s s' with
  | nil => rfl
  | cons t ts ih =>
    unfold raisesTasks
    rcases ok_or_error_of_effect_eq (hbelow.runTask silent lib depth 0 t hs) with
      ⟨x, after, after', hrun, hrun', hafter⟩ | ⟨e, after, after', hrun, hrun', -⟩
    · rw [hrun, hrun']
      exact ih hafter
    · rw [hrun, hrun']
      exact raisesTask_congr hbelow lib depth silent t hs

end Runbook
