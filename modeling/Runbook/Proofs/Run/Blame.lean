import Runbook.Proofs.Run.StaticCheck

/-!
# Which failure is reported

On its way up a failure passes through the methods that ran the failing pipelines. If they hand it
on, add nothing but context, do not fail by themselves once a run has succeeded, and fail for faults
where they do, then the error at the end of a run is the one of the task that was announced last,
however deep it stands.

* `Action.PassesOn`, `Library.PassesFailuresOn`: methods that pass failures on.
* `Library.FaultsOnly`: methods that fail for faults.
* `Turn`: a task of a pipeline, and the state when it is its turn.
* `Turn.IsLast`, `Turn.Fails`: it is the last one of a run, and what goes wrong there.
* `blames_of_below`, `blamesBelow`: every error goes back to the last turn.
* `innermost_failure_reported`: the errors of all runs.
* `reported_not_last_announced`: what is no fault is reported whatever it names.
-/

namespace Runbook

/-! ## Methods that pass failures on -/

namespace Action

variable {α : Type}

/-- Whatever the action still does, it runs and announces nothing, and fails for `e`. -/
def PassesError (e : RunError) : Action α → Prop
  | .done _ | .run .. => False
  | .fail f => f.cause = .run e
  | .read _ next => ∀ x, (next x).PassesError e
  | .write _ _ next | .put _ _ next | .mark _ next => next.PassesError e
  | .inspect next => ∀ w, (next w).PassesError e
  | .report event next => event.announces = false ∧ next.PassesError e

/-- The action announces nothing and passes on the failure of every run. By itself it fails only as
long as no run has succeeded; `ran` says if one has. What it fails with then is not said here, see
`Action.FaultsOnly`. -/
def PassesOn : Bool → Action α → Prop
  | _, .done _ => True
  | ran, .fail _ => ran = false
  | ran, .read _ next => ∀ x, (next x).PassesOn ran
  | ran, .write _ _ next | ran, .put _ _ next | ran, .mark _ next => next.PassesOn ran
  | ran, .inspect next => ∀ w, (next w).PassesOn ran
  | ran, .report event next => event.announces = false ∧ next.PassesOn ran
  | _, .run _ _ next =>
    (next (.ok ())).PassesOn true ∧ ∀ e, (next (.error e)).PassesError e

/-- The pipeline that the action runs first, if it runs one. -/
def firstRun? : Action α → Workspace → Option Pipeline
  | .done _, _ | .fail _, _ => none
  | .read v next, w => (next (w.value v)).firstRun? w
  | .write v x next, w => next.firstRun? (w.write v x)
  | .put v x next, w => next.firstRun? (w.put v x)
  | .mark v next, w => next.firstRun? (w.mark v)
  | .inspect next, w => (next w).firstRun? w
  | .report _ next, w => next.firstRun? w
  | .run p _ _, _ => some p

variable {fp : Footprint} {runs : Bool} {fails : Failure → Prop} {post : α → Prop} {a : Action α}

theorem passesError_of_within {e : RunError}
    (ha : a.Within fp false (fun f => f.cause = .run e) fun _ => False)
    (hall : ∀ t, fp.admits t) : a.PassesError e := by
  induction a with
  | done => exact ha
  | fail => exact ha
  | read v next ih => exact fun x => ih x (ha.2 x (x.holdsOnly_of_forall hall))
  | write v x next ih | put v x next ih => exact ih ha.2.2
  | mark v next ih => exact ih ha.2
  | inspect => exact ha.elim
  | report event next ih => exact ⟨ha.1, ih ha.2⟩
  | run => exact absurd ha.1 Bool.false_ne_true

theorem passesOn_of_within {ran : Bool} (ha : a.Within fp runs fails post)
    (hall : ∀ t, fp.admits t) (hfails : ∀ f, fails f → ran = false) : a.PassesOn ran := by
  induction a generalizing runs fails post ran with
  | done => trivial
  | fail f => exact hfails f ha
  | read v next ih => exact fun x => ih x (ha.2 x (x.holdsOnly_of_forall hall)) hfails
  | write v x next ih | put v x next ih => exact ih ha.2.2 hfails
  | mark v next ih => exact ih ha.2 hfails
  | inspect => exact ha.elim
  | report event next ih => exact ⟨ha.1, ih ha.2 hfails⟩
  | run p mode next ih =>
    obtain ⟨-, -, hok, herror⟩ := ha
    exact ⟨ih _ hok nofun, fun e => passesError_of_within (herror e) hall⟩

end Action

/-- Every method of the library passes the failures of its runs on. -/
def Library.PassesFailuresOn (lib : Library) : Prop :=
  ∀ (t : Task) depth silent,
    (lib.native t.method ⟨lib.catalog, t, depth, silent⟩).PassesOn false

/-- Every method of the library fails for faults only, unless a run of its has failed. -/
def Library.FaultsOnly (lib : Library) : Prop :=
  ∀ (t : Task) depth silent, (lib.native t.method ⟨lib.catalog, t, depth, silent⟩).FaultsOnly

theorem Standard.passesFailuresOn : library.PassesFailuresOn := by
  intro t depth silent
  obtain ⟨runs, hwithin⟩ := confines_all t trivial depth silent
  exact Action.passesOn_of_within hwithin (fun _ => trivial) fun _ _ => rfl

theorem Standard.faultsOnly : library.FaultsOnly := by
  intro t depth silent
  obtain ⟨runs, hwithin⟩ := confines_all t trivial depth silent
  exact faultsOnly_of_within hwithin (fun _ => trivial) fun _ => id

/-! ## Quiet parts of runs -/

/-- A task is looked at. -/
def Step.looks : Step → Bool
  | .looked .. => true
  | _ => false

/-- From one log to the other no task is announced, and in the moments none is looked at. -/
structure Quiet (log log' : Array Event) (h : List Moment) : Prop where
  reports : ∃ es, log'.toList = log.toList ++ es ∧ ∀ e ∈ es, e.announces = false
  moments : ∀ y ∈ h, y.step.looks = false

namespace Quiet

variable {log log' log'' : Array Event} {h h' : List Moment}

theorem refl (log : Array Event) : Quiet log log [] :=
  ⟨⟨[], by simp, nofun⟩, nofun⟩

theorem push {e : Event} (he : e.announces = false) (log : Array Event) :
    Quiet log (log.push e) [] :=
  ⟨⟨[e], by simp, by simpa using he⟩, nofun⟩

theorem cons {y : Moment} (hy : y.step.looks = false) (hq : Quiet log log' h) :
    Quiet log log' (y :: h) :=
  ⟨hq.reports, List.forall_mem_cons.mpr ⟨hy, hq.moments⟩⟩

theorem single {y : Moment} (hy : y.step.looks = false) (log : Array Event) :
    Quiet log log [y] :=
  (refl log).cons hy

theorem append (hq : Quiet log log' h) (hq' : Quiet log' log'' h') :
    Quiet log log'' (h ++ h') := by
  obtain ⟨es, hes, hquiet⟩ := hq.reports
  obtain ⟨es', hes', hquiet'⟩ := hq'.reports
  refine ⟨⟨es ++ es', ?_, ?_⟩, ?_⟩
  · rw [hes', hes, List.append_assoc]
  · exact List.forall_mem_append.mpr ⟨hquiet, hquiet'⟩
  · exact List.forall_mem_append.mpr ⟨hq.moments, hq'.moments⟩

end Quiet

/-- Some run succeeds. -/
def Runner.Succeeds (below : Runner) : Prop :=
  ∃ silent p s s', below silent p s = (.ok (), s')

/-- Among the moments `h` of a method a run fails with `e`, and the rest is quiet. It is the first
run, that of the pipeline `first`, and what comes before is quiet too; or one has succeeded. -/
def Broke (below : Runner) (inside : Trail) (first : Option Pipeline) (log log' : Array Event)
    (h : List Moment) (e : RunError) : Prop :=
  ∃ silent q s s' before after, below silent q s = (.error e, s') ∧
    h = before ++ (inside silent q s ++ after) ∧ Quiet s'.log log' after ∧
    ((first = some q ∧ Quiet log s.log before) ∨ below.Succeeds)

section

variable {below : Runner} {inside : Trail} {first : Option Pipeline} {log log' : Array Event}
  {h : List Moment} {e : RunError}

theorem Broke.prepend {log₀ : Array Event} {h₀ : List Moment} (hq : Quiet log₀ log h₀)
    (hb : Broke below inside first log log' h e) :
    Broke below inside first log₀ log' (h₀ ++ h) e := by
  obtain ⟨silent, q, s, s', before, after, hrun, rfl, hafter, hbefore⟩ := hb
  refine ⟨silent, q, s, s', h₀ ++ before, after, hrun, by rw [List.append_assoc], hafter, ?_⟩
  exact hbefore.imp_left fun ⟨hfirst, hquiet⟩ => ⟨hfirst, hq.append hquiet⟩

theorem Broke.afterSuccess (hb : Broke below inside first log log' h e) (hok : below.Succeeds)
    (first₀ : Option Pipeline) (log₀ : Array Event) (h₀ : List Moment) :
    Broke below inside first₀ log₀ log' (h₀ ++ h) e := by
  obtain ⟨silent, q, s, s', before, after, hrun, rfl, hafter, -⟩ := hb
  exact ⟨silent, q, s, s', h₀ ++ before, after, hrun, by rw [List.append_assoc], hafter, .inr hok⟩

/-- In every mode the result is that of the run itself, and so is the log. -/
theorem Mode.exists_run (mode : Mode) (below : Runner) (silent : Bool) (p : Pipeline) (s : State) :
    ∃ s', below (mode.silences silent) p s = ((mode.apply below silent p s).1, s') ∧
      s'.log = (mode.apply below silent p s).2.log := by
  cases mode with
  | shared | muted => exact ⟨_, rfl, rfl⟩
  | isolated keep =>
    unfold Mode.apply Mode.silences
    rcases below silent p s with ⟨_ | _, s'⟩ <;> exact ⟨s', rfl, rfl⟩

/-- A method has failed for a fault of its own, with no run before and quietly, or because a run of
its has failed. -/
def FailsFor (below : Runner) (inside : Trail) (ran : Bool) (first : Option Pipeline)
    (log log' : Array Event) (h : List Moment) (f : Failure) : Prop :=
  (ran = false ∧ f.Own ∧ Quiet log log' h) ∨
    ∃ e, f.cause = .run e ∧ Broke below inside first log log' h e

theorem FailsFor.prepend {ran : Bool} {log₀ : Array Event} {h₀ : List Moment} {f : Failure}
    (hf : FailsFor below inside ran first log log' h f) (hq : Quiet log₀ log h₀) :
    FailsFor below inside ran first log₀ log' (h₀ ++ h) f := by
  rcases hf with ⟨hran, hown, hquiet⟩ | ⟨e, hcause, hbroke⟩
  · exact .inl ⟨hran, hown, hq.append hquiet⟩
  · exact .inr ⟨e, hcause, hbroke.prepend hq⟩

variable {α : Type} {a : Action α} {depth : Nat} {silent : Bool}

/-- Once a run has failed, nothing more is heard. -/
theorem Action.PassesError.quiet (ha : a.PassesError e) (below : Runner) (inside : Trail)
    (depth : Nat) (silent : Bool) (s : State) :
    ∃ f, (a.perform below silent s).1 = .error f ∧ f.cause = .run e ∧
      Quiet s.log (a.perform below silent s).2.log (a.moments below inside depth silent s) := by
  induction a generalizing s with
  | done | run => exact ha.elim
  | fail f => exact ⟨f, rfl, ha, .refl _⟩
  | read v next ih =>
    obtain ⟨f, hf, hcause, hquiet⟩ := ih _ (ha _) s
    exact ⟨f, hf, hcause, hquiet.cons rfl⟩
  | write v x next ih | put v x next ih | mark v next ih =>
    obtain ⟨f, hf, hcause, hquiet⟩ := ih ha (s.update _)
    exact ⟨f, hf, hcause, hquiet.cons rfl⟩
  | inspect next ih => exact ih _ (ha _) s
  | report event next ih =>
    obtain ⟨f, hf, hcause, hquiet⟩ := ih ha.2 (s.report event)
    exact ⟨f, hf, hcause, (Quiet.push ha.1 s.log).append hquiet⟩

theorem Action.PassesOn.fails {ran : Bool} (ha : a.PassesOn ran) (hfaults : a.FaultsOnly)
    (inside : Trail) (depth : Nat) {s : State} {f : Failure}
    (hf : (a.perform below silent s).1 = .error f) :
    FailsFor below inside ran (a.firstRun? s.workspace) s.log (a.perform below silent s).2.log
      (a.moments below inside depth silent s) f := by
  induction a generalizing ran s with
  | done => cases hf
  | fail =>
    cases hf
    exact .inl ⟨ha, hfaults, .refl _⟩
  | read v next ih => exact (ih _ (ha _) (hfaults _) hf).prepend (.single rfl _)
  | write v x next ih | put v x next ih | mark v next ih =>
    exact (ih ha hfaults hf).prepend (.single rfl _)
  | inspect next ih => exact ih _ (ha _) (hfaults _) hf
  | report event next ih => exact (ih ha.2 hfaults hf).prepend (Quiet.push ha.1 s.log)
  | run p mode next ih =>
    obtain ⟨s', hrun, hlog⟩ := mode.exists_run below silent p s
    unfold Action.perform at hf ⊢
    unfold Action.moments
    rcases heq : mode.apply below silent p s with ⟨r, after⟩
    simp only [heq] at hrun hlog hf ⊢
    right
    cases r with
    | ok =>
      rcases ih _ ha.1 hfaults hf with ⟨hran, -, -⟩ | ⟨e, hcause, hbroke⟩
      · cases hran
      · refine ⟨e, hcause, ?_⟩
        rw [List.append_cons]
        exact hbroke.afterSuccess ⟨_, p, s, s', hrun⟩ _ _ _
    | error e =>
      obtain ⟨g, hg, hcause, hquiet⟩ := (ha.2 e).quiet below inside depth silent after
      obtain rfl : g = f := by
        rw [hg] at hf
        exact Except.error.inj hf
      refine ⟨e, hcause, _, p, s, s', [], _, hrun, rfl, ?_, .inl ⟨rfl, .refl _⟩⟩
      rw [hlog]
      exact hquiet.cons rfl

end

/-! ## Turns -/

/-- The method that an event announces. -/
def Event.announced? : Event → Option String
  | announced method _ _ => some method
  | _ => none

/-- The method of the last task that is announced in the log. -/
def lastAnnounced? (log : Array Event) : Option String :=
  (log.toList.filterMap Event.announced?).getLast?

/-- Task number `index` of a pipeline that runs at nesting level `depth`, and the state in which it
is the task's turn. -/
structure Turn where
  pipeline : Pipeline
  depth : Nat
  silent : Bool
  index : Nat
  task : Task
  state : State

namespace Turn

variable (lib : Library) (x : Turn)

/-- The name of the task's method. -/
def method : String :=
  (lib.catalog.methodAt x.task.method).name

/-- The state when the task has been announced. -/
def announced : State :=
  x.state.report (.announced (x.method lib) x.depth x.silent)

/-- The input that the task lacks. -/
def missingInput? : Option MissingInput :=
  x.task.missingInput? lib.catalog x.state.workspace.isOccupied x.index

/-- The steps of the method that is called. -/
def body : Action Unit :=
  lib.native x.task.method ⟨lib.catalog, x.task, x.depth, x.silent⟩

/-- In a run with this log and these moments it is the last turn: the task stands at its place in
the pipeline, which was entered and not left before it was looked at, and no other task was
announced or looked at afterwards. -/
structure IsLast (log : Array Event) (h : List Moment) : Prop where
  place : x.pipeline.tasks[x.index]? = some x.task
  last : ∃ before w between after,
    h = before ++ ⟨x.depth, .entered x.pipeline, w⟩ :: (between ++
      ⟨x.depth, .looked x.index x.task, x.state.workspace⟩ :: after) ∧
    (∀ y ∈ between, y.step.bounds = true → x.depth < y.depth) ∧
    Quiet (x.announced lib).log log after

/-- Its method is the last one that is announced in the log. -/
theorem IsLast.lastAnnounced {log : Array Event} {h : List Moment} (hx : x.IsLast lib log h) :
    lastAnnounced? log = some (x.method lib) := by
  obtain ⟨-, before, w, between, after, -, -, ⟨es, hes, hquiet⟩, -⟩ := hx
  have hnone : es.filterMap Event.announced? = [] := by
    refine List.filterMap_eq_nil_iff.mpr fun e he => ?_
    have hannounces := hquiet e he
    cases e <;> first | rfl | cases hannounces
  rw [lastAnnounced?, hes, List.filterMap_append, hnone, List.append_nil]
  simp [announced, State.report, Event.announced?]

/-- What goes wrong in the turn: an input is missing, or the method that is called fails for a fault
of its own, or it runs a pipeline although its own is at the deepest level already. -/
inductive Fails (limit : Nat) : RunError → Prop where
  | refused {e : MissingInput} : x.missingInput? lib = some e → Fails limit (.missingInput e)
  | failed {contexts : List String} {fault : Fault} {after : State} :
    x.missingInput? lib = none →
    (x.body lib).perform (execute lib limit (limit - x.depth)) x.silent (x.announced lib) =
      (.error ⟨contexts, .fault fault⟩, after) →
    Fails limit (.methodFailed (x.method lib) x.index contexts fault)
  | tooDeep {q : Pipeline} :
    x.missingInput? lib = none → x.depth = limit →
    (x.body lib).firstRun? x.state.workspace = some q → Fails limit (.depthExceeded q.name limit)

variable {lib x} {limit : Nat} {e : RunError}

/-- The error names the method of the turn, unless it is about depth. -/
theorem Fails.method_eq (h : x.Fails lib limit e) {m : String} (hm : e.method? = some m) :
    m = x.method lib := by
  cases h with
  | refused hinput =>
    obtain ⟨_, _, _, -, -, -, rfl⟩ := Task.missingInput?_eq_some_iff.mp hinput
    exact (Option.some.inj hm).symm
  | failed => exact (Option.some.inj hm).symm
  | tooDeep => cases hm

/-- It names the place of the turn, too. -/
theorem Fails.task_eq (h : x.Fails lib limit e) {i : Nat} (hi : e.task? = some i) :
    i = x.index := by
  cases h with
  | refused hinput =>
    obtain ⟨_, _, _, -, -, -, rfl⟩ := Task.missingInput?_eq_some_iff.mp hinput
    exact (Option.some.inj hi).symm
  | failed => exact (Option.some.inj hi).symm
  | tooDeep => cases hi

end Turn

/-- The error is produced in the last turn. -/
def Blames (lib : Library) (limit : Nat) (log : Array Event) (h : List Moment) (e : RunError) :
    Prop :=
  ∃ x : Turn, x.IsLast lib log h ∧ x.Fails lib limit e

section

variable {lib : Library} {limit room : Nat}

/-- It stays the last turn as long as what follows is quiet. -/
theorem Blames.surround {log log' : Array Event} {h after : List Moment} {e : RunError}
    (hb : Blames lib limit log h e) (before : List Moment) (hquiet : Quiet log log' after) :
    Blames lib limit log' (before ++ (h ++ after)) e := by
  obtain ⟨x, ⟨hplace, before', w, between, after', rfl, hbetween, hquiet'⟩, hfails⟩ := hb
  refine ⟨x, ⟨hplace, before ++ before', w, between, after' ++ after, ?_, hbetween,
    hquiet'.append hquiet⟩, hfails⟩
  simp

/-- The runs one level below: without room they are refused, and otherwise their last turn is to
blame. -/
def BlamesBelow (lib : Library) (limit room : Nat) : Prop :=
  ∀ silent q s e s', execute lib limit room silent q s = (.error e, s') →
    (room = 0 ∧ e = .depthExceeded q.name limit ∧ s' = s) ∨
      Blames lib limit s'.log (moments lib limit room silent q s) e

/-- If a task fails, its turn is the last one and to blame, or the last turn is in a run that its
method has started, and that one is to blame. -/
theorem blames_task (hlib : lib.PassesFailuresOn) (hfaults : lib.FaultsOnly)
    (hroom : room ≤ limit)
    (hbelow : BlamesBelow lib limit room) {x : Turn} (hdepth : x.depth = limit - room)
    (hplace : x.pipeline.tasks[x.index]? = some x.task) {before : List Moment}
    (hbefore : ∀ y ∈ before, y.step.bounds = true → x.depth < y.depth) (w : Workspace)
    {e : RunError} {after : State}
    (hrun : runTask lib (execute lib limit room) x.depth x.silent x.index x.task x.state =
      (.error e, after)) :
    Blames lib limit after.log (⟨x.depth, .entered x.pipeline, w⟩ :: (before ++
      taskMoments lib (execute lib limit room) (moments lib limit room) x.depth x.silent x.index
        x.task x.state)) e := by
  cases hinput : x.missingInput? lib with
  | some m =>
    rw [taskMoments_of_refused hinput]
    rw [runTask_of_refused hinput] at hrun
    cases hrun
    exact ⟨x, ⟨hplace, [], w, before, _, rfl, hbefore, .single rfl _⟩, .refused hinput⟩
  | none =>
    obtain ⟨f, hperform, rfl⟩ := of_runTask_error hinput hrun
    rw [taskMoments_of_failed hinput hperform]
    have hfails := (hlib x.task x.depth x.silent).fails (hfaults x.task x.depth x.silent)
      (moments lib limit room) x.depth (congrArg Prod.fst hperform)
    rw [hperform] at hfails
    rcases hfails with ⟨-, ⟨fault, hcause⟩, hquiet⟩ | ⟨e, hcause, hbroke⟩
    · obtain ⟨contexts, cause⟩ := f
      obtain rfl : cause = .fault fault := hcause
      have hlevels : limit - x.depth = room := by omega
      refine ⟨x, ⟨hplace, [], w, before, _, rfl, hbefore, hquiet.cons rfl⟩, ?_⟩
      exact .failed hinput (by rw [hlevels]; exact hperform)
    · rw [Failure.report_nested hcause]
      obtain ⟨silent, q, s, s', former, later, hfailed, hmoments, hlater, hformer⟩ := hbroke
      rw [hmoments]
      rcases hbelow silent q s e s' hfailed with ⟨rfl, rfl, rfl⟩ | hblames
      · -- Without room no run succeeds, so the one that was refused is the first one.
        rcases hformer with ⟨hfirst, hformer⟩ | ⟨_, _, _, _, hok⟩
        · refine ⟨x, ⟨hplace, [], w, before, _, rfl, hbefore, ?_⟩, .tooDeep hinput hdepth hfirst⟩
          exact (hformer.append hlater).cons rfl
        · cases hok
      · have hb := hblames.surround (⟨x.depth, .entered x.pipeline, w⟩ :: (before ++
          ⟨x.depth, .looked x.index x.task, x.state.workspace⟩ ::
            ⟨x.depth, .called x.index x.task, x.state.workspace⟩ :: former)) hlater
        simpa using hb

/-- One of the tasks, counted from `done.length`, is to blame. -/
theorem blames_tasks (hlib : lib.PassesFailuresOn) (hfaults : lib.FaultsOnly)
    (hroom : room ≤ limit) (hbelow : BlamesBelow lib limit room) {p : Pipeline} {silent : Bool} {done ts : List Task}
    (hp : p.tasks = done ++ ts) {before : List Moment}
    (hbefore : ∀ y ∈ before, y.step.bounds = true → limit - room < y.depth) (w : Workspace)
    {s after : State} {e : RunError}
    (hrun : runTasks lib (execute lib limit room) (limit - room) silent done.length ts s =
      (.error e, after)) :
    Blames lib limit after.log (⟨limit - room, .entered p, w⟩ :: (before ++
      tasksMoments lib (execute lib limit room) (moments lib limit room) (limit - room) silent
        done.length ts s)) e := by
  induction ts generalizing done before s with
  | nil => cases hrun
  | cons t ts ih =>
    let x : Turn := ⟨p, limit - room, silent, done.length, t, s⟩
    have hplace : p.tasks[done.length]? = some t := by simp [hp]
    unfold runTasks at hrun
    unfold tasksMoments
    rcases htask : runTask lib (execute lib limit room) (limit - room) silent done.length t s
      with ⟨e' | _, s'⟩
    case error =>
      rw [htask] at hrun
      cases hrun
      rw [List.append_nil]
      exact blames_task (x := x) hlib hfaults hroom hbelow rfl hplace hbefore w htask
    case ok =>
      rw [htask] at hrun
      have hbefore' : ∀ y ∈ before ++ taskMoments lib (execute lib limit room)
          (moments lib limit room) (limit - room) silent done.length t s,
          y.step.bounds = true → limit - room < y.depth := by
        intro y hy hbounds
        rcases List.mem_append.mp hy with hy | hy
        · exact hbefore y hy hbounds
        · rcases mem_taskMoments hy with ⟨-, hstep, -⟩ | ⟨_, _, _, hy⟩
          · rw [hstep] at hbounds
            cases hbounds
          · have := lt_depth_add_room hy
            omega
      have hp' : p.tasks = (done ++ [t]) ++ ts := by simp [hp]
      have hb := ih hp' hbefore' (by simpa using hrun)
      simpa using hb

theorem blames_of_below (hlib : lib.PassesFailuresOn) (hfaults : lib.FaultsOnly)
    (hroom : room ≤ limit) (hbelow : BlamesBelow lib limit room) {silent : Bool} {p : Pipeline} {s after : State}
    {e : RunError} (hrun : execute lib limit (room + 1) silent p s = (.error e, after)) :
    Blames lib limit after.log (moments lib limit (room + 1) silent p s) e := by
  let entered := s.report (.entered p.name (limit - room) p.tasks.length)
  have htasks : runTasks lib (execute lib limit room) (limit - room) silent 0 p.tasks entered =
      (.error e, after) := by
    unfold execute at hrun
    simp only at hrun
    split at hrun
    case h_1 => cases hrun
    case h_2 hfailed =>
      cases hrun
      exact hfailed
  have hall : p.tasks = [] ++ p.tasks := rfl
  have hnone : ∀ y ∈ ([] : List Moment), y.step.bounds = true → limit - room < y.depth := nofun
  have hb := blames_tasks hlib hfaults hroom hbelow hall hnone s.workspace htasks
  -- Only that the pipeline is left comes after its tasks.
  have hleft : Quiet after.log after.log [⟨limit - room, .left p (.error e), after.workspace⟩] :=
    .single rfl _
  have hmoments := hb.surround [] hleft
  unfold moments
  simpa [entered, htasks] using hmoments

theorem blamesBelow (hlib : lib.PassesFailuresOn) (hfaults : lib.FaultsOnly)
    (hroom : room ≤ limit) : BlamesBelow lib limit room := by
  induction room with
  | zero =>
    intro silent q s e s' hrun
    cases hrun
    exact .inl ⟨rfl, rfl, rfl⟩
  | succ room ih =>
    intro silent q s e s' hrun
    have hbelow := ih (Nat.le_of_succ_le hroom)
    exact .inr (blames_of_below hlib hfaults (Nat.le_of_succ_le hroom) hbelow hrun)

end

/-! ## Every run -/

/-- **The innermost failure is what is reported.** Take a library whose methods pass the failures of
their runs on and otherwise fail for faults, like the standard one, and a run of a pipeline at any
nesting level that fails. The last task that was announced is one that stands, at its index, in a
pipeline that was entered and had not been left; there the error was produced, and as such it is the
error of the run. If it is about a missing input or a failed method, it names the method and the
index of that task. If it is about depth, that task was the one to run the pipeline that was
refused, on the deepest level. -/
theorem innermost_failure_reported :
    Standard.library.PassesFailuresOn ∧ Standard.library.FaultsOnly ∧
    ∀ lib : Library, lib.PassesFailuresOn → lib.FaultsOnly → ∀ limit room : Nat, room ≤ limit →
      ∀ (silent : Bool) (p : Pipeline) (s after : State) (e : RunError),
        execute lib limit (room + 1) silent p s = (.error e, after) →
        ∃ x : Turn, x.IsLast lib after.log (moments lib limit (room + 1) silent p s) ∧
          lastAnnounced? after.log = some (x.method lib) ∧ x.Fails lib limit e ∧
          (∀ m, e.method? = some m → m = x.method lib) ∧ ∀ i, e.task? = some i → i = x.index := by
  refine ⟨Standard.passesFailuresOn, Standard.faultsOnly, ?_⟩
  intro lib hlib hfaults limit room hroom silent p s after e hrun
  obtain ⟨x, hlast, hfails⟩ :=
    blames_of_below hlib hfaults hroom (blamesBelow hlib hfaults hroom) hrun
  exact ⟨x, hlast, hlast.lastAnnounced, hfails, fun _ => hfails.method_eq, fun _ => hfails.task_eq⟩

/-- An agenda that fails, stored and then executed. -/
def Standard.storedError : Pipeline :=
  ⟨"main", [⟨⟨18⟩, [], [⟨10⟩], [],
      some ⟨"AgendaSet", [⟨⟨23⟩, [.string "stop"], [], [], none⟩]⟩⟩,
    ⟨⟨20⟩, [], [], [⟨10⟩], none⟩]⟩

/-- The task in the agenda is reported, not the second one of the pipeline, which executes it. -/
theorem Standard.storedError_blamed :
    let r := library.run 64 false storedError (Workspace.fresh library.catalog)
    let h := library.history 64 false storedError (Workspace.fresh library.catalog)
    ∃ (x : Turn) (e : RunError), r.1 = .error e ∧ x.IsLast library r.2.log h ∧
      x.Fails library 64 e ∧ x.method library = "Error" ∧ x.index = 0 := by
  intro r h
  have hresult : (match r.1 with
      | .error e => (e.method?, e.task?)
      | .ok () => (none, none)) = (some "Error", some 0) := by
    decide +kernel
  rcases hrun : r with ⟨e | _, after⟩
  case ok =>
    rw [hrun] at hresult
    cases hresult
  case error =>
    rw [hrun] at hresult
    obtain ⟨hmethod, htask⟩ := Prod.mk.inj hresult
    obtain ⟨x, hlast, -, hfails, hname, hindex⟩ := innermost_failure_reported.2.2 library
      innermost_failure_reported.1 innermost_failure_reported.2.1 64 64 (Nat.le_refl 64) false
      storedError _ after e hrun
    exact ⟨x, e, rfl, hlast, hfails, (hname _ hmethod).symm, (hindex _ htask).symm⟩

theorem Checking.passesFailuresOn : library.PassesFailuresOn := by
  have hcheck (c : Call) : (checkBody c).PassesOn false := by
    unfold checkBody
    split
    · split
      · trivial
      · rfl
    · rfl
  rintro ⟨⟨_ | _ | _⟩, _, _, _, _⟩ _ _
  · exact hcheck _
  · trivial
  · trivial

/-- A loop whose agenda overflows in the second round. -/
def Standard.overflowsLater : Pipeline :=
  ⟨"main", [⟨⟨18⟩, [], [⟨17⟩], [], some ⟨"AgendaSet",
      [⟨⟨11⟩, [.index 9223372036854775807], [⟨0⟩], [⟨16⟩], none⟩, ⟨⟨10⟩, [], [⟨14⟩], [], none⟩]⟩⟩,
    ⟨⟨22⟩, [.index 0, .index 1, .index 1], [], [], none⟩]⟩

/-- **What is no fault is reported whatever it names, and a log for some levels need not show the
task.** A method that runs nothing may fail with an error that it has found in its body; then the
error names a method that was never announced. And in the later rounds of a loop tasks are announced
at debug level, so in what is reported at info level another task may come last. -/
theorem reported_not_last_announced :
    (Checking.library.PassesFailuresOn ∧
      (Checking.library.run 64 false Checking.checksFirst
        (.fresh Checking.library.catalog)).1 = .error (.missingInput ⟨"Use", "x", 0⟩) ∧
      lastAnnounced? (Checking.library.run 64 false Checking.checksFirst
        (.fresh Checking.library.catalog)).2.log = some "Check") ∧
    ∃ e, (Standard.library.run 64 false Standard.overflowsLater
        (.fresh Standard.library.catalog)).1 = .error e ∧ e.method? = some "IndexAdd" ∧
      lastAnnounced? ((Standard.library.run 64 false Standard.overflowsLater
        (.fresh Standard.library.catalog)).2.log.filter (·.record.level.within .info)) =
          some "Touch" := by
  refine ⟨⟨Checking.passesFailuresOn, rfl, by decide +kernel⟩, ?_⟩
  have hresult : (match (Standard.library.run 64 false Standard.overflowsLater
        (.fresh Standard.library.catalog)).1 with
      | .error e => e.method?
      | .ok () => none) = some "IndexAdd" := by
    decide +kernel
  have hlog : lastAnnounced? ((Standard.library.run 64 false Standard.overflowsLater
      (.fresh Standard.library.catalog)).2.log.filter (·.record.level.within .info)) =
        some "Touch" := by
    decide +kernel
  split at hresult
  case h_1 e hrun => exact ⟨e, hrun, hresult, hlog⟩
  case h_2 => cases hresult

end Runbook
