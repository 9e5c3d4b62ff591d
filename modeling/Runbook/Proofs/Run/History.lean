import Mathlib.Data.List.Chain
import Runbook.Run.Execution

/-!
# Histories of runs

What can be seen of a run, in order of time: pipelines are entered and left, tasks are looked at,
refused, called and finished, and in between a method reads variables and changes the workspace.
Each of these moments has the workspace of that time, which inside an isolated run is the private
copy.

* `Library.history`: the moments of a run, read off the definitions of the run itself.
* `getLast?_history`: the last moment has the result and the workspace of the run.
* `lt_depth_add_room`: the moments of a run are as deep as its pipeline, or deeper.
* `Follows`: which moment comes right before a task is looked at, called or refused, and what comes
  after a refusal.
* `isChain_history`: in every history each moment follows the one before it.
-/

namespace Runbook

/-- What is seen of a run. -/
inductive Step where
  /-- A pipeline is entered. -/
  | entered (p : Pipeline)
  /-- Task number `i` is announced; its inputs are checked next. -/
  | looked (i : Nat) (t : Task)
  /-- The task has an unset input. -/
  | refused (i : Nat) (t : Task) (e : MissingInput)
  /-- The method of the task is called. -/
  | called (i : Nat) (t : Task)
  /-- The method looks at the value of a variable. -/
  | read (v : VariableId)
  /-- The method has changed the workspace. -/
  | changed
  /-- A run that the method started is over, with what of it is merged. -/
  | returned
  /-- The method has succeeded and the outputs of the task are marked. -/
  | finished (i : Nat) (t : Task)
  /-- A pipeline that was entered is left, with the result of its run. -/
  | left (p : Pipeline) (r : Except RunError Unit)

/-- A step, the nesting level of its pipeline, and the workspace right then. -/
structure Moment where
  depth : Nat
  step : Step
  workspace : Workspace

/-- A way to list the moments of a pipeline's run. -/
abbrev Trail := Bool → Pipeline → State → List Moment

/-- Whether a pipeline that is run so by a method that is silent or not is silent. -/
def Mode.silences (mode : Mode) (silent : Bool) : Bool :=
  match mode with
  | .muted => true
  | .shared | .isolated _ => silent

/-- The moments of an action. Pipelines are run by `below`, and `inside` lists their moments. -/
def Action.moments {α : Type} (below : Runner) (inside : Trail) (depth : Nat) (silent : Bool) :
    Action α → State → List Moment
  | .done _, _ | .fail _, _ => []
  | .read v next, s =>
    ⟨depth, .read v, s.workspace⟩ ::
      (next (s.workspace.value v)).moments below inside depth silent s
  | .write v x next, s =>
    let after := s.update (·.write v x)
    ⟨depth, .changed, after.workspace⟩ :: next.moments below inside depth silent after
  | .put v x next, s =>
    let after := s.update (·.put v x)
    ⟨depth, .changed, after.workspace⟩ :: next.moments below inside depth silent after
  | .mark v next, s =>
    let after := s.update (·.mark v)
    ⟨depth, .changed, after.workspace⟩ :: next.moments below inside depth silent after
  | .inspect next, s => (next s.workspace).moments below inside depth silent s
  | .report e next, s => next.moments below inside depth silent (s.report e)
  | .run p mode next, s =>
    inside (mode.silences silent) p s ++
      match mode.apply below silent p s with
      | (r, after) =>
        ⟨depth, .returned, after.workspace⟩ :: (next r).moments below inside depth silent after

/-- The moments of task number `i`. -/
def taskMoments (lib : Library) (below : Runner) (inside : Trail) (depth : Nat) (silent : Bool)
    (i : Nat) (t : Task) (s : State) : List Moment :=
  let announced := s.report (.announced (lib.catalog.methodAt t.method).name depth silent)
  let body := lib.native t.method ⟨lib.catalog, t, depth, silent⟩
  ⟨depth, .looked i t, s.workspace⟩ ::
    match t.missingInput? lib.catalog s.workspace.isOccupied i with
    | some e => [⟨depth, .refused i t e, s.workspace⟩]
    | none =>
      ⟨depth, .called i t, s.workspace⟩ ::
        (body.moments below inside depth silent announced ++
          match body.perform below silent announced with
          | (.ok (), after) =>
            [⟨depth, .finished i t, after.workspace.markAll (t.allOutputs lib.catalog)⟩]
          | (.error _, _) => [])

/-- The moments of tasks that are counted from `i`. -/
def tasksMoments (lib : Library) (below : Runner) (inside : Trail) (depth : Nat) (silent : Bool) :
    Nat → List Task → State → List Moment
  | _, [], _ => []
  | i, t :: ts, s =>
    taskMoments lib below inside depth silent i t s ++
      match runTask lib below depth silent i t s with
      | (.ok (), after) => tasksMoments lib below inside depth silent (i + 1) ts after
      | (.error _, _) => []

/-- The moments of a pipeline's run with room for `room` levels. A pipeline that is not entered has
none. -/
def moments (lib : Library) (limit : Nat) : Nat → Trail
  | 0, _, _, _ => []
  | room + 1, silent, p, s =>
    let depth := limit - room
    let below := execute lib limit room
    let entered := s.report (.entered p.name depth p.tasks.length)
    let result := runTasks lib below depth silent 0 p.tasks entered
    ⟨depth, .entered p, s.workspace⟩ ::
      (tasksMoments lib below (moments lib limit room) depth silent 0 p.tasks entered ++
        [⟨depth, .left p result.1, result.2.workspace⟩])

/-- The moments of a run at the outermost level. -/
def Library.history (lib : Library) (maxDepth : Nat) (silent : Bool) (p : Pipeline)
    (w : Workspace) : List Moment :=
  moments lib maxDepth (maxDepth + 1) silent p ⟨w, #[]⟩

/-- The result of a run is that of its tasks, and so is the workspace. -/
theorem execute_succ (lib : Library) (limit room : Nat) (silent : Bool) (p : Pipeline) (s : State) :
    let result := runTasks lib (execute lib limit room) (limit - room) silent 0 p.tasks
      (s.report (.entered p.name (limit - room) p.tasks.length))
    (execute lib limit (room + 1) silent p s).1 = result.1 ∧
      (execute lib limit (room + 1) silent p s).2.workspace = result.2.workspace := by
  simp only [execute]
  split
  case h_1 heq => rw [heq]; exact ⟨rfl, rfl⟩
  case h_2 heq => rw [heq]; exact ⟨rfl, rfl⟩

/-- **The last moment of a history is the end of the run.** -/
theorem getLast?_history (lib : Library) (maxDepth : Nat) (silent : Bool) (p : Pipeline)
    (w : Workspace) :
    (lib.history maxDepth silent p w).getLast? =
      some ⟨0, .left p (lib.run maxDepth silent p w).1,
        (lib.run maxDepth silent p w).2.workspace⟩ := by
  obtain ⟨hresult, hworkspace⟩ := execute_succ lib maxDepth maxDepth silent p ⟨w, #[]⟩
  unfold Library.history Library.run moments
  rw [hresult, hworkspace, Nat.sub_self, ← List.cons_append, List.getLast?_concat]

/-- A task that is refused has been announced, and that is all. -/
theorem runTask_of_refused {lib : Library} {below : Runner} {depth : Nat} {silent : Bool} {i : Nat}
    {t : Task} {s : State} {e : MissingInput}
    (h : t.missingInput? lib.catalog s.workspace.isOccupied i = some e) :
    runTask lib below depth silent i t s =
      (.error (.missingInput e),
        s.report (.announced (lib.catalog.methodAt t.method).name depth silent)) := by
  unfold runTask
  simp only [State.report, h]

/-- A task that is called ends as its method does. -/
theorem runTask_of_called {lib : Library} {below : Runner} {depth : Nat} {silent : Bool} {i : Nat}
    {t : Task} {s : State}
    (h : t.missingInput? lib.catalog s.workspace.isOccupied i = none) :
    let name := (lib.catalog.methodAt t.method).name
    let r := (lib.native t.method ⟨lib.catalog, t, depth, silent⟩).perform below silent
      (s.report (.announced name depth silent))
    runTask lib below depth silent i t s =
      match r.1 with
      | .ok () => (.ok (), r.2.update (·.markAll (t.allOutputs lib.catalog)))
      | .error f => (.error (f.report name i), r.2) := by
  dsimp only
  unfold runTask
  simp only [State.report, h]
  split
  case h_1 after heq => rw [heq]
  case h_2 f after heq => rw [heq]

/-- A task that has been run was called, and its outputs were marked. -/
theorem of_runTask {lib : Library} {below : Runner} {depth : Nat} {silent : Bool} {i : Nat}
    {t : Task} {s after : State}
    (h : runTask lib below depth silent i t s = (.ok (), after)) :
    t.missingInput? lib.catalog s.workspace.isOccupied i = none ∧
      ∃ mid : State, (lib.native t.method ⟨lib.catalog, t, depth, silent⟩).perform below silent
          (s.report (.announced (lib.catalog.methodAt t.method).name depth silent)) =
            (.ok (), mid) ∧
        after = mid.update (·.markAll (t.allOutputs lib.catalog)) := by
  unfold runTask at h
  simp only at h
  split at h
  case h_1 => cases h
  case h_2 hinputs =>
    split at h
    case h_1 mid hperform => cases h; exact ⟨hinputs, mid, hperform, rfl⟩
    case h_2 => cases h

/-- A task that was called and has failed reports the failure of its method. -/
theorem of_runTask_error {lib : Library} {below : Runner} {depth : Nat} {silent : Bool} {i : Nat}
    {t : Task} {s after : State} {e : RunError}
    (h : t.missingInput? lib.catalog s.workspace.isOccupied i = none)
    (hrun : runTask lib below depth silent i t s = (.error e, after)) :
    ∃ f, (lib.native t.method ⟨lib.catalog, t, depth, silent⟩).perform below silent
        (s.report (.announced (lib.catalog.methodAt t.method).name depth silent)) =
          (.error f, after) ∧
      e = f.report (lib.catalog.methodAt t.method).name i := by
  unfold runTask at hrun
  simp only [State.report, h] at hrun
  split at hrun
  case h_1 => cases hrun
  case h_2 f s' hperform => cases hrun; exact ⟨f, hperform, rfl⟩

/-- Running a pipeline, and failing if that fails. -/
theorem perform_execute (below : Runner) (silent : Bool) (p : Pipeline) (mode : Mode) (s : State) :
    (Action.execute p mode).perform below silent s =
      ((mode.apply below silent p s).1.mapError .nested, (mode.apply below silent p s).2) := by
  rw [Action.execute, Action.perform]
  rcases mode.apply below silent p s with ⟨e | _, after⟩
  · rfl
  · rfl

/-- A task comes to what the runs of its method come to, if the method does nothing else; only its
outputs are marked after a success. -/
theorem runTask_of_nested {lib : Library} {below : Runner} {depth : Nat} {silent : Bool} {i : Nat}
    {t : Task} {s : State} {r : Except RunError Unit × State}
    (h : t.missingInput? lib.catalog s.workspace.isOccupied i = none) :
    (lib.native t.method ⟨lib.catalog, t, depth, silent⟩).perform below silent
        (s.report (.announced (lib.catalog.methodAt t.method).name depth silent)) =
          (r.1.mapError .nested, r.2) →
      runTask lib below depth silent i t s =
        match r with
        | (.ok (), after) => (.ok (), after.update (·.markAll (t.allOutputs lib.catalog)))
        | (.error e, after) => (.error e, after) := by
  intro hperform
  rw [runTask_of_called h, hperform]
  obtain ⟨e | _, after⟩ := r
  · rfl
  · rfl

/-- So it does without outputs. -/
theorem runTask_of_nested_of_nil {lib : Library} {below : Runner} {depth : Nat} {silent : Bool}
    {i : Nat} {t : Task} {s : State} {r : Except RunError Unit × State}
    (h : t.missingInput? lib.catalog s.workspace.isOccupied i = none)
    (houtputs : t.allOutputs lib.catalog = [])
    (hperform : (lib.native t.method ⟨lib.catalog, t, depth, silent⟩).perform below silent
      (s.report (.announced (lib.catalog.methodAt t.method).name depth silent)) =
        (r.1.mapError .nested, r.2)) :
    runTask lib below depth silent i t s = r := by
  rw [runTask_of_nested h hperform, houtputs]
  obtain ⟨e | _, after⟩ := r
  · rfl
  · rfl

theorem taskMoments_of_refused {lib : Library} {below : Runner} {inside : Trail} {depth : Nat}
    {silent : Bool} {i : Nat} {t : Task} {s : State} {e : MissingInput}
    (h : t.missingInput? lib.catalog s.workspace.isOccupied i = some e) :
    taskMoments lib below inside depth silent i t s =
      [⟨depth, .looked i t, s.workspace⟩, ⟨depth, .refused i t e, s.workspace⟩] := by
  unfold taskMoments
  simp only [h]

/-- When the method fails, its moments are the last ones. -/
theorem taskMoments_of_failed {lib : Library} {below : Runner} {inside : Trail} {depth : Nat}
    {silent : Bool} {i : Nat} {t : Task} {s after : State} {f : Failure}
    (h : t.missingInput? lib.catalog s.workspace.isOccupied i = none) :
    let body := lib.native t.method ⟨lib.catalog, t, depth, silent⟩
    let announced := s.report (.announced (lib.catalog.methodAt t.method).name depth silent)
    body.perform below silent announced = (.error f, after) →
      taskMoments lib below inside depth silent i t s =
        ⟨depth, .looked i t, s.workspace⟩ :: ⟨depth, .called i t, s.workspace⟩ ::
          body.moments below inside depth silent announced := by
  intro body announced hf
  unfold taskMoments
  simp only [h]
  rw [hf, List.append_nil]

/-! ## Kinds of moments -/

/-- The error of a refusal. -/
def Step.refusal? : Step → Option MissingInput
  | .refused _ _ e => some e
  | _ => none

/-- The pipeline goes on, or is left after a failure of a method. -/
def Moment.Open (x : Moment) : Prop :=
  x.step.refusal? = none

/-- A pipeline is entered or left. -/
def Step.bounds : Step → Bool
  | .entered _ | .left .. => true
  | _ => false

section

variable {lib : Library} {below : Runner} {inside : Trail} {depth : Nat} {silent : Bool}

/-- The moment is one of a pipeline that a method runs. -/
def Trail.Has (inside : Trail) (x : Moment) : Prop :=
  ∃ silent p s, x ∈ inside silent p s

/-- No step of a method is a refusal, nor does it enter or leave a pipeline. -/
theorem mem_actionMoments {α : Type} {a : Action α} {s : State} {x : Moment}
    (hx : x ∈ a.moments below inside depth silent s) :
    (x.depth = depth ∧ x.step.bounds = false ∧ x.Open) ∨ inside.Has x := by
  induction a generalizing s with
  | done | fail => cases hx
  | read v next ih =>
    rcases List.mem_cons.mp hx with rfl | hx
    · exact .inl ⟨rfl, rfl, rfl⟩
    · exact ih _ hx
  | write v y next ih | put v y next ih | mark v next ih =>
    rcases List.mem_cons.mp hx with rfl | hx
    · exact .inl ⟨rfl, rfl, rfl⟩
    · exact ih hx
  | inspect next ih => exact ih _ hx
  | report e next ih => exact ih hx
  | run p mode next ih =>
    rcases List.mem_append.mp hx with hx | hx
    · exact .inr ⟨_, p, s, hx⟩
    · rcases List.mem_cons.mp hx with rfl | hx
      · exact .inl ⟨rfl, rfl, rfl⟩
      · exact ih _ hx

theorem mem_taskMoments {i : Nat} {t : Task} {s : State} {x : Moment}
    (hx : x ∈ taskMoments lib below inside depth silent i t s) :
    (x.depth = depth ∧ x.step.bounds = false ∧
      (t.missingInput? lib.catalog s.workspace.isOccupied i = none → x.Open)) ∨ inside.Has x := by
  unfold taskMoments at hx
  cases hinputs : t.missingInput? lib.catalog s.workspace.isOccupied i with
  | some e =>
    simp only [hinputs, List.mem_cons, List.not_mem_nil, or_false] at hx
    rcases hx with rfl | rfl
    · exact .inl ⟨rfl, rfl, nofun⟩
    · exact .inl ⟨rfl, rfl, nofun⟩
  | none =>
    simp only [hinputs, List.mem_cons, List.mem_append] at hx
    rcases hx with rfl | rfl | hx | hx
    · exact .inl ⟨rfl, rfl, fun _ => rfl⟩
    · exact .inl ⟨rfl, rfl, fun _ => rfl⟩
    · rcases mem_actionMoments hx with ⟨hdepth, hbounds, hopen⟩ | hinside
      · exact .inl ⟨hdepth, hbounds, fun _ => hopen⟩
      · exact .inr hinside
    · split at hx
      · rw [List.mem_singleton] at hx
        subst hx
        exact .inl ⟨rfl, rfl, fun _ => rfl⟩
      · cases hx

theorem mem_tasksMoments {i : Nat} {ts : List Task} {s : State} {x : Moment}
    (hx : x ∈ tasksMoments lib below inside depth silent i ts s) :
    (x.depth = depth ∧ x.step.bounds = false) ∨ inside.Has x := by
  induction ts generalizing i s with
  | nil => cases hx
  | cons t ts ih =>
    unfold tasksMoments at hx
    rcases List.mem_append.mp hx with hx | hx
    · rcases mem_taskMoments hx with ⟨hdepth, hbounds, -⟩ | hinside
      · exact .inl ⟨hdepth, hbounds⟩
      · exact .inr hinside
    · split at hx
      · exact ih hx
      · cases hx

/-- The moments of a run are as deep as its pipeline, or deeper. -/
theorem lt_depth_add_room {limit room : Nat} {p : Pipeline} {s : State} {x : Moment}
    (hx : x ∈ moments lib limit room silent p s) : limit < x.depth + room := by
  induction room generalizing silent p s x with
  | zero => cases hx
  | succ room ih =>
    have hdepth : x.depth = limit - room ∨ (moments lib limit room).Has x := by
      unfold moments at hx
      simp only [List.mem_cons, List.mem_append, List.not_mem_nil, or_false] at hx
      rcases hx with rfl | hx | rfl
      · exact .inl rfl
      · exact (mem_tasksMoments hx).imp_left And.left
      · exact .inl rfl
    rcases hdepth with hdepth | ⟨_, _, _, hmem⟩
    · omega
    · have := ih hmem
      omega

end

/-! ## The order of moments -/

/-- Whether `b` may come right after `a`. The first task is looked at as soon as its pipeline is
entered, and each later one as soon as the one before it is finished; a task is called or refused as
soon as it was looked at; and after a refusal its pipeline is left with that error, and with the
workspace as it was. -/
def Follows (a b : Moment) : Prop :=
  match b.step with
  | .looked 0 t => ∃ p, a = ⟨b.depth, .entered p, b.workspace⟩ ∧ p.tasks.head? = some t
  | .looked (i + 1) _ => ∃ t, a = ⟨b.depth, .finished i t, b.workspace⟩
  | .called i t | .refused i t _ => a = ⟨b.depth, .looked i t, b.workspace⟩
  | .left _ r => ∀ e, a.step.refusal? = some e →
      r = .error (.missingInput e) ∧ a.workspace = b.workspace ∧ a.depth = b.depth
  | _ => a.Open

/-- `l` is what comes after `a`, and `b` is its last moment, or `a` if there is none. -/
def Path (a : Moment) (l : List Moment) (b : Moment) : Prop :=
  List.IsChain Follows (a :: l) ∧ l.getLastD a = b

theorem Path.nil (a : Moment) : Path a [] a :=
  ⟨.singleton a, rfl⟩

theorem Path.cons {a b d : Moment} {l : List Moment} (h : Follows a b) (hl : Path b l d) :
    Path a (b :: l) d :=
  ⟨List.isChain_cons_cons.mpr ⟨h, hl.1⟩, by rw [List.getLastD_cons]; exact hl.2⟩

theorem Path.append {a b d : Moment} {l m : List Moment} (hl : Path a l b) (hm : Path b m d) :
    Path a (l ++ m) d := by
  induction l generalizing a with
  | nil =>
    obtain rfl : a = b := hl.2
    exact hm
  | cons x l ih =>
    obtain ⟨hchain, hlast⟩ := hl
    rw [List.isChain_cons_cons] at hchain
    rw [List.getLastD_cons] at hlast
    exact .cons hchain.1 (ih ⟨hchain.2, hlast⟩)

/-- From an open moment a run leads to an open one. -/
def Trail.Connects (inside : Trail) : Prop :=
  ∀ a : Moment, a.Open → ∀ silent p s, ∃ b, b.Open ∧ Path a (inside silent p s) b

variable (lib : Library) (below : Runner) {inside : Trail} {depth : Nat} (silent : Bool)

theorem path_action {α : Type} (hinside : inside.Connects) (act : Action α) {a : Moment}
    (ha : a.Open) (s : State) :
    ∃ b, b.Open ∧ Path a (act.moments below inside depth silent s) b := by
  induction act generalizing a s with
  | done | fail => exact ⟨a, ha, .nil a⟩
  | read v next ih =>
    have hopen : Moment.Open ⟨depth, .read v, s.workspace⟩ := rfl
    obtain ⟨b, hb, hpath⟩ := ih _ hopen s
    exact ⟨b, hb, .cons ha hpath⟩
  | write v x next ih | put v x next ih | mark v next ih =>
    have hopen : ∀ w, Moment.Open ⟨depth, .changed, w⟩ := fun _ => rfl
    obtain ⟨b, hb, hpath⟩ := ih (hopen _) _
    exact ⟨b, hb, .cons ha hpath⟩
  | inspect next ih => exact ih _ ha s
  | report e next ih => exact ih ha _
  | run p mode next ih =>
    have hopen : ∀ w, Moment.Open ⟨depth, .returned, w⟩ := fun _ => rfl
    obtain ⟨b, hb, hpath⟩ := hinside a ha (mode.silences silent) p s
    obtain ⟨d, hd, hpath'⟩ := ih (mode.apply below silent p s).1 (hopen _)
      (mode.apply below silent p s).2
    exact ⟨d, hd, hpath.append (.cons hb hpath')⟩

/-- From where a task is looked at, its moments lead to where it is finished, or to where its
pipeline can be left with its error. -/
theorem path_task (hinside : inside.Connects) {i : Nat} {t : Task} {s : State} {a : Moment}
    (ha : Follows a ⟨depth, .looked i t, s.workspace⟩) :
    ∃ b, Path a (taskMoments lib below inside depth silent i t s) b ∧
      match runTask lib below depth silent i t s with
      | (.ok (), after) => b = ⟨depth, .finished i t, after.workspace⟩
      | (.error e, after) => ∀ p, Follows b ⟨depth, .left p (.error e), after.workspace⟩ := by
  let announced := s.report (.announced (lib.catalog.methodAt t.method).name depth silent)
  unfold taskMoments runTask
  cases hinputs : t.missingInput? lib.catalog s.workspace.isOccupied i with
  | some e =>
    simp only [State.report, hinputs]
    refine ⟨_, .cons ha (.cons rfl (.nil _)), ?_⟩
    intro p e' heq
    cases heq
    exact ⟨rfl, rfl, rfl⟩
  | none =>
    have hopen : Moment.Open ⟨depth, .called i t, s.workspace⟩ := rfl
    obtain ⟨b, hb, hpath⟩ := path_action below silent hinside
      (lib.native t.method ⟨lib.catalog, t, depth, silent⟩) hopen announced
    simp only [State.report, hinputs]
    rcases hrun : (lib.native t.method ⟨lib.catalog, t, depth, silent⟩).perform below silent
      announced with ⟨e | _, after⟩
    · simp only [announced, State.report] at hrun hpath
      rw [hrun]
      refine ⟨b, .cons ha (.cons rfl ?_), ?_⟩
      · rw [List.append_nil]
        exact hpath
      · intro p e' hstep
        rw [hb] at hstep
        cases hstep
    · simp only [announced, State.report] at hrun hpath
      rw [hrun]
      exact ⟨_, .cons ha (.cons rfl (hpath.append (.cons hb (.nil _)))), rfl⟩

/-- From where a pipeline is entered, or where the task before is finished, the moments of the tasks
lead to where the pipeline can be left with their result. -/
theorem path_tasks (hinside : inside.Connects) {i : Nat} {ts : List Task} {s : State} {a : Moment}
    (hopen : a.Open)
    (ha : ∀ t ∈ ts.head?, Follows a ⟨depth, .looked i t, s.workspace⟩) :
    ∃ b, Path a (tasksMoments lib below inside depth silent i ts s) b ∧
      ∀ p, Follows b ⟨depth, .left p (runTasks lib below depth silent i ts s).1,
        (runTasks lib below depth silent i ts s).2.workspace⟩ := by
  induction ts generalizing i s a with
  | nil =>
    refine ⟨a, .nil a, ?_⟩
    intro p e hstep
    rw [hopen] at hstep
    cases hstep
  | cons t ts ih =>
    obtain ⟨b, hpath, hb⟩ := path_task lib below silent hinside (ha t rfl)
    unfold tasksMoments runTasks
    rcases hrun : runTask lib below depth silent i t s with ⟨e | _, after⟩
    · rw [hrun] at hb
      refine ⟨b, ?_, hb⟩
      rw [List.append_nil]
      exact hpath
    · rw [hrun] at hb
      have hfinished : Moment.Open ⟨depth, .finished i t, after.workspace⟩ := rfl
      have hnext : ∀ u ∈ ts.head?, Follows ⟨depth, .finished i t, after.workspace⟩
          ⟨depth, .looked (i + 1) u, after.workspace⟩ := fun _ _ => ⟨t, rfl⟩
      obtain ⟨d, hpath', hd⟩ := ih hfinished hnext
      rw [← hb] at hpath'
      exact ⟨d, hpath.append hpath', hd⟩

theorem connects_moments (lib : Library) (limit room : Nat) :
    (moments lib limit room).Connects := by
  induction room with
  | zero => exact fun a ha _ _ _ => ⟨a, ha, .nil a⟩
  | succ room ih =>
    intro a ha silent p s
    have hentered : Moment.Open ⟨limit - room, .entered p, s.workspace⟩ := rfl
    have hfirst : ∀ t ∈ p.tasks.head?, Follows ⟨limit - room, .entered p, s.workspace⟩
        ⟨limit - room, .looked 0 t, s.workspace⟩ := fun _ ht => ⟨p, rfl, ht⟩
    obtain ⟨b, hpath, hb⟩ := path_tasks lib (execute lib limit room) silent
      (s := s.report (.entered p.name (limit - room) p.tasks.length)) ih hentered hfirst
    exact ⟨_, by rfl, .cons ha (hpath.append (.cons (hb p) (.nil _)))⟩

/-- **In every history each moment follows the one before it.** -/
theorem isChain_history (lib : Library) (maxDepth : Nat) (silent : Bool) (p : Pipeline)
    (w : Workspace) : List.IsChain Follows (lib.history maxDepth silent p w) := by
  have hopen : Moment.Open ⟨0, .changed, w⟩ := rfl
  obtain ⟨b, -, hchain, -⟩ := connects_moments lib maxDepth (maxDepth + 1) _ hopen silent p ⟨w, #[]⟩
  exact hchain.tail

end Runbook
