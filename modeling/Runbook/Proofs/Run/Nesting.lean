import Runbook.Proofs.Run.Blame
import Runbook.Proofs.Run.Orderly

/-!
# Nesting

The log of a run is nested as its history is. Where a pipeline is entered its tasks follow, each
announced once and in order; the pipelines that a task runs while its method is called are reported
after it and before the next one; and in the end the pipeline is left. In a run that fails the log
breaks off in the innermost pipeline that has failed: that one and those that called it are never
left, all others are.

History and log are taken apart together, task by task. So the pipelines reported between two
announcements are those that the history has between the call of that task and its end, and nothing
that one task runs is reported among what belongs to another.

* `Runs`: the moments of a method, with the pipelines that it runs to the end.
* `Nests`: moments and events of the tasks of a pipeline, from the next one to the last.
* `BreaksOff`: the same, up to where they break off, with the pipelines that fail there.
* `Nests.announcedAt`: at its own level a pipeline announces its tasks, and nothing else.
* `BreaksOff.exists_nests`: what breaks off might have gone on.
* `nested_execute`: every run is nested or breaks off.
* `log_nested`: the logs of the standard library.
-/

namespace Runbook

/-! ## Nested runs -/

/-- The events of a pipeline's run, from those of its tasks. -/
def enclose (depth : Nat) (p : Pipeline) (es : List Event) : List Event :=
  .entered p.name depth p.tasks.length :: (es ++ [.exited p.name depth])

/-- The moments of a pipeline's run with the result `r`, from those of its tasks. -/
def span (depth : Nat) (p : Pipeline) (r : Except RunError Unit) (w w' : Workspace)
    (h : List Moment) : List Moment :=
  ⟨depth, .entered p, w⟩ :: (h ++ [⟨depth, .left p r, w'⟩])

/-- A pipeline that has been run to the end, with the moments of its tasks and what they report. -/
structure Ran where
  pipeline : Pipeline
  moments : List Moment
  events : List Event

/-- What the run reports at level `depth`. -/
def Ran.report (depth : Nat) (r : Ran) : List Event :=
  enclose depth r.pipeline r.events

/-- A method looks at a variable or changes one. -/
def Step.ofMethod : Step → Bool
  | .read _ | .changed => true
  | _ => false

/-- The moments of a method at level `depth` that runs pipelines one level deeper, one after the
other and each to the end. Apart from that it looks at variables and changes them. -/
inductive Runs (depth : Nat) : List Ran → List Moment → Prop where
  | nil : Runs depth [] []
  | step {runs : List Ran} {h : List Moment} {x : Moment} : x.depth = depth →
      x.step.ofMethod = true → Runs depth runs h → Runs depth runs (x :: h)
  | run {runs : List Ran} {h : List Moment} (r : Ran) (w w' w'' : Workspace) :
      Runs depth runs h → Runs depth (r :: runs)
        (span (depth + 1) r.pipeline (.ok ()) w w' r.moments ++ ⟨depth, .returned, w''⟩ :: h)

/-- Tasks that are counted from `i` and run to the end: each is looked at and called, its method
runs pipelines, and it is finished. What is reported is that the task is announced, and then these
pipelines. -/
inductive Nests (c : Catalog) : Nat → Nat → List Task → List Moment → List Event → Prop where
  | nil (depth i : Nat) : Nests c depth i [] [] []
  | cons {depth i : Nat} {t : Task} {ts : List Task} {runs : List Ran} {h hs : List Moment}
    {es : List Event} (silent : Bool) (w w' : Workspace) : Runs depth runs h →
    (∀ r ∈ runs, Nests c (depth + 1) 0 r.pipeline.tasks r.moments r.events) →
    Nests c depth (i + 1) ts hs es →
      Nests c depth i (t :: ts)
        (⟨depth, .looked i t, w⟩ :: ⟨depth, .called i t, w⟩ ::
          (h ++ ⟨depth, .finished i t, w'⟩ :: hs))
        (.announced (c.methodAt t.method).name depth silent ::
          (runs.flatMap (Ran.report (depth + 1)) ++ es))

/-- Tasks that are counted from `i` of which one fails with `e`: by itself, or because the first
pipeline of the list does, and that one because the next pipeline of the list does. -/
inductive BreaksOff (c : Catalog) :
    Nat → Nat → List Task → List Pipeline → RunError → List Moment → List Event → Prop where
  /-- The task has an unset input. -/
  | refused {depth i : Nat} {t : Task} {ts : List Task} (silent : Bool) (w : Workspace)
    (e : MissingInput) :
      BreaksOff c depth i (t :: ts) [] (.missingInput e)
        [⟨depth, .looked i t, w⟩, ⟨depth, .refused i t e, w⟩]
        [.announced (c.methodAt t.method).name depth silent]
  /-- The method fails by itself. -/
  | itself {depth i : Nat} {t : Task} {ts : List Task} {runs : List Ran} {h : List Moment}
    (silent : Bool) (w : Workspace) (e : RunError) : Runs depth runs h →
    (∀ r ∈ runs, Nests c (depth + 1) 0 r.pipeline.tasks r.moments r.events) →
      BreaksOff c depth i (t :: ts) [] e
        (⟨depth, .looked i t, w⟩ :: ⟨depth, .called i t, w⟩ :: h)
        (.announced (c.methodAt t.method).name depth silent ::
          runs.flatMap (Ran.report (depth + 1)))
  /-- A pipeline that the method is to run lies too deep and is not entered. -/
  | tooDeep {depth i : Nat} {t : Task} {ts : List Task} {runs : List Ran} {h : List Moment}
    (silent : Bool) (w w' : Workspace) (name : String) (limit : Nat) : Runs depth runs h →
    (∀ r ∈ runs, Nests c (depth + 1) 0 r.pipeline.tasks r.moments r.events) →
      BreaksOff c depth i (t :: ts) [] (.depthExceeded name limit)
        (⟨depth, .looked i t, w⟩ :: ⟨depth, .called i t, w⟩ :: (h ++ [⟨depth, .returned, w'⟩]))
        (.announced (c.methodAt t.method).name depth silent ::
          runs.flatMap (Ran.report (depth + 1)))
  /-- A pipeline that the method runs fails. -/
  | inside {depth i : Nat} {t : Task} {ts : List Task} {runs : List Ran} {h : List Moment}
    {q : Pipeline} {chain : List Pipeline} {e : RunError} {hq : List Moment} {es : List Event}
    (silent : Bool) (w v v' w' : Workspace) : Runs depth runs h →
    (∀ r ∈ runs, Nests c (depth + 1) 0 r.pipeline.tasks r.moments r.events) →
    BreaksOff c (depth + 1) 0 q.tasks chain e hq es →
      BreaksOff c depth i (t :: ts) (q :: chain) e
        (⟨depth, .looked i t, w⟩ :: ⟨depth, .called i t, w⟩ ::
          (h ++ (span (depth + 1) q (.error e) v v' hq ++ [⟨depth, .returned, w'⟩])))
        (.announced (c.methodAt t.method).name depth silent ::
          (runs.flatMap (Ran.report (depth + 1)) ++
            .entered q.name (depth + 1) q.tasks.length :: es))
  /-- The task is run to the end, and a later one fails. -/
  | later {depth i : Nat} {t : Task} {ts : List Task} {runs : List Ran} {h hs : List Moment}
    {chain : List Pipeline} {e : RunError} {es : List Event} (silent : Bool) (w w' : Workspace) :
    Runs depth runs h →
    (∀ r ∈ runs, Nests c (depth + 1) 0 r.pipeline.tasks r.moments r.events) →
    BreaksOff c depth (i + 1) ts chain e hs es →
      BreaksOff c depth i (t :: ts) chain e
        (⟨depth, .looked i t, w⟩ :: ⟨depth, .called i t, w⟩ ::
          (h ++ ⟨depth, .finished i t, w'⟩ :: hs))
        (.announced (c.methodAt t.method).name depth silent ::
          (runs.flatMap (Ran.report (depth + 1)) ++ es))

theorem Runs.append {depth : Nat} {runs runs' : List Ran} {h h' : List Moment}
    (hr : Runs depth runs h) (hr' : Runs depth runs' h') :
    Runs depth (runs ++ runs') (h ++ h') := by
  induction hr with
  | nil => exact hr'
  | step hdepth hstep _ ih => exact .step hdepth hstep ih
  | run r w w' w'' _ ih =>
    rw [List.append_assoc]
    exact .run r w w' w'' ih

/-- The method that is announced, if that is at level `depth`. -/
def Event.announcedAt? (depth : Nat) : Event → Option String
  | announced method d _ => if d = depth then some method else none
  | _ => none

section

variable {c : Catalog} {depth i : Nat} {ts : List Task} {h : List Moment} {es : List Event}

theorem announcedAt_enclose (d : Nat) (p : Pipeline) :
    (enclose depth p es).filterMap (Event.announcedAt? d) =
      es.filterMap (Event.announcedAt? d) := by
  rw [enclose, List.filterMap_cons_none rfl, List.filterMap_append,
    List.filterMap_cons_none rfl, List.filterMap_nil, List.append_nil]

/-- Nothing is announced at a level above that of the tasks. -/
theorem Nests.announcedAt_of_lt (hn : Nests c depth i ts h es) {d : Nat} (hd : d < depth) :
    es.filterMap (Event.announcedAt? d) = [] := by
  induction hn with
  | nil => rfl
  | cons silent w w' _ _ _ ihruns ih =>
    rw [List.filterMap_cons, Event.announcedAt?, if_neg (Nat.ne_of_gt hd), List.filterMap_append,
      ih hd, List.filterMap_flatMap, List.append_nil]
    refine List.flatMap_eq_nil_iff.mpr fun r hr => ?_
    rw [Ran.report, announcedAt_enclose]
    exact ihruns r hr (Nat.lt_succ_of_lt hd)

/-- **At their own level tasks are announced in order, each once, and nothing else is.** -/
theorem Nests.announcedAt (hn : Nests c depth i ts h es) :
    es.filterMap (Event.announcedAt? depth) = ts.map fun t => (c.methodAt t.method).name := by
  induction hn with
  | nil => rfl
  | @cons depth _ _ _ runs _ _ _ silent w w' _ hruns _ _ ih =>
    have hinner : (runs.flatMap (Ran.report (depth + 1))).filterMap (Event.announcedAt? depth) =
        [] := by
      rw [List.filterMap_flatMap]
      refine List.flatMap_eq_nil_iff.mpr fun r hr => ?_
      rw [Ran.report, announcedAt_enclose]
      exact (hruns r hr).announcedAt_of_lt (Nat.lt_succ_self depth)
    rw [List.filterMap_cons, Event.announcedAt?, if_pos rfl, List.filterMap_append, hinner, ih]
    rfl

/-- Tasks that run no pipelines. -/
theorem exists_nests (c : Catalog) (w : Workspace) (depth i : Nat) (ts : List Task) :
    ∃ h es, Nests c depth i ts h es := by
  induction ts generalizing i with
  | nil => exact ⟨[], [], .nil depth i⟩
  | cons t ts ih =>
    obtain ⟨hs, es, hes⟩ := ih (i + 1)
    exact ⟨_, _, .cons false w w .nil (List.forall_mem_nil _) hes⟩

/-- **What breaks off might have gone on**: it is the beginning of what tasks report that are run to
the end. -/
theorem BreaksOff.exists_nests {chain : List Pipeline} {e : RunError}
    (hb : BreaksOff c depth i ts chain e h es) :
    ∃ h' whole, Nests c depth i ts h' whole ∧ es <+: whole := by
  induction hb with
  | @refused depth i _ ts silent w _ =>
    obtain ⟨_, rest, hrest⟩ := Runbook.exists_nests c w depth (i + 1) ts
    exact ⟨_, _, .cons silent w w .nil (List.forall_mem_nil _) hrest,
      List.cons_prefix_cons.mpr ⟨rfl, List.nil_prefix⟩⟩
  | @itself depth i _ ts _ _ silent w _ hmoments hruns
  | @tooDeep depth i _ ts _ _ silent w _ _ _ hmoments hruns =>
    obtain ⟨_, rest, hrest⟩ := Runbook.exists_nests c w depth (i + 1) ts
    exact ⟨_, _, .cons silent w w hmoments hruns hrest,
      List.cons_prefix_cons.mpr ⟨rfl, List.prefix_append ..⟩⟩
  | @inside depth i _ ts runs _ q _ _ _ _ silent w v v' w' hmoments hruns _ ih =>
    obtain ⟨hq, inner, hinner, hprefix⟩ := ih
    obtain ⟨_, rest, hrest⟩ := Runbook.exists_nests c w depth (i + 1) ts
    -- The pipeline that fails becomes one more of those that its task has run.
    have hmoments' := hmoments.append (.run ⟨q, hq, inner⟩ v v' w' .nil)
    have hall : ∀ r ∈ runs ++ [⟨q, hq, inner⟩],
        Nests c (depth + 1) 0 r.pipeline.tasks r.moments r.events :=
      List.forall_mem_append.mpr ⟨hruns, List.forall_mem_singleton.mpr hinner⟩
    refine ⟨_, _, .cons silent w w hmoments' hall hrest, List.cons_prefix_cons.mpr ⟨rfl, ?_⟩⟩
    rw [List.flatMap_append, List.append_assoc, List.prefix_append_right_inj,
      List.flatMap_singleton, Ran.report, enclose, List.cons_append, List.append_assoc]
    exact List.cons_prefix_cons.mpr ⟨rfl, hprefix.trans (List.prefix_append ..)⟩
  | later silent w w' hmoments hruns _ ih =>
    obtain ⟨_, rest, hrest, hprefix⟩ := ih
    refine ⟨_, _, .cons silent w w' hmoments hruns hrest, List.cons_prefix_cons.mpr ⟨rfl, ?_⟩⟩
    exact (List.prefix_append_right_inj _).mpr hprefix

end

/-! ## Failing pipelines -/

/-- A pipeline that is left with an error, at its level. -/
def Moment.failed? (x : Moment) : Option (Nat × Pipeline × RunError) :=
  match x.step with
  | .left p (.error e) => some (x.depth, p, e)
  | _ => none

/-- Pipelines that fail with the same error, each one level deeper than the one before, in the order
in which they are left. -/
def failing (e : RunError) : Nat → List Pipeline → List (Nat × Pipeline × RunError)
  | _, [] => []
  | depth, p :: chain => failing e (depth + 1) chain ++ [(depth, p, e)]

section

variable {c : Catalog} {depth i : Nat} {ts : List Task} {h : List Moment} {es : List Event}

theorem failed_span_ok (p : Pipeline) (w w' : Workspace) :
    (span depth p (.ok ()) w w' h).filterMap Moment.failed? = h.filterMap Moment.failed? := by
  rw [span, List.filterMap_cons_none rfl, List.filterMap_append, List.filterMap_cons_none rfl,
    List.filterMap_nil, List.append_nil]

theorem failed_span_error (p : Pipeline) (e : RunError) (w w' : Workspace) :
    (span depth p (.error e) w w' h).filterMap Moment.failed? =
      h.filterMap Moment.failed? ++ [(depth, p, e)] := by
  rw [span, List.filterMap_cons_none rfl, List.filterMap_append]
  rfl

/-- No pipeline fails that a method runs to the end. -/
theorem Runs.failed {runs : List Ran} (hr : Runs depth runs h)
    (hruns : ∀ r ∈ runs, r.moments.filterMap Moment.failed? = []) :
    h.filterMap Moment.failed? = [] := by
  induction hr with
  | nil => rfl
  | @step _ _ x _ hstep _ ih =>
    have hx : x.failed? = none := by
      obtain ⟨_, step, _⟩ := x
      cases step <;> first | rfl | cases hstep
    rw [List.filterMap_cons_none hx]
    exact ih hruns
  | run r w w' w'' _ ih =>
    obtain ⟨hr, hruns⟩ := List.forall_mem_cons.mp hruns
    rw [List.filterMap_append, failed_span_ok, hr, List.filterMap_cons_none rfl, ih hruns]
    rfl

/-- What fails behind a call that runs pipelines to the end. -/
theorem Runs.failed_called {runs : List Ran} (hr : Runs depth runs h)
    (hruns : ∀ r ∈ runs, r.moments.filterMap Moment.failed? = []) (i : Nat) (t : Task)
    (w : Workspace) (hs : List Moment) :
    (⟨depth, .looked i t, w⟩ :: ⟨depth, .called i t, w⟩ :: (h ++ hs)).filterMap Moment.failed? =
      hs.filterMap Moment.failed? := by
  rw [List.filterMap_cons_none rfl, List.filterMap_cons_none rfl, List.filterMap_append,
    hr.failed hruns, List.nil_append]

theorem Nests.failed (hn : Nests c depth i ts h es) : h.filterMap Moment.failed? = [] := by
  induction hn with
  | nil => rfl
  | cons silent w w' hmoments _ _ ihruns ih =>
    rw [hmoments.failed_called ihruns, List.filterMap_cons_none rfl, ih]

/-- The pipelines that fail are those on the list. -/
theorem BreaksOff.failed {chain : List Pipeline} {e : RunError}
    (hb : BreaksOff c depth i ts chain e h es) :
    h.filterMap Moment.failed? = failing e (depth + 1) chain := by
  induction hb with
  | refused => rfl
  | itself silent w e hmoments hruns =>
    rw [List.filterMap_cons_none rfl, List.filterMap_cons_none rfl,
      hmoments.failed fun r hr => (hruns r hr).failed]
    rfl
  | tooDeep silent w w' name limit hmoments hruns =>
    rw [hmoments.failed_called fun r hr => (hruns r hr).failed]
    rfl
  | inside silent w v v' w' hmoments hruns _ ih =>
    rw [hmoments.failed_called fun r hr => (hruns r hr).failed, List.filterMap_append,
      failed_span_error, ih]
    exact List.append_nil _
  | later silent w w' hmoments hruns _ ih =>
    rw [hmoments.failed_called fun r hr => (hruns r hr).failed, List.filterMap_cons_none rfl, ih]

end

/-! ## What runs add -/

/-- The events so far that are of the execution. -/
def State.trace (s : State) : List Event :=
  s.log.toList.filter Event.ofExecution

theorem State.trace_eq (s : State) :
    s.trace = s.log.toList.filter fun e => e.record.target = Target.execution := by
  unfold trace
  congr 1
  funext e
  rw [Bool.eq_iff_iff, e.ofExecution_iff, decide_eq_true_iff]

theorem State.trace_report {e : Event} (he : e.ofExecution = true) (s : State) :
    (s.report e).trace = s.trace ++ [e] := by
  simp [trace, report, he]

theorem State.trace_report_other {e : Event} (he : e.ofExecution = false) (s : State) :
    (s.report e).trace = s.trace := by
  simp [trace, report, he]

variable (c : Catalog)

/-- Moments and events of a pipeline's run, as its result is. A pipeline that lies too deep is not
entered. -/
inductive RunTrace (depth : Nat) (p : Pipeline) :
    Except RunError Unit → List Moment → List Event → Prop where
  | whole {h : List Moment} {es : List Event} (w w' : Workspace) : Nests c depth 0 p.tasks h es →
      RunTrace depth p (.ok ()) (span depth p (.ok ()) w w' h) (enclose depth p es)
  | refused (limit : Nat) : RunTrace depth p (.error (.depthExceeded p.name limit)) [] []
  | broken {chain : List Pipeline} {e : RunError} {h : List Moment} {es : List Event}
    (w w' : Workspace) : BreaksOff c depth 0 p.tasks chain e h es →
      RunTrace depth p (.error e) (span depth p (.error e) w w' h)
        (.entered p.name depth p.tasks.length :: es)

/-- Moments and events of an action at level `depth`, as its result is. -/
inductive ActionTrace (depth : Nat) {α : Type} :
    Except RunError α → List Moment → List Event → Prop where
  | whole {runs : List Ran} {h : List Moment} (x : α) : Runs depth runs h →
    (∀ r ∈ runs, Nests c (depth + 1) 0 r.pipeline.tasks r.moments r.events) →
      ActionTrace depth (.ok x) h (runs.flatMap (Ran.report (depth + 1)))
  | itself {runs : List Ran} {h : List Moment} (e : RunError) : Runs depth runs h →
    (∀ r ∈ runs, Nests c (depth + 1) 0 r.pipeline.tasks r.moments r.events) →
      ActionTrace depth (.error e) h (runs.flatMap (Ran.report (depth + 1)))
  | tooDeep {runs : List Ran} {h : List Moment} (w' : Workspace) (name : String) (limit : Nat) :
    Runs depth runs h →
    (∀ r ∈ runs, Nests c (depth + 1) 0 r.pipeline.tasks r.moments r.events) →
      ActionTrace depth (.error (.depthExceeded name limit)) (h ++ [⟨depth, .returned, w'⟩])
        (runs.flatMap (Ran.report (depth + 1)))
  | inside {runs : List Ran} {h : List Moment} {q : Pipeline} {chain : List Pipeline} {e : RunError}
    {hq : List Moment} {es : List Event} (v v' w' : Workspace) : Runs depth runs h →
    (∀ r ∈ runs, Nests c (depth + 1) 0 r.pipeline.tasks r.moments r.events) →
    BreaksOff c (depth + 1) 0 q.tasks chain e hq es →
      ActionTrace depth (.error e)
        (h ++ (span (depth + 1) q (.error e) v v' hq ++ [⟨depth, .returned, w'⟩]))
        (runs.flatMap (Ran.report (depth + 1)) ++ .entered q.name (depth + 1) q.tasks.length :: es)

/-- Moments and events of tasks that are counted from `i`, as their result is. -/
inductive TasksTrace (depth i : Nat) (ts : List Task) :
    Except RunError Unit → List Moment → List Event → Prop where
  | whole {h : List Moment} {es : List Event} : Nests c depth i ts h es →
      TasksTrace depth i ts (.ok ()) h es
  | broken {chain : List Pipeline} {e : RunError} {h : List Moment} {es : List Event} :
    BreaksOff c depth i ts chain e h es → TasksTrace depth i ts (.error e) h es

/-- Pipelines that are run at level `depth` have moments and add events as their results say. -/
def Runner.Nested (below : Runner) (inside : Trail) (depth : Nat) : Prop :=
  ∀ silent p s, ∃ es, RunTrace c depth p (below silent p s).1 (inside silent p s) es ∧
    (below silent p s).2.trace = s.trace ++ es

variable {c}

section

variable {depth : Nat} {α : Type} {r : Except RunError α} {h : List Moment} {es : List Event}

/-- One more step before the others. -/
theorem ActionTrace.step {x : Moment} (hdepth : x.depth = depth) (hstep : x.step.ofMethod = true)
    (ha : ActionTrace c depth r h es) : ActionTrace c depth r (x :: h) es := by
  cases ha with
  | whole y hmoments hruns => exact .whole y (.step hdepth hstep hmoments) hruns
  | itself e hmoments hruns => exact .itself e (.step hdepth hstep hmoments) hruns
  | tooDeep w' name limit hmoments hruns =>
    exact .tooDeep w' name limit (.step hdepth hstep hmoments) hruns
  | inside v v' w' hmoments hruns hbreaks =>
    exact .inside v v' w' (.step hdepth hstep hmoments) hruns hbreaks

/-- One more run before the others. -/
theorem ActionTrace.run {p : Pipeline} {hp : List Moment} {inner : List Event}
    (hinner : Nests c (depth + 1) 0 p.tasks hp inner) (w w' w'' : Workspace)
    (ha : ActionTrace c depth r h es) :
    ActionTrace c depth r (span (depth + 1) p (.ok ()) w w' hp ++ ⟨depth, .returned, w''⟩ :: h)
      (enclose (depth + 1) p inner ++ es) := by
  have hall {runs : List Ran}
      (hruns : ∀ r ∈ runs, Nests c (depth + 1) 0 r.pipeline.tasks r.moments r.events) :
      ∀ r ∈ (⟨p, hp, inner⟩ : Ran) :: runs,
        Nests c (depth + 1) 0 r.pipeline.tasks r.moments r.events :=
    List.forall_mem_cons.mpr ⟨hinner, hruns⟩
  cases ha with
  | whole y hmoments hruns => exact .whole y (.run ⟨p, hp, inner⟩ w w' w'' hmoments) (hall hruns)
  | itself e hmoments hruns =>
    exact .itself e (.run ⟨p, hp, inner⟩ w w' w'' hmoments) (hall hruns)
  | tooDeep v name limit hmoments hruns =>
    rw [← List.cons_append, ← List.append_assoc]
    exact .tooDeep v name limit (.run ⟨p, hp, inner⟩ w w' w'' hmoments) (hall hruns)
  | inside u u' v hmoments hruns hbreaks =>
    rw [← List.cons_append, ← List.append_assoc, ← List.append_assoc (enclose ..)]
    exact .inside u u' v (.run ⟨p, hp, inner⟩ w w' w'' hmoments) (hall hruns) hbreaks

end

section

variable {below : Runner} {inside : Trail} {depth : Nat}
  (hbelow : below.Nested c inside (depth + 1)) (silent : Bool)

include hbelow

theorem Runner.Nested.apply (mode : Mode) (p : Pipeline) (s : State) :
    ∃ es, RunTrace c (depth + 1) p (mode.apply below silent p s).1
        (inside (mode.silences silent) p s) es ∧
      (mode.apply below silent p s).2.trace = s.trace ++ es := by
  obtain ⟨s', hrun, hlog⟩ := mode.exists_run below silent p s
  obtain ⟨es, htrace, hadds⟩ := hbelow (mode.silences silent) p s
  rw [hrun] at htrace hadds
  refine ⟨es, htrace, ?_⟩
  rw [State.trace, ← hlog]
  exact hadds

/-- An orderly action runs pipelines one after the other, until one of them fails. -/
theorem Runner.Nested.perform {α : Type} {loops ran : Prop} {a : Action α}
    (ha : a.Orderly loops ran) (method : String) (i : Nat) (s : State) :
    ∃ es, ActionTrace c depth ((a.perform below silent s).1.mapError (·.report method i))
        (a.moments below inside depth silent s) es ∧
      (a.perform below silent s).2.trace = s.trace ++ es := by
  induction a generalizing ran s with
  | done x => exact ⟨[], .whole x .nil (List.forall_mem_nil _), (List.append_nil _).symm⟩
  | fail f => exact ⟨[], .itself _ .nil (List.forall_mem_nil _), (List.append_nil _).symm⟩
  | read v next ih =>
    obtain ⟨es, htrace, hadds⟩ := ih _ (ha _) s
    exact ⟨es, htrace.step rfl rfl, hadds⟩
  | write v x next ih | put v x next ih | mark v next ih =>
    obtain ⟨es, htrace, hadds⟩ := ih ha (s.update _)
    exact ⟨es, htrace.step rfl rfl, hadds⟩
  | inspect next ih => exact ih _ (ha _) s
  | report e next ih =>
    obtain ⟨es, htrace, hadds⟩ := ih ha.2 (s.report e)
    rw [State.trace_report_other ha.1] at hadds
    exact ⟨es, htrace, hadds⟩
  | run p mode next ih =>
    obtain ⟨-, hok, herror⟩ := ha
    obtain ⟨es, htrace, hadds⟩ := hbelow.apply silent mode p s
    unfold Action.perform Action.moments
    generalize mode.apply below silent p s = run at htrace hadds ⊢
    obtain ⟨r, after⟩ := run
    generalize inside (mode.silences silent) p s = h at htrace ⊢
    dsimp only at htrace hadds ⊢
    cases htrace with
    | whole w w' hinner =>
      obtain ⟨es', htrace', hadds'⟩ := ih _ hok after
      refine ⟨_, htrace'.run hinner w w' after.workspace, ?_⟩
      rw [hadds', hadds, List.append_assoc]
    | refused limit =>
      rw [herror]
      exact ⟨_, .tooDeep after.workspace p.name limit .nil (List.forall_mem_nil _), hadds⟩
    | broken w w' hbreaks =>
      rw [herror]
      exact ⟨_, .inside w w' after.workspace .nil (List.forall_mem_nil _) hbreaks, hadds⟩

end

/-- A task before the others that is run to the end. -/
theorem TasksTrace.cons {depth i : Nat} {t : Task} {ts : List Task} {r : Except RunError Unit}
    {h h' : List Moment} {es es' : List Event} (ht : Nests c depth i [t] h es)
    (hts : TasksTrace c depth (i + 1) ts r h' es') :
    TasksTrace c depth i (t :: ts) r (h ++ h') (es ++ es') := by
  cases ht with
  | cons silent w w' hmoments hruns hnil =>
    cases hnil
    rw [List.append_nil]
    simp only [List.cons_append, List.append_assoc, List.nil_append]
    cases hts with
    | whole hn => exact .whole (.cons silent w w' hmoments hruns hn)
    | broken hb => exact .broken (.later silent w w' hmoments hruns hb)

/-- When a task fails, those after it make no difference. -/
theorem BreaksOff.more {depth i : Nat} {t : Task} {chain : List Pipeline} {e : RunError}
    {h : List Moment} {es : List Event} (hb : BreaksOff c depth i [t] chain e h es)
    (ts : List Task) : BreaksOff c depth i (t :: ts) chain e h es := by
  cases hb with
  | refused silent w e => exact .refused silent w e
  | itself silent w e hmoments hruns => exact .itself silent w e hmoments hruns
  | tooDeep silent w w' name limit hmoments hruns =>
    exact .tooDeep silent w w' name limit hmoments hruns
  | inside silent w v v' w' hmoments hruns hbreaks =>
    exact .inside silent w v v' w' hmoments hruns hbreaks
  | later _ _ _ _ _ hbreaks => cases hbreaks

section

variable {lib : Library} (hlib : lib.Orderly) {below : Runner} {inside : Trail} {depth : Nat}
  (hbelow : below.Nested lib.catalog inside (depth + 1)) (silent : Bool)

include hlib hbelow

theorem nested_runTask (i : Nat) (t : Task) (s : State) :
    ∃ es, TasksTrace lib.catalog depth i [t] (runTask lib below depth silent i t s).1
        (taskMoments lib below inside depth silent i t s) es ∧
      (runTask lib below depth silent i t s).2.trace = s.trace ++ es := by
  cases hinputs : t.missingInput? lib.catalog s.workspace.isOccupied i with
  | some e =>
    rw [runTask_of_refused hinputs, taskMoments_of_refused hinputs]
    exact ⟨_, .broken (.refused silent s.workspace e), State.trace_report rfl s⟩
  | none =>
    obtain ⟨es, htrace, hadds⟩ := hbelow.perform silent (hlib t depth silent)
      (lib.catalog.methodAt t.method).name i
      (s.report (.announced (lib.catalog.methodAt t.method).name depth silent))
    rw [State.trace_report rfl, List.append_assoc, List.singleton_append] at hadds
    rw [runTask_of_called hinputs]
    unfold taskMoments
    simp only [hinputs]
    generalize (lib.native t.method ⟨lib.catalog, t, depth, silent⟩).perform below silent
      (s.report (.announced (lib.catalog.methodAt t.method).name depth silent)) = run
      at htrace hadds ⊢
    generalize (lib.native t.method ⟨lib.catalog, t, depth, silent⟩).moments below inside depth
      silent (s.report (.announced (lib.catalog.methodAt t.method).name depth silent)) = h
      at htrace ⊢
    obtain ⟨f | _, after⟩ := run
    · dsimp only [Except.mapError] at htrace ⊢
      generalize f.report (lib.catalog.methodAt t.method).name i = e at htrace ⊢
      rw [List.append_nil]
      cases htrace with
      | itself _ hmoments hruns =>
        exact ⟨_, .broken (.itself silent s.workspace e hmoments hruns), hadds⟩
      | tooDeep w' name limit hmoments hruns =>
        exact ⟨_, .broken (.tooDeep silent s.workspace w' name limit hmoments hruns), hadds⟩
      | inside v v' w' hmoments hruns hbreaks =>
        exact ⟨_, .broken (.inside silent s.workspace v v' w' hmoments hruns hbreaks), hadds⟩
    · cases htrace with
      | whole _ hmoments hruns =>
        refine ⟨_, .whole (.cons silent _ _ hmoments hruns (.nil ..)), ?_⟩
        rw [List.append_nil]
        exact hadds

theorem nested_runTasks (i : Nat) (ts : List Task) (s : State) :
    ∃ es, TasksTrace lib.catalog depth i ts (runTasks lib below depth silent i ts s).1
        (tasksMoments lib below inside depth silent i ts s) es ∧
      (runTasks lib below depth silent i ts s).2.trace = s.trace ++ es := by
  induction ts generalizing i s with
  | nil => exact ⟨[], .whole (.nil depth i), (List.append_nil _).symm⟩
  | cons t ts ih =>
    obtain ⟨es, htrace, hadds⟩ := nested_runTask hlib hbelow silent i t s
    unfold runTasks tasksMoments
    generalize runTask lib below depth silent i t s = run at htrace hadds ⊢
    generalize taskMoments lib below inside depth silent i t s = h at htrace ⊢
    obtain ⟨r, after⟩ := run
    dsimp only at htrace hadds ⊢
    cases htrace with
    | whole hn =>
      obtain ⟨es', htrace', hadds'⟩ := ih (i + 1) after
      refine ⟨_, htrace'.cons hn, ?_⟩
      rw [hadds', hadds, List.append_assoc]
    | broken hb =>
      rw [List.append_nil]
      exact ⟨_, .broken (hb.more ts), hadds⟩

end

/-- With room for its own level a pipeline is entered, and left unless one of its tasks fails. -/
theorem nested_succ {lib : Library} (hlib : lib.Orderly) {limit room : Nat}
    (hbelow : (execute lib limit room).Nested lib.catalog (moments lib limit room)
      (limit - room + 1)) (silent : Bool) (p : Pipeline) (s : State) :
    let after := (execute lib limit (room + 1) silent p s).2
    ∃ h es,
      TasksTrace lib.catalog (limit - room) 0 p.tasks (execute lib limit (room + 1) silent p s).1 h
        es ∧
      moments lib limit (room + 1) silent p s = span (limit - room) p
        (execute lib limit (room + 1) silent p s).1 s.workspace after.workspace h ∧
      match (execute lib limit (room + 1) silent p s).1 with
      | .ok () => after.trace = s.trace ++ enclose (limit - room) p es
      | .error _ =>
        after.trace = s.trace ++ .entered p.name (limit - room) p.tasks.length :: es := by
  obtain ⟨es, htrace, hadds⟩ := nested_runTasks hlib hbelow silent 0 p.tasks
    (s.report (.entered p.name (limit - room) p.tasks.length))
  rw [State.trace_report rfl, List.append_assoc, List.singleton_append] at hadds
  unfold execute moments
  dsimp only
  generalize runTasks lib (execute lib limit room) (limit - room) silent 0 p.tasks
    (s.report (.entered p.name (limit - room) p.tasks.length)) = run at htrace hadds ⊢
  obtain ⟨e | _, after⟩ := run
  · exact ⟨_, es, htrace, rfl, hadds⟩
  · refine ⟨_, es, htrace, rfl, ?_⟩
    rw [State.trace_report rfl, hadds, enclose, List.append_assoc, List.cons_append]

/-- **Every run is nested, or it breaks off.** The induction is on the levels that are left. -/
theorem nested_execute {lib : Library} (hlib : lib.Orderly) {limit room : Nat}
    (hroom : room ≤ limit + 1) :
    (execute lib limit room).Nested lib.catalog (moments lib limit room) (limit + 1 - room) := by
  induction room with
  | zero => exact fun _ p s => ⟨[], .refused limit, (List.append_nil _).symm⟩
  | succ room ih =>
    intro silent p s
    have hbelow := ih (Nat.le_of_succ_le hroom)
    rw [Nat.succ_sub (Nat.le_of_succ_le_succ hroom)] at hbelow
    rw [Nat.add_sub_add_right]
    obtain ⟨h, es, htrace, hmoments, hadds⟩ := nested_succ hlib hbelow silent p s
    rw [hmoments]
    generalize execute lib limit (room + 1) silent p s = run at htrace hadds ⊢
    obtain ⟨r, after⟩ := run
    dsimp only at htrace hadds ⊢
    cases htrace with
    | whole hn => exact ⟨_, .whole _ _ hn, hadds⟩
    | broken hb => exact ⟨_, .broken _ _ hb, hadds⟩

/-! ## Every run -/

theorem toList_indent (depth : Nat) : (indent depth).toList = List.replicate (2 * depth) ' ' := by
  unfold indent
  induction depth with
  | zero => rfl
  | succ depth ih =>
    rw [List.replicate_succ, String.join_cons, String.toList_append, ih]
    rfl

/-- A task is announced under its name, two blanks further in for each level. -/
theorem Event.toList_message_announced (method : String) (depth : Nat) (silent : Bool) :
    (announced method depth silent).record.message.toList =
      List.replicate (2 * depth) ' ' ++ ['-', ' '] ++ method.toList := by
  change (indent depth ++ "- " ++ method).toList = _
  rw [String.toList_append, String.toList_append, toList_indent]
  rfl

namespace Standard

/-- **The log of a run is well nested.** Of a run of the standard library that succeeds, history and
events of the execution are those of a pipeline whose tasks are run to the end: each task is
announced, and before the next one is, there come the events of the pipelines that its method has
run meanwhile, which are nested in the same way, and nothing else; no pipeline fails. If a run
fails, history and log break off in the task that fails: the log is the beginning of such a
sequence, and the pipelines that are entered in it and never left are those that fail, each one
called by the one before. Between the first and the last event of a pipeline that is run to the end,
its tasks are announced at its level in order, each once, and nothing else is; they are shown two
blanks further in for each level. -/
theorem log_nested (maxDepth : Nat) (silent : Bool) (p : Pipeline) (w : Workspace) :
    let r := library.run maxDepth silent p w
    let trace := r.2.log.toList.filter fun e => e.record.target = Target.execution
    let history := library.history maxDepth silent p w
    let failed := history.filterMap Moment.failed?
    (match r.1 with
      | .ok () => ∃ h es, Nests library.catalog 0 0 p.tasks h es ∧
          history = span 0 p (.ok ()) w r.2.workspace h ∧ trace = enclose 0 p es ∧ failed = []
      | .error e => ∃ chain h es, BreaksOff library.catalog 0 0 p.tasks chain e h es ∧
          history = span 0 p (.error e) w r.2.workspace h ∧
          trace = .entered p.name 0 p.tasks.length :: es ∧ failed = failing e 0 (p :: chain) ∧
          ∃ h' whole, Nests library.catalog 0 0 p.tasks h' whole ∧ trace <+: enclose 0 p whole) ∧
    (∀ depth i ts h es, Nests library.catalog depth i ts h es →
      es.filterMap (Event.announcedAt? depth) =
        ts.map fun t => (library.catalog.methodAt t.method).name) ∧
    ∀ method depth quiet, (Event.announced method depth quiet).record.message.toList =
      List.replicate (2 * depth) ' ' ++ ['-', ' '] ++ method.toList := by
  refine ⟨?_, fun _ _ _ _ _ hn => hn.announcedAt, Event.toList_message_announced⟩
  have hbelow := nested_execute orderly (Nat.le_succ maxDepth)
  rw [Nat.succ_sub (Nat.le_refl maxDepth)] at hbelow
  obtain ⟨h, es, htrace, hmoments, hadds⟩ := nested_succ orderly hbelow silent p ⟨w, #[]⟩
  rw [Nat.sub_self] at htrace hmoments hadds
  unfold Library.run Library.history
  rw [hmoments]
  generalize execute library maxDepth (maxDepth + 1) silent p ⟨w, #[]⟩ = run at htrace hadds ⊢
  obtain ⟨r, after⟩ := run
  dsimp only at htrace hadds ⊢
  rw [← after.trace_eq]
  cases htrace with
  | whole hn => exact ⟨h, es, hn, rfl, hadds, (failed_span_ok ..).trans hn.failed⟩
  | @broken chain e _ _ hb =>
    obtain ⟨h', whole, hwhole, hprefix⟩ := hb.exists_nests
    have hlog : after.trace = .entered p.name 0 p.tasks.length :: es := hadds
    have hfailed : (span 0 p (.error e) w after.workspace h).filterMap Moment.failed? =
        failing e 0 (p :: chain) := by
      rw [failed_span_error, hb.failed]
      rfl
    refine ⟨chain, h, es, hb, rfl, hlog, hfailed, h', whole, hwhole, ?_⟩
    rw [hlog, enclose]
    exact List.cons_prefix_cons.mpr ⟨rfl, hprefix.trans (List.prefix_append ..)⟩

end Standard
end Runbook
