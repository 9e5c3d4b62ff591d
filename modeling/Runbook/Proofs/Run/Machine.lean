import Mathlib.Logic.Function.Iterate
import Runbook.Proofs.Run.History

/-!
# Runs step by step

What a run comes to is defined level by level and task by task, so it is defined for every run. Here
a run is a sequence of small steps instead, with the pipelines that are open on a stack. Nothing
counts the levels that are left: a pipeline carries its nesting level as a number of 64 bits, and is
refused if that is above the limit. Nothing counts the rounds of a loop either: a method may go on
in rounds for as long as each one asks for another.

* `Routines`: methods that go on in rounds.
* `Stage`, `Routines.step`: what goes on right now, and the step from there.
* `Routines.UnrollTo`: the rounds of each method end, and come to the method of a library.
* `Routines.UnrollTo.halts`: then every run halts, with what the library says it comes to.
* `Stage.Within.iterate`: no pipeline is ever open above the limit, and no level overflows.
-/

namespace Runbook

/-! ## Methods in rounds -/

/-- Methods that go on in rounds. An action says with which state the next round begins, if there is
to be one. -/
structure Routines (σ : Type) where
  catalog : Catalog
  start : MethodId → Call → Action (Option σ)
  round : σ → Action (Option σ)

/-- A pipeline that is open: task number `index` is next, or its method is at work, and `later` are
the tasks from there on that have not been looked at. -/
structure Frame where
  pipeline : Pipeline
  depth : UInt64
  silent : Bool
  index : Nat
  later : List Task

/-- A method that waits for the end of a run, and the workspace on which it has started it. -/
structure Waiting (σ : Type) where
  frame : Frame
  task : Task
  mode : Mode
  workspace : Workspace
  next : Except RunError Unit → Action (Option σ)

/-- What goes on right now, above the methods that wait for it. -/
inductive Stage (σ : Type) where
  /-- A pipeline is to be run. -/
  | enter (p : Pipeline) (depth : UInt64) (silent : Bool) (s : State) (stack : List (Waiting σ))
  /-- A pipeline goes on with its next task. -/
  | next (f : Frame) (s : State) (stack : List (Waiting σ))
  /-- The method of a task is at work. -/
  | work (f : Frame) (t : Task) (a : Action (Option σ)) (s : State) (stack : List (Waiting σ))
  /-- The run of a pipeline has ended. -/
  | ended (r : Except RunError Unit) (s : State) (stack : List (Waiting σ))
  /-- The whole run is over. -/
  | halted (r : Except RunError Unit) (s : State)
  /-- A nesting level is too large for its number. -/
  | overflow

/-- What is left of a run that has come to `r` and `after`, for the method that has started it on
the workspace `before`. -/
def Mode.settle (mode : Mode) (before : Workspace) (r : Except RunError Unit) (after : State) :
    State :=
  match mode, r with
  | .shared, _ | .muted, _ => after
  | .isolated keep, .ok () => ⟨before.mergeFrom after.workspace keep, after.log⟩
  | .isolated _, .error _ => ⟨before, after.log⟩

theorem Mode.apply_eq (mode : Mode) (below : Runner) (silent : Bool) (p : Pipeline) (s : State) :
    mode.apply below silent p s =
      let run := below (mode.silences silent) p s
      (run.1, mode.settle s.workspace run.1 run.2) := by
  cases mode with
  | shared | muted => rfl
  | isolated keep =>
    unfold apply silences settle
    rcases below silent p s with ⟨_ | _, after⟩ <;> rfl

namespace Routines

variable {σ : Type} (m : Routines σ) (limit : UInt64)

/-- A pipeline is entered, unless it is too deep. -/
def enter (p : Pipeline) (depth : UInt64) (silent : Bool) (s : State) (stack : List (Waiting σ)) :
    Stage σ :=
  if limit < depth then .ended (.error (.depthExceeded p.name limit.toNat)) s stack
  else
    .next ⟨p, depth, silent, 0, p.tasks⟩ (s.report (.entered p.name depth.toNat p.tasks.length))
      stack

/-- The next task is announced, and its method is called if its inputs are set. -/
def look (f : Frame) (s : State) (stack : List (Waiting σ)) : Stage σ :=
  match f.later with
  | [] => .ended (.ok ()) (s.report (.exited f.pipeline.name f.depth.toNat)) stack
  | t :: ts =>
    let method := m.catalog.methodAt t.method
    let announced := s.report (.announced method.name f.depth.toNat f.silent)
    match t.missingInput? m.catalog announced.workspace.isOccupied f.index with
    | some e => .ended (.error (.missingInput e)) announced stack
    | none =>
      .work { f with later := ts } t (m.start t.method ⟨m.catalog, t, f.depth.toNat, f.silent⟩)
        announced stack

/-- The method takes a step, or begins a round, or the task is over. -/
def act (f : Frame) (t : Task) (s : State) (stack : List (Waiting σ)) :
    Action (Option σ) → Stage σ
  | .done none =>
    .next { f with index := f.index + 1 } (s.update (·.markAll (t.allOutputs m.catalog))) stack
  | .done (some x) => .work f t (m.round x) s stack
  | .fail e => .ended (.error (e.report (m.catalog.methodAt t.method).name f.index)) s stack
  | .read v next => .work f t (next (s.workspace.value v)) s stack
  | .write v x next => .work f t next (s.update (·.write v x)) stack
  | .put v x next => .work f t next (s.update (·.put v x)) stack
  | .mark v next => .work f t next (s.update (·.mark v)) stack
  | .inspect next => .work f t (next s.workspace) s stack
  | .report e next => .work f t next (s.report e) stack
  | .run p mode next =>
    if f.depth.toNat + 1 < UInt64.size then
      .enter p (f.depth + 1) (mode.silences f.silent) s (⟨f, t, mode, s.workspace, next⟩ :: stack)
    else .overflow

/-- The method that waits for a run goes on when it is over. -/
def resume (r : Except RunError Unit) (s : State) : List (Waiting σ) → Stage σ
  | [] => .halted r s
  | k :: stack => .work k.frame k.task (k.next r) (k.mode.settle k.workspace r s) stack

/-- One step of a run. When the run is over, nothing changes any more. -/
def step : Stage σ → Stage σ
  | .enter p depth silent s stack => enter limit p depth silent s stack
  | .next f s stack => m.look f s stack
  | .work f t a s stack => m.act f t s stack a
  | .ended r s stack => resume r s stack
  | .halted r s => .halted r s
  | .overflow => .overflow

variable {limit} in
theorem step_run {f : Frame} (h : f.depth.toNat + 1 < UInt64.size) (t : Task) (p : Pipeline)
    (mode : Mode) (next : Except RunError Unit → Action (Option σ)) (s : State)
    (stack : List (Waiting σ)) :
    m.step limit (.work f t (.run p mode next) s stack) =
      .enter p (f.depth + 1) (mode.silences f.silent) s
        (⟨f, t, mode, s.workspace, next⟩ :: stack) :=
  if_pos h

/-- Some steps lead from `c` to `c'`. -/
def Reaches (c c' : Stage σ) : Prop :=
  ∃ n, (m.step limit)^[n] c = c'

variable {m limit}

theorem Reaches.refl (c : Stage σ) : m.Reaches limit c c :=
  ⟨0, rfl⟩

theorem Reaches.trans {a b c : Stage σ} (hab : m.Reaches limit a b) (hbc : m.Reaches limit b c) :
    m.Reaches limit a c := by
  obtain ⟨n, rfl⟩ := hab
  obtain ⟨k, rfl⟩ := hbc
  exact ⟨k + n, Function.iterate_add_apply _ k n a⟩

/-- One step, then some more. -/
theorem Reaches.head {a b : Stage σ} (h : m.Reaches limit (m.step limit a) b) :
    m.Reaches limit a b :=
  Reaches.trans ⟨1, rfl⟩ h

end Routines

/-! ## Levels -/

theorem toNat_succ {depth : UInt64} (h : depth.toNat + 1 < UInt64.size) :
    (depth + 1).toNat = depth.toNat + 1 :=
  Nat.mod_eq_of_lt h

namespace Stage

variable {σ : Type}

/-- The pipelines that are open, the innermost first. -/
def frames : Stage σ → List Frame
  | .enter _ _ _ _ stack | .ended _ _ stack => stack.map Waiting.frame
  | .next f _ stack | .work f _ _ _ stack => f :: stack.map Waiting.frame
  | .halted .. | .overflow => []

/-- All open pipelines are within the limit. A pipeline that is to be run is one level above it at
most, and that is no overflow. -/
def Within (limit : UInt64) (c : Stage σ) : Prop :=
  (∀ f ∈ c.frames, f.depth ≤ limit) ∧
    match c with
    | .enter _ depth _ _ _ => depth.toNat ≤ limit.toNat + 1
    | .overflow => False
    | _ => True

variable {m : Routines σ} {limit : UInt64} {c : Stage σ}

theorem Within.step (h : c.Within limit) (hlimit : limit.toNat + 1 < UInt64.size) :
    (m.step limit c).Within limit := by
  obtain ⟨hframes, hnow⟩ := h
  cases c with
  | enter p depth silent s stack =>
    change (Routines.enter limit p depth silent s stack).Within limit
    unfold Routines.enter
    split
    case isTrue => exact ⟨hframes, trivial⟩
    case isFalse hle => exact ⟨List.forall_mem_cons.mpr ⟨UInt64.not_lt.mp hle, hframes⟩, trivial⟩
  | next f s stack =>
    obtain ⟨hdepth, hstack⟩ := List.forall_mem_cons.mp hframes
    change (m.look f s stack).Within limit
    unfold Routines.look
    split
    · exact ⟨hstack, trivial⟩
    · dsimp only
      split
      · exact ⟨hstack, trivial⟩
      · exact ⟨List.forall_mem_cons.mpr ⟨hdepth, hstack⟩, trivial⟩
  | work f t a s stack =>
    obtain ⟨hdepth, hstack⟩ := List.forall_mem_cons.mp hframes
    cases a with
    | done next =>
      cases next with
      | none => exact ⟨List.forall_mem_cons.mpr ⟨hdepth, hstack⟩, trivial⟩
      | some x => exact ⟨hframes, trivial⟩
    | fail e => exact ⟨hstack, trivial⟩
    | read | write | put | mark | inspect | report => exact ⟨hframes, trivial⟩
    | run p mode next =>
      have hle : f.depth.toNat ≤ limit.toNat := hdepth
      have hsucc : f.depth.toNat + 1 < UInt64.size := by omega
      rw [Routines.step_run m hsucc]
      exact ⟨List.forall_mem_cons.mpr ⟨hdepth, hstack⟩,
        (toNat_succ hsucc).trans_le (Nat.succ_le_succ hle)⟩
  | ended r s stack =>
    cases stack with
    | nil => exact ⟨nofun, trivial⟩
    | cons k stack => exact ⟨hframes, trivial⟩
  | halted r s => exact ⟨nofun, trivial⟩
  | overflow => exact hnow.elim

theorem Within.iterate (h : c.Within limit) (hlimit : limit.toNat + 1 < UInt64.size) (n : Nat) :
    ((m.step limit)^[n] c).Within limit := by
  induction n with
  | zero => exact h
  | succ n ih =>
    rw [Function.iterate_succ_apply']
    exact ih.step hlimit

theorem within_enter (p : Pipeline) (silent : Bool) (s : State) :
    (Stage.enter p 0 silent s [] : Stage σ).Within limit :=
  ⟨nofun, Nat.zero_le _⟩

end Stage

/-! ## Rounds that end -/

/-- Whenever the action yields something, it is as `post` says. -/
def Action.Yields {α : Type} (post : α → Prop) : Action α → Prop
  | .done a => post a
  | .fail _ => True
  | .read _ next => ∀ x, (next x).Yields post
  | .write _ _ next | .put _ _ next | .mark _ next | .report _ next => next.Yields post
  | .inspect next => ∀ w, (next w).Yields post
  | .run _ _ next => ∀ r, (next r).Yields post

theorem Action.yields_of_forall {α : Type} {post : α → Prop} (h : ∀ x, post x) (a : Action α) :
    a.Yields post := by
  induction a with
  | done x => exact h x
  | fail => trivial
  | read v next ih | inspect next ih | run p mode next ih => exact ih
  | write v x next ih | put v x next ih | mark v next ih | report e next ih => exact ih

/-- All rounds from a state on, if there is one. -/
def Routines.rest {σ : Type} (rounds : σ → Action Unit) (next : Option σ) : Action Unit :=
  next.elim (.done ()) rounds

/-- From each state on the rounds come to a single action, and the rank of the states goes down from
round to round; so started, each method comes to the one of the library. -/
structure Routines.UnrollTo {σ : Type} (m : Routines σ) (lib : Library) (rounds : σ → Action Unit)
    (rank : σ → Nat) : Prop where
  catalog_eq : m.catalog = lib.catalog
  start_eq : ∀ id c, (m.start id c).andThen (Routines.rest rounds) = lib.native id c
  round_eq : ∀ x, (m.round x).andThen (Routines.rest rounds) = rounds x
  rank_lt : ∀ x, (m.round x).Yields fun next => ∀ y ∈ next, rank y < rank x

namespace Routines

variable {σ : Type} {m : Routines σ} {lib : Library} {rounds : σ → Action Unit} {rank : σ → Nat}
  {limit : UInt64}

/-- The machine when a method has come to an end. -/
def finish (m : Routines σ) (f : Frame) (t : Task) (stack : List (Waiting σ)) :
    Except Failure Unit × State → Stage σ
  | (.ok (), s) =>
    .next { f with index := f.index + 1 } (s.update (·.markAll (t.allOutputs m.catalog))) stack
  | (.error e, s) => .ended (.error (e.report (m.catalog.methodAt t.method).name f.index)) s stack

/-- A pipeline that is run at this level is left with what `below` says. -/
def RunsAs (m : Routines σ) (limit depth : UInt64) (below : Runner) : Prop :=
  ∀ p silent s stack, m.Reaches limit (.enter p depth silent s stack)
    (.ended (below silent p s).1 (below silent p s).2 stack)

section

variable {below : Runner} {f : Frame} {t : Task}

/-- An action is performed step by step, if the rounds that it asks for are. -/
theorem reaches_action {ready : σ → Prop} (hdepth : f.depth.toNat + 1 < UInt64.size)
    (hbelow : m.RunsAs limit (f.depth + 1) below)
    (hrounds : ∀ x, ready x → ∀ s stack, m.Reaches limit (.work f t (m.round x) s stack)
      (m.finish f t stack ((rounds x).perform below f.silent s)))
    {a : Action (Option σ)} (ha : a.Yields fun next => ∀ y ∈ next, ready y) (s : State)
    (stack : List (Waiting σ)) :
    m.Reaches limit (.work f t a s stack)
      (m.finish f t stack ((a.andThen (rest rounds)).perform below f.silent s)) := by
  induction a generalizing s with
  | done next =>
    cases next with
    | none => exact .head (.refl _)
    | some x => exact .head (hrounds x (ha x rfl) s stack)
  | fail e => exact .head (.refl _)
  | read v next ih => exact .head (ih _ (ha _) s)
  | write v x next ih | put v x next ih | mark v next ih => exact .head (ih ha _)
  | inspect next ih => exact .head (ih _ (ha _) s)
  | report e next ih => exact .head (ih ha _)
  | run p mode next ih =>
    refine .head ?_
    rw [step_run m hdepth]
    refine (hbelow p _ s _).trans (.head ?_)
    unfold Action.andThen Action.perform
    rw [mode.apply_eq]
    exact ih _ (ha _) _

/-- By induction on the rank, so are all rounds. -/
theorem UnrollTo.reaches_round (h : m.UnrollTo lib rounds rank)
    (hdepth : f.depth.toNat + 1 < UInt64.size) (hbelow : m.RunsAs limit (f.depth + 1) below)
    (x : σ) (s : State) (stack : List (Waiting σ)) :
    m.Reaches limit (.work f t (m.round x) s stack)
      (m.finish f t stack ((rounds x).perform below f.silent s)) := by
  induction hrank : rank x using Nat.strong_induction_on generalizing x s stack with
  | h n ih =>
    rw [← h.round_eq x]
    refine reaches_action hdepth hbelow (fun y hy => ?_) (h.rank_lt x) s stack
    exact fun s stack => ih (rank y) (hrank ▸ hy) y s stack rfl

/-- A task is run, and its pipeline goes on with the next one or is left. -/
theorem UnrollTo.reaches_task (h : m.UnrollTo lib rounds rank) {p : Pipeline} {depth : UInt64}
    (hdepth : depth.toNat + 1 < UInt64.size) (hbelow : m.RunsAs limit (depth + 1) below)
    (silent : Bool) (i : Nat) (ts : List Task) (s : State) (stack : List (Waiting σ)) :
    m.Reaches limit (.next ⟨p, depth, silent, i, t :: ts⟩ s stack)
      (match runTask lib below depth.toNat silent i t s with
        | (.ok (), after) => .next ⟨p, depth, silent, i + 1, ts⟩ after stack
        | (.error e, after) => .ended (.error e) after stack) := by
  refine .head ?_
  change m.Reaches limit (m.look ⟨p, depth, silent, i, t :: ts⟩ s stack) _
  unfold look
  rw [h.catalog_eq]
  cases hinputs : t.missingInput? lib.catalog s.workspace.isOccupied i with
  | some e =>
    rw [runTask_of_refused hinputs]
    simp only [State.report, hinputs]
    exact .refl _
  | none =>
    have hwork := reaches_action (f := ⟨p, depth, silent, i, ts⟩) (t := t) hdepth hbelow
      (fun x _ => h.reaches_round hdepth hbelow x)
      ((m.start t.method ⟨lib.catalog, t, depth.toNat, silent⟩).yields_of_forall
        fun _ _ _ => trivial)
      (s.report (.announced (lib.catalog.methodAt t.method).name depth.toNat silent)) stack
    rw [h.start_eq] at hwork
    rw [runTask_of_called hinputs]
    simp only [State.report, hinputs] at hwork ⊢
    refine hwork.trans ?_
    unfold finish
    rw [h.catalog_eq]
    split
    case h_1 hrun => rw [hrun]; exact .refl _
    case h_2 hrun => rw [hrun]; exact .refl _

/-- The tasks of a pipeline are run one after the other, and the pipeline is left. -/
theorem UnrollTo.reaches_tasks (h : m.UnrollTo lib rounds rank) {p : Pipeline} {depth : UInt64}
    (hdepth : depth.toNat + 1 < UInt64.size) (hbelow : m.RunsAs limit (depth + 1) below)
    (silent : Bool) (i : Nat) (ts : List Task) (s : State) (stack : List (Waiting σ)) :
    m.Reaches limit (.next ⟨p, depth, silent, i, ts⟩ s stack)
      (match runTasks lib below depth.toNat silent i ts s with
        | (.ok (), after) => .ended (.ok ()) (after.report (.exited p.name depth.toNat)) stack
        | (.error e, after) => .ended (.error e) after stack) := by
  induction ts generalizing i s with
  | nil => exact .head (.refl _)
  | cons t ts ih =>
    refine (h.reaches_task hdepth hbelow silent i ts s stack).trans ?_
    unfold runTasks
    rcases runTask lib below depth.toNat silent i t s with ⟨e | _, after⟩
    · exact .refl _
    · exact ih (i + 1) after

end

/-- Every pipeline is left in the end, with what the library says that it comes to. The induction is
on the levels from `depth` to the limit. -/
theorem UnrollTo.runsAs_execute (h : m.UnrollTo lib rounds rank)
    (hlimit : limit.toNat + 1 < UInt64.size) (room : Nat) (depth : UInt64)
    (hdepth : depth.toNat + room = limit.toNat + 1) :
    m.RunsAs limit depth (execute lib limit.toNat room) := by
  induction room generalizing depth with
  | zero =>
    intro p silent s stack
    have hdeep : limit < depth := UInt64.lt_iff_toNat_lt.mpr (by omega)
    refine .head ?_
    change m.Reaches limit (enter limit p depth silent s stack) _
    unfold enter
    rw [if_pos hdeep]
    exact .refl _
  | succ room ih =>
    intro p silent s stack
    have hwithin : ¬ limit < depth := UInt64.not_lt.mpr (UInt64.le_iff_toNat_le.mpr (by omega))
    have hlevel : limit.toNat - room = depth.toNat := by omega
    have hsmall : depth.toNat + 1 < UInt64.size := by omega
    have hbelow := ih (depth + 1) (by rw [toNat_succ hsmall]; omega)
    refine .head ?_
    change m.Reaches limit (enter limit p depth silent s stack) _
    unfold enter execute
    rw [if_neg hwithin]
    dsimp only
    rw [hlevel]
    have htasks := h.reaches_tasks (p := p) hsmall hbelow silent 0 p.tasks
      (s.report (.entered p.name depth.toNat p.tasks.length)) stack
    rcases hrun : runTasks lib (execute lib limit.toNat room) depth.toNat silent 0 p.tasks
      (s.report (.entered p.name depth.toNat p.tasks.length)) with ⟨e | _, after⟩
    · rw [hrun] at htasks
      exact htasks
    · rw [hrun] at htasks
      exact htasks

/-- **Every run halts**, if the rounds of every method end. -/
theorem UnrollTo.halts (h : m.UnrollTo lib rounds rank) (hlimit : limit.toNat + 1 < UInt64.size)
    (silent : Bool) (p : Pipeline) (w : Workspace) :
    m.Reaches limit (.enter p 0 silent ⟨w, #[]⟩ [])
      (.halted (lib.run limit.toNat silent p w).1 (lib.run limit.toNat silent p w).2) :=
  (h.runsAs_execute hlimit (limit.toNat + 1) 0 (by simp) p silent ⟨w, #[]⟩ []).trans
    (.head (.refl _))

end Routines
end Runbook
