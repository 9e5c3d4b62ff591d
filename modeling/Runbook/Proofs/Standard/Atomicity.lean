import Runbook.Proofs.Run.Sequence
import Runbook.Proofs.Standard.Isolation

/-!
# Failures that change nothing

A standard method stores something only as the last thing it does, and a failure comes before that.
So a failure leaves the workspace as it was. There are two exceptions: an agenda that is executed on
the workspace itself, once or in a loop, may fail after some of its tasks. What a failed run leaves
is therefore known from the place where it failed.

* `Action.Atomic`: if the action fails, it has changed nothing.
* `RunsInPlace`: the two methods that may leave something behind.
* `native_atomic`: all others are atomic; `workspace_of_runTask_error`: and so are tasks with them.
* `FailsAt`: the task at which a run fails.
* `FailsAt.unique`, `exists_failsAt`: there is one such task if the run fails.
* `failures_change_nothing`: what a failure leaves, of a method, a task and a run.
-/

namespace Runbook

/-! ## Atomic actions -/

namespace Action

variable {α : Type}

/-- If the action fails, the workspace is as it was before. -/
def Atomic (a : Action α) : Prop :=
  ∀ (below : Runner) (silent : Bool) (s after : State) (f : Failure),
    a.perform below silent s = (.error f, after) → after.workspace = s.workspace

/-- An action that looks first is atomic if the rest is. -/
theorem LooksThen.atomic {acts : Action α → Prop} {a : Action α} (ha : a.LooksThen acts)
    (hacts : ∀ b, acts b → b.Atomic) : a.Atomic := by
  intro below silent s after f hrun
  induction ha with
  | act hb => exact hacts _ hb below silent s after f hrun
  | fault => cases hrun; rfl
  | @look v _ _ ih => exact ih (s.workspace.value v) hrun

/-- What fails on a private copy is dropped with it. -/
theorem atomic_isolated (q : Pipeline) (keep : List VariableId) :
    (Action.execute q (.isolated keep)).Atomic := by
  intro below silent s after f hrun
  rw [perform_execute, Mode.apply] at hrun
  rcases hbelow : below silent q s with ⟨e | _, inner⟩
  · rw [hbelow] at hrun
    cases hrun
    rfl
  · rw [hbelow] at hrun
    cases hrun

end Action

/-! ## The standard methods -/

namespace Standard

/-- The method runs an agenda on the workspace itself. -/
def RunsInPlace (m : MethodId) : Prop :=
  (library.catalog.methodAt m).name = "AgendaExecute" ∨
    (library.catalog.methodAt m).name = loopName

instance (m : MethodId) : Decidable (RunsInPlace m) :=
  inferInstanceAs (Decidable (_ ∨ _))

theorem Deed.atomic {name : String} {a : Action Unit} (ha : Deed name a)
    (hname : ¬(name = "AgendaExecute" ∨ name = loopName)) : a.Atomic := by
  cases ha with
  | nothing | store | print => intro _ _ _ _ _ hrun; cases hrun
  | execute => exact absurd (.inl rfl) hname
  | executeExclusive q keep => exact Action.atomic_isolated q keep
  | loop => exact absurd (.inr rfl) hname

/-- **A method that runs no agenda in place is atomic**, whatever it is called for. -/
theorem native_atomic {m : MethodId} (hm : ¬RunsInPlace m) (c : Call) :
    (library.native m c).Atomic :=
  (native_deed m c).atomic fun _ hdeed => hdeed.atomic hm

/-- A task fails before its method is called or because the method does. -/
theorem workspace_of_runTask_error {t : Task} (ht : ¬RunsInPlace t.method) {below : Runner}
    {depth : Nat} {silent : Bool} {n : Nat} {s after : State} {e : RunError}
    (hrun : runTask library below depth silent n t s = (.error e, after)) :
    after.workspace = s.workspace := by
  cases hinputs : t.missingInput? library.catalog s.workspace.isOccupied n with
  | some missing =>
    rw [runTask_of_refused hinputs] at hrun
    cases hrun
    rfl
  | none =>
    obtain ⟨f, hperform, -⟩ := of_runTask_error hinputs hrun
    exact native_atomic ht _ below silent (s.report _) after f hperform

end Standard

/-! ## Where a run fails -/

section

variable {lib : Library} {below : Runner} {depth : Nat} {silent : Bool} {n i : Nat} {t : Task}
  {ts : List Task} {s mid after : State} {e : RunError}

/-- Tasks that fail do so at one of them. -/
theorem exists_of_runTasks_error
    (hrun : runTasks lib below depth silent n ts s = (.error e, after)) :
    ∃ i t mid, ts[i]? = some t ∧ runTasks lib below depth silent n (ts.take i) s = (.ok (), mid) ∧
      runTask lib below depth silent (n + i) t mid = (.error e, after) := by
  induction ts generalizing n s with
  | nil => cases hrun
  | cons t ts ih =>
    rw [runTasks] at hrun
    rcases htask : runTask lib below depth silent n t s with ⟨_ | _, next⟩
    case error =>
      rw [htask] at hrun
      cases hrun
      exact ⟨0, t, s, rfl, rfl, htask⟩
    case ok =>
      rw [htask] at hrun
      obtain ⟨i, u, mid, hu, hbefore, hfails⟩ := ih hrun
      refine ⟨i + 1, u, mid, hu, ?_, ?_⟩
      · rw [List.take_succ_cons, runTasks, htask]
        exact hbefore
      · rw [← hfails]
        congr 1
        omega

/-- The task at index `i` goes on where the ones before it have stopped. -/
theorem runTasks_take_succ (ht : ts[i]? = some t)
    (hbefore : runTasks lib below depth silent n (ts.take i) s = (.ok (), mid)) :
    runTasks lib below depth silent n (ts.take (i + 1)) s =
      runTask lib below depth silent (n + i) t mid := by
  obtain ⟨hi, rfl⟩ := List.getElem?_eq_some_iff.mp ht
  have hlength : (ts.take i).length = i := List.length_take_of_le (Nat.le_of_lt hi)
  rw [← List.take_concat_get' ts i hi, runTasks_append, hbefore]
  dsimp only
  rw [hlength, runTasks]
  rcases runTask lib below depth silent (n + i) ts[i] mid with ⟨_ | _, after⟩
  · rfl
  · rfl

/-- The tasks after one that fails are not run. -/
theorem runTasks_of_error (ht : ts[i]? = some t)
    (hbefore : runTasks lib below depth silent n (ts.take i) s = (.ok (), mid))
    (hfails : runTask lib below depth silent (n + i) t mid = (.error e, after)) :
    runTasks lib below depth silent n ts s = (.error e, after) := by
  rw [← List.take_append_drop (i + 1) ts, runTasks_append, runTasks_take_succ ht hbefore, hfails]

end

/-- The run of `p` comes as far as its task `t` at index `i`, and fails there for `e`. -/
structure FailsAt (lib : Library) (maxDepth : Nat) (silent : Bool) (p : Pipeline) (w : Workspace)
    (i : Nat) (t : Task) (e : RunError) : Prop where
  task_eq : p.tasks[i]? = some t
  before : (lib.run maxDepth silent (p.truncate i) w).1 = .ok ()
  fails : (lib.run maxDepth silent (p.truncate (i + 1)) w).1 = .error e

section

variable {lib : Library} {maxDepth : Nat} {silent : Bool} {p : Pipeline} {w : Workspace}
  {i j : Nat} {t u : Task} {e f : RunError}

theorem effect_run (lib : Library) (maxDepth : Nat) (silent : Bool) (p : Pipeline)
    (w : Workspace) :
    effect (lib.run maxDepth silent p w) =
      effect (runTasks lib (execute lib maxDepth maxDepth) 0 silent 0 p.tasks ⟨w, #[]⟩) :=
  effect_runAt lib silent (Nat.zero_le maxDepth) p ⟨w, #[]⟩

/-- The state in which the task is run, and the one that it leaves, which is that of the run. -/
theorem FailsAt.exists_task (h : FailsAt lib maxDepth silent p w i t e) :
    ∃ mid after, runTask lib (execute lib maxDepth maxDepth) 0 silent i t mid = (.error e, after) ∧
      effect (lib.run maxDepth silent (p.truncate i) w) = (.ok (), mid.workspace) ∧
      effect (lib.run maxDepth silent p w) = (.error e, after.workspace) := by
  have hbefore := effect_run lib maxDepth silent (p.truncate i) w
  have hfails := effect_run lib maxDepth silent (p.truncate (i + 1)) w
  rcases htasks : runTasks lib (execute lib maxDepth maxDepth) 0 silent 0 (p.tasks.take i) ⟨w, #[]⟩
    with ⟨r, mid⟩
  rw [Pipeline.truncate, htasks] at hbefore
  obtain rfl : Except.ok () = r := h.before.symm.trans (congrArg Prod.fst hbefore)
  have hlast := runTasks_take_succ h.task_eq htasks
  rcases htask : runTask lib (execute lib maxDepth maxDepth) 0 silent (0 + i) t mid with ⟨r, after⟩
  rw [Pipeline.truncate, hlast, htask] at hfails
  obtain rfl : Except.error e = r := h.fails.symm.trans (congrArg Prod.fst hfails)
  refine ⟨mid, after, Nat.zero_add i ▸ htask, hbefore, ?_⟩
  rw [effect_run, runTasks_of_error h.task_eq htasks htask]
  rfl

/-- It fails there too if only some more of the tasks are run. -/
theorem FailsAt.truncate (h : FailsAt lib maxDepth silent p w i t e) (hij : i < j) :
    FailsAt lib maxDepth silent (p.truncate j) w i t e := by
  have htake {k : Nat} (hk : k ≤ j) : (p.truncate j).truncate k = p.truncate k := by
    simp [Pipeline.truncate, List.take_take, Nat.min_eq_left hk]
  refine ⟨?_, ?_, ?_⟩
  · rw [Pipeline.truncate, List.getElem?_take_of_lt hij]
    exact h.task_eq
  · rw [htake (Nat.le_of_lt hij)]
    exact h.before
  · rw [htake hij]
    exact h.fails

theorem FailsAt.not_lt (h : FailsAt lib maxDepth silent p w i t e)
    (h' : FailsAt lib maxDepth silent p w j u f) : ¬i < j := by
  intro hij
  obtain ⟨-, after, -, -, hrun⟩ := (h.truncate hij).exists_task
  have hresult : (lib.run maxDepth silent (p.truncate j) w).1 = .error e := congrArg Prod.fst hrun
  rw [h'.before] at hresult
  cases hresult

/-- A run fails at one task only. -/
theorem FailsAt.unique (h : FailsAt lib maxDepth silent p w i t e)
    (h' : FailsAt lib maxDepth silent p w j u f) : i = j := by
  have hij := h.not_lt h'
  have hji := h'.not_lt h
  omega

/-- A run that fails does so at one of the tasks. -/
theorem exists_failsAt (h : (lib.run maxDepth silent p w).1 = .error e) :
    ∃ i t, FailsAt lib maxDepth silent p w i t e := by
  rcases htasks : runTasks lib (execute lib maxDepth maxDepth) 0 silent 0 p.tasks ⟨w, #[]⟩
    with ⟨r, after⟩
  have heffect := effect_run lib maxDepth silent p w
  rw [htasks] at heffect
  obtain rfl : Except.error e = r := h.symm.trans (congrArg Prod.fst heffect)
  obtain ⟨i, t, mid, ht, hbefore, hfails⟩ := exists_of_runTasks_error htasks
  refine ⟨i, t, ht, ?_, ?_⟩
  · have hbefore' := effect_run lib maxDepth silent (p.truncate i) w
    rw [Pipeline.truncate, hbefore] at hbefore'
    exact congrArg Prod.fst hbefore'
  · have hfails' := effect_run lib maxDepth silent (p.truncate (i + 1)) w
    rw [Pipeline.truncate, runTasks_take_succ ht hbefore, hfails] at hfails'
    exact congrArg Prod.fst hfails'

end

/-! ## What a failure leaves -/

namespace Standard

/-- **Failures change nothing.** If a standard method fails that runs no agenda in place, the
workspace is as it was before the call, whatever the task is that it was called for. The same holds
if a task with such a method fails for a missing input. If a run of a pipeline fails, it fails at
exactly one of its tasks, and if the method of that task is such a one, the run leaves what a run of
the tasks before it leaves. -/
theorem failures_change_nothing :
    (∀ m, ¬RunsInPlace m → ∀ c, (library.native m c).Atomic) ∧
    (∀ t, ¬RunsInPlace t.method → ∀ below depth silent n s after e,
      runTask library below depth silent n t s = (.error e, after) →
        after.workspace = s.workspace) ∧
    ∀ maxDepth silent p w e, (library.run maxDepth silent p w).1 = .error e →
      ∃ i t, FailsAt library maxDepth silent p w i t e ∧
        (∀ j u f, FailsAt library maxDepth silent p w j u f → j = i) ∧
        (¬RunsInPlace t.method →
          (library.run maxDepth silent p w).2.workspace =
            (library.run maxDepth silent (p.truncate i) w).2.workspace) := by
  refine ⟨fun m hm c => native_atomic hm c, fun t ht below depth silent n s after e hrun =>
    workspace_of_runTask_error ht hrun, fun maxDepth silent p w e hrun => ?_⟩
  obtain ⟨i, t, hfails⟩ := exists_failsAt hrun
  refine ⟨i, t, hfails, fun j u f h => h.unique hfails, fun ht => ?_⟩
  obtain ⟨mid, after, htask, hbefore, hafter⟩ := hfails.exists_task
  calc (library.run maxDepth silent p w).2.workspace
      = after.workspace := congrArg Prod.snd hafter
    _ = mid.workspace := workspace_of_runTask_error ht htask
    _ = (library.run maxDepth silent (p.truncate i) w).2.workspace :=
        (congrArg Prod.snd hbefore).symm

/-- Adds to the largest index, in the variable that it stands in, and then sets that to zero. -/
def overflows : Pipeline :=
  ⟨"main", [⟨⟨0⟩, [.index Int64.maxValue], [⟨0⟩], [], none⟩,
    ⟨⟨11⟩, [.index 1], [⟨0⟩], [⟨0⟩], none⟩, ⟨⟨0⟩, [.index 0], [⟨0⟩], [], none⟩]⟩

/-- It is the second task that fails, and what is left is what the first one has stored. -/
theorem overflows_unchanged :
    let w := Workspace.fresh library.catalog
    ∃ t e, (library.run 64 false overflows w).1 = .error e ∧
      FailsAt library 64 false overflows w 1 t e ∧ ¬RunsInPlace t.method ∧
      (library.run 64 false overflows w).2.workspace =
        (library.run 64 false (overflows.truncate 1) w).2.workspace := by
  intro w
  have hbefore : (library.run 64 false (overflows.truncate 1) w).1.isOk = true := by decide +kernel
  have hsecond : (library.run 64 false (overflows.truncate 2) w).1.isOk = false := by
    decide +kernel
  have hall : (library.run 64 false overflows w).1.isOk = false := by decide +kernel
  have hname : ¬RunsInPlace ⟨11⟩ := by decide +kernel
  rcases hrun : (library.run 64 false overflows w).1 with e | _
  case ok => rw [hrun] at hall; cases hall
  rcases hrun₂ : (library.run 64 false (overflows.truncate 2) w).1 with f | _
  case ok => rw [hrun₂] at hsecond; cases hsecond
  rcases hrun₁ : (library.run 64 false (overflows.truncate 1) w).1 with _ | _
  case error => rw [hrun₁] at hbefore; cases hbefore
  obtain ⟨i, t, hat, honly, hsame⟩ := failures_change_nothing.2.2 64 false overflows w e hrun
  obtain rfl : 1 = i := honly 1 _ f ⟨rfl, hrun₁, hrun₂⟩
  obtain rfl : ⟨⟨11⟩, [.index 1], [⟨0⟩], [⟨0⟩], none⟩ = t := Option.some.inj hat.task_eq
  exact ⟨_, e, rfl, hat, hname, hsame hname⟩

end Standard
end Runbook
