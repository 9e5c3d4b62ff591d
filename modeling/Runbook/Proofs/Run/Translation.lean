import Runbook.Proofs.Run.History
import Runbook.Proofs.Run.Orderly

/-!
# Runs told in other words

A run is silent or not, and it stands at some level below its limit. If no method asks for that, the
same pipeline on the same workspace goes the same way whatever the answer; only the log and the
error tell of it. So a run with other answers is the same run, told in other words.

* `Translation`: other words for events and errors, and another silence.
* `Translation.Between`: the words fit a run under one limit and a run under another.
* `Translation.Between.execute`: then the second run is the first one, translated.
-/

namespace Runbook

/-- The methods of the library do the same at every level, silent or not. -/
def Library.Heedless (lib : Library) : Prop :=
  ∀ (t : Task) depth depth' silent silent',
    lib.native t.method ⟨lib.catalog, t, depth, silent⟩ =
      lib.native t.method ⟨lib.catalog, t, depth', silent'⟩

theorem Standard.heedless : library.Heedless := fun t =>
  native_congr t.method library.catalog t

/-- Other words for the events and the errors of a run, and whether it is silent then. -/
structure Translation where
  event : Event → Event
  error : RunError → RunError
  silent : Bool → Bool

namespace Translation

variable (τ : Translation)

/-- A state with its log translated. -/
def state (s : State) : State :=
  ⟨s.workspace, s.log.map τ.event⟩

/-- The end of a run, translated. -/
def outcome (r : Except RunError Unit × State) : Except RunError Unit × State :=
  (r.1.mapError τ.error, τ.state r.2)

/-- The failure of a method, translated if it is that of a run. -/
def failure (f : Failure) : Failure :=
  match f.cause with
  | .fault _ => f
  | .run e => ⟨f.contexts, .run (τ.error e)⟩

/-- The end of an action, translated. -/
def ending {α : Type} (r : Except Failure α × State) : Except Failure α × State :=
  (r.1.mapError τ.failure, τ.state r.2)

/-- Events and errors of a run under one limit become those that it has under the other, as far from
it; a run that is muted stays so. -/
structure Between (limit limit' : Nat) : Prop where
  muted : τ.silent true = true
  entered : ∀ name room tasks, room ≤ limit →
    τ.event (.entered name (limit - room) tasks) = .entered name (limit' - room) tasks
  announced : ∀ method room silent, room ≤ limit →
    τ.event (.announced method (limit - room) silent) =
      .announced method (limit' - room) (τ.silent silent)
  exited : ∀ name room, room ≤ limit →
    τ.event (.exited name (limit - room)) = .exited name (limit' - room)
  other : ∀ e, e.ofExecution = false → τ.event e = e
  tooDeep : ∀ name, τ.error (.depthExceeded name limit) = .depthExceeded name limit'
  missing : ∀ e, τ.error (.missingInput e) = .missingInput e
  failed : ∀ method task contexts fault,
    τ.error (.methodFailed method task contexts fault) = .methodFailed method task contexts fault

/-- What one runner does the other does too, in other words. -/
def Carries (below below' : Runner) : Prop :=
  ∀ silent p s, below' (τ.silent silent) p (τ.state s) = τ.outcome (below silent p s)

variable {τ}

theorem state_start (w : Workspace) : τ.state ⟨w, #[]⟩ = ⟨w, #[]⟩ :=
  congrArg (State.mk w) Array.map_empty

theorem state_report (s : State) (e : Event) :
    τ.state (s.report e) = (τ.state s).report (τ.event e) := by
  rw [state, State.report, State.report, state, Array.map_push]

variable {limit limit' : Nat} (hτ : τ.Between limit limit') {below below' : Runner}
  (hbelow : τ.Carries below below') (silent : Bool)

include hτ

/-- Of a failure that it has passed on a task reports the translated error. -/
theorem Between.report_failure (f : Failure) (method : String) (task : Nat) :
    (τ.failure f).report method task = τ.error (f.report method task) := by
  obtain ⟨contexts, fault | e⟩ := f
  · exact (hτ.failed method task contexts fault).symm
  · rfl

include hbelow

theorem Between.apply (mode : Mode) (p : Pipeline) (s : State) :
    mode.apply below' (τ.silent silent) p (τ.state s) =
      τ.outcome (mode.apply below silent p s) := by
  cases mode with
  | shared => exact hbelow silent p s
  | muted =>
    have hmuted := hbelow true p s
    rw [hτ.muted] at hmuted
    exact hmuted
  | isolated keep =>
    unfold Mode.apply
    rw [hbelow silent p s]
    rcases below silent p s with ⟨e | _, after⟩ <;> rfl

theorem Between.perform {α : Type} {loops ran : Prop} {a : Action α} (ha : a.Orderly loops ran)
    (s : State) :
    a.perform below' (τ.silent silent) (τ.state s) = τ.ending (a.perform below silent s) := by
  induction a generalizing ran s with
  | done x => rfl
  | fail f =>
    obtain ⟨fault, hcause⟩ := ha
    unfold Action.perform ending failure
    simp only [Except.mapError, hcause]
  | read v next ih => exact ih _ (ha _) s
  | write v x next ih => exact ih ha (s.update (·.write v x))
  | put v x next ih => exact ih ha (s.update (·.put v x))
  | mark v next ih => exact ih ha (s.update (·.mark v))
  | inspect next ih => exact ih _ (ha _) s
  | report e next ih =>
    have hnext := ih ha.2 (s.report e)
    rw [state_report, hτ.other e ha.1] at hnext
    exact hnext
  | run p mode next ih =>
    obtain ⟨-, hok, herror⟩ := ha
    unfold Action.perform
    rw [hτ.apply hbelow silent mode p s]
    rcases mode.apply below silent p s with ⟨e | _, after⟩
    · change (next (.error (τ.error e))).perform below' _ (τ.state after) = _
      dsimp only
      rw [herror, herror]
      rfl
    · exact ih _ hok after

variable {lib : Library} (hlib : lib.Orderly) (hheedless : lib.Heedless) {room : Nat}
  (hroom : room ≤ limit)

include hlib hheedless hroom

theorem Between.runTask (i : Nat) (t : Task) (s : State) :
    runTask lib below' (limit' - room) (τ.silent silent) i t (τ.state s) =
      τ.outcome (runTask lib below (limit - room) silent i t s) := by
  have hannounced := hτ.announced (lib.catalog.methodAt t.method).name room silent hroom
  cases hinputs : t.missingInput? lib.catalog s.workspace.isOccupied i with
  | some e =>
    rw [runTask_of_refused hinputs, runTask_of_refused (s := τ.state s) hinputs, ← hannounced,
      ← state_report, outcome, Except.mapError, hτ.missing]
  | none =>
    have hperform := hτ.perform hbelow silent (hlib t (limit - room) silent)
      (s.report (.announced (lib.catalog.methodAt t.method).name (limit - room) silent))
    rw [state_report, hannounced] at hperform
    rw [runTask_of_called hinputs, runTask_of_called (s := τ.state s) hinputs,
      hheedless t _ (limit - room) _ silent, hperform]
    rcases (lib.native t.method ⟨lib.catalog, t, limit - room, silent⟩).perform below silent
      (s.report (.announced (lib.catalog.methodAt t.method).name (limit - room) silent))
      with ⟨f | _, after⟩
    · exact congrArg (fun e => (Except.error e, τ.state after)) (hτ.report_failure f _ i)
    · rfl

theorem Between.runTasks (i : Nat) (ts : List Task) (s : State) :
    runTasks lib below' (limit' - room) (τ.silent silent) i ts (τ.state s) =
      τ.outcome (runTasks lib below (limit - room) silent i ts s) := by
  induction ts generalizing i s with
  | nil => rfl
  | cons t ts ih =>
    unfold Runbook.runTasks
    rw [hτ.runTask hbelow silent hlib hheedless hroom i t s]
    rcases Runbook.runTask lib below (limit - room) silent i t s with ⟨e | _, after⟩
    · rfl
    · exact ih (i + 1) after

omit hbelow hroom

/-- **A run under the other limit is the same run in other words**, as far from its limit. -/
theorem Between.execute (hroom : room ≤ limit + 1) :
    τ.Carries (execute lib limit room) (execute lib limit' room) := by
  induction room with
  | zero =>
    intro silent p s
    exact Prod.ext (congrArg Except.error (hτ.tooDeep p.name).symm) rfl
  | succ room ih =>
    intro silent p s
    have hle := Nat.le_of_succ_le_succ hroom
    have htasks := hτ.runTasks (ih (Nat.le_of_succ_le hroom)) silent hlib hheedless hle 0 p.tasks
      (s.report (.entered p.name (limit - room) p.tasks.length))
    rw [state_report, hτ.entered p.name room p.tasks.length hle] at htasks
    unfold Runbook.execute
    dsimp only
    rw [htasks]
    rcases Runbook.runTasks lib (Runbook.execute lib limit room) (limit - room) silent 0 p.tasks
      (s.report (.entered p.name (limit - room) p.tasks.length)) with ⟨e | _, after⟩
    · rfl
    · unfold outcome
      dsimp only
      rw [state_report, hτ.exited p.name room hle]
      rfl

end Translation
end Runbook
