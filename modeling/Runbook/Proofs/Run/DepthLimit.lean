import Runbook.Proofs.Run.Bounds
import Runbook.Proofs.Run.Translation

/-!
# The depth limit

The limit on nesting only guards against runs that go too deep. No method notices it, and none goes
on after a pipeline was refused for it. So a run that stays within the limit is the same under every
larger one, and if level and limit are raised together nothing changes but the numbers.

* `Library.runAt`: a run at any nesting level.
* `heldBack_execute`: under a larger limit a run is the same, unless it was too deep.
* `between_deeper`: a run one level deeper, under a limit that is larger by one.
* `depth_limit_guards`: both for the standard library.
-/

namespace Runbook

/-- The same error; one about depth is told for another limit. -/
def RunError.atLimit (limit : Nat) : RunError → RunError
  | depthExceeded p _ => depthExceeded p limit
  | e => e

/-- The event, one level deeper. -/
def Event.deeper : Event → Event
  | entered p depth tasks => entered p (depth + 1) tasks
  | announced method depth silent => announced method (depth + 1) silent
  | exited p depth => exited p (depth + 1)
  | e => e

/-- Runs a pipeline at some nesting level. -/
def Library.runAt (lib : Library) (maxDepth depth : Nat) (silent : Bool) (p : Pipeline)
    (w : Workspace) : Except RunError Unit × State :=
  execute lib maxDepth (maxDepth + 1 - depth) silent p ⟨w, #[]⟩

/-! ## A larger limit -/

/-- The run was too deep somewhere. -/
def TooDeep (r : Except RunError Unit × State) : Prop :=
  ∃ name limit after, r = (.error (.depthExceeded name limit), after)

/-- `below'` does what `below` does, unless that is held back for being too deep. -/
def Runner.HeldBack (below below' : Runner) : Prop :=
  ∀ silent p s, TooDeep (below silent p s) ∨ below' silent p s = below silent p s

section

variable {below below' : Runner} (hbelow : below.HeldBack below')

include hbelow

theorem heldBack_apply (mode : Mode) (silent : Bool) (p : Pipeline) (s : State) :
    TooDeep (mode.apply below silent p s) ∨
      mode.apply below' silent p s = mode.apply below silent p s := by
  cases mode with
  | shared => exact hbelow silent p s
  | muted => exact hbelow true p s
  | isolated keep =>
    unfold Mode.apply
    rcases hbelow silent p s with ⟨name, limit, after, htoo⟩ | heq
    · left
      rw [htoo]
      exact ⟨name, limit, _, rfl⟩
    · right
      rw [heq]

/-- An orderly action that runs a pipeline too deep fails for it. -/
theorem heldBack_perform {α : Type} {loops ran : Prop} {a : Action α} (ha : a.Orderly loops ran)
    (silent : Bool) (s : State) :
    (∃ f name limit after, a.perform below silent s = (.error f, after) ∧
        f.cause = .run (.depthExceeded name limit)) ∨
      a.perform below' silent s = a.perform below silent s := by
  induction a generalizing ran s with
  | done | fail => exact .inr rfl
  | read v next ih | inspect next ih => exact ih _ (ha _) s
  | write v x next ih | put v x next ih | mark v next ih => exact ih ha _
  | report e next ih => exact ih ha.2 _
  | run p mode next ih =>
    obtain ⟨-, hok, herror⟩ := ha
    unfold Action.perform
    rcases heldBack_apply hbelow mode silent p s with ⟨name, limit, after, htoo⟩ | heq
    · left
      rw [htoo]
      dsimp only
      rw [herror]
      exact ⟨_, name, limit, after, rfl, rfl⟩
    · rw [heq]
      rcases mode.apply below silent p s with ⟨e | _, after⟩
      · dsimp only
        rw [herror]
        exact .inr rfl
      · exact ih _ hok after

variable {lib : Library} (hlib : lib.Orderly)

include hlib

theorem heldBack_runTask (depth : Nat) (silent : Bool) (i : Nat) (t : Task) (s : State) :
    TooDeep (runTask lib below depth silent i t s) ∨
      runTask lib below' depth silent i t s = runTask lib below depth silent i t s := by
  cases hinputs : t.missingInput? lib.catalog s.workspace.isOccupied i with
  | some e =>
    rw [runTask_of_refused hinputs, runTask_of_refused hinputs]
    exact .inr rfl
  | none =>
    rw [runTask_of_called hinputs, runTask_of_called hinputs]
    rcases heldBack_perform hbelow (hlib t depth silent) silent
      (s.report (.announced (lib.catalog.methodAt t.method).name depth silent))
      with ⟨f, name, limit, after, hf, hcause⟩ | heq
    · left
      rw [hf]
      dsimp only
      rw [Failure.report_nested hcause]
      exact ⟨name, limit, after, rfl⟩
    · right
      rw [heq]

theorem heldBack_runTasks (depth : Nat) (silent : Bool) (i : Nat) (ts : List Task) (s : State) :
    TooDeep (runTasks lib below depth silent i ts s) ∨
      runTasks lib below' depth silent i ts s = runTasks lib below depth silent i ts s := by
  induction ts generalizing i s with
  | nil => exact .inr rfl
  | cons t ts ih =>
    unfold runTasks
    rcases heldBack_runTask hbelow hlib depth silent i t s with ⟨name, limit, after, htoo⟩ | heq
    · left
      rw [htoo]
      exact ⟨name, limit, after, rfl⟩
    · rw [heq]
      rcases runTask lib below depth silent i t s with ⟨e | _, after⟩
      · exact .inr rfl
      · exact ih (i + 1) after

end

/-- **Under a larger limit a run is the same**, unless it was too deep for the smaller one. -/
theorem heldBack_execute {lib : Library} (hlib : lib.Orderly) (limit more room : Nat) :
    (execute lib limit room).HeldBack (execute lib (limit + more) (room + more)) := by
  induction room with
  | zero => exact fun _ p s => .inl ⟨p.name, limit, s, rfl⟩
  | succ room ih =>
    intro silent p s
    rw [Nat.add_right_comm room 1 more]
    unfold execute
    dsimp only
    rw [Nat.add_sub_add_right]
    rcases heldBack_runTasks ih hlib (limit - room) silent 0 p.tasks
      (s.report (.entered p.name (limit - room) p.tasks.length)) with ⟨name, l, after, htoo⟩ | heq
    · left
      rw [htoo]
      exact ⟨name, l, after, rfl⟩
    · right
      rw [heq]

/-! ## Level and limit -/

/-- Told one level deeper, a run is one under a limit that is larger by one. -/
theorem between_deeper (limit : Nat) :
    Translation.Between ⟨Event.deeper, RunError.atLimit (limit + 1), id⟩ limit (limit + 1) where
  muted := rfl
  entered name room tasks hroom := by rw [Nat.succ_sub hroom]; rfl
  announced method room silent hroom := by rw [Nat.succ_sub hroom]; rfl
  exited name room hroom := by rw [Nat.succ_sub hroom]; rfl
  other e he := by
    cases e with
    | entered | announced | exited => cases he
    | bound | filesBound | consistent | printed | note | finished | fatal => rfl
  tooDeep _ := rfl
  missing _ := rfl
  failed _ _ _ _ := rfl

/-! ## Every run -/

namespace Standard

/-- **The depth limit is only a guard.** A run of the standard library that does not go too deep for
a limit is the same under every larger one: it has the same result, leaves the same workspace and
makes the same reports. And a run depends on the distance to the limit only: one level deeper, and
under a limit that is larger by one, a pipeline comes to the same result and the same workspace,
but for the limit that an error shows; its reports are the same, but for the level. -/
theorem depth_limit_guards (silent : Bool) (p : Pipeline) (w : Workspace) :
    (∀ d d', d ≤ d' →
      (∀ name limit, (library.run d silent p w).1 ≠ .error (.depthExceeded name limit)) →
        library.run d' silent p w = library.run d silent p w) ∧
    ∀ d depth,
      let r := library.runAt d depth silent p w
      let r' := library.runAt (d + 1) (depth + 1) silent p w
      r'.1 = r.1.mapError (.atLimit (d + 1)) ∧ r'.2.workspace = r.2.workspace ∧
        r'.2.log = r.2.log.map Event.deeper := by
  constructor
  · intro d d' hle hdeep
    obtain ⟨more, rfl⟩ := Nat.exists_eq_add_of_le hle
    unfold Library.run
    rw [Nat.add_right_comm d more 1]
    rcases heldBack_execute orderly d more (d + 1) silent p ⟨w, #[]⟩
      with ⟨name, limit, after, htoo⟩ | heq
    · exact absurd (congrArg Prod.fst htoo) (hdeep name limit)
    · exact heq
  · intro d depth
    have hrun := (between_deeper d).execute orderly heedless (Nat.sub_le (d + 1) depth) silent p
      ⟨w, #[]⟩
    rw [Translation.state_start] at hrun
    have heq : library.runAt (d + 1) (depth + 1) silent p w = Translation.outcome
        ⟨Event.deeper, RunError.atLimit (d + 1), id⟩ (library.runAt d depth silent p w) := by
      unfold Library.runAt
      rw [Nat.add_sub_add_right]
      exact hrun
    dsimp only
    rw [heq]
    exact ⟨rfl, rfl, rfl⟩

/-- An agenda that is executed from the outermost level needs one level more, and no other. -/
theorem executesStored_guarded :
    (1 ≤ 64 ∧ ∀ name limit,
      (library.run 1 false executesStored withStored).1 ≠ .error (.depthExceeded name limit)) ∧
    library.run 64 false executesStored withStored =
      library.run 1 false executesStored withStored := by
  have hdeep : ∀ name limit,
      (library.run 1 false executesStored withStored).1 ≠ .error (.depthExceeded name limit) := by
    have hok : (library.run 1 false executesStored withStored).1.toBool = true := by
      decide +kernel
    intro name limit h
    rw [h] at hok
    cases hok
  exact ⟨⟨by decide, hdeep⟩,
    (depth_limit_guards false executesStored withStored).1 1 64 (by decide) hdeep⟩

end Standard
end Runbook
