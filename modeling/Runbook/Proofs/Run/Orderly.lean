import Runbook.Proofs.Standard.Conduct

/-!
# Orderly methods

The log of a run is kept by the run itself: it enters and leaves pipelines and announces tasks. For
the log to be in order a method must not report such things, and when a run of its has failed it
must not go on as if nothing had happened. Only a loop runs more than one pipeline, and all but the
first of them silently.

* `Event.ofExecution`: the events that the run itself reports.
* `Action.Orderly`: what a method keeps to.
* `Standard.orderly`: the standard methods do.
-/

namespace Runbook

/-! ## Events of the run itself -/

namespace Event

/-- A pipeline is entered or left, or a task is announced. -/
def ofExecution : Event → Bool
  | .entered .. | .announced .. | .exited .. => true
  | _ => false

/-- These are the events with the target of the execution. -/
theorem ofExecution_iff (e : Event) :
    e.ofExecution = true ↔ e.record.target = Target.execution := by
  cases e <;> simp [ofExecution, record, Target.execution, Target.bind, Target.program,
    Target.print, Target.note, Target.fatal]

/-- The event as it is in a run that is not silent. -/
def unlevelled : Event → Event
  | .announced method depth _ => .announced method depth false
  | e => e

end Event

/-! ## Orderly actions -/

/-- The method of the standard library that runs a pipeline more than once. -/
def Standard.loopName : String := "ForLoop"

/-- The action reports nothing that is of the execution. If a run of its fails, it fails at once
with that failure, and otherwise only for a fault of its own. If it is a loop, every run after the
first is muted, and apart from that none is; `ran` says if there was one. -/
def Action.Orderly {α : Type} (loops : Prop) : Prop → Action α → Prop
  | _, .done _ => True
  | _, .fail f => f.Own
  | ran, .read _ next => ∀ x, (next x).Orderly loops ran
  | ran, .write _ _ next | ran, .put _ _ next | ran, .mark _ next => next.Orderly loops ran
  | ran, .inspect next => ∀ w, (next w).Orderly loops ran
  | ran, .report e next => e.ofExecution = false ∧ next.Orderly loops ran
  | ran, .run _ mode next =>
    (mode = .muted ↔ loops ∧ ran) ∧ (next (.ok ())).Orderly loops True ∧
      ∀ e, next (.error e) = .fail (.nested e)

/-- The methods of the library are orderly, and those that are not called a loop are none. -/
def Library.Orderly (lib : Library) : Prop :=
  ∀ (t : Task) depth silent, (lib.native t.method ⟨lib.catalog, t, depth, silent⟩).Orderly
    ((lib.catalog.methodAt t.method).name = Standard.loopName) False

theorem Action.orderly_of_looksThen {α : Type} {loops ran : Prop} {acts : Action α → Prop}
    {a : Action α} (ha : a.LooksThen acts) (hacts : ∀ b, acts b → b.Orderly loops ran) :
    a.Orderly loops ran := by
  induction ha with
  | act h => exact hacts _ h
  | fault h => exact h
  | look _ ih => exact ih

namespace Standard

theorem orderly_loop (index : VariableId) (p : Pipeline) (step : Int) (n : Nat) {mode : Mode}
    (i : Int) {loops ran : Prop} (hloops : loops) (hmode : mode = .muted ↔ ran) :
    (loop index p step n mode i).Orderly loops ran := by
  induction n generalizing mode i ran with
  | zero => trivial
  | succ n ih =>
    refine ⟨?_, ih (i + step) (iff_of_true rfl trivial), fun _ => rfl⟩
    rw [hmode]
    exact ⟨fun h => ⟨hloops, h⟩, And.right⟩

theorem orderly_execute (p : Pipeline) (mode : Mode) (hmode : mode ≠ .muted) (loops : Prop) :
    (Action.execute p mode).Orderly loops False :=
  ⟨iff_of_false hmode And.right, trivial, fun _ => rfl⟩

theorem orderly_deed {name : String} {a : Action Unit} (h : Deed name a) :
    a.Orderly (name = loopName) False := by
  cases h with
  | nothing | store => trivial
  | print => exact ⟨rfl, trivial⟩
  | execute p => exact orderly_execute p .shared nofun _
  | executeExclusive p keep => exact orderly_execute p (.isolated keep) nofun _
  | loop index p step n i =>
    exact orderly_loop index p step n i rfl (iff_of_false nofun not_false)

/-- **The methods of the standard library are orderly.** -/
theorem orderly : library.Orderly := fun t _ _ =>
  Action.orderly_of_looksThen (native_deed t.method _) fun _ => orderly_deed

end Standard
end Runbook
