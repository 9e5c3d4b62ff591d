import Runbook.Proofs.Run.Contract
import Runbook.Proofs.Standard.Footprint

/-!
# No use before definition

Whatever the methods of a library do, one is called only with all inputs set, its outputs are set
when it has succeeded, and a refusal names the first input that is not set and changes nothing.
The standard methods look at their inputs only, so none of them ever looks at an unset variable.

* `Contract.free`: what every library keeps.
* `Contract.reading`: what a library keeps if its methods stay within the slots of their tasks.
* `Moment.Defined`: inputs and outputs at one moment.
* `defined_before_use`: all of it, for every run.
-/

namespace Runbook

/-! ## Two contracts -/

namespace Contract

/-- A method may do all that the steps of an action can do. -/
def free : Contract where
  Holds _ := True
  Admits _ := True
  Reads _ _ := True
  Fails _ := True

/-- The same, but it may look only at variables that are set. -/
def reading : Contract :=
  { free with Reads := fun w v => w.isOccupied v = true }

theorem meets_free {α : Type} (a : Action α) (w : Workspace) :
    a.Meets free (fun _ => True) (fun _ _ => True) w := by
  induction a generalizing w with
  | done | fail => trivial
  | read v next ih => exact ⟨trivial, ih _ w⟩
  | write v x next ih | put v x next ih | mark v next ih => exact ⟨trivial, ih _⟩
  | inspect next ih => exact ih w w
  | report e next ih => exact ih w
  | run p mode next ih => exact ⟨fun _ _ => trivial, fun r after _ _ _ => ih r after⟩

/-- Every library keeps the contract that asks for nothing. -/
theorem sound_free (lib : Library) : free.Sound lib where
  merge _ _ _ := trivial
  markAll _ _ := trivial
  missing _ _ _ := trivial
  deep _ _ := trivial
  native _ _ _ _ _ := by
    simpa only [free, implies_true] using meets_free _ _

/-- Marks are never lost, so what is set when a method is called is set whenever it looks. -/
theorem meets_reading {α : Type} {fp : Footprint} {runs : Bool} {fails : Failure → Prop}
    {post : α → Prop} {a : Action α} (ha : a.Within fp runs fails post) (hall : ∀ t, fp.admits t)
    {w : Workspace} (hw : ∀ v ∈ fp.reads, w.isOccupied v = true) :
    a.Meets reading (fun _ => True) (fun _ _ => True) w := by
  induction a generalizing w runs fails post with
  | done | fail => trivial
  | read v next ih => exact ⟨hw v ha.1, ih _ (ha.2 _ (Value.holdsOnly_of_forall _ hall)) hw⟩
  | write v x next ih =>
    exact ⟨trivial, ih ha.2.2 fun u hu => (w.grows_write v x).marks u (hw u hu)⟩
  | put v x next ih => exact ⟨trivial, ih ha.2.2 fun u hu => (w.grows_put v x).marks u (hw u hu)⟩
  | mark v next ih => exact ⟨trivial, ih ha.2 fun u hu => (w.grows_mark v).marks u (hw u hu)⟩
  | inspect => exact ha.elim
  | report e next ih => exact ih ha.2 hw
  | run p mode next ih =>
    refine ⟨fun _ _ => trivial, fun r after _ hgrows _ => ?_⟩
    have hafter : ∀ v ∈ fp.reads, after.isOccupied v = true := fun u hu => hgrows.marks u (hw u hu)
    obtain ⟨-, -, hok, herror⟩ := ha
    cases r with
    | ok => exact ih _ hok hafter
    | error e => exact ih _ (herror e) hafter

/-- A library whose methods look at their inputs only looks at set variables only. -/
theorem sound_reading {lib : Library} (hlib : lib.Confines fun _ => True) : reading.Sound lib where
  merge _ _ _ := trivial
  markAll _ _ := trivial
  missing _ _ _ := trivial
  deep _ _ := trivial
  native {t w} depth silent _ _ hinputs := by
    obtain ⟨runs, hwithin⟩ := hlib t trivial depth silent
    have hmeets := meets_reading hwithin (fun _ => trivial) hinputs
    simpa only [reading, free, implies_true] using hmeets

end Contract

/-! ## Every run -/

/-- Inputs are set when the method is called on them, outputs when it has succeeded, and a refusal
names the first input that is not set. -/
def Moment.Defined (c : Catalog) (x : Moment) : Prop :=
  match x.step with
  | .called _ t => ∀ v ∈ t.allInputs c, x.workspace.isOccupied v = true
  | .finished _ t =>
    ∀ v ∈ t.allOutputs c, v.index < x.workspace.size → x.workspace.isOccupied v = true
  | .refused i t e =>
    ∃ before v after, t.allInputs c = before ++ v :: after ∧
      (∀ u ∈ before, x.workspace.isOccupied u = true) ∧ x.workspace.isOccupied v = false ∧
      e = ⟨(c.methodAt t.method).name, (c.variableAt v).name, i⟩
  | _ => True

theorem Moment.Meets.defined {K : Contract} {c : Catalog} {x : Moment} (h : x.Meets K c) :
    x.Defined c := by
  obtain ⟨depth, step, w⟩ := x
  obtain ⟨-, h⟩ := h
  cases step with
  | called i t => exact h.2
  | finished i t => exact h.2
  | refused i t e => exact Task.missingInput?_eq_some_iff.mp h.2
  | entered | looked | read | changed | returned | left => trivial

/-- **No use before definition.** In every run of every library, at any nesting level, on the
workspace itself or on a private copy, silent or not and whatever the end: a method is called right
after its task was looked at, and then all inputs are set; when it has succeeded all outputs are
set, and that is the workspace on which the next task of the pipeline is looked at; a task that is
refused names its first unset input, and its pipeline is left at once with that error and with the
workspace as it was. The last moment is the end of the run. In every run of the standard library
each variable that is looked at is set. -/
theorem defined_before_use (maxDepth : Nat) (silent : Bool) (p : Pipeline) (w : Workspace) :
    (∀ lib : Library, List.IsChain Follows (lib.history maxDepth silent p w) ∧
      (∀ x ∈ lib.history maxDepth silent p w, x.Defined lib.catalog) ∧
      (lib.history maxDepth silent p w).getLast? =
        some ⟨0, .left p (lib.run maxDepth silent p w).1,
          (lib.run maxDepth silent p w).2.workspace⟩) ∧
    ∀ x ∈ Standard.library.history maxDepth silent p w, ∀ v, x.step = .read v →
      x.workspace.isOccupied v = true := by
  refine ⟨fun lib => ⟨isChain_history lib maxDepth silent p w, fun x hx => ?_,
    getLast?_history lib maxDepth silent p w⟩, ?_⟩
  · have hmeets := (Contract.sound_free lib).history maxDepth silent (fun _ _ => trivial)
      (w := w) trivial x hx
    exact hmeets.defined
  · rintro ⟨depth, _, u⟩ hx v rfl
    have hsound := Contract.sound_reading Standard.confines_all
    have hmeets := hsound.history maxDepth silent (fun _ _ => trivial) trivial _ hx
    exact hmeets.2

end Runbook
