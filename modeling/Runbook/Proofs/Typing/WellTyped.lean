import Runbook.Proofs.Roundtrip.Expressible
import Runbook.Proofs.Run.Contract

/-!
# Well-typed workspaces

Every slot holds a value of the group of its variable, the default one as long as it is not set, and
every stored pipeline consists of expressible tasks.

* `Workspace.WellTyped`: that, of all slots.
* `wellTyped_fresh`, `WellTyped.write`, `WellTyped.markAll`, `WellTyped.mergeFrom`: it holds at the
  start, and the steps of runs keep it.
* `Contract.typed`: every method keeps it, and fails only by a check of its own.
* `Call.Typed`: what a call on an expressible task comes with.
-/

namespace Runbook

/-! ## Workspaces -/

namespace Workspace

/-- The groups are as declared, unset slots hold their defaults, and stored pipelines are
expressible. -/
structure WellTyped (c : Catalog) (w : Workspace) : Prop where
  size_eq : w.size = c.vars.length
  group_eq : ∀ v, v.index < c.vars.length → (w.value v).group = (c.variableAt v).group
  unset : ∀ v, v.index < c.vars.length → w.isOccupied v = false →
    (c.variableAt v).group.default? = some (w.value v)
  stored : ∀ v q, w.value v = .pipeline q → q.Expressible c

variable {c : Catalog} {w : Workspace}

theorem value_fresh {v : VariableId} (hv : v.index < c.vars.length) :
    (fresh c).value v = (c.variableAt v).group.default?.getD default := by
  simp [fresh, value, Catalog.variableAt_eq_getElem hv, hv]

theorem size_fresh : (fresh c).size = c.vars.length := by
  simp [fresh, size]

theorem default?_fresh (hc : c.WellFormed) {v : VariableId} (hv : v.index < c.vars.length) :
    (c.variableAt v).group.default? = some ((fresh c).value v) := by
  rw [value_fresh hv]
  cases hd : (c.variableAt v).group.default? with
  | none =>
    have hany := Group.default?_eq_none_iff.mp hd
    exact absurd hany (hc.concrete _ (Catalog.variableAt_mem hv))
  | some x => rfl

/-- The only default that is a pipeline is an empty one. -/
theorem tasks_eq_nil_of_fresh (hc : c.WellFormed) {v : VariableId} {q : Pipeline}
    (hq : (fresh c).value v = .pipeline q) : q.tasks = [] := by
  rcases Nat.lt_or_ge v.index c.vars.length with hv | hv
  · have hd := default?_fresh hc hv
    rw [hq] at hd
    cases hg : (c.variableAt v).group <;> rw [hg] at hd <;> cases hd
    rfl
  · rw [value_of_le (by rwa [size_fresh])] at hq
    cases hq

/-- A fresh workspace is well-typed, since no variable is of an abstract group. -/
theorem wellTyped_fresh (hc : c.WellFormed) : (fresh c).WellTyped c := by
  refine ⟨size_fresh, fun v hv => Group.group_of_default? (default?_fresh hc hv),
    fun v hv _ => default?_fresh hc hv, fun v q hq t ht => ?_⟩
  rw [tasks_eq_nil_of_fresh hc hq] at ht
  cases ht

/-- A value may be stored where its group is declared, a pipeline if it is expressible. -/
theorem WellTyped.write (hw : w.WellTyped c) {v : VariableId} {x : Value}
    (hx : x.group = (c.variableAt v).group) (hq : ∀ q, x = .pipeline q → q.Expressible c) :
    (w.write v x).WellTyped c := by
  refine ⟨by rw [size_write, hw.size_eq], ?_, ?_, ?_⟩
  · intro u hu
    by_cases huv : u = v
    · subst huv
      rw [value_write_self (by rwa [hw.size_eq]), hx]
    · rw [value_write_of_ne huv]
      exact hw.group_eq u hu
  · intro u hu hunset
    rw [isOccupied_write, Bool.or_eq_false_iff] at hunset
    have huv : u ≠ v := by
      rintro rfl
      have hlt : u.index < w.size := by rwa [hw.size_eq]
      simp [hlt] at hunset
    rw [value_write_of_ne huv]
    exact hw.unset u hu hunset.1
  · intro u q hstored
    by_cases huv : u = v
    · subst huv
      rcases Nat.lt_or_ge u.index w.size with hu | hu
      · rw [value_write_self hu] at hstored
        exact hq q hstored
      · rw [value_of_le (by rwa [size_write])] at hstored
        cases hstored
    · rw [value_write_of_ne huv] at hstored
      exact hw.stored u q hstored

theorem WellTyped.mark (hw : w.WellTyped c) (v : VariableId) : (w.mark v).WellTyped c := by
  refine ⟨by rw [size_mark, hw.size_eq], ?_, ?_, ?_⟩
  · intro u hu
    rw [value_mark]
    exact hw.group_eq u hu
  · intro u hu hunset
    rw [isOccupied_mark, Bool.or_eq_false_iff] at hunset
    rw [value_mark]
    exact hw.unset u hu hunset.1
  · intro u q hstored
    rw [value_mark] at hstored
    exact hw.stored u q hstored

theorem WellTyped.markAll (hw : w.WellTyped c) (vs : List VariableId) :
    (w.markAll vs).WellTyped c := by
  induction vs generalizing w with
  | nil => exact hw
  | cons v vs ih => exact ih (hw.mark v)

/-- What is copied from a well-typed workspace is of the right group there. -/
theorem WellTyped.mergeFrom (hw : w.WellTyped c) {other : Workspace} (hother : other.WellTyped c)
    (vs : List VariableId) : (w.mergeFrom other vs).WellTyped c := by
  induction vs generalizing w with
  | nil => exact hw
  | cons v vs ih =>
    refine ih ?_
    dsimp only
    split
    case isTrue hset =>
      have hv : v.index < c.vars.length := by
        rw [← hother.size_eq]
        exact lt_size_of_isOccupied hset
      exact hw.write (hother.group_eq v hv) (hother.stored v)
    case isFalse => exact hw

end Workspace

/-! ## Failures -/

/-- The method whose own check of its arguments raises the fault. Of the other faults there is none:
they are about slots and groups, which the binder has checked. -/
def Fault.checkedBy? : Fault → Option String
  | .argument (.matrixColumns _) | .argument (.matrixRows ..) => some "MatrixSet"
  | .argument .gridStepZero | .argument (.gridUnbounded ..) | .argument (.gridAway ..)
  | .argument (.gridTooLong ..) => some "VectorLinSpace"
  | .argument (.gridTooFew _) | .argument (.gridTooMany _) => some "VectorNLinSpace"
  | .argument (.copyGroup ..) => some "Copy"
  | .argument (.indexOverflow ..) => some "IndexAdd"
  | .argument (.unknownKeep _) => some "AgendaExecuteExclusive"
  | .argument .loopStepZero => some "ForLoop"
  | .argument (.printLevel _) => some "Print"
  | .raised _ => some "Error"
  | .wrongGroup _ | .noKeyword .. | .noInput .. | .noOutput .. | .noEmbedded _ | .notStorable ..
  | .matrix _ => none

/-- The error is a missing input, a pipeline too deep, or the failed check of a method of its own
arguments, without any context. -/
def RunError.Expected : RunError → Prop
  | .missingInput _ | .depthExceeded .. => True
  | .methodFailed method _ contexts fault => contexts = [] ∧ fault.checkedBy? = some method

/-- Workspaces are well-typed, tasks are expressible, and errors are expected. -/
def Contract.typed (c : Catalog) : Contract where
  Holds w := w.WellTyped c
  Admits t := t.Expressible c
  Reads _ _ := True
  Fails := RunError.Expected

/-- As a method called `name`, the action keeps workspaces well-typed from `w` on and fails as
expected. -/
def Action.Safe {α : Type} (c : Catalog) (name : String) (post : α → Workspace → Prop)
    (a : Action α) (w : Workspace) : Prop :=
  a.Meets (Contract.typed c) (fun f => ∀ i, (f.report name i).Expected) post w

section

variable {α : Type} {c : Catalog} {name : String} {post : α → Workspace → Prop} {w : Workspace}

theorem safe_andThen {β : Type} {mid : β → Workspace → Prop} {a : Action β} {f : β → Action α}
    (ha : a.Safe c name mid w) (hf : ∀ x after, mid x after → (f x).Safe c name post after) :
    (a.andThen f).Safe c name post w :=
  meets_andThen ha hf

theorem safe_fault {f : Fault} (h : f.checkedBy? = some name) :
    (Action.fault f : Action α).Safe c name post w :=
  fun _ => ⟨rfl, h⟩

theorem safe_contents {r : Except GroupMismatch α} (h : ∃ x, r = .ok x) :
    (Action.contents r).Safe c name (fun _ after => after = w) w := by
  obtain ⟨x, rfl⟩ := h
  rfl

theorem safe_get (v : VariableId) :
    (Action.get v).Safe c name (fun x after => after = w ∧ x = w.value v) w :=
  ⟨trivial, rfl, rfl⟩

/-- Expressible tasks may be run, and what fails below fails as expected. -/
theorem safe_execute {p : Pipeline} (hp : p.Expressible c) (mode : Mode) :
    (Action.execute p mode).Safe c name (fun _ _ => True) w := by
  refine ⟨hp, ?_⟩
  rintro (e | _) after - - he
  · exact fun _ => he e rfl
  · trivial

end

/-! ## Calls -/

/-- The groups of all outputs, the fixed ones first. -/
def Method.outputGroups (c : Catalog) (m : Method) : List Group :=
  m.fixedOutputs.map (fun v => (c.variableAt v).group) ++ m.genericOutputs

/-- The groups of all inputs, the fixed ones first. -/
def Method.inputGroups (c : Catalog) (m : Method) : List Group :=
  m.fixedInputs.map (fun v => (c.variableAt v).group) ++ m.genericInputs

/-- A variable that a slot of group `g` takes. -/
def Catalog.Takes (c : Catalog) (g : Group) (v : VariableId) : Prop :=
  v.index < c.vars.length ∧ g.accepts (c.variableAt v).group = true

/-- The call is on a task whose slots are of these groups, with expressible tasks in its body. -/
structure Call.Typed (c : Call) (outputs inputs keywords : List Group) : Prop where
  outputs : List.Forall₂ c.catalog.Takes outputs (c.task.allOutputs c.catalog)
  inputs : List.Forall₂ c.catalog.Takes inputs (c.task.allInputs c.catalog)
  keywords : List.Forall₂ (fun g x => Value.Fits g x) keywords c.task.keywords
  body : ∀ t ∈ (c.task.embedded.map Pipeline.tasks).getD [], t.Expressible c.catalog

theorem takes_fixed {c : Catalog} {vs : List VariableId} (h : ∀ v ∈ vs, v.index < c.vars.length) :
    List.Forall₂ c.Takes (vs.map fun v => (c.variableAt v).group) vs := by
  induction vs with
  | nil => exact .nil
  | cons v vs ih =>
    refine .cons ⟨h v List.mem_cons_self, ?_⟩ (ih fun u hu => h u (List.mem_cons_of_mem v hu))
    exact Group.accepts_iff.mpr (.inr rfl)

/-- A call on an expressible task is typed as its method declares. -/
theorem typed_of_expressible {c : Catalog} (hc : c.WellFormed) {t : Task} (ht : t.Expressible c)
    (depth : Nat) (silent : Bool) :
    Call.Typed ⟨c, t, depth, silent⟩ ((c.methodAt t.method).outputGroups c)
      ((c.methodAt t.method).inputGroups c)
      ((c.methodAt t.method).keywords.map Keyword.group) := by
  have hslots := ht.fillsSlots
  have hfixed := hc.fixed_lt _ (Catalog.methodAt_mem hslots.method_lt)
  refine ⟨?_, ?_, ?_, ?_⟩
  · exact List.rel_append (takes_fixed fun v hv => hfixed v (List.mem_append_left _ hv))
      hslots.outputs
  · exact List.rel_append (takes_fixed fun v hv => hfixed v (List.mem_append_right _ hv))
      hslots.inputs
  · rw [List.forall₂_map_left_iff]
    exact hslots.keywords.imp fun _ _ h => h.1
  · cases ht with
    | plain => exact fun t ht => nomatch ht
    | embedding _ _ htasks => exact htasks

end Runbook
