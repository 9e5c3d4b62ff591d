import Runbook.Proofs.Roundtrip.Display
import Runbook.Proofs.Run.Contract
import Runbook.Proofs.Standard.Confinement
import Runbook.Proofs.Typing.WellTyped

/-!
# What a run can do

The tasks that a run may come to are known before it starts: those of its pipeline and of the
pipelines that are stored in the workspace. Agendas are built, copied and overwritten while it
lasts, but only from these tasks. So what the pipelines read and write as a whole bounds the run.

* `Workspace.TracedTo`: what a workspace has in common with the one at the start.
* `Contract.tracing`: runs of admitted tasks keep that, and lack no input that was set at the start.
* `Standard.run_bounded_by_sources`: the tasks, the changes and the missing inputs of a run.
-/

namespace Runbook

/-- No admitted task writes the variable. -/
def Unwritten (c : Catalog) (admits : Task → Prop) (v : VariableId) : Prop :=
  ∀ t, admits t → v ∉ t.allOutputs c

namespace Workspace

/-- `w` may come from `before` by runs of admitted tasks: stored pipelines consist of admitted
tasks, no mark is lost, and what no admitted task writes is as it was. -/
structure TracedTo (c : Catalog) (admits : Task → Prop) (before w : Workspace) : Prop where
  stored : ∀ v, (w.value v).HoldsOnly admits
  grows : before.Grows w
  frame : ∀ v, Unwritten c admits v →
    w.value v = before.value v ∧ w.isOccupied v = before.isOccupied v

namespace TracedTo

variable {c : Catalog} {admits : Task → Prop} {before w : Workspace}

theorem refl (h : ∀ v, (w.value v).HoldsOnly admits) : w.TracedTo c admits w :=
  ⟨h, .refl w, fun _ _ => ⟨rfl, rfl⟩⟩

/-- A change that keeps to the admitted tasks and to what they write. -/
theorem trans (h : TracedTo c admits before w) {after : Workspace}
    (hafter : TracedTo c admits w after) : TracedTo c admits before after := by
  refine ⟨hafter.stored, h.grows.trans hafter.grows, fun v hv => ?_⟩
  obtain ⟨hvalue, hoccupied⟩ := hafter.frame v hv
  obtain ⟨hvalue', hoccupied'⟩ := h.frame v hv
  exact ⟨hvalue.trans hvalue', hoccupied.trans hoccupied'⟩

/-- A variable that a task writes may be set to any value of admitted tasks; so may one that is set
already, to the value that it has. -/
theorem write (h : TracedTo c admits before w) {v : VariableId} {x : Value}
    (hx : x.HoldsOnly admits)
    (hv : Unwritten c admits v → x = w.value v ∧ w.isOccupied v = true) :
    TracedTo c admits before (w.write v x) := by
  refine h.trans ⟨fun u => holdsOnly_write (h.stored u) hx, w.grows_write v x, fun u hu => ?_⟩
  by_cases huv : u = v
  · subst huv
    obtain ⟨rfl, hset⟩ := hv hu
    constructor
    · rw [value_write, ite_self]
    · rw [isOccupied_write, hset, Bool.true_or]
  · constructor
    · exact value_write_of_ne huv w x
    · simp [huv]

theorem put (h : TracedTo c admits before w) {v : VariableId} {x : Value}
    (hx : x.HoldsOnly admits) (hv : ¬ Unwritten c admits v) :
    TracedTo c admits before (w.put v x) := by
  refine h.trans ⟨fun u => holdsOnly_put (h.stored u) hx, w.grows_put v x, fun u hu => ?_⟩
  constructor
  · refine value_put_of_ne ?_ w x
    rintro rfl
    exact hv hu
  · exact isOccupied_put w u v x

theorem mark (h : TracedTo c admits before w) {v : VariableId} (hv : ¬ Unwritten c admits v) :
    TracedTo c admits before (w.mark v) := by
  refine h.trans ⟨fun u => ?_, w.grows_mark v, fun u hu => ?_⟩
  · rw [value_mark]
    exact h.stored u
  · have huv : u ≠ v := by
      rintro rfl
      exact hv hu
    exact ⟨value_mark w u v, by simp [huv]⟩

theorem markAll (h : TracedTo c admits before w) {vs : List VariableId}
    (hvs : ∀ v ∈ vs, ¬ Unwritten c admits v) : TracedTo c admits before (w.markAll vs) := by
  induction vs generalizing w with
  | nil => exact h
  | cons v vs ih =>
    rw [List.forall_mem_cons] at hvs
    exact ih (h.mark hvs.1) hvs.2

/-- On a private copy, too, the other variables are as they were, so it does no harm to keep some
of them. -/
theorem mergeFrom (h : TracedTo c admits before w) {other : Workspace}
    (hother : TracedTo c admits before other) (vs : List VariableId) :
    TracedTo c admits before (w.mergeFrom other vs) := by
  induction vs generalizing w with
  | nil => exact h
  | cons v vs ih =>
    refine ih ?_
    dsimp only
    split
    case isTrue hset =>
      refine h.write (hother.stored v) fun hv => ?_
      obtain ⟨hvalue, hoccupied⟩ := h.frame v hv
      obtain ⟨hvalue', hoccupied'⟩ := hother.frame v hv
      exact ⟨hvalue'.trans hvalue.symm, by rw [hoccupied, ← hoccupied', hset]⟩
    case isFalse => exact h

end TracedTo
end Workspace

/-! ## Runs of admitted tasks -/

namespace Contract

variable {admits : Task → Prop} {before : Workspace}

/-- Only admitted tasks are run, workspaces are traced to the one at the start, and no input is
missing if all that admitted tasks read was set there. -/
def tracing (c : Catalog) (admits : Task → Prop) (before : Workspace) : Contract where
  Holds := Workspace.TracedTo c admits before
  Admits := admits
  Reads _ _ := True
  Fails e := (∀ t, admits t → ∀ v ∈ t.allInputs c, before.isOccupied v = true) →
    ∀ m, e ≠ .missingInput m

theorem meets_tracing {α : Type} {c : Catalog} {fp : Footprint} {runs : Bool}
    {fails : Failure → Prop} {post : α → Prop} {a : Action α} (ha : a.Within fp runs fails post)
    (hadmits : fp.admits = admits) (hwrites : ∀ v ∈ fp.writes, ¬ Unwritten c admits v)
    {name : String}
    (hfails : ∀ f, fails f → ∀ i, (tracing c admits before).Fails (f.report name i))
    {w : Workspace} (hw : Workspace.TracedTo c admits before w) :
    a.Meets (tracing c admits before)
      (fun f => ∀ i, (tracing c admits before).Fails (f.report name i)) (fun _ _ => True) w := by
  subst hadmits
  induction a generalizing w runs fails post with
  | done => trivial
  | fail f => exact hfails f ha
  | read v next ih => exact ⟨trivial, ih _ (ha.2 _ (hw.stored v)) hfails hw⟩
  | write v x next ih =>
    have hafter := hw.write ha.2.1 fun hv => absurd hv (hwrites v ha.1)
    exact ⟨hafter, ih ha.2.2 hfails hafter⟩
  | put v x next ih =>
    have hafter := hw.put ha.2.1 (hwrites v ha.1)
    exact ⟨hafter, ih ha.2.2 hfails hafter⟩
  | mark v next ih =>
    have hafter := hw.mark (hwrites v ha.1)
    exact ⟨hafter, ih ha.2 hfails hafter⟩
  | inspect => exact ha.elim
  | report e next ih => exact ih ha.2 hfails hw
  | run p mode next ih =>
    obtain ⟨-, hp, hok, herror⟩ := ha
    refine ⟨hp, fun r after hafter _ hr => ?_⟩
    cases r with
    | ok => exact ih _ hok nofun hafter
    | error e =>
      -- What fails here fails for the nested run.
      refine ih _ (herror e) (fun f hf i => ?_) hafter
      rw [Failure.report_nested hf]
      exact hr e rfl

/-- A library that confines the tasks keeps to them and to what they read and write. -/
theorem sound_tracing {lib : Library} (hlib : lib.Confines admits) :
    (tracing lib.catalog admits before).Sound lib where
  merge keep hw hother := hw.mergeFrom hother keep
  markAll ht hw := hw.markAll fun _ hv hunwritten => hunwritten _ ht hv
  missing ht hw hinput hset := by
    obtain ⟨prior, v, rest, heq, -, hunset, -⟩ := Task.missingInput?_eq_some_iff.mp hinput
    have hv := hw.grows.marks v (hset _ ht v (by rw [heq]; simp))
    rw [hunset] at hv
    cases hv
  deep _ _ _ _ h := by cases h
  native depth silent ht hw _ := by
    obtain ⟨runs, hwithin⟩ := hlib _ ht depth silent
    refine meets_tracing hwithin rfl (fun v hv hunwritten => hunwritten _ ht hv) ?_ hw
    rintro f ⟨fault, hcause⟩ i - m h
    rw [Failure.report, hcause] at h
    cases h

end Contract

/-! ## Every run -/

namespace Standard

/-- **What its pipelines read and write bounds a run.** Let `p` and all pipelines that are stored in
the workspace, set or not, consist of tasks as the binder makes them. Then every task that is looked
at or called in the run of `p`, at any nesting level, stands in `p` or in one of those; what none of
them writes is after the run as it was before, whether it fails or not; and if all that they read
was set before, then no input is missing. -/
theorem run_bounded_by_sources {p : Pipeline} (hp : p.Expressible library.catalog) {w : Workspace}
    (hw : ∀ v q, w.value v = .pipeline q → q.Expressible library.catalog) (maxDepth : Nat)
    (silent : Bool) :
    (∀ x ∈ library.history maxDepth silent p w, ∀ i t,
      x.step = .looked i t ∨ x.step = .called i t →
        ∃ q, w.Source Set.univ p q ∧ q.Includes t) ∧
    (∀ v, (∀ q, w.Source Set.univ p q → q.writes library.catalog v = false) →
      let after := (library.run maxDepth silent p w).2.workspace
      after.value v = w.value v ∧ after.isOccupied v = w.isOccupied v) ∧
    ((∀ q v, w.Source Set.univ p q → q.reads library.catalog v = true → w.isOccupied v = true) →
      ∀ e, (library.run maxDepth silent p w).1 ≠ .error (.missingInput e)) := by
  have hsources : ∀ q, w.Source Set.univ p q → q.Expressible library.catalog := by
    rintro q (rfl | ⟨v, -, hv⟩)
    · exact hp
    · exact hw v q hv
  have hsound : (Contract.tracing library.catalog (w.Supplies Set.univ p) w).Sound library :=
    Contract.sound_tracing (confines_supplies hsources)
  have hruns : ∀ t ∈ p.tasks, w.Supplies Set.univ p t := fun _ => Workspace.supplies_of_mem
  have hstart : w.TracedTo library.catalog (w.Supplies Set.univ p) w :=
    .refl fun v => Workspace.holdsOnly_supplies (Set.mem_univ v)
  have hrun := hsound.run maxDepth silent hruns hstart
  refine ⟨?_, ?_, ?_⟩
  · rintro ⟨depth, _, u⟩ hx i t (rfl | rfl)
    · exact (hsound.history maxDepth silent hruns hstart _ hx).2
    · exact (hsound.history maxDepth silent hruns hstart _ hx).2.1
  · intro v hv
    refine hrun.holds.frame v ?_
    rintro t ⟨q, hq, ht⟩ hout
    have hwrites := Pipeline.writes_iff.mpr ⟨t, ht, hout⟩
    rw [hv q hq] at hwrites
    cases hwrites
  · intro hset e he
    refine hrun.fails _ he ?_ e rfl
    rintro t ⟨q, hq, ht⟩ v hin
    exact hset q v hq (Pipeline.reads_iff.mpr ⟨t, ht, hin⟩)

/-- A pipeline that executes what is stored as an agenda. -/
def executesStored : Pipeline :=
  ⟨"main", [⟨⟨20⟩, [], [], [⟨10⟩], none⟩]⟩

theorem methodAt_executeAgenda : library.catalog.methodAt ⟨20⟩ =
    ⟨"AgendaExecute", "Executes an agenda on the workspace.", [], [], [], [.pipeline], [], false⟩ :=
  by decide +kernel

theorem expressible_executesStored : executesStored.Expressible library.catalog := by
  rintro t (_ | ⟨_, ht⟩)
  · refine .plain ⟨by decide +kernel, ?_, ?_, ?_⟩ ?_ <;> rw [methodAt_executeAgenda]
    · exact .nil
    · exact .cons (by decide +kernel) .nil
    · exact .nil
  · cases ht

theorem reads_executesStored {v : VariableId}
    (h : executesStored.reads library.catalog v = true) : v = ⟨10⟩ := by
  simpa [executesStored, Pipeline.reads, Pipeline.touches, Task.anyTouches, Task.touches,
    methodAt_executeAgenda] using h

theorem reads_storedTask (v : VariableId) : storedTask.reads library.catalog v = false := by
  have hset : (library.catalog.methodAt ⟨1⟩).fixedInputs = [] := by decide +kernel
  have hagenda : (library.catalog.methodAt ⟨18⟩).fixedInputs = [] := by decide +kernel
  simp [storedTask, Pipeline.reads, Pipeline.touches, Task.anyTouches, Task.touches, hset, hagenda]

/-- The workspace for it: with an agenda that replaces itself. -/
def withStored : Workspace :=
  (Workspace.fresh library.catalog).write ⟨10⟩ (.pipeline storedTask)

theorem eq_storedTask_or {v : VariableId} {q : Pipeline} (h : withStored.value v = .pipeline q) :
    q = storedTask ∨ q.tasks = [] := by
  rw [withStored, Workspace.value_write] at h
  split at h
  case isTrue =>
    cases h
    exact .inl rfl
  case isFalse => exact .inr (Workspace.tasks_eq_nil_of_fresh (wellFormed_of_built built) h)

theorem expressible_of_stored {v : VariableId} {q : Pipeline}
    (h : withStored.value v = .pipeline q) : q.Expressible library.catalog := by
  rcases eq_storedTask_or h with rfl | hq
  · exact expressible_storedTask
  · intro t ht
    rw [hq] at ht
    cases ht

theorem reads_of_stored {v : VariableId} {q : Pipeline} (h : withStored.value v = .pipeline q)
    (u : VariableId) : q.reads library.catalog u = false := by
  rcases eq_storedTask_or h with rfl | hq
  · exact reads_storedTask u
  · exact Pipeline.touches_of_tasks_eq_nil hq

/-- The run changes the agenda and the number that it sets, but no index, and needs nothing else. -/
theorem executesStored_bounded :
    executesStored.Expressible library.catalog ∧
    (∀ v q, withStored.value v = .pipeline q → q.Expressible library.catalog) ∧
    (let after := (library.run 64 false executesStored withStored).2.workspace
     after.value ⟨0⟩ = withStored.value ⟨0⟩ ∧
       after.isOccupied ⟨0⟩ = withStored.isOccupied ⟨0⟩) ∧
    ∀ e, (library.run 64 false executesStored withStored).1 ≠ .error (.missingInput e) := by
  have hstored : ∀ v q, withStored.value v = .pipeline q → q.Expressible library.catalog :=
    fun _ _ => expressible_of_stored
  obtain ⟨-, hframe, hset⟩ := run_bounded_by_sources expressible_executesStored hstored 64 false
  refine ⟨expressible_executesStored, hstored, hframe ⟨0⟩ ?_, hset ?_⟩
  · rintro q (rfl | ⟨v, -, hq⟩)
    · decide +kernel
    · rcases eq_storedTask_or hq with rfl | hq
      · decide +kernel
      · exact Pipeline.touches_of_tasks_eq_nil hq
  · rintro q u (rfl | ⟨v, -, hq⟩) hu
    · rw [reads_executesStored hu]
      decide +kernel
    · rw [reads_of_stored hq] at hu
      cases hu

end Standard
end Runbook
