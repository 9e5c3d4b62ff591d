import Runbook.Proofs.Roundtrip.Expressible

/-!
# Tasks in pipelines

Where a task stands in a pipeline, and what the queries about variables say of the tasks there.

* `Pipeline.Includes`: the task stands in the pipeline, at some nesting level.
* `reads_iff`, `writes_iff`: a pipeline reads and writes what one of its tasks does.
* `Expressible.includes`: the tasks of an expressible pipeline are expressible at every level.
-/

namespace Runbook

/-- The task stands in the pipeline, at some nesting level. -/
inductive Pipeline.Includes : Pipeline → Task → Prop where
  | here {p : Pipeline} {t : Task} : t ∈ p.tasks → Includes p t
  | inside {p q : Pipeline} {t u : Task} :
    t ∈ p.tasks → t.embedded = some q → Includes q u → Includes p u

namespace Pipeline

/-- What is in the body of a task is in every pipeline that the task is in. -/
theorem Includes.nested {p q : Pipeline} {t u : Task} (h : p.Includes t) (hq : t.embedded = some q)
    (hu : q.Includes u) : p.Includes u := by
  induction h with
  | here ht => exact .inside ht hq hu
  | inside ht hbody _ ih => exact .inside ht hbody (ih hq)

theorem Includes.body {p q : Pipeline} {t u : Task} (h : p.Includes t) (hq : t.embedded = some q)
    (hu : u ∈ q.tasks) : p.Includes u :=
  h.nested hq (.here hu)

theorem includes_nil {name : String} {u : Task} : ¬ (Pipeline.mk name []).Includes u := by
  rintro (h | ⟨h, -, -⟩) <;> cases h

theorem includes_cons {name : String} {t u : Task} {ts : List Task} :
    (Pipeline.mk name (t :: ts)).Includes u ↔
      u = t ∨ (∃ q, t.embedded = some q ∧ q.Includes u) ∨ (Pipeline.mk name ts).Includes u := by
  constructor
  · rintro (h | ⟨h, hq, hu⟩)
    · rcases List.mem_cons.mp h with rfl | h
      · exact .inl rfl
      · exact .inr (.inr (.here h))
    · rcases List.mem_cons.mp h with rfl | h
      · exact .inr (.inl ⟨_, hq, hu⟩)
      · exact .inr (.inr (.inside h hq hu))
  · rintro (rfl | ⟨q, hq, hu⟩ | (h | ⟨h, hq, hu⟩))
    · exact .here List.mem_cons_self
    · exact .inside List.mem_cons_self hq hu
    · exact .here (List.mem_cons_of_mem t h)
    · exact .inside (List.mem_cons_of_mem t h) hq hu

end Pipeline

/-! ## Use of variables -/

section

variable {slots : MethodId → List VariableId → List VariableId → List VariableId} {v : VariableId}

mutual

theorem Task.touches_iff (t : Task) :
    Task.touches slots v t = true ↔ v ∈ slots t.method t.outputs t.inputs ∨
      ∃ q, t.embedded = some q ∧ ∃ u, q.Includes u ∧ v ∈ slots u.method u.outputs u.inputs := by
  match t with
  | ⟨m, _, os, is, none⟩ => simp [Task.touches]
  | ⟨m, _, os, is, some p⟩ =>
    rw [Task.touches, Bool.or_eq_true, p.touches_iff]
    simp

theorem Task.anyTouches_iff (name : String) (ts : List Task) :
    Task.anyTouches slots v ts = true ↔
      ∃ u, (Pipeline.mk name ts).Includes u ∧ v ∈ slots u.method u.outputs u.inputs := by
  match ts with
  | [] =>
    rw [Task.anyTouches]
    exact ⟨nofun, fun ⟨u, hu, _⟩ => absurd hu Pipeline.includes_nil⟩
  | t :: ts =>
    rw [Task.anyTouches, Bool.or_eq_true, t.touches_iff, Task.anyTouches_iff name ts]
    simp only [Pipeline.includes_cons]
    constructor
    · rintro ((h | ⟨q, hq, u, hu, h⟩) | ⟨u, hu, h⟩)
      · exact ⟨t, .inl rfl, h⟩
      · exact ⟨u, .inr (.inl ⟨q, hq, hu⟩), h⟩
      · exact ⟨u, .inr (.inr hu), h⟩
    · rintro ⟨u, rfl | ⟨q, hq, hu⟩ | hu, h⟩
      · exact .inl (.inl h)
      · exact .inl (.inr ⟨q, hq, u, hu, h⟩)
      · exact .inr ⟨u, hu, h⟩

/-- A query about the slots of a pipeline is one about the slots of its tasks. -/
theorem Pipeline.touches_iff (p : Pipeline) :
    p.touches slots v = true ↔
      ∃ u, p.Includes u ∧ v ∈ slots u.method u.outputs u.inputs := by
  match p with
  | ⟨name, ts⟩ => rw [Pipeline.touches, Task.anyTouches_iff name ts]

end

theorem Pipeline.touches_of_tasks_eq_nil {p : Pipeline} (h : p.tasks = []) :
    p.touches slots v = false := by
  obtain ⟨name, ts⟩ := p
  subst h
  rfl

end

namespace Pipeline

variable {c : Catalog} {p : Pipeline} {v : VariableId}

/-- **A pipeline reads what one of its tasks reads.** -/
theorem reads_iff : p.reads c v = true ↔ ∃ t, p.Includes t ∧ v ∈ t.allInputs c :=
  p.touches_iff

/-- **A pipeline writes what one of its tasks writes.** -/
theorem writes_iff : p.writes c v = true ↔ ∃ t, p.Includes t ∧ v ∈ t.allOutputs c :=
  p.touches_iff

/-- The tasks of an expressible pipeline are expressible at every level. -/
theorem Expressible.includes (hp : p.Expressible c) {t : Task} (h : p.Includes t) :
    t.Expressible c := by
  induction h with
  | here ht => exact hp _ ht
  | inside ht hq _ ih =>
    refine ih ?_
    cases hp _ ht with
    | plain => cases hq
    | embedding _ _ htasks =>
      cases hq
      exact htasks

end Pipeline
end Runbook
