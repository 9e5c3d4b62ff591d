import Mathlib.Data.List.Find
import Runbook.Proofs.Run.Bounds

/-!
# What a run depends on

Two runs of a pipeline on workspaces that differ only in variables which none of the pipelines
involved reads go the same way: they make the same reports, come to the same end, and leave
workspaces that again differ only there. In between, agendas are taken from the variables that
agree, so they are the same on both sides and read nothing else either; and private copies may
differ in the other variables, which are copied back to variables that may differ.

* `Workspace.AgreesOn`: the same values and marks in a set of variables.
* `State.Alike`: states that the two runs are in at the same time.
* `Library.Confines.depends_execute`: from such states runs lead to such states.
* `Standard.run_of_agreesOn`: the two runs in the standard library.
-/

namespace Runbook

/-! ## Workspaces that agree -/

namespace Workspace

/-- As many slots, and in those of `V` the same values and the same marks. -/
structure AgreesOn (V : Set VariableId) (w₁ w₂ : Workspace) : Prop where
  size_eq : w₁.size = w₂.size
  value_eq : ∀ v ∈ V, w₁.value v = w₂.value v
  occupied_eq : ∀ v ∈ V, w₁.isOccupied v = w₂.isOccupied v

variable {V : Set VariableId} {w w₁ w₂ : Workspace}

theorem AgreesOn.refl (w : Workspace) : AgreesOn V w w :=
  ⟨rfl, fun _ _ => rfl, fun _ _ => rfl⟩

theorem AgreesOn.symm (h : AgreesOn V w₁ w₂) : AgreesOn V w₂ w₁ :=
  ⟨h.size_eq.symm, fun v hv => (h.value_eq v hv).symm, fun v hv => (h.occupied_eq v hv).symm⟩

theorem AgreesOn.trans (h : AgreesOn V w₁ w) (h' : AgreesOn V w w₂) : AgreesOn V w₁ w₂ :=
  ⟨h.size_eq.trans h'.size_eq, fun v hv => (h.value_eq v hv).trans (h'.value_eq v hv),
    fun v hv => (h.occupied_eq v hv).trans (h'.occupied_eq v hv)⟩

/-- Outside of `V` a write goes unnoticed. -/
theorem agreesOn_write {v : VariableId} (hv : v ∉ V) (x : Value) : AgreesOn V (w.write v x) w := by
  have hne : ∀ u ∈ V, u ≠ v := by
    rintro u hu rfl
    exact hv hu
  refine ⟨size_write w v x, fun u hu => value_write_of_ne (hne u hu) w x, fun u hu => ?_⟩
  simp [hne u hu]

namespace AgreesOn

variable (h : AgreesOn V w₁ w₂)

include h

theorem write (v : VariableId) (x : Value) : AgreesOn V (w₁.write v x) (w₂.write v x) := by
  refine ⟨by simp [h.size_eq], fun u hu => ?_, fun u hu => ?_⟩
  · rw [value_write, value_write, h.size_eq, h.value_eq u hu]
  · rw [isOccupied_write, isOccupied_write, h.size_eq, h.occupied_eq u hu]

theorem put (v : VariableId) (x : Value) : AgreesOn V (w₁.put v x) (w₂.put v x) := by
  refine ⟨by simp [h.size_eq], fun u hu => ?_, fun u hu => ?_⟩
  · rw [value_put, value_put, h.size_eq, h.value_eq u hu]
  · rw [isOccupied_put, isOccupied_put, h.occupied_eq u hu]

theorem mark (v : VariableId) : AgreesOn V (w₁.mark v) (w₂.mark v) := by
  refine ⟨by simp [h.size_eq], fun u hu => ?_, fun u hu => ?_⟩
  · rw [value_mark, value_mark, h.value_eq u hu]
  · rw [isOccupied_mark, isOccupied_mark, h.size_eq, h.occupied_eq u hu]

omit h in
theorem markAll (h : AgreesOn V w₁ w₂) (vs : List VariableId) :
    AgreesOn V (w₁.markAll vs) (w₂.markAll vs) := by
  induction vs generalizing w₁ w₂ with
  | nil => exact h
  | cons v vs ih => exact ih (h.mark v)

omit h in
/-- What is copied from workspaces that agree is the same, or goes unnoticed. -/
theorem mergeFrom (h : AgreesOn V w₁ w₂) {other₁ other₂ : Workspace}
    (hother : AgreesOn V other₁ other₂) (vs : List VariableId) :
    AgreesOn V (w₁.mergeFrom other₁ vs) (w₂.mergeFrom other₂ vs) := by
  induction vs generalizing w₁ w₂ with
  | nil => exact h
  | cons v vs ih =>
    refine ih ?_
    dsimp only
    by_cases hv : v ∈ V
    · rw [hother.occupied_eq v hv, hother.value_eq v hv]
      split
      · exact h.write v _
      · exact h
    · -- Only one of the two may be set.
      have hleft : AgreesOn V
          (if other₁.isOccupied v then w₁.write v (other₁.value v) else w₁) w₁ := by
        split
        · exact agreesOn_write hv _
        · exact .refl _
      have hright : AgreesOn V
          (if other₂.isOccupied v then w₂.write v (other₂.value v) else w₂) w₂ := by
        split
        · exact agreesOn_write hv _
        · exact .refl _
      exact (hleft.trans h).trans hright.symm

end AgreesOn
end Workspace

/-! ## States that are alike -/

/-- The same reports so far, workspaces that agree on `V`, and what is stored there consists of
admitted tasks. -/
structure State.Alike (V : Set VariableId) (admits : Task → Prop) (s₁ s₂ : State) : Prop where
  log_eq : s₁.log = s₂.log
  agrees : s₁.workspace.AgreesOn V s₂.workspace
  stored : ∀ v ∈ V, (s₁.workspace.value v).HoldsOnly admits

namespace State.Alike

variable {V : Set VariableId} {admits : Task → Prop} {s₁ s₂ : State}
  (h : s₁.Alike V admits s₂)

include h

theorem report (e : Event) : (s₁.report e).Alike V admits (s₂.report e) :=
  ⟨congrArg (·.push e) h.log_eq, h.agrees, h.stored⟩

theorem write (v : VariableId) {x : Value} (hx : x.HoldsOnly admits) :
    (s₁.update (·.write v x)).Alike V admits (s₂.update (·.write v x)) :=
  ⟨h.log_eq, h.agrees.write v x, fun u hu => Workspace.holdsOnly_write (h.stored u hu) hx⟩

theorem put (v : VariableId) {x : Value} (hx : x.HoldsOnly admits) :
    (s₁.update (·.put v x)).Alike V admits (s₂.update (·.put v x)) :=
  ⟨h.log_eq, h.agrees.put v x, fun u hu => Workspace.holdsOnly_put (h.stored u hu) hx⟩

theorem mark (v : VariableId) :
    (s₁.update (·.mark v)).Alike V admits (s₂.update (·.mark v)) := by
  refine ⟨h.log_eq, h.agrees.mark v, fun u hu => ?_⟩
  have hvalue : (s₁.update (·.mark v)).workspace.value u = s₁.workspace.value u :=
    Workspace.value_mark _ u v
  rw [hvalue]
  exact h.stored u hu

theorem markAll (vs : List VariableId) :
    (s₁.update (·.markAll vs)).Alike V admits (s₂.update (·.markAll vs)) := by
  refine ⟨h.log_eq, h.agrees.markAll vs, fun u hu => ?_⟩
  have hvalue : (s₁.update (·.markAll vs)).workspace.value u = s₁.workspace.value u :=
    Workspace.value_markAll _ vs u
  rw [hvalue]
  exact h.stored u hu

/-- What is kept of private copies that were alike at their end. -/
theorem mergeFrom {after₁ after₂ : State} (hafter : after₁.Alike V admits after₂)
    (keep : List VariableId) :
    State.Alike V admits ⟨s₁.workspace.mergeFrom after₁.workspace keep, after₁.log⟩
      ⟨s₂.workspace.mergeFrom after₂.workspace keep, after₂.log⟩ := by
  refine ⟨hafter.log_eq, h.agrees.mergeFrom hafter.agrees keep, fun u hu => ?_⟩
  rcases Workspace.value_mergeFrom_or s₁.workspace after₁.workspace keep u with hvalue | hvalue
  · exact hvalue ▸ hafter.stored u hu
  · exact hvalue ▸ h.stored u hu

end State.Alike

/-- Two runs come to the same end and leave states that are alike. -/
structure EndAlike {α : Type} (V : Set VariableId) (admits : Task → Prop) (r₁ r₂ : α × State) :
    Prop where
  result_eq : r₁.1 = r₂.1
  alike : r₁.2.Alike V admits r₂.2

/-- Both have succeeded, or both have failed. -/
theorem EndAlike.ok_or_error {ε α : Type} {V : Set VariableId} {admits : Task → Prop}
    {r₁ r₂ : Except ε α × State} (h : EndAlike V admits r₁ r₂) :
    (∃ x after₁ after₂, r₁ = (.ok x, after₁) ∧ r₂ = (.ok x, after₂) ∧
      after₁.Alike V admits after₂) ∨
    ∃ e after₁ after₂, r₁ = (.error e, after₁) ∧ r₂ = (.error e, after₂) ∧
      after₁.Alike V admits after₂ := by
  obtain ⟨r, after₁⟩ := r₁
  obtain ⟨r', after₂⟩ := r₂
  obtain ⟨hresult, hafter⟩ := h
  obtain rfl : r = r' := hresult
  cases r with
  | ok x => exact .inl ⟨x, after₁, after₂, rfl, rfl, hafter⟩
  | error e => exact .inr ⟨e, after₁, after₂, rfl, rfl, hafter⟩

/-! ## Two runs -/

theorem Task.missingInput?_congr {c : Catalog} {isSet isSet' : VariableId → Bool} {t : Task}
    (h : ∀ v ∈ t.allInputs c, isSet v = isSet' v) (i : Nat) :
    t.missingInput? c isSet i = t.missingInput? c isSet' i := by
  unfold missingInput?
  rw [List.find?_congr fun v hv => by rw [h v hv]]

/-- From states that are alike, pipelines of admitted tasks lead to states that are alike. -/
def Runner.Depends (below : Runner) (V : Set VariableId) (admits : Task → Prop) : Prop :=
  ∀ silent p, (∀ t ∈ p.tasks, admits t) → ∀ s₁ s₂ : State, s₁.Alike V admits s₂ →
    EndAlike V admits (below silent p s₁) (below silent p s₂)

section

variable {V : Set VariableId} {admits : Task → Prop} {below : Runner} {s₁ s₂ : State}

theorem endAlike_apply (hbelow : below.Depends V admits) (silent : Bool) {p : Pipeline}
    (hp : ∀ t ∈ p.tasks, admits t) (mode : Mode) (h : s₁.Alike V admits s₂) :
    EndAlike V admits (mode.apply below silent p s₁) (mode.apply below silent p s₂) := by
  cases mode with
  | shared => exact hbelow silent p hp s₁ s₂ h
  | muted => exact hbelow true p hp s₁ s₂ h
  | isolated keep =>
    unfold Mode.apply
    rcases (hbelow silent p hp s₁ s₂ h).ok_or_error with
      ⟨x, after₁, after₂, h₁, h₂, hafter⟩ | ⟨e, after₁, after₂, h₁, h₂, hafter⟩
    · rw [h₁, h₂]
      exact ⟨rfl, h.mergeFrom hafter keep⟩
    · rw [h₁, h₂]
      exact ⟨rfl, hafter.log_eq, h.agrees, h.stored⟩

/-- An action that looks at variables of `V` only. -/
theorem endAlike_perform {α : Type} (hbelow : below.Depends V admits) (silent : Bool)
    {fp : Footprint} {runs : Bool} {fails : Failure → Prop} {post : α → Prop} {a : Action α}
    (ha : a.Within fp runs fails post) (hadmits : fp.admits = admits)
    (hreads : ∀ v ∈ fp.reads, v ∈ V) (h : s₁.Alike V admits s₂) :
    EndAlike V admits (a.perform below silent s₁) (a.perform below silent s₂) := by
  subst hadmits
  induction a generalizing s₁ s₂ runs fails post with
  | done | fail => exact ⟨rfl, h⟩
  | read v next ih =>
    have hv := hreads v ha.1
    unfold Action.perform
    rw [← h.agrees.value_eq v hv]
    exact ih _ (ha.2 _ (h.stored v hv)) h
  | write v x next ih => exact ih ha.2.2 (h.write v ha.2.1)
  | put v x next ih => exact ih ha.2.2 (h.put v ha.2.1)
  | mark v next ih => exact ih ha.2 (h.mark v)
  | inspect => exact ha.elim
  | report e next ih => exact ih ha.2 (h.report e)
  | run p mode next ih =>
    obtain ⟨-, hp, hok, herror⟩ := ha
    unfold Action.perform
    rcases (endAlike_apply hbelow silent hp mode h).ok_or_error with
      ⟨x, after₁, after₂, h₁, h₂, hafter⟩ | ⟨e, after₁, after₂, h₁, h₂, hafter⟩
    · rw [h₁, h₂]
      exact ih _ hok hafter
    · rw [h₁, h₂]
      exact ih _ (herror e) hafter

variable {lib : Library} (hlib : lib.Confines admits)
  (hinputs : ∀ t, admits t → ∀ v ∈ t.allInputs lib.catalog, v ∈ V)

include hlib hinputs

theorem endAlike_runTask (hbelow : below.Depends V admits) (depth : Nat) (silent : Bool) (i : Nat)
    {t : Task} (ht : admits t) (h : s₁.Alike V admits s₂) :
    EndAlike V admits (runTask lib below depth silent i t s₁)
      (runTask lib below depth silent i t s₂) := by
  let announcement := Event.announced (lib.catalog.methodAt t.method).name depth silent
  have hannounced := h.report announcement
  have hmissing : t.missingInput? lib.catalog s₁.workspace.isOccupied i =
      t.missingInput? lib.catalog s₂.workspace.isOccupied i :=
    Task.missingInput?_congr (fun v hv => h.agrees.occupied_eq v (hinputs t ht v hv)) i
  cases hinput : t.missingInput? lib.catalog s₁.workspace.isOccupied i with
  | some e =>
    rw [runTask_of_refused hinput, runTask_of_refused (hmissing ▸ hinput)]
    exact ⟨rfl, hannounced⟩
  | none =>
    obtain ⟨runs, hwithin⟩ := hlib t ht depth silent
    have hperform := endAlike_perform hbelow silent hwithin rfl (hinputs t ht) hannounced
    rw [runTask_of_called hinput, runTask_of_called (hmissing ▸ hinput)]
    rcases hperform.ok_or_error with
      ⟨x, after₁, after₂, h₁, h₂, hafter⟩ | ⟨f, after₁, after₂, h₁, h₂, hafter⟩
    · rw [h₁, h₂]
      exact ⟨rfl, hafter.markAll _⟩
    · rw [h₁, h₂]
      exact ⟨rfl, hafter⟩

theorem endAlike_runTasks (hbelow : below.Depends V admits) (depth : Nat) (silent : Bool) (i : Nat)
    {ts : List Task} (hts : ∀ t ∈ ts, admits t) (h : s₁.Alike V admits s₂) :
    EndAlike V admits (runTasks lib below depth silent i ts s₁)
      (runTasks lib below depth silent i ts s₂) := by
  induction ts generalizing i s₁ s₂ with
  | nil => exact ⟨rfl, h⟩
  | cons t ts ih =>
    rw [List.forall_mem_cons] at hts
    unfold runTasks
    rcases (endAlike_runTask hlib hinputs hbelow depth silent i hts.1 h).ok_or_error with
      ⟨x, after₁, after₂, h₁, h₂, hafter⟩ | ⟨e, after₁, after₂, h₁, h₂, hafter⟩
    · rw [h₁, h₂]
      exact ih (i + 1) hts.2 hafter
    · rw [h₁, h₂]
      exact ⟨rfl, hafter⟩

/-- **Runs depend only on what the admitted tasks read**, with room for any number of levels. -/
theorem Library.Confines.depends_execute (limit room : Nat) :
    (execute lib limit room).Depends V admits := by
  induction room with
  | zero => exact fun silent p _ s₁ s₂ h => ⟨rfl, h⟩
  | succ room ih =>
    intro silent p hp s₁ s₂ h
    have htasks := endAlike_runTasks hlib hinputs ih (limit - room) silent 0 hp
      (h.report (.entered p.name (limit - room) p.tasks.length))
    unfold execute
    dsimp only
    rcases htasks.ok_or_error with
      ⟨x, after₁, after₂, h₁, h₂, hafter⟩ | ⟨e, after₁, after₂, h₁, h₂, hafter⟩
    · rw [h₁, h₂]
      exact ⟨rfl, hafter.report _⟩
    · rw [h₁, h₂]
      exact ⟨rfl, hafter⟩

end

/-! ## Every run -/

namespace Standard

/-- **A run depends only on the variables that it may read.** Let `V` contain what `p` reads and
what the pipelines read that are stored in variables of `V`, at any nesting level, and let all these
consist of tasks as the binder makes them. Then on two workspaces that agree on `V` the runs of `p`
succeed both or fail with the same error, make the same reports, and leave workspaces that agree on
`V` again. -/
theorem run_of_agreesOn {p : Pipeline} (hp : p.Expressible library.catalog) {V : Set VariableId}
    (hreads : ∀ v, p.reads library.catalog v = true → v ∈ V) {w₁ w₂ : Workspace}
    (hstored : ∀ v ∈ V, ∀ q, w₁.value v = .pipeline q → q.Expressible library.catalog ∧
      ∀ u, q.reads library.catalog u = true → u ∈ V)
    (hagree : w₁.AgreesOn V w₂) (maxDepth : Nat) (silent : Bool) :
    let r₁ := library.run maxDepth silent p w₁
    let r₂ := library.run maxDepth silent p w₂
    r₁.1 = r₂.1 ∧ r₁.2.log = r₂.2.log ∧ r₁.2.workspace.AgreesOn V r₂.2.workspace := by
  have hsources : ∀ q, w₁.Source V p q → q.Expressible library.catalog ∧
      ∀ u, q.reads library.catalog u = true → u ∈ V := by
    rintro q (rfl | ⟨v, hv, hq⟩)
    · exact ⟨hp, hreads⟩
    · exact hstored v hv q hq
  have hinputs : ∀ t, w₁.Supplies V p t → ∀ v ∈ t.allInputs library.catalog, v ∈ V := by
    rintro t ⟨q, hq, ht⟩ v hv
    exact (hsources q hq).2 v (Pipeline.reads_iff.mpr ⟨t, ht, hv⟩)
  have hlib : library.Confines (w₁.Supplies V p) :=
    confines_supplies fun q hq => (hsources q hq).1
  have hstart : State.Alike V (w₁.Supplies V p) ⟨w₁, #[]⟩ ⟨w₂, #[]⟩ :=
    ⟨rfl, hagree, fun _ => Workspace.holdsOnly_supplies⟩
  have hrun := hlib.depends_execute hinputs maxDepth (maxDepth + 1) silent p
    (fun _ => Workspace.supplies_of_mem) _ _ hstart
  exact ⟨hrun.result_eq, hrun.alike.log_eq, hrun.alike.agrees⟩

/-- Whether an index is set makes no difference to the run of the stored agenda. -/
theorem executesStored_dependence :
    let other := withStored.write ⟨0⟩ (.index 7)
    withStored.isOccupied ⟨0⟩ ≠ other.isOccupied ⟨0⟩ ∧
    let r₁ := library.run 64 false executesStored withStored
    let r₂ := library.run 64 false executesStored other
    r₁.1 = r₂.1 ∧ r₁.2.log = r₂.2.log ∧
      r₁.2.workspace.AgreesOn {⟨10⟩} r₂.2.workspace := by
  refine ⟨by decide +kernel, run_of_agreesOn (V := {⟨10⟩}) expressible_executesStored
    (fun v hv => reads_executesStored hv) (fun v _ q hq => ⟨expressible_of_stored hq, ?_⟩)
    (Workspace.agreesOn_write (by simp) _).symm 64 false⟩
  intro u hu
  rw [reads_of_stored hq] at hu
  cases hu

end Standard
end Runbook
