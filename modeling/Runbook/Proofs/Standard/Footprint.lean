import Runbook.Proofs.Registry.Standard

/-!
# Footprints

What a method keeps to, whatever values it finds: which variables it looks at and changes, which
pipelines it stores and runs, what it reports, and which failures it has of its own. A standard
method looks at the inputs of its task and changes its outputs, stores and runs pipelines only as it
was handed them, announces no tasks, and fails for a fault of its own or because a pipeline has
failed that it ran. Only three of them run pipelines.

* `Action.RunsNothing`, `Action.FaultsOnly`: whether an action runs pipelines, and whether it fails
  with errors that are no faults.
* `Action.Within`: the steps of an action stay within a footprint.
* `isOccupied_of_within`: outside of it no mark changes.
* `Library.Confines`: called on tasks of a kind, methods let only tasks of the kind through.
* `Standard.within_of_mem`: the footprints of the standard methods.
-/

namespace Runbook

/-- The event announces a task. -/
def Event.announces : Event → Bool
  | .announced .. => true
  | _ => false

/-- The failure is a fault of the method's own. -/
def Failure.Own (f : Failure) : Prop :=
  ∃ fault, f.cause = .fault fault

/-! ## Kinds of actions -/

namespace Action

variable {α : Type}

/-- The action runs no pipeline. -/
def RunsNothing : Action α → Prop
  | done _ | fail _ => True
  | read _ next => ∀ x, (next x).RunsNothing
  | write _ _ next | put _ _ next | mark _ next | report _ next => next.RunsNothing
  | inspect next => ∀ w, (next w).RunsNothing
  | run .. => False

/-- Whenever the action fails, and not after a run of its that has failed, it fails for a fault.
This does not follow from what it runs: a method that runs nothing may still fail with an error such
as runs have, one that a check has given it, say, and that is reported as it is. -/
def FaultsOnly : Action α → Prop
  | done _ => True
  | fail f => f.Own
  | read _ next => ∀ x, (next x).FaultsOnly
  | write _ _ next | put _ _ next | mark _ next | report _ next => next.FaultsOnly
  | inspect next => ∀ w, (next w).FaultsOnly
  | run _ _ next => (next (.ok ())).FaultsOnly

theorem own_of_runsNothing {a : Action α} (ha : a.RunsNothing) (hfaults : a.FaultsOnly)
    {below : Runner} {silent : Bool} {s : State} {f : Failure}
    (h : (a.perform below silent s).1 = .error f) : f.Own := by
  induction a generalizing s with
  | done => cases h
  | fail => cases h; exact hfaults
  | read v next ih => exact ih _ (ha _) (hfaults _) h
  | write v x next ih | put v x next ih | mark v next ih | report e next ih =>
    exact ih ha hfaults h
  | inspect next ih => exact ih _ (ha _) (hfaults _) h
  | run => exact ha.elim

end Action

/-! ## Pipelines in values -/

namespace Value

/-- If the value is a pipeline, its tasks are all admitted. -/
def HoldsOnly (admits : Task → Prop) (x : Value) : Prop :=
  ∀ q, x = .pipeline q → ∀ t ∈ q.tasks, admits t

variable {admits : Task → Prop}

theorem holdsOnly_of_group {x : Value} {g : Group} (hx : x.group = g) (hg : g ≠ .pipeline) :
    x.HoldsOnly admits := by
  rintro q rfl
  exact absurd hx.symm hg

theorem holdsOnly_of_forall (x : Value) (h : ∀ t, admits t) : x.HoldsOnly admits :=
  fun _ _ t _ => h t

theorem holdsOnly_pipeline {p : Pipeline} (h : ∀ t ∈ p.tasks, admits t) :
    (Value.pipeline p).HoldsOnly admits := by
  rintro q ⟨⟩
  exact h

end Value

/-! ## Footprints -/

/-- What an action may look at, what it may change, and of which tasks the pipelines consist that
pass through it. -/
structure Footprint where
  reads : List VariableId
  writes : List VariableId
  admits : Task → Prop

/-- The steps of the action stay within the footprint, whatever it finds, as long as the pipelines
that it finds consist of admitted tasks; and it announces no task. It may run pipelines if `runs`.
When one has failed, nothing else is run and the action fails for that; when one has succeeded,
only another one can make it fail. Otherwise it fails as `fails` says or yields what `post` says. -/
def Action.Within {α : Type} (fp : Footprint) (runs : Bool) (fails : Failure → Prop)
    (post : α → Prop) : Action α → Prop
  | .done a => post a
  | .fail f => fails f
  | .read v next => v ∈ fp.reads ∧
      ∀ x, x.HoldsOnly fp.admits → (next x).Within fp runs fails post
  | .write v x next | .put v x next => v ∈ fp.writes ∧ x.HoldsOnly fp.admits ∧
      next.Within fp runs fails post
  | .mark v next => v ∈ fp.writes ∧ next.Within fp runs fails post
  | .inspect _ => False
  | .report e next => e.announces = false ∧ next.Within fp runs fails post
  | .run p _ next => runs = true ∧ (∀ t ∈ p.tasks, fp.admits t) ∧
      (next (.ok ())).Within fp runs (fun _ => False) post ∧
      ∀ e, (next (.error e)).Within fp false (fun f => f.cause = .run e) fun _ => False

section

variable {α β : Type} {fp : Footprint} {runs : Bool} {fails : Failure → Prop} {post : α → Prop}

theorem runsNothing_of_within {a : Action α} (ha : a.Within fp false fails post)
    (hall : ∀ t, fp.admits t) : a.RunsNothing := by
  induction a with
  | done | fail => trivial
  | read v next ih => exact fun x => ih x (ha.2 x (x.holdsOnly_of_forall hall))
  | write v x next ih | put v x next ih => exact ih ha.2.2
  | mark v next ih | report e next ih => exact ih ha.2
  | inspect => exact ha.elim
  | run => exact absurd ha.1 Bool.false_ne_true

theorem faultsOnly_of_within {a : Action α} (ha : a.Within fp runs fails post)
    (hall : ∀ t, fp.admits t) (hfails : ∀ f, fails f → f.Own) : a.FaultsOnly := by
  induction a generalizing runs fails post with
  | done => trivial
  | fail f => exact hfails f ha
  | read v next ih => exact fun x => ih x (ha.2 x (x.holdsOnly_of_forall hall)) hfails
  | write v x next ih | put v x next ih => exact ih ha.2.2 hfails
  | mark v next ih | report e next ih => exact ih ha.2 hfails
  | inspect => exact ha.elim
  | run p mode next ih => exact ih _ ha.2.2.1 nofun

/-- An action that runs nothing may come before any other. -/
theorem within_andThen {mid : β → Prop} {a : Action β} {f : β → Action α}
    (ha : a.Within fp false fails mid) (hf : ∀ x, mid x → (f x).Within fp runs fails post) :
    (a.andThen f).Within fp runs fails post := by
  induction a with
  | done x => exact hf x ha
  | fail => exact ha
  | read v next ih => exact ⟨ha.1, fun x hx => ih x (ha.2 x hx)⟩
  | write v x next ih | put v x next ih => exact ⟨ha.1, ha.2.1, ih ha.2.2⟩
  | mark v next ih | report e next ih => exact ⟨ha.1, ih ha.2⟩
  | inspect => exact ha.elim
  | run => exact absurd ha.1 Bool.false_ne_true

theorem within_fault (f : Fault) : (Action.fault f : Action α).Within fp runs Failure.Own post :=
  ⟨f, rfl⟩

theorem within_contents {r : Except GroupMismatch α} (h : ∀ a, r = .ok a → post a) :
    (Action.contents r).Within fp runs Failure.Own post := by
  cases r with
  | ok a => exact h a rfl
  | error e => exact within_fault _

theorem within_execute {post : Unit → Prop} (hpost : post ()) {p : Pipeline}
    (hp : ∀ t ∈ p.tasks, fp.admits t) (mode : Mode) :
    (Action.execute p mode).Within fp true fails post :=
  ⟨rfl, hp, hpost, fun _ => rfl⟩

/-- Without runs an action changes no mark outside its footprint. -/
theorem isOccupied_of_within {a : Action α} (ha : a.Within fp false fails post)
    (hall : ∀ t, fp.admits t) (below : Runner) (silent : Bool) (s : State) {v : VariableId}
    (hv : v ∉ fp.writes) :
    (a.perform below silent s).2.workspace.isOccupied v = s.workspace.isOccupied v := by
  have hne : ∀ u ∈ fp.writes, (v == u) = false := by
    intro u hu
    rw [beq_eq_false_iff_ne]
    rintro rfl
    exact hv hu
  induction a generalizing s with
  | done | fail => rfl
  | read u next ih => exact ih _ (ha.2 _ (Value.holdsOnly_of_forall _ hall)) s
  | write u x next ih =>
    refine (ih ha.2.2 (s.update (·.write u x))).trans ?_
    simp [State.update, hne u ha.1]
  | put u x next ih =>
    refine (ih ha.2.2 (s.update (·.put u x))).trans ?_
    simp [State.update]
  | mark u next ih =>
    refine (ih ha.2 (s.update (·.mark u))).trans ?_
    simp [State.update, hne u ha.1]
  | inspect => exact ha.elim
  | report e next ih => exact ih ha.2 (s.report e)
  | run => exact absurd ha.1 Bool.false_ne_true

end

/-! ## What calls come with -/

namespace Call

/-- The pipelines that the task brings consist of admitted tasks: those among its keywords and the
one in its body. -/
structure Brings (c : Call) (admits : Task → Prop) : Prop where
  keywords : ∀ x ∈ c.task.keywords, x.HoldsOnly admits
  body : ∀ t ∈ (c.task.embedded.map Pipeline.tasks).getD [], admits t

/-- The inputs and the outputs of the task, and what passes through it. -/
def footprint (c : Call) (admits : Task → Prop) : Footprint :=
  ⟨c.task.allInputs c.catalog, c.task.allOutputs c.catalog, admits⟩

variable {c : Call} {admits : Task → Prop}

theorem brings_of_forall (h : ∀ t, admits t) : c.Brings admits :=
  ⟨fun x _ => x.holdsOnly_of_forall h, fun t _ => h t⟩

/-- The steps after an input was looked up are told one of the inputs. -/
theorem within_inputId_andThen {α : Type} {fp : Footprint} {runs : Bool} {post : α → Prop} (i : Nat)
    {f : VariableId → Action α}
    (hf : ∀ v ∈ c.task.allInputs c.catalog, (f v).Within fp runs Failure.Own post) :
    ((c.inputId i).andThen f).Within fp runs Failure.Own post := by
  unfold inputId
  split
  case h_1 v hv => exact hf v (List.mem_of_getElem? hv)
  case h_2 => exact within_fault _

/-- The steps after an output was looked up are told one of the outputs. -/
theorem within_outputId_andThen {α : Type} {fp : Footprint} {runs : Bool} {post : α → Prop}
    (i : Nat) {f : VariableId → Action α}
    (hf : ∀ v ∈ c.task.allOutputs c.catalog, (f v).Within fp runs Failure.Own post) :
    ((c.outputId i).andThen f).Within fp runs Failure.Own post := by
  unfold outputId
  split
  case h_1 v hv => exact hf v (List.mem_of_getElem? hv)
  case h_2 => exact within_fault _

theorem within_input (i : Nat) :
    (c.input i).Within (c.footprint admits) false Failure.Own (Value.HoldsOnly admits) :=
  within_inputId_andThen i fun _ hv => ⟨hv, fun _ hx => hx⟩

theorem within_pipelineInput (i : Nat) :
    (c.pipelineInput i).Within (c.footprint admits) false Failure.Own
      fun p => ∀ t ∈ p.tasks, admits t := by
  refine within_andThen (within_input i) fun x hx => within_contents fun p hp => ?_
  cases x with
  | pipeline q =>
    cases hp
    exact hx p rfl
  | index | numeric | string | vector | indexArray | stringArray | matrix => cases hp

theorem within_output (i : Nat) {x : Value} (hx : x.HoldsOnly admits) :
    (c.output i x).Within (c.footprint admits) false Failure.Own fun _ => True := by
  refine within_outputId_andThen i fun v hv => ?_
  dsimp only
  split
  · exact ⟨hv, hx, trivial⟩
  · exact within_fault _

namespace Brings

variable (hc : c.Brings admits)

include hc

theorem keyword (i : Nat) :
    (c.keyword i).Within (c.footprint admits) false Failure.Own (Value.HoldsOnly admits) := by
  unfold Call.keyword
  split
  case h_1 x hx => exact hc.keywords x (List.mem_of_getElem? hx)
  case h_2 => exact within_fault _

theorem indexKeyword (i : Nat) :
    (c.indexKeyword i).Within (c.footprint admits) false Failure.Own fun _ => True :=
  within_andThen (hc.keyword i) fun _ _ => within_contents fun _ _ => trivial

theorem numericKeyword (i : Nat) :
    (c.numericKeyword i).Within (c.footprint admits) false Failure.Own fun _ => True :=
  within_andThen (hc.keyword i) fun _ _ => within_contents fun _ _ => trivial

end Brings
end Call

/-- The method looks at the inputs of its task and changes the outputs, and the pipelines that it
stores and runs are those that it is handed, or consist of their tasks. -/
def Native.WithinSlots (runs : Bool) (n : Native) : Prop :=
  ∀ (c : Call) (admits : Task → Prop), c.Brings admits →
    (n c).Within (c.footprint admits) runs Failure.Own fun _ => True

/-- Called on admitted tasks, the methods stay within the slots of these tasks and let only admitted
tasks through. -/
def Library.Confines (lib : Library) (admits : Task → Prop) : Prop :=
  ∀ t, admits t → ∀ depth silent, ∃ runs,
    (lib.native t.method ⟨lib.catalog, t, depth, silent⟩).Within
      (Call.footprint ⟨lib.catalog, t, depth, silent⟩ admits) runs Failure.Own fun _ => True

/-! ## The standard methods -/

namespace Standard

open Call

theorem withinSlots_setKeyword : Native.WithinSlots false setKeyword := fun _ _ hc =>
  within_andThen (hc.keyword 0) fun _ hx => within_output 0 hx

theorem withinSlots_setMatrix : Native.WithinSlots false setMatrix := by
  intro c admits hc
  refine within_andThen (hc.keyword 0) fun k _ => ?_
  refine within_andThen (within_contents fun _ _ => trivial) fun values _ => ?_
  refine within_andThen (hc.indexKeyword 1) fun ncols _ => ?_
  dsimp only
  split
  · exact within_fault _
  · split
    · exact within_fault _
    · split
      · exact within_output 0 (Value.holdsOnly_of_group rfl nofun)
      · exact within_fault _

theorem withinSlots_copy : Native.WithinSlots false copy := by
  intro c admits _
  refine within_inputId_andThen 0 fun source hsource => ?_
  refine within_andThen (a := .get source) ⟨hsource, fun _ hx => hx⟩ fun value hvalue => ?_
  refine within_outputId_andThen 0 fun target _ => ?_
  dsimp only
  split
  · exact within_output 0 hvalue
  · exact within_fault _

theorem withinSlots_touch : Native.WithinSlots false touch := fun _ _ _ => trivial

theorem withinSlots_linearSpace : Native.WithinSlots false linearSpace := by
  intro c admits hc
  refine within_andThen (hc.numericKeyword 0) fun start _ => ?_
  refine within_andThen (hc.numericKeyword 1) fun stop _ => ?_
  refine within_andThen (hc.numericKeyword 2) fun step _ => ?_
  split
  · exact within_fault _
  · split
    · exact within_fault _
    · split
      · exact within_fault _
      · split
        · exact within_fault _
        · exact within_output 0 (Value.holdsOnly_of_group rfl nofun)

theorem withinSlots_countedSpace : Native.WithinSlots false countedSpace := by
  intro c admits hc
  refine within_andThen (hc.indexKeyword 0) fun nelem _ => ?_
  refine within_andThen (hc.numericKeyword 1) fun start _ => ?_
  refine within_andThen (hc.numericKeyword 2) fun stop _ => ?_
  split
  · exact within_fault _
  · split
    · exact within_fault _
    · exact within_output 0 (Value.holdsOnly_of_group rfl nofun)

theorem withinSlots_addToIndex : Native.WithinSlots false addToIndex := by
  intro c admits hc
  refine within_andThen (within_input 0) fun x _ => ?_
  refine within_andThen (within_contents fun _ _ => trivial) fun a _ => ?_
  refine within_andThen (hc.indexKeyword 0) fun b _ => ?_
  split
  · exact within_output 0 (Value.holdsOnly_of_group rfl nofun)
  · exact within_fault _

theorem withinSlots_onNumeric (f : Float → Float → Float) :
    Native.WithinSlots false (onNumeric f) := by
  intro c admits hc
  refine within_andThen (within_input 0) fun x _ => ?_
  refine within_andThen (within_contents fun _ _ => trivial) fun a _ => ?_
  refine within_andThen (hc.numericKeyword 0) fun b _ => ?_
  exact within_output 0 (Value.holdsOnly_of_group rfl nofun)

theorem withinSlots_onVector (f : Float → Float → Float) :
    Native.WithinSlots false (onVector f) := by
  intro c admits hc
  refine within_andThen (hc.numericKeyword 0) fun b _ => ?_
  refine within_andThen (within_input 0) fun x _ => ?_
  refine within_andThen (within_contents fun _ _ => trivial) fun xs _ => ?_
  exact within_output 0 (Value.holdsOnly_of_group rfl nofun)

theorem withinSlots_sumVector : Native.WithinSlots false sumVector := by
  intro c admits _
  refine within_andThen (within_input 0) fun x _ => ?_
  refine within_andThen (within_contents fun _ _ => trivial) fun xs _ => ?_
  exact within_output 0 (Value.holdsOnly_of_group rfl nofun)

theorem withinSlots_extendVector : Native.WithinSlots false extendVector := by
  intro c admits _
  refine within_andThen (within_input 0) fun x _ => ?_
  refine within_andThen (within_contents fun _ _ => trivial) fun xs _ => ?_
  refine within_andThen (within_input 1) fun y _ => ?_
  refine within_andThen (within_contents fun _ _ => trivial) fun last _ => ?_
  exact within_output 0 (Value.holdsOnly_of_group rfl nofun)

theorem within_storeAgenda {c : Call} {admits : Task → Prop} {tasks : List Task}
    (htasks : ∀ t ∈ tasks, admits t) :
    (storeAgenda c tasks).Within (c.footprint admits) false Failure.Own fun _ => True :=
  within_outputId_andThen 0 fun _ _ => within_output 0 (Value.holdsOnly_pipeline htasks)

theorem withinSlots_setAgenda : Native.WithinSlots false setAgenda := fun _ _ hc =>
  within_storeAgenda hc.body

theorem withinSlots_appendAgenda : Native.WithinSlots false appendAgenda := by
  intro c admits hc
  refine within_andThen (within_pipelineInput 0) fun agenda hagenda => within_storeAgenda ?_
  intro t ht
  rcases List.mem_append.mp ht with ht | ht
  · exact hagenda t ht
  · exact hc.body t ht

theorem withinSlots_executeAgenda : Native.WithinSlots true executeAgenda := fun _ _ _ =>
  within_andThen (within_pipelineInput 0) fun _ hagenda => within_execute trivial hagenda .shared

theorem within_keptVariables {fp : Footprint} (c : Catalog) (names : List String) :
    (keptVariables c names).Within fp false Failure.Own fun _ => True := by
  induction names with
  | nil => trivial
  | cons name names ih =>
    unfold keptVariables
    split
    · exact within_fault _
    · exact within_andThen ih fun _ _ => trivial

theorem withinSlots_executeAgendaExclusive : Native.WithinSlots true executeAgendaExclusive := by
  intro c admits hc
  refine within_andThen (within_pipelineInput 0) fun agenda hagenda => ?_
  refine within_andThen (hc.keyword 0) fun k _ => ?_
  refine within_andThen (within_contents fun _ _ => trivial) fun names _ => ?_
  refine within_andThen (within_keptVariables c.catalog names) fun keep _ => ?_
  exact within_execute trivial hagenda (.isolated keep)

theorem within_loop {fp : Footprint} {index : VariableId} (hindex : index ∈ fp.writes)
    {agenda : Pipeline} (hagenda : ∀ t ∈ agenda.tasks, fp.admits t) {fails : Failure → Prop}
    (step : Int) (n : Nat) (mode : Mode) (i : Int) :
    (loop index agenda step n mode i).Within fp true fails fun _ => True := by
  induction n generalizing mode i fails with
  | zero => trivial
  | succ n ih =>
    exact ⟨hindex, Value.holdsOnly_of_group rfl nofun, rfl, hagenda, ih .muted (i + step),
      fun _ => rfl⟩

theorem withinSlots_forLoop : Native.WithinSlots true forLoop := by
  intro c admits hc
  refine within_andThen (within_pipelineInput 0) fun agenda hagenda => ?_
  refine within_andThen (hc.indexKeyword 0) fun start _ => ?_
  refine within_andThen (hc.indexKeyword 1) fun stop _ => ?_
  refine within_andThen (hc.indexKeyword 2) fun step _ => ?_
  split
  · exact within_fault _
  · exact within_outputId_andThen 0 fun index hindex => within_loop hindex hagenda _ _ _ _

theorem withinSlots_raise : Native.WithinSlots false raise := by
  intro c admits hc
  refine within_andThen (hc.keyword 0) fun k _ => ?_
  exact within_andThen (within_contents fun _ _ => trivial) fun _ _ => within_fault _

theorem withinSlots_print : Native.WithinSlots false print := by
  intro c admits hc
  refine within_andThen (hc.indexKeyword 0) fun level _ => ?_
  split
  · exact within_fault _
  · exact within_inputId_andThen 0 fun source hsource => ⟨hsource, fun _ _ => ⟨rfl, trivial⟩⟩

/-- The methods that run pipelines. -/
def runners : List String :=
  ["AgendaExecute", "AgendaExecuteExclusive", "ForLoop"]

/-- **Every standard method stays within the slots of its task**, and only three run pipelines. -/
theorem within_of_mem {s : MethodSpec} (hs : s ∈ specs) :
    s.native.WithinSlots (runners.contains s.name) := by
  revert s
  simp only [specs, basicMethods, mathMethods, controlMethods, reportingMethods, setter, spec,
    List.cons_append, List.nil_append, List.forall_mem_cons, List.not_mem_nil, false_imp_iff,
    implies_true, and_true, runners, List.contains_cons, List.contains_nil, String.reduceBEq,
    Bool.or_false, Bool.or_true]
  exact ⟨withinSlots_setKeyword, withinSlots_setKeyword, withinSlots_setKeyword,
    withinSlots_setKeyword, withinSlots_setKeyword, withinSlots_setKeyword, withinSlots_setMatrix,
    withinSlots_linearSpace, withinSlots_countedSpace, withinSlots_copy, withinSlots_touch,
    withinSlots_addToIndex, withinSlots_onNumeric _, withinSlots_onNumeric _,
    withinSlots_onVector _, withinSlots_onVector _, withinSlots_sumVector,
    withinSlots_extendVector, withinSlots_setAgenda, withinSlots_appendAgenda,
    withinSlots_executeAgenda, withinSlots_executeAgendaExclusive, withinSlots_forLoop,
    withinSlots_raise, withinSlots_print⟩

/-- Whatever the tasks are that they are called on, the standard methods confine them. -/
theorem confines_of_brings {admits : Task → Prop}
    (h : ∀ t, admits t → ∀ depth silent,
      Call.Brings ⟨library.catalog, t, depth, silent⟩ admits) :
    library.Confines admits := by
  intro t ht depth silent
  unfold Library.native
  cases hn : library.natives[t.method.index]? with
  | none => exact ⟨false, trivial⟩
  | some n =>
    have hmem := List.mem_of_getElem? hn
    rw [natives_eq] at hmem
    obtain ⟨s, hs, rfl⟩ := List.mem_map.mp hmem
    exact ⟨_, within_of_mem hs _ admits (h t ht depth silent)⟩

theorem confines_all : library.Confines fun _ => True :=
  confines_of_brings fun _ _ _ _ => Call.brings_of_forall fun _ => trivial

end Standard
end Runbook
