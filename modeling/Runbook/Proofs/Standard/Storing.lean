import Runbook.Proofs.Standard.Conduct
import Runbook.Proofs.Typing.Standard

/-!
# Tasks that store one value

Many methods take all they need from their keywords and store one value in the one output that they
have. A task of such a method succeeds whatever the run has come to, and it does nothing else.

* `Stores`: the tasks. `exists_of_expressible`: they are all the tasks that are bound.
* `Stores.output_eq`: what is stored in the output.
* `Stores.runTask_eq`, `Stores.value_eq`: what such a task does.
-/

namespace Runbook.Standard

/-- The method has an output of group `g`, keywords of the groups `gs`, and no other slots. -/
structure HasSlots (d : Method) (g : Group) (gs : List Group) : Prop where
  fixedOutputs_eq : d.fixedOutputs = []
  fixedInputs_eq : d.fixedInputs = []
  genericOutputs_eq : d.genericOutputs = [g]
  genericInputs_eq : d.genericInputs = []
  keywords_eq : d.keywords.map Keyword.group = gs

instance (d : Method) (g : Group) (gs : List Group) : Decidable (HasSlots d g gs) :=
  decidable_of_iff
    (d.fixedOutputs = [] ∧ d.fixedInputs = [] ∧ d.genericOutputs = [g] ∧ d.genericInputs = [] ∧
      d.keywords.map Keyword.group = gs)
    ⟨fun ⟨h1, h2, h3, h4, h5⟩ => ⟨h1, h2, h3, h4, h5⟩,
      fun ⟨h1, h2, h3, h4, h5⟩ => ⟨h1, h2, h3, h4, h5⟩⟩

/-- The task calls the method of this name with these keywords, for one output of group `g`. -/
structure Stores (name : String) (keywords : List Value) (g : Group) (t : Task)
    (v : VariableId) : Prop where
  name_eq : (library.catalog.methodAt t.method).name = name
  keywords_eq : t.keywords = keywords
  outputs_eq : t.outputs = [v]
  inputs_eq : t.inputs = []
  index_lt : v.index < library.catalog.vars.length
  group_eq : (library.catalog.variableAt v).group = g

/-- Whatever is bound to a method with such slots is such a task, with keywords of their groups. -/
theorem exists_of_expressible {t : Task} {g : Group} {gs : List Group}
    (ht : t.Expressible library.catalog) (hg : g ≠ .any)
    (hslots : HasSlots (library.catalog.methodAt t.method) g gs) :
    ∃ v, Stores (library.catalog.methodAt t.method).name t.keywords g t v ∧
      List.Forall₂ (fun g x => Value.Fits g x ∧ x.Clean) gs t.keywords := by
  obtain ⟨-, hos, his, hks⟩ := ht.fillsSlots
  rw [hslots.genericOutputs_eq] at hos
  rw [hslots.genericInputs_eq] at his
  obtain ⟨v, _, htakes, hrest, hout⟩ := List.forall₂_cons_left_iff.mp hos
  cases hrest
  refine ⟨v, ⟨rfl, rfl, hout, List.forall₂_nil_left_iff.mp his, htakes.1, ?_⟩, ?_⟩
  · exact group_of_takes hg htakes
  · rw [← hslots.keywords_eq, List.forall₂_map_left_iff]
    exact hks

namespace Stores

variable {name : String} {keywords : List Value} {g : Group} {gs : List Group} {t : Task}
  {v : VariableId} {x : Value} (ht : Stores name keywords g t v)
  (hslots : HasSlots (library.catalog.methodAt t.method) g gs) (depth : Nat) (silent : Bool)
include ht hslots

/-- What is stored in the output is stored in its variable. -/
theorem output_eq (hx : x.group = g) :
    (⟨library.catalog, t, depth, silent⟩ : Call).output 0 x = .set v x := by
  have hout : (⟨library.catalog, t, depth, silent⟩ : Call).outputId 0 = .done v := by
    simp [Call.outputId, Task.allOutputs, hslots.fixedOutputs_eq, ht.outputs_eq]
  rw [Call.output, hout]
  exact if_pos (hx.trans ht.group_eq.symm)

variable (hset : library.native t.method ⟨library.catalog, t, depth, silent⟩ = .set v x)
  (below : Runner) (i : Nat)
include hset

/-- **A task that stores a value succeeds**, whatever the run has come to. -/
theorem runTask_eq (s : State) :
    runTask library below depth silent i t s =
      (.ok (), (s.report (.announced name depth silent)).update fun w =>
        (w.write v x).markAll [v]) := by
  have hmissing : t.missingInput? library.catalog s.workspace.isOccupied i = none := by
    rw [Task.missingInput?, Task.allInputs, hslots.fixedInputs_eq, ht.inputs_eq]
    rfl
  refine (runTask_of_called hmissing).trans ?_
  rw [hset, ht.name_eq, Task.allOutputs, hslots.fixedOutputs_eq, ht.outputs_eq]
  rfl

/-- Afterwards the value is there. -/
theorem value_eq {s : State} (hs : s.workspace.size = library.catalog.vars.length) :
    (runTask library below depth silent i t s).2.workspace.value v = x := by
  have hv : v.index < s.workspace.size := hs ▸ ht.index_lt
  rw [ht.runTask_eq hslots depth silent hset]
  exact (Workspace.value_markAll _ [v] v).trans (Workspace.value_write_self hv _)

end Stores
end Runbook.Standard
