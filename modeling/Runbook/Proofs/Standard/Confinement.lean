import Mathlib.Data.Set.Basic
import Runbook.Proofs.Pipeline.Occurrence
import Runbook.Proofs.Standard.Footprint

/-!
# Where tasks come from

A run starts from a pipeline and from those that are stored in variables. The tasks of these, at any
nesting level, are all that the methods of the standard library have to do with: what they store,
extend, copy and run consists of such tasks again.

* `Workspace.Source`, `Workspace.Supplies`: what a run starts from, and the tasks in it.
* `Standard.confines`: the standard methods confine tasks to every kind that bodies belong to.
-/

namespace Runbook

namespace Workspace

/-! ## Sources of a run -/

/-- `q` is `p` itself, or is stored in a variable of `V`, set or not. -/
def Source (w : Workspace) (V : Set VariableId) (p q : Pipeline) : Prop :=
  q = p ∨ ∃ v ∈ V, w.value v = .pipeline q

/-- The task stands in a source, at some nesting level. -/
def Supplies (w : Workspace) (V : Set VariableId) (p : Pipeline) (t : Task) : Prop :=
  ∃ q, w.Source V p q ∧ q.Includes t

variable {w : Workspace} {V : Set VariableId} {p : Pipeline}

theorem supplies_of_mem {t : Task} (ht : t ∈ p.tasks) : w.Supplies V p t :=
  ⟨p, .inl rfl, .here ht⟩

theorem holdsOnly_supplies {v : VariableId} (hv : v ∈ V) :
    (w.value v).HoldsOnly (w.Supplies V p) :=
  fun q hq _ ht => ⟨q, .inr ⟨v, hv, hq⟩, .here ht⟩

theorem Supplies.body {t u : Task} {q : Pipeline} (h : w.Supplies V p t)
    (hq : t.embedded = some q) (hu : u ∈ q.tasks) : w.Supplies V p u :=
  let ⟨r, hr, ht⟩ := h
  ⟨r, hr, ht.body hq hu⟩

theorem Supplies.expressible {c : Catalog} (h : ∀ q, w.Source V p q → q.Expressible c) {t : Task}
    (ht : w.Supplies V p t) : t.Expressible c :=
  let ⟨q, hq, ht⟩ := ht
  (h q hq).includes ht

/-! ## Values after a change -/

variable {admits : Task → Prop} {u v : VariableId} {x : Value}

theorem holdsOnly_write (hu : (w.value u).HoldsOnly admits) (hx : x.HoldsOnly admits) :
    ((w.write v x).value u).HoldsOnly admits := by
  rw [value_write]
  split
  · exact hx
  · exact hu

theorem holdsOnly_put (hu : (w.value u).HoldsOnly admits) (hx : x.HoldsOnly admits) :
    ((w.put v x).value u).HoldsOnly admits := by
  rw [value_put]
  split
  · exact hx
  · exact hu

end Workspace

/-! ## Expressible tasks -/

/-- No keyword of an expressible task is a pipeline. -/
theorem Task.FillsSlots.group_ne_pipeline {c : Catalog} (hc : c.WellFormed) {m : MethodId}
    {ks : List Value} {os is : List VariableId} (h : Task.FillsSlots c m ks os is) :
    ∀ x ∈ ks, x.group ≠ .pipeline := by
  have hgroups := hc.no_pipeline _ (Catalog.methodAt_mem h.method_lt)
  have hkeywords := h.keywords
  clear h
  generalize (c.methodAt m).keywords = declared at hgroups hkeywords
  induction hkeywords with
  | nil => exact fun x hx => nomatch hx
  | cons hx _ ih =>
    rw [List.forall_mem_cons] at hgroups
    rw [List.forall_mem_cons]
    exact ⟨Value.group_ne_pipeline_of_fits hgroups.1 hx.1, ih hgroups.2⟩

namespace Standard

/-- **The standard methods confine tasks** to every kind of expressible tasks that the tasks in
their bodies belong to as well. -/
theorem confines {admits : Task → Prop}
    (hexpressible : ∀ t, admits t → t.Expressible library.catalog)
    (hbody : ∀ t q u, admits t → t.embedded = some q → u ∈ q.tasks → admits u) :
    library.Confines admits := by
  refine confines_of_brings fun t ht depth silent => ⟨fun x hx => ?_, fun u hu => ?_⟩
  · have hslots := (hexpressible t ht).fillsSlots
    exact Value.holdsOnly_of_group rfl (hslots.group_ne_pipeline (wellFormed_of_built built) x hx)
  · cases hq : t.embedded with
    | none => simp [hq] at hu
    | some q => exact hbody t q u ht hq (by simpa [hq] using hu)

/-- The tasks that a run starts from are such a kind. -/
theorem confines_supplies {V : Set VariableId} {w : Workspace} {p : Pipeline}
    (h : ∀ q, w.Source V p q → q.Expressible library.catalog) :
    library.Confines (w.Supplies V p) :=
  confines (fun _ ht => ht.expressible h) fun _ _ _ ht hq hu => ht.body hq hu

end Standard
end Runbook
