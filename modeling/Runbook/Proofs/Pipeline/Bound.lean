import Runbook.Proofs.Grammar.Files
import Runbook.Proofs.Pipeline.Lookups
import Runbook.Proofs.Registry.Standard

/-!
# Bound pipelines

What binding returns needs no further check. At every nesting level, the slots of each task are
filled as its method declares, so that nothing is looked up in vain when the pipeline is queried,
checked, written or run, and a method gets an answer for every slot that it has declared.

* `ControlFile.Bound`: what binding a text, a file or several files returns.
* `Task.Fills`: the slots of a task are filled as a method declares.
* `Call.Answers`: a call answers for every declared slot.
* `bound_pipeline_valid`: so it is for the tasks of a bound pipeline, and no lookup for it or for a
  pipeline in it is out of range.
-/

namespace Runbook

/-! ## Filled slots -/

/-- The numbers with a fraction in the value. -/
def Value.floats : Value → List Float
  | numeric x => [x]
  | vector xs => xs
  | matrix m => m.entries
  | _ => []

/-- The value is of a group that the keyword accepts, is no pipeline, and its numbers are finite. -/
structure Keyword.Takes (k : Keyword) (v : Value) : Prop where
  accepts : k.group.accepts v.group = true
  no_pipeline : v.group ≠ .pipeline
  finite : ∀ x ∈ v.floats, x.isFinite = true

/-- The task has a variable for each generic slot of `m`, of a group that the slot accepts, a value
for each keyword, and a pipeline exactly if `m` takes one. -/
structure Task.Fills (c : Catalog) (m : Method) (t : Task) : Prop where
  outputs : List.Forall₂ c.Takes m.genericOutputs t.outputs
  inputs : List.Forall₂ c.Takes m.genericInputs t.inputs
  keywords : List.Forall₂ Keyword.Takes m.keywords t.keywords
  embedded : t.embedded.isSome = m.embeds

/-- The call answers for each slot that `m` has declared. -/
structure Call.Answers (c : Call) (m : Method) : Prop where
  keyword : ∀ i k, m.keywords[i]? = some k → ∃ x, c.keyword i = .done x ∧ k.Takes x
  inputId : ∀ i g, (m.inputGroups c.catalog)[i]? = some g →
    ∃ v, c.inputId i = .done v ∧ c.catalog.Takes g v
  outputId : ∀ i g, (m.outputGroups c.catalog)[i]? = some g →
    ∃ v, c.outputId i = .done v ∧ c.catalog.Takes g v

theorem Value.accepts_of_fits {g : Group} {v : Value} (h : v.Fits g) :
    g.accepts v.group = true := by
  unfold Fits at h
  rw [Group.accepts_iff]
  split at h
  case isTrue hg => exact .inl hg
  case isFalse => exact .inr h.symm

theorem Value.isFinite_of_clean {v : Value} (h : v.Clean) :
    ∀ x ∈ v.floats, x.isFinite = true := by
  cases v with
  | numeric x => exact List.forall_mem_singleton.mpr h
  | vector xs => exact h
  | matrix m => exact h.1
  | index | string | indexArray | stringArray | pipeline => exact nofun

namespace Task.Expressible

variable {c : Catalog} {t : Task}

theorem keywords_take (hc : c.WellFormed) (h : t.Expressible c) :
    List.Forall₂ Keyword.Takes (c.methodAt t.method).keywords t.keywords := by
  have hkeywords := h.fillsSlots.keywords
  have hgroups := hc.no_pipeline _ (Catalog.methodAt_mem h.fillsSlots.method_lt)
  generalize (c.methodAt t.method).keywords = ks at hkeywords hgroups ⊢
  generalize t.keywords = vs at hkeywords ⊢
  induction hkeywords with
  | nil => exact .nil
  | cons hv _ ih =>
    obtain ⟨hk, hks⟩ := List.forall_mem_cons.mp hgroups
    exact .cons ⟨Value.accepts_of_fits hv.1, Value.group_ne_pipeline_of_fits hk hv.1,
      Value.isFinite_of_clean hv.2⟩ (ih hks)

theorem fills (hc : c.WellFormed) (h : t.Expressible c) : t.Fills c (c.methodAt t.method) where
  outputs := h.fillsSlots.outputs
  inputs := h.fillsSlots.inputs
  keywords := h.keywords_take hc
  embedded := by
    cases h with
    | plain _ hembeds => exact hembeds.symm
    | embedding _ hembeds _ => exact hembeds.symm

theorem known (hc : c.WellFormed) (h : t.Expressible c) : t.Known c := by
  have hslots := h.fillsSlots
  have hfixed := List.forall_mem_append.mp (hc.fixed_lt _ (Catalog.methodAt_mem hslots.method_lt))
  exact ⟨hslots.method_lt,
    List.forall_mem_append.mpr ⟨hfixed.2, index_lt_of_forall₂ hslots.inputs⟩,
    List.forall_mem_append.mpr ⟨hfixed.1, index_lt_of_forall₂ hslots.outputs⟩,
    hslots.keywords.length_eq⟩

theorem answers (hc : c.WellFormed) (h : t.Expressible c) (depth : Nat) (silent : Bool) :
    (Call.mk c t depth silent).Answers (c.methodAt t.method) := by
  have htyped := typed_of_expressible hc h depth silent
  refine ⟨fun i k hk => ?_, fun i g hg => ?_, fun i g hg => ?_⟩
  · obtain ⟨x, hx, htakes⟩ := getElem?_of_forall₂ (h.keywords_take hc) hk
    exact ⟨x, by rw [Call.keyword, hx], htakes⟩
  · obtain ⟨v, hv, htakes⟩ := getElem?_of_forall₂ htyped.inputs hg
    exact ⟨v, by rw [Call.inputId, hv], htakes⟩
  · obtain ⟨v, hv, htakes⟩ := getElem?_of_forall₂ htyped.outputs hg
    exact ⟨v, by rw [Call.outputId, hv], htakes⟩

end Task.Expressible

/-! ## Binding -/

namespace ControlFile

variable {c : Catalog}

/-- What binding a text, a file or several files returns. -/
inductive Bound (c : Catalog) : Pipeline → Prop
  | text {name source : String} {p : Pipeline} (h : bindText c name source = .ok p) : Bound c p
  | file {path : String} {contents : Contents} {p : Pipeline}
    (h : bindFile c path contents = .ok p) : Bound c p
  | files {files : List (String × Contents)} {p : Pipeline} (h : bindFiles c files = .ok p) :
    Bound c p

theorem expressible_of_bindFile (hc : c.WellFormed) {path : String} {contents : Contents} {p : Pipeline}
    (h : bindFile c path contents = .ok p) : p.Expressible c := by
  cases contents with
  | error reason => cases h
  | ok source =>
    rw [bindFile] at h
    cases hbind : bindText c path source with
    | error e =>
      rw [hbind] at h
      cases h
    | ok q =>
      rw [hbind] at h
      cases h
      exact (expressible_of_bindText hc hbind).2

/-- The tasks of several files are those of each. -/
theorem expressible_join (hc : c.WellFormed) {files : List (String × Contents)}
    {parts : List Pipeline} (h : BindsEach c files parts) : (join parts).Expressible c := by
  intro t ht
  obtain ⟨part, hpart, ht⟩ := List.mem_flatMap.mp ht
  obtain ⟨i, hi, rfl⟩ := List.mem_iff_getElem.mp hpart
  exact expressible_of_bindFile hc (h.get (h.length_eq.symm ▸ hi) hi) t ht

theorem Bound.expressible (hc : c.WellFormed) {p : Pipeline} (h : Bound c p) :
    p.Expressible c := by
  cases h with
  | text h => exact (expressible_of_bindText hc h).2
  | file h => exact expressible_of_bindFile hc h
  | files h =>
    obtain ⟨parts, hparts, rfl⟩ := bindFiles_eq_ok_iff.mp h
    exact expressible_join hc hparts

end ControlFile

/-! ## Pipelines in pipelines -/

/-- `q` is `p`, or the body of a task in `p`, at some nesting level. -/
def Pipeline.Embeds (p q : Pipeline) : Prop :=
  q = p ∨ ∃ t, p.Includes t ∧ t.embedded = some q

theorem Pipeline.Embeds.includes {p q : Pipeline} (h : p.Embeds q) {t : Task} (ht : q.Includes t) :
    p.Includes t := by
  rcases h with rfl | ⟨u, hu, hq⟩
  · exact ht
  · exact hu.nested hq ht

/-- **A bound pipeline needs no further check.** Every task in it, at any nesting level, has a
method of the library, fills its slots and answers for all of them; and no lookup for the pipeline,
or for one in it, is out of range. -/
theorem bound_pipeline_valid {lib : Library} (hlib : lib.Built) {p : Pipeline}
    (hp : ControlFile.Bound lib.catalog p) :
    (∀ t, p.Includes t → ∃ m, lib.catalog.methodAt? t.method = some m ∧ t.Fills lib.catalog m ∧
      ∀ depth silent, (Call.mk lib.catalog t depth silent).Answers m) ∧
    ∀ q, p.Embeds q → q.InRange lib := by
  have hc := wellFormed_of_built hlib
  have hexpressible (t : Task) (ht : p.Includes t) : t.Expressible lib.catalog :=
    (hp.expressible hc).includes ht
  constructor
  · intro t ht
    have h := hexpressible t ht
    exact ⟨_, Catalog.methodAt?_eq h.fillsSlots.method_lt, h.fills hc, h.answers hc⟩
  · intro q hq
    exact Pipeline.inRange_of_known fun t ht => (hexpressible t (hq.includes ht)).known hc

namespace Standard

/-- Two files, one with a task in a body and the other with a keyword whose value is converted. -/
def nestedFiles : List (String × ControlFile.Contents) :=
  [("agenda.rep", .ok "AgendaSet(forloop_agenda) \x7b IndexAdd(index_1, index_1) \x7b 1 \x7d \x7d"),
    ("vector.rep", .ok "VectorSet(vector_1) \x7b values = [1, 2.5e-3] \x7d")]

theorem nestedFiles_valid :
    ∃ p, ControlFile.bindFiles library.catalog nestedFiles = .ok p ∧
      (∀ t, p.Includes t → ∃ m, library.catalog.methodAt? t.method = some m ∧
        t.Fills library.catalog m ∧
        ∀ depth silent, (Call.mk library.catalog t depth silent).Answers m) ∧
      ∀ q, p.Embeds q → q.InRange library := by
  have hbinds : (ControlFile.bindFiles library.catalog nestedFiles).toOption.isSome = true := by
    decide +kernel
  cases h : ControlFile.bindFiles library.catalog nestedFiles with
  | error e =>
    rw [h] at hbinds
    cases hbinds
  | ok p => exact ⟨p, rfl, bound_pipeline_valid built (.files h)⟩

end Standard
end Runbook
