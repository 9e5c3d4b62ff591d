import Runbook.Proofs.Registry.WellFormed

/-!
# What the standard library consists of

Registrations that all succeed end in a builder that holds what they name, in order. So variables,
declarations and implementations of the standard library are those of its lists.

* `Builder.Gains`: what successful registrations add. `gains_of_registerAll`: they do.
* `Standard.vars_eq`: the variables of the standard library.
* `Standard.exists_spec`: each of its methods is declared and implemented as one of `specs`.
-/

namespace Runbook

/-! ## What registrations name -/

namespace Registration

mutual

/-- The variables that are named, in order. -/
def vars : Registration → List Variable
  | .ofVariable v => [v]
  | .ofMethod _ => []
  | .ofSet _ _ members => allVars members

/-- Those of several registrations. -/
def allVars : List Registration → List Variable
  | [] => []
  | r :: rs => r.vars ++ allVars rs

end

mutual

/-- The methods that are named, in order. -/
def methods : Registration → List MethodSpec
  | .ofVariable _ => []
  | .ofMethod m => [m]
  | .ofSet _ _ members => allMethods members

/-- Those of several registrations. -/
def allMethods : List Registration → List MethodSpec
  | [] => []
  | r :: rs => r.methods ++ allMethods rs

end

end Registration

namespace Builder

/-- From `b` to `b'` these variables and methods have been added: they come after what there was,
and the indexes have their names besides those from before. -/
structure Gains (b : Builder) (vs : List Variable) (ms : List MethodSpec) (b' : Builder) :
    Prop where
  vars : b'.vars = b.vars ++ vs
  methods : b'.methods = b.methods ++ ms
  variableIndex :
    b.variableIndex.Grows VariableId.index Variable.name b.vars.length b'.vars b'.variableIndex
  methodIndex :
    b.methodIndex.Grows MethodId.index MethodSpec.name b.methods.length b'.methods b'.methodIndex

section

variable {b b' b'' : Builder} {vs vs' : List Variable} {ms ms' : List MethodSpec}

theorem Gains.refl (b : Builder) : b.Gains [] [] b :=
  ⟨(List.append_nil _).symm, (List.append_nil _).symm, NameIndex.grows_refl,
    NameIndex.grows_refl⟩

theorem Gains.trans (h : b.Gains vs ms b') (h' : b'.Gains vs' ms' b'') :
    b.Gains (vs ++ vs') (ms ++ ms') b'' := by
  constructor
  case vars => rw [h'.vars, h.vars, List.append_assoc]
  case methods => rw [h'.methods, h.methods, List.append_assoc]
  case variableIndex =>
    have hgrows := h'.variableIndex
    have hle : b.vars.length ≤ b'.vars.length := by simp [h.vars]
    rw [h'.vars] at hgrows ⊢
    exact h.variableIndex.trans hgrows hle
  case methodIndex =>
    have hgrows := h'.methodIndex
    have hle : b.methods.length ≤ b'.methods.length := by simp [h.methods]
    rw [h'.methods] at hgrows ⊢
    exact h.methodIndex.trans hgrows hle

theorem gains_of_addVariable {v : Variable} {id : VariableId}
    (h : b.addVariable v = .ok (id, b')) : b.Gains [v] [] b' := by
  obtain ⟨-, hname, rfl, rfl⟩ := of_addVariable h
  exact ⟨rfl, (List.append_nil _).symm,
    NameIndex.grows_insert VariableId.index_bijective.1 hname rfl, NameIndex.grows_refl⟩

theorem gains_of_addMethod {m : MethodSpec} {id : MethodId} (h : b.addMethod m = .ok (id, b')) :
    b.Gains [] [m] b' := by
  obtain ⟨-, hname, rfl, rfl⟩ := of_addMethod h
  exact ⟨(List.append_nil _).symm, rfl, NameIndex.grows_refl,
    NameIndex.grows_insert MethodId.index_bijective.1 hname rfl⟩

end

mutual

/-- What a registration adds if it succeeds. -/
theorem gains_of_register {b b' : Builder} {r : Registration} (h : b.register r = (.ok (), b')) :
    b.Gains r.vars r.methods b' := by
  cases r with
  | ofVariable v =>
    rw [register] at h
    split at h
    case h_1 hadd =>
      cases h
      rw [Registration.vars, Registration.methods]
      exact gains_of_addVariable hadd
    case h_2 => cases h
  | ofMethod m =>
    rw [register] at h
    split at h
    case h_1 hadd =>
      cases h
      rw [Registration.vars, Registration.methods]
      exact gains_of_addMethod hadd
    case h_2 => cases h
  | ofSet name description members =>
    rw [register] at h
    split at h
    case h_1 hmembers =>
      cases h
      rw [Registration.vars, Registration.methods]
      exact gains_of_registerAll hmembers
    case h_2 => cases h

/-- What several registrations add if they succeed. -/
theorem gains_of_registerAll {b b' : Builder} {rs : List Registration}
    (h : b.registerAll rs = (.ok (), b')) :
    b.Gains (Registration.allVars rs) (Registration.allMethods rs) b' := by
  cases rs with
  | nil =>
    rw [registerAll] at h
    cases h
    rw [Registration.allVars, Registration.allMethods]
    exact .refl b
  | cons r rs =>
    rw [registerAll] at h
    split at h
    case h_1 hr =>
      rw [Registration.allVars, Registration.allMethods]
      exact (gains_of_register hr).trans (gains_of_registerAll h)
    case h_2 => cases h

end

end Builder

/-! ## The standard sets -/

namespace Standard

/-- The methods of all sets, in order of registration. -/
def specs : List MethodSpec :=
  basicMethods ++ mathMethods ++ controlMethods ++ reportingMethods

/-- What the sets come to before the library is built. -/
def builder : Builder :=
  (Builder.empty.registerAll registrations).2

theorem registerAll_registrations :
    Builder.empty.registerAll registrations = (.ok (), builder) ∧ builder.build = .ok library := by
  have h := library?_eq
  unfold library? Builder.library at h
  unfold builder
  split at h
  case h_1 b hb =>
    rw [hb]
    exact ⟨rfl, h⟩
  case h_2 => cases h

theorem gains_builder : Builder.empty.Gains vars specs builder :=
  Builder.gains_of_registerAll registerAll_registrations.1

theorem methods_builder : builder.methods = specs :=
  gains_builder.methods

theorem makes_builder : builder.Makes library :=
  Builder.makes_of_build registerAll_registrations.2

theorem vars_eq : library.catalog.vars = vars :=
  makes_builder.vars.trans gains_builder.vars

theorem natives_eq : library.natives = specs.map MethodSpec.native :=
  methods_builder ▸ makes_builder.natives

theorem forall₂_declare :
    List.Forall₂ (fun s m => builder.declare s = .ok m) specs library.catalog.methods :=
  Builder.forall₂_of_declareAll (methods_builder ▸ makes_builder.methods)

theorem exists_declare {m : Method} (h : m ∈ library.catalog.methods) :
    ∃ s ∈ specs, builder.declare s = .ok m := by
  obtain ⟨i, hi, rfl⟩ := List.mem_iff_getElem.mp h
  have hi' : i < specs.length := forall₂_declare.length_eq ▸ hi
  exact ⟨specs[i], List.getElem_mem hi', forall₂_declare.get hi' hi⟩

/-- Every method of the library is declared and implemented as one of the lists says. -/
theorem exists_spec {m : MethodId} (h : m.index < library.catalog.methods.length) :
    ∃ s ∈ specs, builder.declare s = .ok (library.catalog.methodAt m) ∧
      library.native m = s.native := by
  have hlt : m.index < specs.length := by
    rw [forall₂_declare.length_eq]
    exact h
  refine ⟨specs[m.index], List.getElem_mem hlt, ?_, ?_⟩
  · rw [Catalog.methodAt_eq_getElem h]
    exact forall₂_declare.get hlt h
  · unfold Library.native
    rw [natives_eq]
    simp [hlt]

end Standard
end Runbook
