import Mathlib.Data.List.Forall2
import Mathlib.Data.List.Nodup
import Runbook.Proofs.Registry.Index
import Runbook.Standard.Sets

/-!
# Catalogs of built libraries

What holds of the catalog of every library, whatever was registered and in which order, faulty
registrations included: names are unique and the indexes are inverse to the lists, variables have
concrete groups, no keyword holds a pipeline, and fixed slots name variables of the catalog.

* `Library.Built`: the libraries there are.
* `Catalog.WellFormed`: what holds of their catalogs.
* `wellFormed_of_built`: registering keeps it, and building keeps it.
* `findVariable?_iff`, `findMethod?_iff`: in such a catalog names and entries stand for each other.
-/

namespace Runbook

/-! ## Answers that may fail -/

/-- A step after another succeeds if both do. -/
theorem bind_eq_ok {ε α β : Type} {x : Except ε α} {f : α → Except ε β} {b : β} :
    (x >>= f) = .ok b ↔ ∃ a, x = .ok a ∧ f a = .ok b := by
  cases x with
  | error e => exact ⟨nofun, nofun⟩
  | ok a =>
    constructor
    · intro h
      exact ⟨a, rfl, h⟩
    · rintro ⟨_, ⟨⟩, h⟩
      exact h

theorem map_eq_ok {ε α β : Type} {x : Except ε α} {f : α → β} {b : β} :
    f <$> x = .ok b ↔ ∃ a, x = .ok a ∧ f a = b := by
  cases x with
  | error e => exact ⟨nofun, nofun⟩
  | ok a =>
    constructor
    · rintro ⟨⟩
      exact ⟨a, rfl, rfl⟩
    · rintro ⟨_, ⟨⟩, rfl⟩
      rfl

/-! ## Registering -/

theorem VariableId.index_bijective : Function.Bijective VariableId.index :=
  ⟨fun ⟨_⟩ ⟨_⟩ h => congrArg VariableId.mk h, fun i => ⟨⟨i⟩, rfl⟩⟩

theorem MethodId.index_bijective : Function.Bijective MethodId.index :=
  ⟨fun ⟨_⟩ ⟨_⟩ h => congrArg MethodId.mk h, fun i => ⟨⟨i⟩, rfl⟩⟩

namespace Builder

/-- Registers each in turn, also after a fault. -/
def registerEach (b : Builder) (rs : List Registration) : Builder :=
  rs.foldl (fun b r => (b.register r).2) b

/-- What every registration respects. -/
structure Sound (b : Builder) : Prop where
  vars_nodup : (b.vars.map Variable.name).Nodup
  methods_nodup : (b.methods.map MethodSpec.name).Nodup
  variableIndex : b.variableIndex.Inverts VariableId.index Variable.name b.vars
  methodIndex : b.methodIndex.Inverts MethodId.index MethodSpec.name b.methods
  concrete : ∀ v ∈ b.vars, v.group ≠ .any
  no_pipeline : ∀ m ∈ b.methods, ∀ k ∈ m.keywords, k.group ≠ .pipeline

theorem sound_empty : empty.Sound :=
  ⟨List.nodup_nil, List.nodup_nil, NameIndex.inverts_empty, NameIndex.inverts_empty,
    by simp [empty], by simp [empty]⟩

/-- An accepted variable is added to the list, and its name to the index. -/
theorem of_addVariable {b b' : Builder} {v : Variable} {id : VariableId}
    (h : b.addVariable v = .ok (id, b')) :
    v.group ≠ .any ∧ b.findVariable? v.name = none ∧ id = ⟨b.vars.length⟩ ∧
      b' = { b with
        vars := b.vars ++ [v]
        variableIndex := b.variableIndex.insert v.name id } := by
  unfold addVariable at h
  split at h
  case isTrue => cases h
  case isFalse hgroup =>
    split at h
    case isTrue => cases h
    case isFalse hname =>
      cases h
      exact ⟨hgroup, NameIndex.contains_eq_false_iff.mp (Bool.eq_false_iff.mpr hname), rfl, rfl⟩

/-- So is an accepted method. -/
theorem of_addMethod {b b' : Builder} {m : MethodSpec} {id : MethodId}
    (h : b.addMethod m = .ok (id, b')) :
    (∀ k ∈ m.keywords, k.group ≠ .pipeline) ∧ b.findMethod? m.name = none ∧
      id = ⟨b.methods.length⟩ ∧
      b' = { b with
        methods := b.methods ++ [m]
        methodIndex := b.methodIndex.insert m.name id } := by
  unfold addMethod at h
  split at h
  case isTrue => cases h
  case isFalse hname =>
    split at h
    case h_1 => cases h
    case h_2 hnone =>
      cases h
      refine ⟨fun k hk => ?_, NameIndex.contains_eq_false_iff.mp (Bool.eq_false_iff.mpr hname), rfl,
        rfl⟩
      simpa using List.find?_eq_none.mp hnone k hk

theorem Sound.addVariable {b b' : Builder} {v : Variable} {id : VariableId} (h : b.Sound)
    (hadd : b.addVariable v = .ok (id, b')) : b'.Sound := by
  obtain ⟨hgroup, hname, rfl, rfl⟩ := of_addVariable hadd
  constructor
  case vars_nodup =>
    rw [List.map_append, List.map_singleton, ← List.concat_eq_append]
    exact .concat (h.variableIndex.not_mem VariableId.index_bijective.2 hname) h.vars_nodup
  case methods_nodup => exact h.methods_nodup
  case variableIndex =>
    exact h.variableIndex.grow (NameIndex.grows_insert VariableId.index_bijective.1 hname rfl)
  case methodIndex => exact h.methodIndex
  case concrete =>
    exact List.forall_mem_append.mpr ⟨h.concrete, List.forall_mem_singleton.mpr hgroup⟩
  case no_pipeline => exact h.no_pipeline

theorem Sound.addMethod {b b' : Builder} {m : MethodSpec} {id : MethodId} (h : b.Sound)
    (hadd : b.addMethod m = .ok (id, b')) : b'.Sound := by
  obtain ⟨hkeywords, hname, rfl, rfl⟩ := of_addMethod hadd
  constructor
  case vars_nodup => exact h.vars_nodup
  case methods_nodup =>
    rw [List.map_append, List.map_singleton, ← List.concat_eq_append]
    exact .concat (h.methodIndex.not_mem MethodId.index_bijective.2 hname) h.methods_nodup
  case variableIndex => exact h.variableIndex
  case methodIndex =>
    exact h.methodIndex.grow (NameIndex.grows_insert MethodId.index_bijective.1 hname rfl)
  case concrete => exact h.concrete
  case no_pipeline =>
    exact List.forall_mem_append.mpr ⟨h.no_pipeline, List.forall_mem_singleton.mpr hkeywords⟩

mutual

theorem Sound.register {b : Builder} (h : b.Sound) (r : Registration) : (b.register r).2.Sound := by
  cases r with
  | ofVariable v =>
    rw [Builder.register]
    split
    case h_1 hadd => exact h.addVariable hadd
    case h_2 => exact h
  | ofMethod m =>
    rw [Builder.register]
    split
    case h_1 hadd => exact h.addMethod hadd
    case h_2 => exact h
  | ofSet name description members =>
    have := h.registerAll members
    rw [Builder.register]
    split
    case h_1 heq => rw [heq] at this; exact this
    case h_2 heq => rw [heq] at this; exact this

theorem Sound.registerAll {b : Builder} (h : b.Sound) (rs : List Registration) :
    (b.registerAll rs).2.Sound := by
  cases rs with
  | nil => rw [Builder.registerAll]; exact h
  | cons r rs =>
    have := h.register r
    rw [Builder.registerAll]
    split
    case h_1 heq => rw [heq] at this; exact this.registerAll rs
    case h_2 heq => rw [heq] at this; exact this

end

theorem Sound.registerEach {b : Builder} (h : b.Sound) (rs : List Registration) :
    (b.registerEach rs).Sound := by
  unfold Builder.registerEach
  induction rs generalizing b with
  | nil => exact h
  | cons r rs ih => exact ih (h.register r)

/-- When no registration fails, the result does not depend on what a fault would do. -/
theorem registerEach_of_registerAll {b b' : Builder} {rs : List Registration}
    (h : b.registerAll rs = (.ok (), b')) : b.registerEach rs = b' := by
  induction rs generalizing b with
  | nil => rw [registerAll] at h; cases h; rfl
  | cons r rs ih =>
    rw [registerAll] at h
    split at h
    case h_1 heq =>
      unfold registerEach
      rw [List.foldl_cons, heq]
      exact ih h
    case h_2 => cases h

/-! ## Building -/

theorem Sound.findVariable?_iff {b : Builder} (h : b.Sound) (name : String) (id : VariableId) :
    b.findVariable? name = some id ↔ ∃ v, b.vars[id.index]? = some v ∧ v.name = name :=
  h.variableIndex name id

theorem Sound.findMethod?_iff {b : Builder} (h : b.Sound) (name : String) (id : MethodId) :
    b.findMethod? name = some id ↔ ∃ m, b.methods[id.index]? = some m ∧ m.name = name :=
  h.methodIndex name id

theorem Sound.index_lt_of_resolve {b : Builder} (hb : b.Sound) {method : String}
    {names : List String} {ids : List VariableId} (h : b.resolve method names = .ok ids) :
    ∀ v ∈ ids, v.index < b.vars.length := by
  induction names generalizing ids with
  | nil => cases h; simp
  | cons name names ih =>
    rw [resolve] at h
    split at h
    case h_1 id hid =>
      obtain ⟨vs, hvs, rfl⟩ := map_eq_ok.mp h
      obtain ⟨v, hv, -⟩ := (hb.findVariable?_iff name id).mp hid
      exact List.forall_mem_cons.mpr ⟨(List.getElem?_eq_some_iff.mp hv).1, ih hvs⟩
    case h_2 => cases h

/-- The declarations are those of the methods, one by one. -/
theorem forall₂_of_declareAll {b : Builder} {ms : List MethodSpec} {ds : List Method}
    (h : b.declareAll ms = .ok ds) : List.Forall₂ (fun m d => b.declare m = .ok d) ms ds := by
  induction ms generalizing ds with
  | nil => cases h; exact .nil
  | cons m ms ih =>
    rw [declareAll] at h
    obtain ⟨d, hd, h⟩ := bind_eq_ok.mp h
    obtain ⟨rest, hrest, h⟩ := bind_eq_ok.mp h
    cases h
    exact .cons hd (ih hrest)

/-- What a declaration takes over. -/
theorem of_declare {b : Builder} {m : MethodSpec} {d : Method} (h : b.declare m = .ok d) :
    d.name = m.name ∧ d.keywords = m.keywords := by
  obtain ⟨outputs, houtputs, h⟩ := bind_eq_ok.mp h
  obtain ⟨inputs, hinputs, h⟩ := bind_eq_ok.mp h
  cases h
  exact ⟨rfl, rfl⟩

/-- The fixed slots of a declaration are variables. -/
theorem Sound.fixed_lt {b : Builder} (hb : b.Sound) {m : MethodSpec} {d : Method}
    (h : b.declare m = .ok d) :
    ∀ v ∈ d.fixedOutputs ++ d.fixedInputs, v.index < b.vars.length := by
  obtain ⟨outputs, houtputs, h⟩ := bind_eq_ok.mp h
  obtain ⟨inputs, hinputs, h⟩ := bind_eq_ok.mp h
  cases h
  exact List.forall_mem_append.mpr
    ⟨hb.index_lt_of_resolve houtputs, hb.index_lt_of_resolve hinputs⟩

/-- Methods are declared under their names, in order. -/
theorem names_of_declareAll {b : Builder} {ms : List MethodSpec} {ds : List Method}
    (h : b.declareAll ms = .ok ds) : ds.map Method.name = ms.map MethodSpec.name := by
  have hall := forall₂_of_declareAll h
  clear h
  induction hall with
  | nil => rfl
  | cons hd _ ih => rw [List.map_cons, List.map_cons, ih, (of_declare hd).1]

/-- What a library consists of, and that it takes over the indexes. -/
structure Makes (b : Builder) (lib : Library) : Prop where
  vars : lib.catalog.vars = b.vars
  variableIndex : lib.catalog.variableIndex = b.variableIndex
  methods : b.declareAll b.methods = .ok lib.catalog.methods
  methodIndex : lib.catalog.methodIndex = b.methodIndex
  natives : lib.natives = b.methods.map MethodSpec.native

theorem makes_of_build {b : Builder} {lib : Library} (h : b.build = .ok lib) : b.Makes lib := by
  unfold build at h
  split at h
  case h_1 => cases h
  case h_2 methods hmethods => cases h; exact ⟨rfl, rfl, hmethods, rfl, rfl⟩

end Builder

/-- A library that some registrations come to. -/
def Library.Built (lib : Library) : Prop :=
  ∃ rs, (Builder.empty.registerEach rs).build = .ok lib

/-- Names are unique and inverse to the positions of their bearers, groups are fit for their places,
and fixed slots are variables. -/
structure Catalog.WellFormed (c : Catalog) : Prop where
  vars_nodup : (c.vars.map Variable.name).Nodup
  methods_nodup : (c.methods.map Method.name).Nodup
  variableIndex : c.variableIndex.Inverts VariableId.index Variable.name c.vars
  methodIndex : c.methodIndex.Inverts MethodId.index Method.name c.methods
  concrete : ∀ v ∈ c.vars, v.group ≠ .any
  no_pipeline : ∀ m ∈ c.methods, ∀ k ∈ m.keywords, k.group ≠ .pipeline
  fixed_lt : ∀ m ∈ c.methods, ∀ v ∈ m.fixedOutputs ++ m.fixedInputs, v.index < c.vars.length

/-- **The catalog of every library is well-formed.** -/
theorem wellFormed_of_built {lib : Library} (h : lib.Built) : lib.catalog.WellFormed := by
  obtain ⟨rs, hbuild⟩ := h
  have hmakes := Builder.makes_of_build hbuild
  have hsound := Builder.sound_empty.registerEach rs
  generalize Builder.empty.registerEach rs = b at *
  have hall := Builder.forall₂_of_declareAll hmakes.methods
  have hmem : ∀ d ∈ lib.catalog.methods, ∃ m ∈ b.methods, b.declare m = .ok d := by
    intro d hd
    obtain ⟨i, hi, rfl⟩ := List.mem_iff_getElem.mp hd
    have hi' : i < b.methods.length := hall.length_eq ▸ hi
    exact ⟨_, List.getElem_mem hi', hall.get hi' hi⟩
  have hnames := Builder.names_of_declareAll hmakes.methods
  constructor
  case vars_nodup => exact hmakes.vars ▸ hsound.vars_nodup
  case methods_nodup => exact hnames ▸ hsound.methods_nodup
  case variableIndex =>
    rw [hmakes.variableIndex, hmakes.vars]
    exact hsound.variableIndex
  case methodIndex =>
    rw [hmakes.methodIndex]
    exact hsound.methodIndex.congr hnames
  case concrete => exact hmakes.vars ▸ hsound.concrete
  case no_pipeline =>
    intro d hd k hk
    obtain ⟨m, hm, hdecl⟩ := hmem d hd
    rw [(Builder.of_declare hdecl).2] at hk
    exact hsound.no_pipeline m hm k hk
  case fixed_lt =>
    intro d hd v hv
    obtain ⟨m, hm, hdecl⟩ := hmem d hd
    rw [hmakes.vars]
    exact hsound.fixed_lt hdecl v hv

/-- The standard library is built from its sets. -/
theorem Standard.built : Standard.library.Built := by
  refine ⟨Standard.registrations, ?_⟩
  have h := Standard.library?_eq
  unfold Standard.library? Builder.library at h
  split at h
  case h_1 b hb => rw [Builder.registerEach_of_registerAll hb]; exact h
  case h_2 => cases h

/-! ## Names -/

namespace Catalog

variable {c : Catalog}

theorem methodAt_eq_getElem {m : MethodId} (h : m.index < c.methods.length) :
    c.methodAt m = c.methods[m.index] := by
  simp [methodAt, methodAt?, h]

theorem methodAt_mem {m : MethodId} (h : m.index < c.methods.length) :
    c.methodAt m ∈ c.methods := by
  rw [methodAt_eq_getElem h]; exact List.getElem_mem h

theorem variableAt_eq_getElem {v : VariableId} (h : v.index < c.vars.length) :
    c.variableAt v = c.vars[v.index] := by
  simp [variableAt, variableAt?, h]

theorem variableAt_mem {v : VariableId} (h : v.index < c.vars.length) :
    c.variableAt v ∈ c.vars := by
  rw [variableAt_eq_getElem h]; exact List.getElem_mem h

namespace WellFormed

variable (h : c.WellFormed)

include h

/-- **A name stands for the variable that bears it.** -/
theorem findVariable?_iff (name : String) (v : VariableId) :
    c.findVariable? name = some v ↔ ∃ d, c.variableAt? v = some d ∧ d.name = name :=
  h.variableIndex name v

/-- **A name stands for the method that bears it.** -/
theorem findMethod?_iff (name : String) (m : MethodId) :
    c.findMethod? name = some m ↔ ∃ d, c.methodAt? m = some d ∧ d.name = name :=
  h.methodIndex name m

theorem index_lt_of_findVariable? {name : String} {v : VariableId}
    (hv : c.findVariable? name = some v) : v.index < c.vars.length := by
  obtain ⟨d, hd, -⟩ := (h.findVariable?_iff name v).mp hv
  exact (List.getElem?_eq_some_iff.mp hd).1

theorem index_lt_of_findMethod? {name : String} {m : MethodId} (hm : c.findMethod? name = some m) :
    m.index < c.methods.length := by
  obtain ⟨d, hd, -⟩ := (h.findMethod?_iff name m).mp hm
  exact (List.getElem?_eq_some_iff.mp hd).1

theorem findVariable?_name {v : VariableId} (hv : v.index < c.vars.length) :
    c.findVariable? (c.variableAt v).name = some v :=
  (h.findVariable?_iff _ v).mpr
    ⟨c.variableAt v, variableAt_eq_getElem hv ▸ List.getElem?_eq_getElem hv, rfl⟩

theorem findMethod?_name {m : MethodId} (hm : m.index < c.methods.length) :
    c.findMethod? (c.methodAt m).name = some m :=
  (h.findMethod?_iff _ m).mpr
    ⟨c.methodAt m, methodAt_eq_getElem hm ▸ List.getElem?_eq_getElem hm, rfl⟩

end WellFormed
end Catalog
end Runbook
