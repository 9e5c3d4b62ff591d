import Runbook.Proofs.Registry.WellFormed

/-!
# Registration

What a builder holds after any calls, the refused ones and those within sets among them, and what
building makes of it. Every call is answered; what the accepted calls brought is held in their
order, and the answer to each of them is its position there.

* `Builder.answersEach`: the single calls that registrations come to, with their answers.
* `records_registerEach`: accepted calls are numbered one after the other.
* `Builder.Consistent`: unique names, and ids that are positions. `consistent_registerEach`: no
  sequence of calls breaks it.
* `mapM_eq_ok_iff`, `mapM_eq_error_iff`: a traversal stops at its first fault.
* `Builder.Resolves`: building looks up every fixed slot among all variables. `Sound.resolves`: it
  does.
* `registration_consistent`: both, after any calls.
-/

namespace Runbook

/-! ## Traversals -/

section

variable {ε α β : Type} {f : α → Except ε β}

/-- A traversal succeeds with the result of each step. -/
theorem mapM_eq_ok_iff {xs : List α} {ys : List β} :
    xs.mapM f = .ok ys ↔ List.Forall₂ (fun x y => f x = .ok y) xs ys := by
  induction xs generalizing ys with
  | nil =>
    rw [List.forall₂_nil_left_iff]
    exact ⟨fun h => (Except.ok.inj h).symm, fun h => h ▸ rfl⟩
  | cons x xs ih =>
    rw [List.mapM_cons, bind_eq_ok, List.forall₂_cons_left_iff]
    constructor
    · rintro ⟨y, hy, h⟩
      obtain ⟨rest, hrest, h⟩ := bind_eq_ok.mp h
      cases h
      exact ⟨y, rest, hy, ih.mp hrest, rfl⟩
    · rintro ⟨y, rest, hy, hrest, rfl⟩
      exact ⟨y, hy, bind_eq_ok.mpr ⟨rest, ih.mpr hrest, rfl⟩⟩

theorem mapM_cons_eq_error_iff {x : α} {xs : List α} {e : ε} :
    (x :: xs).mapM f = .error e ↔
      f x = .error e ∨ (∃ b, f x = .ok b) ∧ xs.mapM f = .error e := by
  rw [List.mapM_cons]
  cases f x with
  | error e' =>
    constructor
    · rintro ⟨⟩
      exact .inl rfl
    · rintro (⟨⟨⟩⟩ | ⟨⟨_, ⟨⟩⟩, -⟩)
      rfl
  | ok b =>
    cases xs.mapM f with
    | error e' =>
      constructor
      · rintro ⟨⟩
        exact .inr ⟨⟨b, rfl⟩, rfl⟩
      · rintro (⟨⟨⟩⟩ | ⟨-, ⟨⟩⟩)
        rfl
    | ok ys =>
      constructor
      · rintro ⟨⟩
      · rintro (⟨⟨⟩⟩ | ⟨-, ⟨⟩⟩)

/-- A traversal fails with the fault of the first step that has one. -/
theorem mapM_eq_error_iff {xs : List α} {e : ε} :
    xs.mapM f = .error e ↔ ∃ before x after, xs = before ++ x :: after ∧
      (∀ y ∈ before, ∃ b, f y = .ok b) ∧ f x = .error e := by
  induction xs with
  | nil =>
    constructor
    · intro h
      cases h
    · rintro ⟨before, x, after, h, -⟩
      cases before <;> cases h
  | cons x xs ih =>
    rw [mapM_cons_eq_error_iff, ih]
    constructor
    · rintro (hx | ⟨hx, before, y, after, rfl, hbefore, hy⟩)
      · exact ⟨[], x, xs, rfl, nofun, hx⟩
      · exact ⟨x :: before, y, after, rfl, List.forall_mem_cons.mpr ⟨hx, hbefore⟩, hy⟩
    · rintro ⟨before, y, after, heq, hbefore, hy⟩
      cases before with
      | nil =>
        cases heq
        exact .inl hy
      | cons z before =>
        cases heq
        obtain ⟨hz, hbefore⟩ := List.forall_mem_cons.mp hbefore
        exact .inr ⟨hz, before, y, after, rfl, hbefore, hy⟩

/-- `x` is the first of `xs` with the property `p`. -/
def IsFirst (p : α → Prop) (xs : List α) (x : α) : Prop :=
  ∃ before after, xs = before ++ x :: after ∧ (∀ y ∈ before, ¬p y) ∧ p x

/-- The same, with the inputs that fail described by `p`. -/
theorem mapM_eq_error_iff_isFirst {p : α → Prop} (hp : ∀ x, (∃ y, f x = .ok y) ↔ ¬p x)
    {xs : List α} {e : ε} :
    xs.mapM f = .error e ↔ ∃ x, IsFirst p xs x ∧ f x = .error e := by
  rw [mapM_eq_error_iff]
  constructor
  · rintro ⟨before, x, after, heq, hbefore, hx⟩
    refine ⟨x, ⟨before, after, heq, fun y hy => (hp y).mp (hbefore y hy), ?_⟩, hx⟩
    by_contra hnot
    obtain ⟨y, hy⟩ := (hp x).mpr hnot
    rw [hx] at hy
    cases hy
  · rintro ⟨x, ⟨before, after, heq, hbefore, -⟩, hx⟩
    exact ⟨before, x, after, heq, fun y hy => (hp y).mpr (hbefore y hy), hx⟩

/-- A traversal succeeds if each step does. -/
theorem exists_mapM_iff {xs : List α} :
    (∃ ys, xs.mapM f = .ok ys) ↔ ∀ x ∈ xs, ∃ y, f x = .ok y := by
  simp only [mapM_eq_ok_iff]
  constructor
  · rintro ⟨ys, h⟩ x hx
    obtain ⟨i, hi, rfl⟩ := List.mem_iff_getElem.mp hx
    exact ⟨_, h.get hi (h.length_eq ▸ hi)⟩
  · intro h
    induction xs with
    | nil => exact ⟨[], .nil⟩
    | cons x xs ih =>
      obtain ⟨⟨y, hy⟩, hxs⟩ := List.forall_mem_cons.mp h
      obtain ⟨ys, hys⟩ := ih hxs
      exact ⟨y :: ys, .cons hy hys⟩

end

/-! ## Positions -/

/-- The items with their positions, as ids. -/
def numbered {α ι : Type} (mk : Nat → ι) (xs : List α) : List (α × ι) :=
  xs.mapIdx fun i x => (x, mk i)

theorem numbered_concat {α ι : Type} (mk : Nat → ι) (xs : List α) (x : α) :
    numbered mk (xs ++ [x]) = numbered mk xs ++ [(x, mk xs.length)] := by
  simp [numbered, List.mapIdx_append]

/-! ## Answers -/

/-- A single call and what it is answered with: the id of what has been registered, or a fault. -/
inductive Answer where
  | ofVariable (v : Variable) (answer : Except LibraryFault VariableId)
  | ofMethod (m : MethodSpec) (answer : Except LibraryFault MethodId)

namespace Answer

/-- The variables that were accepted, with their ids. -/
def acceptedVars (as : List Answer) : List (Variable × VariableId) :=
  as.filterMap fun
    | ofVariable v (.ok id) => some (v, id)
    | _ => none

/-- The methods that were accepted, with their ids. -/
def acceptedMethods (as : List Answer) : List (MethodSpec × MethodId) :=
  as.filterMap fun
    | ofMethod m (.ok id) => some (m, id)
    | _ => none

theorem acceptedVars_append (as bs : List Answer) :
    acceptedVars (as ++ bs) = acceptedVars as ++ acceptedVars bs :=
  List.filterMap_append

theorem acceptedMethods_append (as bs : List Answer) :
    acceptedMethods (as ++ bs) = acceptedMethods as ++ acceptedMethods bs :=
  List.filterMap_append

end Answer

namespace Builder

mutual

/-- The single calls that a registration comes to, with their answers. -/
def answers (b : Builder) : Registration → List Answer
  | .ofVariable v => [.ofVariable v ((b.addVariable v).map Prod.fst)]
  | .ofMethod m => [.ofMethod m ((b.addMethod m).map Prod.fst)]
  | .ofSet _ _ members => b.answersAll members

/-- Those of the members of a set, which stops at its first fault. -/
def answersAll (b : Builder) : List Registration → List Answer
  | [] => []
  | r :: rs =>
    b.answers r ++
      match b.register r with
      | (.ok (), b) => b.answersAll rs
      | (.error _, _) => []

end

/-- Those of registrations made one after the other, also after a fault. -/
def answersEach (b : Builder) : List Registration → List Answer
  | [] => []
  | r :: rs => b.answers r ++ (b.register r).2.answersEach rs

/-- What is answered on the way from `b` to `after`: what `after` holds is what `b` held and then
what has been accepted, numbered one after the other. -/
structure Records (b : Builder) (as : List Answer) (after : Builder) : Prop where
  vars : numbered VariableId.mk after.vars =
    numbered VariableId.mk b.vars ++ Answer.acceptedVars as
  methods : numbered MethodId.mk after.methods =
    numbered MethodId.mk b.methods ++ Answer.acceptedMethods as

theorem Records.nil (b : Builder) : b.Records [] b :=
  ⟨(List.append_nil _).symm, (List.append_nil _).symm⟩

theorem Records.append {a b c : Builder} {as bs : List Answer} (hab : a.Records as b)
    (hbc : b.Records bs c) : a.Records (as ++ bs) c := by
  constructor
  · rw [hbc.vars, hab.vars, Answer.acceptedVars_append, List.append_assoc]
  · rw [hbc.methods, hab.methods, Answer.acceptedMethods_append, List.append_assoc]

/-- A refused call changes nothing. -/
theorem records_refused {b : Builder} {a : Answer} (hvars : Answer.acceptedVars [a] = [])
    (hmethods : Answer.acceptedMethods [a] = []) : b.Records [a] b :=
  ⟨by rw [hvars, List.append_nil], by rw [hmethods, List.append_nil]⟩

theorem records_addVariable (b : Builder) (v : Variable) :
    b.Records [.ofVariable v ((b.addVariable v).map Prod.fst)] (b.register (.ofVariable v)).2 := by
  rw [register, addVariable]
  by_cases hgroup : v.group = .any
  · rw [if_pos hgroup]
    exact records_refused rfl rfl
  · rw [if_neg hgroup]
    by_cases htaken : b.variableIndex.contains v.name = true
    · rw [if_pos htaken]
      exact records_refused rfl rfl
    · rw [if_neg htaken]
      exact ⟨numbered_concat _ _ _, (List.append_nil _).symm⟩

theorem records_addMethod (b : Builder) (m : MethodSpec) :
    b.Records [.ofMethod m ((b.addMethod m).map Prod.fst)] (b.register (.ofMethod m)).2 := by
  rw [register, addMethod]
  by_cases htaken : b.methodIndex.contains m.name = true
  · rw [if_pos htaken]
    exact records_refused rfl rfl
  · rw [if_neg htaken]
    cases m.keywords.find? fun k => k.group = .pipeline with
    | some k => exact records_refused rfl rfl
    | none => exact ⟨(List.append_nil _).symm, numbered_concat _ _ _⟩

mutual

theorem records_register (b : Builder) (r : Registration) :
    b.Records (b.answers r) (b.register r).2 := by
  cases r with
  | ofVariable v =>
    rw [answers]
    exact b.records_addVariable v
  | ofMethod m =>
    rw [answers]
    exact b.records_addMethod m
  | ofSet name description members =>
    have h := b.records_registerAll members
    rw [answers, register]
    -- the set's own fault differs from that of its member, what it holds does not
    rcases hall : b.registerAll members with ⟨_ | _, after⟩
    · rw [hall] at h
      exact h
    · rw [hall] at h
      exact h

theorem records_registerAll (b : Builder) (rs : List Registration) :
    b.Records (b.answersAll rs) (b.registerAll rs).2 := by
  cases rs with
  | nil =>
    rw [answersAll, registerAll]
    exact .nil b
  | cons r rs =>
    have h := b.records_register r
    rw [answersAll, registerAll]
    rcases hr : b.register r with ⟨_ | _, after⟩
    · rw [hr] at h
      exact h.append (.nil after)
    · rw [hr] at h
      exact h.append (after.records_registerAll rs)

end

/-- **Accepted calls are numbered one after the other**, whatever is refused between them. -/
theorem records_registerEach (b : Builder) (rs : List Registration) :
    b.Records (b.answersEach rs) (b.registerEach rs) := by
  induction rs generalizing b with
  | nil => exact .nil b
  | cons r rs ih => exact (b.records_register r).append (ih (b.register r).2)

/-! ## Names and ids -/

/-- After calls with these answers: no name is taken twice, ids are positions in the order of
acceptance, indexes and lists are inverse to each other, and groups are fit for their places. -/
structure Consistent (b : Builder) (as : List Answer) : Prop extends b.Sound where
  variable_ids : Answer.acceptedVars as = numbered VariableId.mk b.vars
  method_ids : Answer.acceptedMethods as = numbered MethodId.mk b.methods
  findVariable?_iff : ∀ name id,
    b.findVariable? name = some id ↔ ∃ v, b.vars[id.index]? = some v ∧ v.name = name
  findMethod?_iff : ∀ name id,
    b.findMethod? name = some id ↔ ∃ m, b.methods[id.index]? = some m ∧ m.name = name

/-- **No sequence of calls makes a builder inconsistent.** -/
theorem consistent_registerEach (rs : List Registration) :
    (empty.registerEach rs).Consistent (empty.answersEach rs) := by
  have hsound := sound_empty.registerEach rs
  have hrecords := empty.records_registerEach rs
  exact ⟨hsound, hrecords.vars.symm, hrecords.methods.symm, hsound.findVariable?_iff,
    hsound.findMethod?_iff⟩

/-! ## Building -/

/-- Whether a variable is called so. -/
def Knows (b : Builder) (name : String) : Prop :=
  ∃ v ∈ b.vars, v.name = name

/-- The variable for a fixed slot of the method `method`. -/
def lookUp (b : Builder) (method name : String) : Except LibraryFault VariableId :=
  match b.findVariable? name with
  | some v => .ok v
  | none => .error (.unknownVariable method name)

theorem lookUp_eq_ok_iff {b : Builder} {method name : String} {v : VariableId} :
    b.lookUp method name = .ok v ↔ b.findVariable? name = some v := by
  unfold lookUp
  cases b.findVariable? name with
  | none => exact ⟨nofun, nofun⟩
  | some w => simp

theorem resolve_eq_mapM (b : Builder) (method : String) (names : List String) :
    b.resolve method names = names.mapM (b.lookUp method) := by
  induction names with
  | nil => rfl
  | cons name names ih =>
    rw [resolve, List.mapM_cons, lookUp, ih]
    cases b.findVariable? name with
    | none => rfl
    | some v => rfl

theorem declareAll_eq_mapM (b : Builder) (ms : List MethodSpec) :
    b.declareAll ms = ms.mapM b.declare := by
  induction ms with
  | nil => rfl
  | cons m ms ih => rw [declareAll, List.mapM_cons, ih]

end Builder

/-- The names of the fixed slots, outputs before inputs. -/
def MethodSpec.fixedNames (m : MethodSpec) : List String :=
  m.outputs ++ m.inputs

namespace Builder

variable {b : Builder} {m : MethodSpec}

/-- Whether every fixed slot names a variable. -/
def KnowsAll (b : Builder) (m : MethodSpec) : Prop :=
  ∀ name ∈ m.fixedNames, b.Knows name

/-- The index misses no variable. -/
theorem Sound.findVariable?_eq_none_iff (hsound : b.Sound) {name : String} :
    b.findVariable? name = none ↔ ¬ b.Knows name := by
  simp only [Option.eq_none_iff_forall_ne_some, ne_eq, ← not_exists]
  refine not_congr ⟨?_, ?_⟩
  · rintro ⟨id, hid⟩
    obtain ⟨v, hv, hname⟩ := (hsound.findVariable?_iff name id).mp hid
    exact ⟨v, List.mem_of_getElem? hv, hname⟩
  · rintro ⟨v, hv, rfl⟩
    obtain ⟨i, hi⟩ := List.mem_iff_getElem?.mp hv
    exact ⟨⟨i⟩, (hsound.findVariable?_iff v.name ⟨i⟩).mpr ⟨v, hi, rfl⟩⟩

theorem Sound.exists_lookUp_iff (hsound : b.Sound) {method name : String} :
    (∃ v, b.lookUp method name = .ok v) ↔ b.Knows name := by
  simp only [lookUp_eq_ok_iff, ← Option.isSome_iff_exists]
  rw [← not_iff_not, ← hsound.findVariable?_eq_none_iff, Bool.not_eq_true,
    Option.isSome_eq_false_iff, Option.isNone_iff_eq_none]

theorem Sound.lookUp_eq_error_iff (hsound : b.Sound) {method name : String} {e : LibraryFault} :
    b.lookUp method name = .error e ↔ ¬ b.Knows name ∧ e = .unknownVariable method name := by
  rw [← hsound.findVariable?_eq_none_iff]
  unfold lookUp
  cases b.findVariable? name with
  | none => simp [eq_comm]
  | some w => simp

theorem declare_eq (b : Builder) (m : MethodSpec) :
    b.declare m = m.outputs.mapM (b.lookUp m.name) >>= fun outputs =>
      m.inputs.mapM (b.lookUp m.name) >>= fun inputs =>
        .ok ⟨m.name, m.description, outputs, inputs, m.genericOutputs, m.genericInputs, m.keywords,
          m.embeds⟩ := by
  rw [declare, resolve_eq_mapM, resolve_eq_mapM]
  rfl

/-- A method is declared if all its names are known. -/
theorem Sound.exists_declare_iff (hsound : b.Sound) :
    (∃ d, b.declare m = .ok d) ↔ b.KnowsAll m := by
  have hall (names : List String) : (∃ ids, names.mapM (b.lookUp m.name) = .ok ids) ↔
      ∀ name ∈ names, b.Knows name := by
    rw [exists_mapM_iff]
    exact forall₂_congr fun name _ => hsound.exists_lookUp_iff
  rw [KnowsAll, MethodSpec.fixedNames, List.forall_mem_append, ← hall, ← hall, declare_eq]
  constructor
  · rintro ⟨d, h⟩
    obtain ⟨outputs, houtputs, h⟩ := bind_eq_ok.mp h
    obtain ⟨inputs, hinputs, -⟩ := bind_eq_ok.mp h
    exact ⟨⟨outputs, houtputs⟩, ⟨inputs, hinputs⟩⟩
  · rintro ⟨⟨outputs, houtputs⟩, ⟨inputs, hinputs⟩⟩
    exact ⟨_, bind_eq_ok.mpr ⟨outputs, houtputs, bind_eq_ok.mpr ⟨inputs, hinputs, rfl⟩⟩⟩

/-- Otherwise the first unknown name is reported, outputs before inputs. -/
theorem Sound.declare_eq_error_iff (hsound : b.Sound) {e : LibraryFault} :
    b.declare m = .error e ↔ ∃ name, IsFirst (fun name => ¬b.Knows name) m.fixedNames name ∧
      e = .unknownVariable m.name name := by
  -- looking outputs and inputs up after each other fails as looking up all of them does
  have hone : b.declare m = .error e ↔ m.fixedNames.mapM (b.lookUp m.name) = .error e := by
    rw [declare_eq, MethodSpec.fixedNames, List.mapM_append]
    cases m.outputs.mapM (b.lookUp m.name) with
    | error e' => exact ⟨fun h => by cases h; rfl, fun h => by cases h; rfl⟩
    | ok outputs =>
      cases m.inputs.mapM (b.lookUp m.name) with
      | error e' => exact ⟨fun h => by cases h; rfl, fun h => by cases h; rfl⟩
      | ok inputs => exact ⟨nofun, nofun⟩
  rw [hone, mapM_eq_error_iff_isFirst (p := fun name => ¬b.Knows name)
    fun name => hsound.exists_lookUp_iff.trans not_not.symm]
  refine exists_congr fun name => and_congr_right fun hfirst => ?_
  obtain ⟨before, after, -, -, hunknown⟩ := hfirst
  rw [hsound.lookUp_eq_error_iff]
  exact and_iff_right hunknown

theorem exists_build_iff :
    (∃ lib, b.build = .ok lib) ↔ ∃ ds, b.declareAll b.methods = .ok ds := by
  unfold build
  split
  case h_1 e h => simp [h]
  case h_2 ds h => simp [h]

theorem build_eq_error_iff {e : LibraryFault} :
    b.build = .error e ↔ b.declareAll b.methods = .error e := by
  unfold build
  split
  case h_1 e' h => simp [h]
  case h_2 ds h => simp [h]

end Builder

/-! ## What is built -/

/-- `v` is a variable called `name`. -/
def Catalog.Bears (c : Catalog) (name : String) (v : VariableId) : Prop :=
  ∃ x, c.variableAt? v = some x ∧ x.name = name

/-- `d` is the declaration of `m`: its fixed slots are the variables of those names, in order, and
everything else is taken over. -/
structure Catalog.Declares (c : Catalog) (m : MethodSpec) (d : Method) : Prop where
  name : d.name = m.name
  description : d.description = m.description
  fixedOutputs : List.Forall₂ c.Bears m.outputs d.fixedOutputs
  fixedInputs : List.Forall₂ c.Bears m.inputs d.fixedInputs
  genericOutputs : d.genericOutputs = m.genericOutputs
  genericInputs : d.genericInputs = m.genericInputs
  keywords : d.keywords = m.keywords
  embeds : d.embeds = m.embeds

namespace Builder

variable {b : Builder}

/-- `lib` is what `b` comes to: the same variables and methods at the same positions, and the same
indexes, which are inverse to the lists of the library, too. -/
structure Builds (b : Builder) (lib : Library) : Prop where
  vars : lib.catalog.vars = b.vars
  variableIndex : lib.catalog.variableIndex = b.variableIndex
  methods : List.Forall₂ lib.catalog.Declares b.methods lib.catalog.methods
  methodIndex : lib.catalog.methodIndex = b.methodIndex
  natives : lib.natives = b.methods.map MethodSpec.native
  findVariable?_iff : ∀ name id, lib.catalog.findVariable? name = some id ↔
    ∃ v, lib.catalog.variableAt? id = some v ∧ v.name = name
  findMethod?_iff : ∀ name id, lib.catalog.findMethod? name = some id ↔
    ∃ m, lib.catalog.methodAt? id = some m ∧ m.name = name

/-- Building looks every fixed slot up among all variables, and otherwise reports the first method
with an unknown name, and its first unknown name. -/
structure Resolves (b : Builder) : Prop where
  succeeds_iff : (∃ lib, b.build = .ok lib) ↔ ∀ m ∈ b.methods, b.KnowsAll m
  builds : ∀ lib, b.build = .ok lib → b.Builds lib
  fails_iff : ∀ e, b.build = .error e ↔
    ∃ m name, IsFirst (fun m => ¬b.KnowsAll m) b.methods m ∧
      IsFirst (fun name => ¬b.Knows name) m.fixedNames name ∧ e = .unknownVariable m.name name

theorem bears_of_mapM {c : Catalog} (hvars : c.vars = b.vars) {method : String}
    {names : List String} {ids : List VariableId} (h : names.mapM (b.lookUp method) = .ok ids)
    (hsound : b.Sound) : List.Forall₂ c.Bears names ids := by
  refine (mapM_eq_ok_iff.mp h).imp fun name id hid => ?_
  rw [lookUp_eq_ok_iff, hsound.findVariable?_iff, ← hvars] at hid
  exact hid

theorem declares_of_declare {c : Catalog} (hvars : c.vars = b.vars) (hsound : b.Sound)
    {m : MethodSpec} {d : Method} (h : b.declare m = .ok d) : c.Declares m d := by
  rw [declare_eq] at h
  obtain ⟨outputs, houtputs, h⟩ := bind_eq_ok.mp h
  obtain ⟨inputs, hinputs, h⟩ := bind_eq_ok.mp h
  cases h
  exact ⟨rfl, rfl, bears_of_mapM hvars houtputs hsound, bears_of_mapM hvars hinputs hsound, rfl,
    rfl, rfl, rfl⟩

theorem Sound.builds (hsound : b.Sound) {lib : Library} (h : b.build = .ok lib) :
    b.Builds lib := by
  have hmakes := makes_of_build h
  constructor
  case vars => exact hmakes.vars
  case variableIndex => exact hmakes.variableIndex
  case methods =>
    exact (forall₂_of_declareAll hmakes.methods).imp fun m d hd =>
      declares_of_declare hmakes.vars hsound hd
  case methodIndex => exact hmakes.methodIndex
  case natives => exact hmakes.natives
  case findVariable?_iff =>
    intro name id
    rw [Catalog.findVariable?, hmakes.variableIndex, Catalog.variableAt?, hmakes.vars]
    exact hsound.findVariable?_iff name id
  case findMethod?_iff =>
    intro name id
    rw [Catalog.findMethod?, hmakes.methodIndex]
    exact hsound.methodIndex.congr (names_of_declareAll hmakes.methods) name id

/-- **Building finds every slot among all variables**, wherever they were registered. -/
theorem Sound.resolves (hsound : b.Sound) : b.Resolves := by
  refine ⟨?_, fun lib h => hsound.builds h, fun e => ?_⟩
  · rw [exists_build_iff, declareAll_eq_mapM, exists_mapM_iff]
    exact forall₂_congr fun m _ => hsound.exists_declare_iff
  · rw [build_eq_error_iff, declareAll_eq_mapM,
      mapM_eq_error_iff_isFirst (p := fun m => ¬b.KnowsAll m)
        fun m => hsound.exists_declare_iff.trans not_not.symm]
    refine exists_congr fun m => ?_
    rw [hsound.declare_eq_error_iff, ← exists_and_left]

end Builder

/-- **Registration keeps everything consistent.** After any calls, refused ones and sets that stop
midway included, names are unique, ids are the positions of what was accepted, each index is inverse
to its list, and groups are fit for their places; building succeeds exactly when every fixed slot
names a variable, registered before or after the method, and then means that variable. -/
theorem registration_consistent (rs : List Registration) :
    (Builder.empty.registerEach rs).Consistent (Builder.empty.answersEach rs) ∧
      (Builder.empty.registerEach rs).Resolves :=
  ⟨Builder.consistent_registerEach rs, (Builder.sound_empty.registerEach rs).resolves⟩

end Runbook
