import Runbook.Proofs.Standard.Footprint

/-!
# What standard methods do

Every standard method begins by looking: at its keywords, its inputs and the catalog. As long as it
looks it may fail, for a fault of its own, and it changes nothing. Then it does one thing, which its
name tells: it stores a value, prints one, runs an agenda, runs it again and again, or does nothing.
Nowhere does it ask how deep its task stands, or whether it is silent.

* `Action.LooksThen`: the action looks, and then goes on as a predicate says.
* `Standard.Deed`: the one thing that a method of a certain name does.
* `Standard.native_deed`: that is what the methods of the library do.
* `Standard.methodAt_of_name`, `Standard.native_of_name`: a name tells the slots and the deed.
* `Standard.native_congr`: level and silence make no difference to them.
-/

namespace Runbook

/-! ## Looking -/

/-- The action looks at values, may fail for a fault of its own, and then goes on as `acts` says. -/
inductive Action.LooksThen {α : Type} (acts : Action α → Prop) : Action α → Prop where
  | act {a : Action α} : acts a → LooksThen acts a
  | fault {f : Failure} : f.Own → LooksThen acts (.fail f)
  | look {v : VariableId} {next : Value → Action α} :
    (∀ x, LooksThen acts (next x)) → LooksThen acts (.read v next)

namespace Action

variable {α β : Type} {acts : Action α → Prop}

/-- The action does nothing but look. -/
def Looks (a : Action α) : Prop :=
  a.LooksThen fun b => ∃ x, b = .done x

/-- After it, another action may look on. -/
theorem Looks.andThen {a : Action β} (ha : a.Looks) {f : β → Action α}
    (hf : ∀ x, (f x).LooksThen acts) : (a.andThen f).LooksThen acts := by
  induction ha with
  | act h =>
    obtain ⟨x, rfl⟩ := h
    exact hf x
  | fault h => exact .fault h
  | look _ ih => exact .look ih

theorem looksThen_refuse (f : ArgumentFault) : (refuse f : Action α).LooksThen acts :=
  .fault ⟨_, rfl⟩

theorem looksThen_fault (f : Fault) : (Action.fault f : Action α).LooksThen acts :=
  .fault ⟨f, rfl⟩

theorem looks_done (x : α) : (done x).Looks :=
  .act ⟨x, rfl⟩

theorem looks_get (v : VariableId) : (get v).Looks :=
  .look fun x => looks_done x

theorem looks_contents (r : Except GroupMismatch α) : (contents r).Looks := by
  cases r with
  | ok x => exact looks_done x
  | error e => exact looksThen_fault _

end Action

namespace Call

open Runbook.Action

variable (c : Call) (i : Nat)

theorem looks_keyword : (c.keyword i).Looks := by
  unfold keyword
  split
  · exact looks_done _
  · exact looksThen_fault _

theorem looks_inputId : (c.inputId i).Looks := by
  unfold inputId
  split
  · exact looks_done _
  · exact looksThen_fault _

theorem looks_outputId : (c.outputId i).Looks := by
  unfold outputId
  split
  · exact looks_done _
  · exact looksThen_fault _

theorem looks_input : (c.input i).Looks :=
  (c.looks_inputId i).andThen fun v => looks_get v

theorem looks_indexKeyword : (c.indexKeyword i).Looks :=
  (c.looks_keyword i).andThen fun _ => looks_contents _

theorem looks_numericKeyword : (c.numericKeyword i).Looks :=
  (c.looks_keyword i).andThen fun _ => looks_contents _

theorem looks_pipelineInput : (c.pipelineInput i).Looks :=
  (c.looks_input i).andThen fun _ => looks_contents _

end Call

/-! ## Deeds -/

namespace Standard

/-- What a standard method of this name does once it has looked. -/
inductive Deed : String → Action Unit → Prop where
  | nothing (name : String) : Deed name (.done ())
  | store (name : String) (v : VariableId) (x : Value) : Deed name (.set v x)
  | print (name : String) (level : Level) (variableName text : String) :
    Deed name (.report (.printed level variableName text) (.done ()))
  | execute (p : Pipeline) : Deed "AgendaExecute" (.execute p .shared)
  | executeExclusive (p : Pipeline) (keep : List VariableId) :
    Deed "AgendaExecuteExclusive" (.execute p (.isolated keep))
  | loop (index : VariableId) (p : Pipeline) (step : Int) (n : Nat) (i : Int) :
    Deed "ForLoop" (loop index p step n .shared i)

open Runbook.Action Runbook.Call

variable {name : String} (c : Call)

theorem deed_output (i : Nat) (x : Value) : (c.output i x).LooksThen (Deed name) := by
  refine (c.looks_outputId i).andThen fun v => ?_
  dsimp only
  split
  · exact .act (.store name v x)
  · exact looksThen_fault _

theorem deed_setKeyword : (setKeyword c).LooksThen (Deed name) :=
  (c.looks_keyword 0).andThen fun x => deed_output c 0 x

theorem deed_setMatrix : (setMatrix c).LooksThen (Deed name) := by
  refine (c.looks_keyword 0).andThen fun _ => (looks_contents _).andThen fun values => ?_
  refine (c.looks_indexKeyword 1).andThen fun ncols => ?_
  dsimp only
  split
  · exact looksThen_refuse _
  · split
    · exact looksThen_refuse _
    · split
      · exact deed_output c 0 _
      · exact looksThen_fault _

theorem deed_copy : (copy c).LooksThen (Deed name) := by
  refine (c.looks_inputId 0).andThen fun source => (looks_get source).andThen fun value => ?_
  refine (c.looks_outputId 0).andThen fun target => ?_
  dsimp only
  split
  · exact deed_output c 0 value
  · exact looksThen_refuse _

theorem deed_touch : (touch c).LooksThen (Deed name) :=
  .act (.nothing name)

theorem deed_linearSpace : (linearSpace c).LooksThen (Deed name) := by
  refine (c.looks_numericKeyword 0).andThen fun start => ?_
  refine (c.looks_numericKeyword 1).andThen fun stop => ?_
  refine (c.looks_numericKeyword 2).andThen fun step => ?_
  split
  · exact looksThen_refuse _
  · split
    · exact looksThen_refuse _
    · split
      · exact looksThen_refuse _
      · split
        · exact looksThen_refuse _
        · exact deed_output c 0 _

theorem deed_countedSpace : (countedSpace c).LooksThen (Deed name) := by
  refine (c.looks_indexKeyword 0).andThen fun nelem => ?_
  refine (c.looks_numericKeyword 1).andThen fun start => ?_
  refine (c.looks_numericKeyword 2).andThen fun stop => ?_
  split
  · exact looksThen_refuse _
  · split
    · exact looksThen_refuse _
    · exact deed_output c 0 _

theorem deed_addToIndex : (addToIndex c).LooksThen (Deed name) := by
  refine (c.looks_input 0).andThen fun _ => (looks_contents _).andThen fun a => ?_
  refine (c.looks_indexKeyword 0).andThen fun b => ?_
  split
  · exact deed_output c 0 _
  · exact looksThen_refuse _

theorem deed_onNumeric (f : Float → Float → Float) : (onNumeric f c).LooksThen (Deed name) :=
  (c.looks_input 0).andThen fun _ => (looks_contents _).andThen fun _ =>
    (c.looks_numericKeyword 0).andThen fun _ => deed_output c 0 _

theorem deed_onVector (f : Float → Float → Float) : (onVector f c).LooksThen (Deed name) :=
  (c.looks_numericKeyword 0).andThen fun _ => (c.looks_input 0).andThen fun _ =>
    (looks_contents _).andThen fun _ => deed_output c 0 _

theorem deed_sumVector : (sumVector c).LooksThen (Deed name) :=
  (c.looks_input 0).andThen fun _ => (looks_contents _).andThen fun _ => deed_output c 0 _

theorem deed_extendVector : (extendVector c).LooksThen (Deed name) :=
  (c.looks_input 0).andThen fun _ => (looks_contents _).andThen fun _ =>
    (c.looks_input 1).andThen fun _ => (looks_contents _).andThen fun _ => deed_output c 0 _

theorem deed_storeAgenda (ts : List Task) : (storeAgenda c ts).LooksThen (Deed name) :=
  (c.looks_outputId 0).andThen fun _ => deed_output c 0 _

theorem deed_appendAgenda : (appendAgenda c).LooksThen (Deed name) :=
  (c.looks_pipelineInput 0).andThen fun _ => deed_storeAgenda c _

theorem deed_executeAgenda : (executeAgenda c).LooksThen (Deed "AgendaExecute") :=
  (c.looks_pipelineInput 0).andThen fun p => .act (.execute p)

theorem looks_keptVariables (c : Catalog) (names : List String) :
    (keptVariables c names).Looks := by
  induction names with
  | nil => exact looks_done _
  | cons name names ih =>
    unfold keptVariables
    split
    · exact looksThen_refuse _
    · exact ih.andThen fun vs => looks_done _

theorem deed_executeAgendaExclusive :
    (executeAgendaExclusive c).LooksThen (Deed "AgendaExecuteExclusive") := by
  refine (c.looks_pipelineInput 0).andThen fun p => (c.looks_keyword 0).andThen fun _ => ?_
  refine (looks_contents _).andThen fun names => ?_
  exact (looks_keptVariables c.catalog names).andThen fun keep => .act (.executeExclusive p keep)

theorem deed_forLoop : (forLoop c).LooksThen (Deed "ForLoop") := by
  refine (c.looks_pipelineInput 0).andThen fun p => ?_
  refine (c.looks_indexKeyword 0).andThen fun start => ?_
  refine (c.looks_indexKeyword 1).andThen fun stop => ?_
  refine (c.looks_indexKeyword 2).andThen fun step => ?_
  split
  · exact looksThen_refuse _
  · exact (c.looks_outputId 0).andThen fun index => .act (.loop index p _ _ _)

theorem deed_raise : (raise c).LooksThen (Deed name) :=
  (c.looks_keyword 0).andThen fun _ => (looks_contents _).andThen fun _ => looksThen_fault _

theorem deed_print : (print c).LooksThen (Deed name) := by
  refine (c.looks_indexKeyword 0).andThen fun level => ?_
  split
  · exact looksThen_refuse _
  · refine (c.looks_inputId 0).andThen fun source => (looks_get source).andThen fun value => ?_
    exact .act (.print name _ _ _)

theorem deed_of_mem {s : MethodSpec} (hs : s ∈ specs) (c : Call) :
    (s.native c).LooksThen (Deed s.name) := by
  revert s
  simp only [specs, basicMethods, mathMethods, controlMethods, reportingMethods, setter, spec,
    List.cons_append, List.nil_append, List.forall_mem_cons, List.not_mem_nil, false_imp_iff,
    implies_true, and_true]
  exact ⟨deed_setKeyword c, deed_setKeyword c, deed_setKeyword c, deed_setKeyword c,
    deed_setKeyword c, deed_setKeyword c, deed_setMatrix c, deed_linearSpace c,
    deed_countedSpace c, deed_copy c, deed_touch c, deed_addToIndex c, deed_onNumeric c _,
    deed_onNumeric c _, deed_onVector c _, deed_onVector c _, deed_sumVector c,
    deed_extendVector c, deed_storeAgenda c _, deed_appendAgenda c, deed_executeAgenda c,
    deed_executeAgendaExclusive c, deed_forLoop c, deed_raise c, deed_print c⟩

/-- A method of the library is one of the lists, by name and implementation, or it is unknown, and
then it has no name and does nothing. -/
theorem exists_spec_or (m : MethodId) :
    (∃ s ∈ specs, (library.catalog.methodAt m).name = s.name ∧ library.native m = s.native) ∨
      ((library.catalog.methodAt m).name = "" ∧ library.native m = fun _ => .done ()) := by
  rcases Nat.lt_or_ge m.index library.catalog.methods.length with h | h
  · obtain ⟨s, hs, hdeclare, hnative⟩ := exists_spec h
    exact .inl ⟨s, hs, (Builder.of_declare hdeclare).1, hnative⟩
  · refine .inr ⟨?_, ?_⟩
    · rw [Catalog.methodAt, Catalog.methodAt?, List.getElem?_eq_none h]
      rfl
    · rw [Library.native, List.getElem?_eq_none (library.length_eq ▸ h)]
      rfl

/-- What holds of the methods that are called so holds of a method that is called so. -/
theorem methodAt_of_name {p : Method → Prop} {name : String} (hne : name ≠ "")
    (hall : ∀ d ∈ library.catalog.methods, d.name = name → p d) {m : MethodId}
    (h : (library.catalog.methodAt m).name = name) : p (library.catalog.methodAt m) := by
  rcases Nat.lt_or_ge m.index library.catalog.methods.length with hm | hm
  · exact hall _ (Catalog.methodAt_mem hm) h
  · rw [Catalog.methodAt, Catalog.methodAt?, List.getElem?_eq_none hm] at h
    exact absurd h.symm hne

/-- A method that is called like one of the lists is implemented as that one. -/
theorem native_of_name {i : Nat} (hi : i < specs.length) {m : MethodId}
    (h : (library.catalog.methodAt m).name = specs[i].name) :
    library.native m = specs[i].native := by
  have hdistinct : (specs.map MethodSpec.name).Nodup := by decide
  have hnamed : ∀ s ∈ specs, s.name ≠ "" := by decide
  have hmem := List.getElem_mem hi
  rcases exists_spec_or m with ⟨s, hs, hname, hnative⟩ | ⟨hname, -⟩
  · rw [hnative, List.inj_on_of_nodup_map hdistinct hs hmem (hname.symm.trans h)]
  · exact absurd (h.symm.trans hname) (hnamed _ hmem)

/-- **What a method of the library does**, whether it is a known one or not. -/
theorem native_deed (m : MethodId) (c : Call) :
    (library.native m c).LooksThen (Deed (library.catalog.methodAt m).name) := by
  rcases exists_spec_or m with ⟨s, hs, hname, hnative⟩ | ⟨-, hnative⟩
  · rw [hnative, hname]
    exact deed_of_mem hs c
  · rw [hnative]
    exact .act (.nothing _)

/-- **Level and silence make no difference to a method of the library.** -/
theorem native_congr (m : MethodId) (c : Catalog) (t : Task) (depth depth' : Nat)
    (silent silent' : Bool) :
    library.native m ⟨c, t, depth, silent⟩ = library.native m ⟨c, t, depth', silent'⟩ := by
  have hspecs : ∀ s ∈ specs,
      s.native ⟨c, t, depth, silent⟩ = s.native ⟨c, t, depth', silent'⟩ := by
    simp only [specs, basicMethods, mathMethods, controlMethods, reportingMethods, setter, spec,
      List.cons_append, List.nil_append, List.forall_mem_cons, List.not_mem_nil, false_imp_iff,
      implies_true, and_true]
    and_intros <;> rfl
  rcases exists_spec_or m with ⟨s, hs, -, hnative⟩ | ⟨-, hnative⟩
  · rw [hnative]
    exact hspecs s hs
  · rw [hnative]

end Standard
end Runbook
