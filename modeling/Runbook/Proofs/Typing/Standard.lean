import Runbook.Proofs.Registry.Standard
import Runbook.Proofs.Typing.WellTyped

/-!
# Bound control files do not go wrong

Called on an expressible task and a well-typed workspace, a standard method finds every slot and
every group that it asks for. It stores values of the right groups and expressible tasks, and fails
only by the check of its own arguments. So does every run that starts from a bound control file.

* `Call.Typed.keyword`, `Call.Typed.input`, `Call.Typed.store`: what slots of a group come with.
* `Standard.safe_of_mem`: each standard method, one lemma a method.
* `Standard.bound_runs_safe`: every run of a bound control file.
-/

namespace Runbook

/-! ## Contents of groups -/

namespace Value

variable {x : Value}

theorem exists_asIndex (h : x.group = .index) : ∃ i, x.asIndex = .ok i := by
  cases x <;> cases h
  exact ⟨_, rfl⟩

theorem exists_asNumeric (h : x.group = .numeric) : ∃ y, x.asNumeric = .ok y := by
  cases x <;> cases h
  exact ⟨_, rfl⟩

theorem exists_asString (h : x.group = .string) : ∃ s, x.asString = .ok s := by
  cases x <;> cases h
  exact ⟨_, rfl⟩

theorem exists_asVector (h : x.group = .vector) : ∃ xs, x.asVector = .ok xs := by
  cases x <;> cases h
  exact ⟨_, rfl⟩

theorem exists_asStringArray (h : x.group = .stringArray) : ∃ ss, x.asStringArray = .ok ss := by
  cases x <;> cases h
  exact ⟨_, rfl⟩

theorem exists_asPipeline (h : x.group = .pipeline) :
    ∃ p, x.asPipeline = .ok p ∧ x = .pipeline p := by
  cases x <;> cases h
  exact ⟨_, rfl, rfl⟩

theorem group_of_fits {g : Group} (hg : g ≠ .any) (h : x.Fits g) : x.group = g := by
  rwa [Fits, if_neg hg] at h

end Value

theorem group_of_takes {c : Catalog} {g : Group} {v : VariableId} (hg : g ≠ .any)
    (h : c.Takes g v) : (c.variableAt v).group = g :=
  ((Group.accepts_iff.mp h.2).resolve_left hg).symm

/-! ## Slots that are declared by name -/

/-- The group of the variable that a fixed slot names. -/
def Catalog.groupNamed (c : Catalog) (name : String) : Group :=
  match c.findVariable? name with
  | some v => (c.variableAt v).group
  | none => .any

theorem groups_of_resolve {b : Builder} {c : Catalog} (hindex : c.variableIndex = b.variableIndex)
    {method : String} {names : List String} {ids : List VariableId}
    (h : b.resolve method names = .ok ids) :
    (ids.map fun v => (c.variableAt v).group) = names.map c.groupNamed := by
  induction names generalizing ids with
  | nil => cases h; rfl
  | cons name names ih =>
    rw [Builder.resolve] at h
    split at h
    case h_1 v hv =>
      obtain ⟨rest, hrest, rfl⟩ := map_eq_ok.mp h
      have hfind : c.findVariable? name = some v := by
        rw [Catalog.findVariable?, hindex]
        exact hv
      rw [List.map_cons, List.map_cons, ih hrest, Catalog.groupNamed, hfind]
    case h_2 => cases h

/-- The groups of the slots of a declared method. -/
theorem groups_of_declare {b : Builder} {c : Catalog} (hindex : c.variableIndex = b.variableIndex)
    {s : MethodSpec} {m : Method} (h : b.declare s = .ok m) :
    m.outputGroups c = s.outputs.map c.groupNamed ++ s.genericOutputs ∧
      m.inputGroups c = s.inputs.map c.groupNamed ++ s.genericInputs := by
  obtain ⟨outputs, houtputs, h⟩ := bind_eq_ok.mp h
  obtain ⟨inputs, hinputs, h⟩ := bind_eq_ok.mp h
  cases h
  rw [Method.outputGroups, Method.inputGroups, groups_of_resolve hindex houtputs,
    groups_of_resolve hindex hinputs]
  exact ⟨rfl, rfl⟩

/-! ## Slots of typed calls -/

/-- A value of the group of the output is stored. -/
theorem Call.safe_output {c : Call} {name : String} {w : Workspace} (hw : w.WellTyped c.catalog)
    {i : Nat} {v : VariableId} (hv : (c.task.allOutputs c.catalog)[i]? = some v) {x : Value}
    (hx : x.group = (c.catalog.variableAt v).group)
    (hq : ∀ q, x = .pipeline q → q.Expressible c.catalog) :
    (c.output i x).Safe c.catalog name (fun _ _ => True) w := by
  have hstores : c.output i x = .set v x := by
    rw [Call.output, Call.outputId, hv]
    exact if_pos hx
  rw [hstores]
  exact ⟨hw.write hx hq, trivial⟩

namespace Call.Typed

variable {c : Call} {outputs inputs keywords : List Group} {name : String} {w : Workspace} {i : Nat}
  {g : Group}

theorem keyword (h : c.Typed outputs inputs keywords) (hi : keywords[i]? = some g)
    (hg : g ≠ .any) :
    (c.keyword i).Safe c.catalog name (fun x after => after = w ∧ x.group = g) w := by
  obtain ⟨x, hx, hfits⟩ := getElem?_of_forall₂ h.keywords hi
  rw [Call.keyword, hx]
  exact ⟨rfl, Value.group_of_fits hg hfits⟩

theorem indexKeyword (h : c.Typed outputs inputs keywords) (hi : keywords[i]? = some .index) :
    (c.indexKeyword i).Safe c.catalog name (fun _ after => after = w) w := by
  refine safe_andThen (h.keyword (w := w) hi nofun) ?_
  rintro x _ ⟨rfl, hx⟩
  exact safe_contents (Value.exists_asIndex hx)

theorem numericKeyword (h : c.Typed outputs inputs keywords) (hi : keywords[i]? = some .numeric) :
    (c.numericKeyword i).Safe c.catalog name (fun _ after => after = w) w := by
  refine safe_andThen (h.keyword (w := w) hi nofun) ?_
  rintro x _ ⟨rfl, hx⟩
  exact safe_contents (Value.exists_asNumeric hx)

theorem inputId (h : c.Typed outputs inputs keywords) (hi : inputs[i]? = some g) :
    (c.inputId i).Safe c.catalog name (fun v after => after = w ∧ c.catalog.Takes g v) w := by
  obtain ⟨v, hv, htakes⟩ := getElem?_of_forall₂ h.inputs hi
  rw [Call.inputId, hv]
  exact ⟨rfl, htakes⟩

theorem outputId (h : c.Typed outputs inputs keywords) (hi : outputs[i]? = some g) :
    (c.outputId i).Safe c.catalog name
      (fun v after => after = w ∧ (c.task.allOutputs c.catalog)[i]? = some v ∧ c.catalog.Takes g v)
      w := by
  obtain ⟨v, hv, htakes⟩ := getElem?_of_forall₂ h.outputs hi
  rw [Call.outputId, hv]
  exact ⟨rfl, rfl, htakes⟩

/-- An input of a concrete group has a value of that group. -/
theorem input (h : c.Typed outputs inputs keywords) (hw : w.WellTyped c.catalog)
    (hi : inputs[i]? = some g) (hg : g ≠ .any) :
    (c.input i).Safe c.catalog name
      (fun x after => after = w ∧ x.group = g ∧ ∀ q, x = .pipeline q → q.Expressible c.catalog)
      w := by
  refine safe_andThen (h.inputId (w := w) hi) ?_
  rintro v _ ⟨rfl, hv⟩
  refine ⟨trivial, rfl, ?_, fun q hq => hw.stored v q hq⟩
  rw [hw.group_eq v hv.1, group_of_takes hg hv]

theorem pipelineInput (h : c.Typed outputs inputs keywords) (hw : w.WellTyped c.catalog)
    (hi : inputs[i]? = some .pipeline) :
    (c.pipelineInput i).Safe c.catalog name
      (fun p after => after = w ∧ p.Expressible c.catalog) w := by
  refine safe_andThen (h.input hw hi nofun) ?_
  rintro x _ ⟨rfl, hx, hexpressible⟩
  obtain ⟨p, hp, rfl⟩ := Value.exists_asPipeline hx
  rw [hp]
  exact ⟨rfl, hexpressible p rfl⟩

/-- A value of the concrete group of the output is stored. -/
theorem store (h : c.Typed outputs inputs keywords) (hw : w.WellTyped c.catalog)
    {x : Value} (hi : outputs[i]? = some x.group)
    (hq : ∀ q, x = .pipeline q → q.Expressible c.catalog) :
    (c.output i x).Safe c.catalog name (fun _ _ => True) w := by
  obtain ⟨v, hv, htakes⟩ := getElem?_of_forall₂ h.outputs hi
  exact safe_output hw hv (group_of_takes x.group_ne_any htakes).symm hq

end Call.Typed

/-! ## Safe methods -/

/-- The method is safe in calls that are typed so. -/
def SafeOn (outputs inputs keywords : List Group) (name : String) (n : Native) : Prop :=
  ∀ (c : Call) (w : Workspace), c.Typed outputs inputs keywords → w.WellTyped c.catalog →
    (n c).Safe c.catalog name (fun _ _ => True) w

/-- If every method is safe as it is declared, the library keeps workspaces well-typed and fails as
expected. -/
theorem sound_typed_of_safe {lib : Library} (hc : lib.catalog.WellFormed)
    (h : ∀ m : MethodId, m.index < lib.catalog.methods.length → ∃ n, lib.native m = n ∧
      SafeOn ((lib.catalog.methodAt m).outputGroups lib.catalog)
        ((lib.catalog.methodAt m).inputGroups lib.catalog)
        ((lib.catalog.methodAt m).keywords.map Keyword.group) (lib.catalog.methodAt m).name n) :
    (Contract.typed lib.catalog).Sound lib where
  merge keep hw hother := hw.mergeFrom hother keep
  markAll _ hw := hw.markAll _
  missing _ _ _ := trivial
  deep _ _ := trivial
  native {t w} depth silent ht hw _ := by
    obtain ⟨n, hn, hsafe⟩ := h t.method ht.fillsSlots.method_lt
    rw [hn]
    exact hsafe _ w (typed_of_expressible hc ht depth silent) hw

/-! ## The standard methods -/

namespace Standard

theorem safe_setKeyword {g : Group} {name : String} (hany : g ≠ .any) (hpipeline : g ≠ .pipeline) :
    SafeOn [g] [] [g] name setKeyword := by
  intro c w h hw
  refine safe_andThen (h.keyword (i := 0) rfl hany) ?_
  rintro x _ ⟨rfl, rfl⟩
  refine h.store hw rfl ?_
  rintro q rfl
  exact absurd rfl hpipeline

theorem safe_setMatrix : SafeOn [.matrix] [] [.vector, .index] "MatrixSet" setMatrix := by
  intro c w h hw
  refine safe_andThen (h.keyword (i := 0) rfl nofun) ?_
  rintro x _ ⟨rfl, hx⟩
  refine safe_andThen (safe_contents (Value.exists_asVector hx)) ?_
  rintro values _ rfl
  refine safe_andThen (h.indexKeyword (i := 1) rfl) ?_
  rintro ncols _ rfl
  split
  · exact safe_fault rfl
  · dsimp only
    split
    case isTrue => exact safe_fault rfl
    case isFalse hrows =>
      -- The rows fill the matrix, so it can be built.
      have hlength : values.length = values.length / ncols.toNatClampNeg * ncols.toNatClampNeg := by
        rw [Nat.div_mul_cancel (Nat.dvd_of_mod_eq_zero (not_not.mp hrows))]
      rw [Matrix.ofEntries, dif_pos hlength]
      exact h.store hw rfl nofun

theorem safe_copy : SafeOn [.any] [.any] [] "Copy" copy := by
  intro c w h hw
  refine safe_andThen (h.inputId (i := 0) rfl) ?_
  rintro source _ ⟨rfl, -⟩
  refine safe_andThen (safe_get source) ?_
  rintro value _ ⟨rfl, rfl⟩
  refine safe_andThen (h.outputId (i := 0) rfl) ?_
  rintro target _ ⟨rfl, htarget, -⟩
  dsimp only
  split
  case isTrue hgroup => exact Call.safe_output hw htarget hgroup (hw.stored source)
  case isFalse => exact safe_fault rfl

theorem safe_touch : SafeOn [.any] [] [] "Touch" touch := fun _ _ _ _ => trivial

theorem safe_linearSpace :
    SafeOn [.vector] [] [.numeric, .numeric, .numeric] "VectorLinSpace" linearSpace := by
  intro c w h hw
  refine safe_andThen (h.numericKeyword (i := 0) rfl) ?_
  rintro start _ rfl
  refine safe_andThen (h.numericKeyword (i := 1) rfl) ?_
  rintro stop _ rfl
  refine safe_andThen (h.numericKeyword (i := 2) rfl) ?_
  rintro step _ rfl
  split
  · exact safe_fault rfl
  · split
    · exact safe_fault rfl
    · split
      · exact safe_fault rfl
      · split
        · exact safe_fault rfl
        · exact h.store hw rfl nofun

theorem safe_countedSpace :
    SafeOn [.vector] [] [.index, .numeric, .numeric] "VectorNLinSpace" countedSpace := by
  intro c w h hw
  refine safe_andThen (h.indexKeyword (i := 0) rfl) ?_
  rintro nelem _ rfl
  refine safe_andThen (h.numericKeyword (i := 1) rfl) ?_
  rintro start _ rfl
  refine safe_andThen (h.numericKeyword (i := 2) rfl) ?_
  rintro stop _ rfl
  split
  · exact safe_fault rfl
  · split
    · exact safe_fault rfl
    · exact h.store hw rfl nofun

theorem safe_addToIndex : SafeOn [.index] [.index] [.index] "IndexAdd" addToIndex := by
  intro c w h hw
  refine safe_andThen (h.input hw (i := 0) rfl nofun) ?_
  rintro x _ ⟨rfl, hx, -⟩
  refine safe_andThen (safe_contents (Value.exists_asIndex hx)) ?_
  rintro a _ rfl
  refine safe_andThen (h.indexKeyword (i := 0) rfl) ?_
  rintro b _ rfl
  split
  · exact h.store hw rfl nofun
  · exact safe_fault rfl

theorem safe_onNumeric (f : Float → Float → Float) (name : String) :
    SafeOn [.numeric] [.numeric] [.numeric] name (onNumeric f) := by
  intro c w h hw
  refine safe_andThen (h.input hw (i := 0) rfl nofun) ?_
  rintro x _ ⟨rfl, hx, -⟩
  refine safe_andThen (safe_contents (Value.exists_asNumeric hx)) ?_
  rintro a _ rfl
  refine safe_andThen (h.numericKeyword (i := 0) rfl) ?_
  rintro b _ rfl
  exact h.store hw rfl nofun

theorem safe_onVector (f : Float → Float → Float) (name : String) :
    SafeOn [.vector] [.vector] [.numeric] name (onVector f) := by
  intro c w h hw
  refine safe_andThen (h.numericKeyword (i := 0) rfl) ?_
  rintro b _ rfl
  refine safe_andThen (h.input hw (i := 0) rfl nofun) ?_
  rintro x _ ⟨rfl, hx, -⟩
  refine safe_andThen (safe_contents (Value.exists_asVector hx)) ?_
  rintro xs _ rfl
  exact h.store hw rfl nofun

theorem safe_sumVector (name : String) : SafeOn [.numeric] [.vector] [] name sumVector := by
  intro c w h hw
  refine safe_andThen (h.input hw (i := 0) rfl nofun) ?_
  rintro x _ ⟨rfl, hx, -⟩
  refine safe_andThen (safe_contents (Value.exists_asVector hx)) ?_
  rintro xs _ rfl
  exact h.store hw rfl nofun

theorem safe_extendVector (name : String) :
    SafeOn [.vector] [.vector, .numeric] [] name extendVector := by
  intro c w h hw
  refine safe_andThen (h.input hw (i := 0) rfl nofun) ?_
  rintro x _ ⟨rfl, hx, -⟩
  refine safe_andThen (safe_contents (Value.exists_asVector hx)) ?_
  rintro xs _ rfl
  refine safe_andThen (h.input hw (i := 1) rfl nofun) ?_
  rintro y _ ⟨rfl, hy, -⟩
  refine safe_andThen (safe_contents (Value.exists_asNumeric hy)) ?_
  rintro last _ rfl
  exact h.store hw rfl nofun

/-- What is stored as an agenda may be run later. -/
theorem safe_storeAgenda {c : Call} {inputs keywords : List Group} {name : String} {w : Workspace}
    (h : c.Typed [.pipeline] inputs keywords) (hw : w.WellTyped c.catalog) {tasks : List Task}
    (htasks : ∀ t ∈ tasks, t.Expressible c.catalog) :
    (storeAgenda c tasks).Safe c.catalog name (fun _ _ => True) w := by
  refine safe_andThen (h.outputId (i := 0) rfl) ?_
  rintro target _ ⟨rfl, -⟩
  refine h.store hw rfl ?_
  rintro q ⟨⟩
  exact htasks

theorem safe_setAgenda (name : String) : SafeOn [.pipeline] [] [] name setAgenda := by
  intro c w h hw
  exact safe_storeAgenda h hw h.body

theorem safe_appendAgenda (name : String) :
    SafeOn [.pipeline] [.pipeline] [] name appendAgenda := by
  intro c w h hw
  refine safe_andThen (h.pipelineInput hw (i := 0) rfl) ?_
  rintro agenda _ ⟨rfl, hagenda⟩
  refine safe_storeAgenda h hw ?_
  intro t ht
  rcases List.mem_append.mp ht with ht | ht
  · exact hagenda t ht
  · exact h.body t ht

theorem safe_executeAgenda (name : String) : SafeOn [] [.pipeline] [] name executeAgenda := by
  intro c w h hw
  refine safe_andThen (h.pipelineInput hw (i := 0) rfl) ?_
  rintro agenda _ ⟨rfl, hagenda⟩
  exact safe_execute hagenda .shared

theorem safe_keptVariables (c : Catalog) (names : List String) (w : Workspace) :
    (keptVariables c names).Safe c "AgendaExecuteExclusive" (fun _ after => after = w) w := by
  induction names with
  | nil => rfl
  | cons name names ih =>
    unfold keptVariables
    split
    · exact safe_fault rfl
    · refine safe_andThen ih ?_
      rintro vs _ rfl
      rfl

theorem safe_executeAgendaExclusive :
    SafeOn [] [.pipeline] [.stringArray] "AgendaExecuteExclusive" executeAgendaExclusive := by
  intro c w h hw
  refine safe_andThen (h.pipelineInput hw (i := 0) rfl) ?_
  rintro agenda _ ⟨rfl, hagenda⟩
  refine safe_andThen (h.keyword (i := 0) rfl nofun) ?_
  rintro x _ ⟨rfl, hx⟩
  refine safe_andThen (safe_contents (Value.exists_asStringArray hx)) ?_
  rintro names _ rfl
  refine safe_andThen (safe_keptVariables c.catalog names _) ?_
  rintro keep _ rfl
  exact safe_execute hagenda (.isolated keep)

/-- The index variable is written without a check, so that it is of the right group is needed. -/
theorem safe_loop {c : Catalog} {name : String} {index : VariableId}
    (hindex : (c.variableAt index).group = .index) {agenda : Pipeline}
    (hagenda : agenda.Expressible c) (step : Int) (n : Nat) (mode : Mode) (i : Int) {w : Workspace}
    (hw : w.WellTyped c) :
    (loop index agenda step n mode i).Safe c name (fun _ _ => True) w := by
  induction n generalizing mode i w with
  | zero => trivial
  | succ n ih =>
    refine ⟨hw.write hindex.symm nofun, hagenda, ?_⟩
    rintro (e | _) after hafter - he
    · exact fun _ => he e rfl
    · exact ih .muted (i + step) hafter

theorem safe_forLoop :
    SafeOn [.index] [.pipeline] [.index, .index, .index] "ForLoop" forLoop := by
  intro c w h hw
  refine safe_andThen (h.pipelineInput hw (i := 0) rfl) ?_
  rintro agenda _ ⟨rfl, hagenda⟩
  refine safe_andThen (h.indexKeyword (i := 0) rfl) ?_
  rintro start _ rfl
  refine safe_andThen (h.indexKeyword (i := 1) rfl) ?_
  rintro stop _ rfl
  refine safe_andThen (h.indexKeyword (i := 2) rfl) ?_
  rintro step _ rfl
  split
  · exact safe_fault rfl
  · refine safe_andThen (h.outputId (i := 0) rfl) ?_
    rintro index _ ⟨rfl, -, hindex⟩
    exact safe_loop (group_of_takes nofun hindex) hagenda _ _ _ _ hw

theorem safe_raise : SafeOn [] [] [.string] "Error" raise := by
  intro c w h hw
  refine safe_andThen (h.keyword (i := 0) rfl nofun) ?_
  rintro x _ ⟨rfl, hx⟩
  refine safe_andThen (safe_contents (Value.exists_asString hx)) ?_
  rintro message _ rfl
  exact safe_fault rfl

theorem safe_print : SafeOn [] [.any] [.index] "Print" print := by
  intro c w h hw
  refine safe_andThen (h.indexKeyword (i := 0) rfl) ?_
  rintro level _ rfl
  split
  · exact safe_fault rfl
  · refine safe_andThen (h.inputId (i := 0) rfl) ?_
    rintro source _ ⟨rfl, -⟩
    refine safe_andThen (safe_get source) ?_
    rintro value _ ⟨rfl, rfl⟩
    trivial

/-- **Every standard method is safe in calls that are typed as it is declared.** -/
theorem safe_of_mem {s : MethodSpec} (hs : s ∈ specs) :
    SafeOn (s.outputs.map library.catalog.groupNamed ++ s.genericOutputs)
      (s.inputs.map library.catalog.groupNamed ++ s.genericInputs)
      (s.keywords.map Keyword.group) s.name s.native := by
  have hindex : library.catalog.groupNamed "forloop_index" = .index := by decide +kernel
  have hagenda : library.catalog.groupNamed "forloop_agenda" = .pipeline := by decide +kernel
  revert s
  simp only [specs, basicMethods, mathMethods, controlMethods, reportingMethods, setter, spec,
    List.cons_append, List.nil_append, List.append_nil, List.map_nil, List.map_cons,
    List.forall_mem_cons, List.not_mem_nil, false_imp_iff, implies_true, and_true, hindex, hagenda]
  exact ⟨safe_setKeyword nofun nofun, safe_setKeyword nofun nofun, safe_setKeyword nofun nofun,
    safe_setKeyword nofun nofun, safe_setKeyword nofun nofun, safe_setKeyword nofun nofun,
    safe_setMatrix, safe_linearSpace, safe_countedSpace, safe_copy, safe_touch, safe_addToIndex,
    safe_onNumeric _ _, safe_onNumeric _ _, safe_onVector _ _, safe_onVector _ _,
    safe_sumVector _, safe_extendVector _, safe_setAgenda _, safe_appendAgenda _,
    safe_executeAgenda _, safe_executeAgendaExclusive, safe_forLoop, safe_raise, safe_print⟩

/-- The standard library keeps workspaces well-typed and fails as expected. -/
theorem sound_typed : (Contract.typed library.catalog).Sound library := by
  refine sound_typed_of_safe (wellFormed_of_built built) ?_
  intro m hm
  obtain ⟨s, hs, hdeclare, hnative⟩ := exists_spec hm
  obtain ⟨houtputs, hinputs⟩ := groups_of_declare makes_builder.variableIndex hdeclare
  obtain ⟨hname, hkeywords⟩ := Builder.of_declare hdeclare
  rw [houtputs, hinputs, hkeywords, hname]
  exact ⟨s.native, hnative, safe_of_mem hs⟩

/-- **Bound control files do not go wrong.** Run on a fresh workspace, with any limit of nesting,
what is bound from a text finds and leaves the workspace well-typed at every moment, on private
copies too and also if the run fails; and the run fails only for a missing input, for a pipeline too
deep, or by a check that a method makes of its own arguments. -/
theorem bound_runs_safe {name source : String} {p : Pipeline}
    (h : ControlFile.bindText library.catalog name source = .ok p) (maxDepth : Nat)
    (silent : Bool) :
    (∀ x ∈ library.history maxDepth silent p (Workspace.fresh library.catalog),
      x.workspace.WellTyped library.catalog) ∧
    (library.run maxDepth silent p (Workspace.fresh library.catalog)).2.workspace.WellTyped
      library.catalog ∧
    ∀ e, (library.run maxDepth silent p (Workspace.fresh library.catalog)).1 = .error e →
      e.Expected := by
  have hc := wellFormed_of_built built
  have hp : p.Expressible library.catalog := (ControlFile.expressible_of_bindText hc h).2
  have hw := Workspace.wellTyped_fresh hc
  have hrun := sound_typed.run maxDepth silent hp hw
  exact ⟨fun x hx => (sound_typed.history maxDepth silent hp hw x hx).1, hrun.holds, hrun.fails⟩

/-- A control file that stores an agenda and runs it in a loop. What the agenda adds to is not set.
-/
def loopSource : String :=
  "AgendaSet(forloop_agenda) \x7b IndexAdd(index_1, index_1) \x7b value = 1 \x7d \x7d " ++
    "ForLoop \x7b start = 1 stop = 3 step = 1 \x7d"

theorem loopSource_safe :
    ∃ p, ControlFile.bindText library.catalog "main" loopSource = .ok p ∧
      (∀ x ∈ library.history defaultMaxDepth false p (Workspace.fresh library.catalog),
        x.workspace.WellTyped library.catalog) ∧
      (library.run defaultMaxDepth false p
        (Workspace.fresh library.catalog)).2.workspace.WellTyped library.catalog ∧
      ∀ e, (library.run defaultMaxDepth false p (Workspace.fresh library.catalog)).1 = .error e →
        e.Expected := by
  have hbinds :
      (ControlFile.bindText library.catalog "main" loopSource).toOption.isSome = true := by
    decide +kernel
  cases h : ControlFile.bindText library.catalog "main" loopSource with
  | error e =>
    rw [h] at hbinds
    cases hbinds
  | ok p => exact ⟨p, rfl, bound_runs_safe h defaultMaxDepth false⟩

end Standard
end Runbook
