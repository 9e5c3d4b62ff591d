import Runbook.Proofs.Roundtrip.Literals
import Runbook.Proofs.Grammar.Tasks

/-!
# Tasks that control files can express

A task is expressible if its slots are filled as its method declares, with values that can be
written, and it has a pipeline exactly when its method takes one. These are the tasks that tokens
denote.

* `Task.Expressible`, `Pipeline.Expressible`: at every nesting level.
* `expressible_of_denotesTasks`: tokens of a text denote expressible tasks only.
* `denotesTasks_tokens`: an expressible task has tokens that denote it.
* `Pipeline.Expressible.beq_self`, `Pipeline.Expressible.of_beq`: `==` keeps expressible pipelines
  apart from others.
-/

namespace Runbook

/-- The slots are filled as the method declares: as many variables as generic slots, each of a group
that its slot takes, and one value for each keyword, of its group and such that it can be written.
-/
structure Task.FillsSlots (c : Catalog) (m : MethodId) (keywords : List Value)
    (outputs inputs : List VariableId) : Prop where
  method_lt : m.index < c.methods.length
  outputs : List.Forall₂ (fun g v => v.index < c.vars.length ∧
    g.accepts (c.variableAt v).group = true) (c.methodAt m).genericOutputs outputs
  inputs : List.Forall₂ (fun g v => v.index < c.vars.length ∧
    g.accepts (c.variableAt v).group = true) (c.methodAt m).genericInputs inputs
  keywords : List.Forall₂ (fun k v => v.Fits k.group ∧ v.Clean) (c.methodAt m).keywords keywords

/-- Variables that fill slots are variables of the catalog. -/
theorem Task.index_lt_of_forall₂ {c : Catalog} {gs : List Group} {vs : List VariableId}
    (h : List.Forall₂ (fun g v => v.index < c.vars.length ∧
      g.accepts (c.variableAt v).group = true) gs vs) : ∀ v ∈ vs, v.index < c.vars.length := by
  induction h with
  | nil => exact nofun
  | cons hv _ ih => exact List.forall_mem_cons.mpr ⟨hv.1, ih⟩

theorem Task.FillsSlots.index_lt {c : Catalog} {m : MethodId} {ks : List Value}
    {os is : List VariableId} (h : FillsSlots c m ks os is) :
    ∀ v ∈ os ++ is, v.index < c.vars.length :=
  List.forall_mem_append.mpr ⟨index_lt_of_forall₂ h.outputs, index_lt_of_forall₂ h.inputs⟩

/-- The slots are filled, and there is a pipeline of expressible tasks, called like the method,
exactly when the method takes one. -/
inductive Task.Expressible (c : Catalog) : Task → Prop where
  | plain {m : MethodId} {ks : List Value} {os is : List VariableId} :
    Task.FillsSlots c m ks os is → (c.methodAt m).embeds = false →
      Task.Expressible c ⟨m, ks, os, is, none⟩
  | embedding {m : MethodId} {ks : List Value} {os is : List VariableId} {ts : List Task} :
    Task.FillsSlots c m ks os is → (c.methodAt m).embeds = true →
      (∀ t ∈ ts, Task.Expressible c t) →
      Task.Expressible c ⟨m, ks, os, is, some ⟨(c.methodAt m).name, ts⟩⟩

theorem Task.Expressible.fillsSlots {c : Catalog} {t : Task} (h : t.Expressible c) :
    Task.FillsSlots c t.method t.keywords t.outputs t.inputs := by
  cases h with
  | plain hslots => exact hslots
  | embedding hslots => exact hslots

/-- Every task is expressible. -/
def Pipeline.Expressible (c : Catalog) (p : Pipeline) : Prop :=
  ∀ t ∈ p.tasks, t.Expressible c

namespace ControlFile

variable {c : Catalog}

/-! ## What tokens denote is expressible -/

theorem fillsKeywords_of_denotes {m : Method} {ks : List Keyword} {ts : List Token}
    {vs : List Value} (h : DenotesKeywords m ks ts vs) (hclean : ∀ t ∈ ts, t.Clean) :
    List.Forall₂ (fun k v => v.Fits k.group ∧ v.Clean) ks vs := by
  induction h with
  | nil => exact .nil
  | cons hk _ ih =>
    refine .cons ?_ (ih fun t ht => hclean t (List.mem_append_right _ ht))
    have hclean' := fun t ht => hclean t (List.mem_append_left _ ht)
    cases hk with
    | named hv => exact Literal.fits_of_coerce (fun t ht => hclean' t (by simp [ht])) hv
    | bare _ hv => exact Literal.fits_of_coerce hclean' hv

theorem fillsGenerics_of_denotes (hwf : c.WellFormed) {m : Method} {ts : List Token}
    {ids : List VariableId} (h : DenotesGenerics c m ts ids) :
    List.Forall₂ (fun g v => v.index < c.vars.length ∧ g.accepts (c.variableAt v).group = true)
      m.generics ids := by
  obtain ⟨names, -, hnames, hgroups⟩ := h
  have hlt : ∀ v ∈ ids, v.index < c.vars.length := by
    clear hgroups
    induction hnames with
    | nil => simp
    | cons hv _ ih =>
      rintro v (_ | ⟨_, hmem⟩)
      · exact hwf.index_lt_of_findVariable? hv
      · exact ih v hmem
  clear hnames
  generalize m.generics = gs at hgroups
  induction hgroups with
  | nil => exact .nil
  | cons hacc _ ih =>
    exact .cons ⟨hlt _ (by simp), hacc⟩ (ih fun v hv => hlt v (by simp [hv]))

/-- A task whose slots are filled from the text, and whose body holds expressible tasks. -/
theorem expressible_of_parts {id : MethodId} {ids : List VariableId} {values : List Value}
    {tasks : List Task} (hid : id.index < c.methods.length)
    (hgenerics : List.Forall₂ (fun g v => v.index < c.vars.length ∧
      g.accepts (c.variableAt v).group = true) (c.methodAt id).generics ids)
    (hkeywords : List.Forall₂ (fun k v => v.Fits k.group ∧ v.Clean) (c.methodAt id).keywords values)
    (htasks : ∀ t ∈ tasks, t.Expressible c) :
    Task.Expressible c ⟨id, values, ids.take (c.methodAt id).genericOutputs.length,
      ids.drop (c.methodAt id).genericOutputs.length,
      if (c.methodAt id).embeds then some ⟨(c.methodAt id).name, tasks⟩ else none⟩ := by
  have hfills : Task.FillsSlots c id values (ids.take (c.methodAt id).genericOutputs.length)
      (ids.drop (c.methodAt id).genericOutputs.length) := by
    refine ⟨hid, ?_, ?_, hkeywords⟩
    · have := List.forall₂_take (c.methodAt id).genericOutputs.length hgenerics
      rwa [Method.generics, List.take_left] at this
    · have := List.forall₂_drop (c.methodAt id).genericOutputs.length hgenerics
      rwa [Method.generics, List.drop_left] at this
  split
  case isTrue hembeds => exact .embedding hfills hembeds htasks
  case isFalse hembeds => exact .plain hfills (by simpa using hembeds)

/-- **Clean tokens denote expressible tasks only.** -/
theorem expressible_of_denotesTasks (hwf : c.WellFormed) {ts : List Token} {tasks : List Task}
    (h : DenotesTasks c ts tasks) : (∀ t ∈ ts, t.Clean) → ∀ t ∈ tasks, t.Expressible c := by
  refine @DenotesTasks.rec c
    (fun ts t _ => (∀ t ∈ ts, t.Clean) → t.Expressible c)
    (fun ts tasks _ => (∀ t ∈ ts, t.Clean) → ∀ t ∈ tasks, t.Expressible c) ?_ ?_ ?_ ts tasks h
  · intro name id generics keywords body ids values tasks hid hgs hks _ _ ih hclean
    exact expressible_of_parts (hwf.index_lt_of_findMethod? hid) (fillsGenerics_of_denotes hwf hgs)
      (fillsKeywords_of_denotes hks fun t ht => hclean t (by simp [ht]))
      (ih fun t ht => hclean t (by simp [ht]))
  · simp
  · rintro ts us t tasks - - iht ihtasks hclean u (_ | ⟨_, hu⟩)
    · exact iht fun t ht => hclean t (List.mem_append_left _ ht)
    · exact ihtasks (fun t ht => hclean t (List.mem_append_right _ ht)) u hu

/-- **Whatever is bound is expressible.** -/
theorem expressible_of_bindText (hwf : c.WellFormed) {name source : String} {p : Pipeline}
    (h : bindText c name source = .ok p) : p.name = name ∧ p.Expressible c := by
  unfold bindText at h
  split at h
  case h_1 => cases h
  case h_2 placed hscan =>
    obtain ⟨hname, hdenotes⟩ := bindTokens_iff.mp h
    refine ⟨hname, expressible_of_denotesTasks hwf hdenotes fun t ht => ?_⟩
    obtain ⟨placedToken, hmem, rfl⟩ := List.mem_map.mp ht
    exact clean_of_scan hscan _ hmem

end ControlFile

/-! ## The tokens of a task -/

/-- The tokens of the keywords, each with its name. -/
def Task.keywordTokens : List Keyword → List Value → List Token
  | k :: ks, v :: vs =>
    (.name k.name :: .mark .equals :: v.literal.tokens) ++ Task.keywordTokens ks vs
  | _, _ => []

/-- Name, generic variables, opening brace and keywords. -/
def Task.headTokens (c : Catalog) (m : MethodId) (ks : List Value) (ids : List VariableId) :
    List Token :=
  .name (c.methodAt m).name ::
    (ControlFile.nameTokens (ids.map fun v => (c.variableAt v).name) ++
      .mark .leftBrace :: Task.keywordTokens (c.methodAt m).keywords ks)

mutual

/-- The tokens that a task is written with. -/
def Task.tokens (c : Catalog) : Task → List Token
  | ⟨m, ks, os, is, none⟩ => Task.headTokens c m ks (os ++ is) ++ [.mark .rightBrace]
  | ⟨m, ks, os, is, some p⟩ =>
    Task.headTokens c m ks (os ++ is) ++ (Pipeline.tokens c p ++ [.mark .rightBrace])

/-- The tokens of several tasks. -/
def Task.allTokens (c : Catalog) : List Task → List Token
  | [] => []
  | t :: ts => Task.tokens c t ++ Task.allTokens c ts

/-- The tokens that a pipeline is written with. -/
def Pipeline.tokens (c : Catalog) : Pipeline → List Token
  | ⟨_, ts⟩ => Task.allTokens c ts

end

namespace ControlFile

variable {c : Catalog}

theorem denotesKeywords_tokens {m : Method} {ks : List Keyword} {vs : List Value}
    (hg : ∀ k ∈ ks, k.group ≠ .pipeline)
    (h : List.Forall₂ (fun k v => v.Fits k.group ∧ v.Clean) ks vs) :
    DenotesKeywords m ks (Task.keywordTokens ks vs) vs := by
  induction h with
  | nil => exact .nil
  | cons hv _ ih =>
    refine .cons (.named ?_) (ih fun k hk => hg k (by simp [hk]))
    exact Literal.coerce_literal (hg _ (by simp)) hv.1 hv.2

theorem denotesGenerics_names (hwf : c.WellFormed) {m : Method} {ids : List VariableId}
    (h : List.Forall₂ (fun g v => v.index < c.vars.length ∧
      g.accepts (c.variableAt v).group = true) m.generics ids) :
    DenotesGenerics c m (nameTokens (ids.map fun v => (c.variableAt v).name)) ids := by
  refine ⟨_, rfl, ?_, h.imp fun _ _ hv => hv.2⟩
  generalize m.generics = gs at h
  induction h with
  | nil => exact .nil
  | cons hv _ ih => exact .cons (hwf.findVariable?_name hv.1) ih

/-- With the tokens of its tasks in the body, the tokens of an invocation denote it. -/
theorem denotesTask_headTokens (hwf : c.WellFormed) {m : MethodId} {ks : List Value}
    {os is : List VariableId} {body : List Token} {tasks : List Task}
    (h : Task.FillsSlots c m ks os is) (hbody : DenotesTasks c body tasks)
    (hempty : (c.methodAt m).embeds = false → tasks = []) :
    DenotesTask c (Task.headTokens c m ks (os ++ is) ++ (body ++ [.mark .rightBrace]))
      ⟨m, ks, os, is,
        if (c.methodAt m).embeds then some ⟨(c.methodAt m).name, tasks⟩ else none⟩ := by
  have hgenerics := denotesGenerics_names hwf (List.rel_append h.outputs h.inputs)
  have hkeywords := denotesKeywords_tokens (m := c.methodAt m)
    (hwf.no_pipeline _ (Catalog.methodAt_mem h.method_lt)) h.keywords
  have := DenotesTask.mk (hwf.findMethod?_name h.method_lt) hgenerics hkeywords hbody hempty
  rw [h.outputs.length_eq, List.take_left, List.drop_left] at this
  simpa [Task.headTokens] using this

/-- **An expressible task has tokens that denote it.** -/
theorem denotesTask_tokens (hwf : c.WellFormed) {t : Task} (h : t.Expressible c) :
    DenotesTask c (t.tokens c) t := by
  induction h with
  | plain hfills hembeds =>
    have := denotesTask_headTokens hwf hfills .nil fun _ => rfl
    rw [Task.tokens]
    simpa [hembeds] using this
  | @embedding m ks os is ts hfills hembeds _ ih =>
    have hbody : DenotesTasks c (Task.allTokens c ts) ts := by
      clear hfills hembeds
      induction ts with
      | nil => rw [Task.allTokens]; exact .nil
      | cons t ts ihts =>
        rw [Task.allTokens]
        refine .cons (ih t (by simp)) (ihts (by simp_all) fun u hu => ih u (by simp [hu]))
    have := denotesTask_headTokens hwf hfills hbody (by simp [hembeds])
    rw [Task.tokens, Pipeline.tokens]
    simpa [hembeds] using this

theorem denotesTasks_tokens (hwf : c.WellFormed) {p : Pipeline} (h : p.Expressible c) :
    DenotesTasks c (p.tokens c) p.tasks := by
  obtain ⟨name, ts⟩ := p
  rw [Pipeline.tokens]
  change ∀ t ∈ ts, _ at h
  induction ts with
  | nil => rw [Task.allTokens]; exact .nil
  | cons t ts ih =>
    rw [Task.allTokens]
    exact .cons (denotesTask_tokens hwf (h t (by simp))) (ih fun u hu => h u (by simp [hu]))

end ControlFile
/-! ## Equality -/

theorem floats_beq_self {xs : List Float} (h : ∀ x ∈ xs, x.isFinite = true) :
    (xs == xs) = true := by
  induction xs with
  | nil => rfl
  | cons x xs ih =>
    rw [List.cons_beq_cons, Double.beq_self_of_isFinite (h x (by simp)), Bool.true_and]
    exact ih fun y hy => h y (by simp [hy])

theorem isFinite_of_floats_beq {xs ys : List Float} (hbeq : (xs == ys) = true)
    (h : ∀ x ∈ xs, x.isFinite = true) : ∀ y ∈ ys, y.isFinite = true := by
  induction xs generalizing ys with
  | nil =>
    cases ys with
    | nil => simp
    | cons y ys => cases hbeq
  | cons x xs ih =>
    cases ys with
    | nil => cases hbeq
    | cons y ys =>
      rw [List.cons_beq_cons, Bool.and_eq_true] at hbeq
      rintro z (_ | ⟨_, hz⟩)
      · exact Double.isFinite_of_beq hbeq.1 (h x (by simp))
      · exact ih hbeq.2 (fun w hw => h w (by simp [hw])) z hz

theorem Matrix.beq_iff {m n : Matrix} :
    (m == n) = true ↔ m.rows = n.rows ∧ m.cols = n.cols ∧ (m.entries == n.entries) = true := by
  change Matrix.beq m n = true ↔ _
  simp [Matrix.beq, and_assoc]

namespace Value

/-- A value that can be written equals itself. -/
theorem same_self {v : Value} (hc : v.Clean) (hp : v.group ≠ .pipeline) :
    Value.same v v = true := by
  cases v with
  | index i => simp [Value.same]
  | numeric x => rw [Value.same]; exact Double.beq_self_of_isFinite hc
  | string s => simp [Value.same]
  | vector xs => rw [Value.same]; exact floats_beq_self hc
  | indexArray is => simp [Value.same]
  | stringArray ss => simp [Value.same]
  | matrix m => rw [Value.same]; exact Matrix.beq_iff.mpr ⟨rfl, rfl, floats_beq_self hc.1⟩
  | pipeline p => exact absurd rfl hp

/-- Equal values are alike in everything that writing depends on. -/
theorem of_same {v w : Value} (h : Value.same v w = true) :
    w.group = v.group ∧ (w.IsEmptyList ↔ v.IsEmptyList) ∧ (v.Clean → w.Clean) := by
  unfold Value.same at h
  split at h
  case h_1 => exact ⟨rfl, Iff.rfl, id⟩
  case h_2 => exact ⟨rfl, Iff.rfl, Double.isFinite_of_beq h⟩
  case h_3 => rw [beq_iff_eq.mp h]; exact ⟨rfl, Iff.rfl, id⟩
  case h_4 => exact ⟨rfl, Iff.rfl, isFinite_of_floats_beq h⟩
  case h_5 => rw [beq_iff_eq.mp h]; exact ⟨rfl, Iff.rfl, id⟩
  case h_6 => rw [beq_iff_eq.mp h]; exact ⟨rfl, Iff.rfl, id⟩
  case h_7 =>
    obtain ⟨hrows, hcols, hentries⟩ := Matrix.beq_iff.mp h
    refine ⟨rfl, by simp [IsEmptyList, hrows], fun hc => ?_⟩
    exact ⟨isFinite_of_floats_beq hentries hc.1, hrows ▸ hcols ▸ hc.2⟩
  case h_8 => exact ⟨rfl, Iff.rfl, id⟩
  case h_9 => cases h

theorem fits_of_same {v w : Value} {g : Group} (h : Value.same v w = true) (hf : v.Fits g) :
    w.Fits g := by
  obtain ⟨hgroup, hempty, -⟩ := of_same h
  unfold Fits at hf ⊢
  split at hf
  case isTrue hg => rw [if_pos hg, hgroup, hempty]; exact hf
  case isFalse hg => rw [if_neg hg, hgroup]; exact hf

/-- Values that fit a list of keywords equal themselves. -/
theorem sameAll_self {ks : List Keyword} {vs : List Value} (hg : ∀ k ∈ ks, k.group ≠ .pipeline)
    (h : List.Forall₂ (fun k v => v.Fits k.group ∧ v.Clean) ks vs) :
    Value.sameAll vs vs = true := by
  induction h with
  | nil => rw [sameAll]
  | @cons k v ks vs hv _ ih =>
    rw [sameAll, ih fun k hk => hg k (by simp [hk]), Bool.and_true]
    refine same_self hv.2 ?_
    have hfits := hv.1
    unfold Fits at hfits
    split at hfits
    case isTrue => exact hfits.1
    case isFalse => rw [hfits]; exact hg k (by simp)

theorem fits_of_sameAll {ks : List Keyword} {vs ws : List Value}
    (hsame : Value.sameAll vs ws = true)
    (h : List.Forall₂ (fun k v => v.Fits k.group ∧ v.Clean) ks vs) :
    List.Forall₂ (fun k v => v.Fits k.group ∧ v.Clean) ks ws := by
  induction h generalizing ws with
  | nil =>
    cases ws with
    | nil => exact .nil
    | cons w ws => rw [sameAll] at hsame; cases hsame; all_goals simp
  | cons hv _ ih =>
    cases ws with
    | nil => rw [sameAll] at hsame; cases hsame; all_goals simp
    | cons w ws =>
      rw [sameAll, Bool.and_eq_true] at hsame
      exact .cons ⟨fits_of_same hsame.1 hv.1, (of_same hsame.1).2.2 hv.2⟩ (ih hsame.2)

end Value

namespace Task

variable {c : Catalog}

theorem FillsSlots.of_same {m : MethodId} {ks ks' : List Value} {os is : List VariableId}
    (h : FillsSlots c m ks os is) (hsame : Value.sameAll ks ks' = true) :
    FillsSlots c m ks' os is :=
  ⟨h.method_lt, h.outputs, h.inputs, Value.fits_of_sameAll hsame h.keywords⟩

theorem FillsSlots.same_self (hwf : c.WellFormed) {m : MethodId} {ks : List Value}
    {os is : List VariableId} (h : FillsSlots c m ks os is) : Value.sameAll ks ks = true :=
  Value.sameAll_self (hwf.no_pipeline _ (Catalog.methodAt_mem h.method_lt)) h.keywords

theorem same_of_forall {ts : List Task} (h : ∀ t ∈ ts, Task.same t t = true) :
    Task.sameAll ts ts = true := by
  induction ts with
  | nil => rw [sameAll]
  | cons t ts ih =>
    rw [sameAll, h t (by simp), Bool.true_and]
    exact ih fun u hu => h u (by simp [hu])

theorem Expressible.same_self (hwf : c.WellFormed) {t : Task} (h : t.Expressible c) :
    Task.same t t = true := by
  induction h with
  | plain hfills _ => simp [Task.same, hfills.same_self hwf]
  | embedding hfills _ _ ih =>
    simp [Task.same, Pipeline.same, hfills.same_self hwf, same_of_forall ih]

/-- Pairwise equal tasks share what equal tasks share. -/
theorem forall_of_sameAll {P : Task → Prop} {ts us : List Task}
    (h : ∀ t ∈ ts, ∀ u, Task.same t u = true → P u) (hsame : Task.sameAll ts us = true) :
    ∀ u ∈ us, P u := by
  induction ts generalizing us with
  | nil =>
    cases us with
    | nil => simp
    | cons u us => rw [sameAll] at hsame; cases hsame; all_goals simp
  | cons t ts ih =>
    cases us with
    | nil => rw [sameAll] at hsame; cases hsame; all_goals simp
    | cons u us =>
      rw [sameAll, Bool.and_eq_true] at hsame
      rintro u' (_ | ⟨_, hu'⟩)
      · exact h t (by simp) _ hsame.1
      · exact ih (fun t ht => h t (by simp [ht])) hsame.2 u' hu'

theorem Expressible.of_same {t u : Task} (h : t.Expressible c) (hsame : Task.same t u = true) :
    u.Expressible c := by
  induction h generalizing u with
  | plain hfills hembeds =>
    obtain ⟨m', ks', os', is', embedded'⟩ := u
    cases embedded' with
    | none =>
      simp only [Task.same, Bool.and_eq_true, beq_iff_eq] at hsame
      obtain ⟨⟨⟨rfl, hks⟩, rfl⟩, rfl⟩ := hsame
      exact .plain (hfills.of_same hks) hembeds
    | some p' => simp [Task.same] at hsame
  | embedding hfills hembeds _ ih =>
    obtain ⟨m', ks', os', is', embedded'⟩ := u
    cases embedded' with
    | none => simp [Task.same] at hsame
    | some p' =>
      obtain ⟨name', ts'⟩ := p'
      simp only [Task.same, Pipeline.same, Bool.and_eq_true, beq_iff_eq] at hsame
      obtain ⟨⟨⟨⟨rfl, hks⟩, rfl⟩, rfl⟩, rfl, hts⟩ := hsame
      exact .embedding (hfills.of_same hks) hembeds (forall_of_sameAll (fun t ht u => ih t ht) hts)

end Task

namespace Pipeline

variable {c : Catalog}

/-- **An expressible pipeline equals itself.** -/
theorem Expressible.beq_self (hwf : c.WellFormed) {p : Pipeline} (h : p.Expressible c) :
    (p == p) = true := by
  change Pipeline.same p p = true
  obtain ⟨name, ts⟩ := p
  simp [Pipeline.same, Task.same_of_forall fun t ht => (h t ht).same_self hwf]

/-- **A pipeline that equals an expressible one is expressible.** -/
theorem Expressible.of_beq {p q : Pipeline} (h : p.Expressible c) (hbeq : (p == q) = true) :
    q.Expressible c := by
  change Pipeline.same p q = true at hbeq
  obtain ⟨name, ts⟩ := p
  obtain ⟨name', ts'⟩ := q
  simp only [Pipeline.same, Bool.and_eq_true] at hbeq
  exact Task.forall_of_sameAll (fun t ht u hu => (h t ht).of_same hu) hbeq.2

end Pipeline
end Runbook
