import Runbook.Proofs.Run.History

/-!
# Contracts of runs

What is to hold at every moment of a run is shown method by method: each may rely on it when it is
called and when a pipeline that it ran is over, and has to keep it in every step of its own. A run
then keeps it too, at every nesting level, on a private copy and for pipelines that were stored by
other methods.

* `Workspace.Grows`: no mark is lost; this no method can break.
* `Contract`: what is relied on and kept.
* `Action.Meets`: the steps of a method keep a contract.
* `Contract.Sound.history`: if every method of a library keeps it, every moment of every run does.
-/

namespace Runbook

/-! ## Growth -/

namespace Workspace

theorem lt_size_of_isOccupied {w : Workspace} {v : VariableId} (h : w.isOccupied v = true) :
    v.index < w.size := by
  by_contra hge
  rw [isOccupied, List.getElem?_eq_none (Nat.le_of_not_lt hge)] at h
  cases h

/-- The same slots, and every mark is still there. -/
structure Grows (before after : Workspace) : Prop where
  size_eq : after.size = before.size
  marks : ∀ v, before.isOccupied v = true → after.isOccupied v = true

theorem Grows.refl (w : Workspace) : w.Grows w :=
  ⟨rfl, fun _ h => h⟩

theorem Grows.trans {u v w : Workspace} (h : u.Grows v) (h' : v.Grows w) : u.Grows w :=
  ⟨h'.size_eq.trans h.size_eq, fun x hx => h'.marks x (h.marks x hx)⟩

theorem grows_write (w : Workspace) (v : VariableId) (x : Value) : w.Grows (w.write v x) :=
  ⟨size_write w v x, fun u hu => by rw [isOccupied_write, hu, Bool.true_or]⟩

theorem grows_put (w : Workspace) (v : VariableId) (x : Value) : w.Grows (w.put v x) :=
  ⟨size_put w v x, fun u hu => by rw [isOccupied_put, hu]⟩

theorem grows_mark (w : Workspace) (v : VariableId) : w.Grows (w.mark v) :=
  ⟨size_mark w v, fun u hu => by rw [isOccupied_mark, hu, Bool.true_or]⟩

theorem grows_markAll (w : Workspace) (vs : List VariableId) : w.Grows (w.markAll vs) := by
  induction vs generalizing w with
  | nil => exact .refl w
  | cons v vs ih => exact (w.grows_mark v).trans (ih _)

theorem grows_mergeFrom (w other : Workspace) (vs : List VariableId) :
    w.Grows (w.mergeFrom other vs) := by
  induction vs generalizing w with
  | nil => exact .refl w
  | cons v vs ih =>
    refine Grows.trans ?_ (ih _)
    dsimp only
    split
    · exact w.grows_write v _
    · exact .refl w

/-- Of the variables to be marked, those that are there are occupied afterwards. -/
theorem isOccupied_markAll {w : Workspace} {v : VariableId} {vs : List VariableId} :
    (w.markAll vs).isOccupied v = true ↔
      w.isOccupied v = true ∨ (v ∈ vs ∧ v.index < w.size) := by
  induction vs generalizing w with
  | nil => simp [markAll]
  | cons u us ih =>
    refine (ih (w := w.mark u)).trans ?_
    rw [isOccupied_mark, size_mark, Bool.or_eq_true, Bool.and_eq_true, beq_iff_eq,
      decide_eq_true_iff, List.mem_cons]
    constructor
    · rintro ((hv | ⟨hv, hlt⟩) | ⟨hv, hlt⟩)
      · exact .inl hv
      · exact .inr ⟨.inl hv, hlt⟩
      · exact .inr ⟨.inr hv, hlt⟩
    · rintro (hv | ⟨hv | hv, hlt⟩)
      · exact .inl (.inl hv)
      · exact .inl (.inr ⟨hv, hlt⟩)
      · exact .inr ⟨hv, hlt⟩

end Workspace

/-! ## Missing inputs -/

theorem Task.missingInput?_eq_none_iff {c : Catalog} {isSet : VariableId → Bool} {i : Nat}
    {t : Task} : t.missingInput? c isSet i = none ↔ ∀ v ∈ t.allInputs c, isSet v = true := by
  simp [missingInput?]

/-- The input that is missing is the first one that has not been set. -/
theorem Task.missingInput?_eq_some_iff {c : Catalog} {isSet : VariableId → Bool} {i : Nat}
    {t : Task} {e : MissingInput} :
    t.missingInput? c isSet i = some e ↔
      ∃ before v after, t.allInputs c = before ++ v :: after ∧ (∀ u ∈ before, isSet u = true) ∧
        isSet v = false ∧ e = ⟨(c.methodAt t.method).name, (c.variableAt v).name, i⟩ := by
  rw [missingInput?, Option.map_eq_some_iff]
  constructor
  · rintro ⟨v, hfind, rfl⟩
    obtain ⟨hv, before, after, heq, hbefore⟩ := List.find?_eq_some_iff_append.mp hfind
    refine ⟨before, v, after, heq, fun u hu => ?_, by simpa using hv, rfl⟩
    simpa using hbefore u hu
  · rintro ⟨before, v, after, heq, hbefore, hv, rfl⟩
    refine ⟨v, List.find?_eq_some_iff_append.mpr ⟨by simp [hv], before, after, heq, ?_⟩, rfl⟩
    intro u hu
    simp [hbefore u hu]

/-! ## Contracts -/

/-- What runs rely on and keep. -/
structure Contract where
  /-- What holds of the workspace at every moment. -/
  Holds : Workspace → Prop
  /-- Which tasks are run. -/
  Admits : Task → Prop
  /-- Which variables a method may look at. -/
  Reads : Workspace → VariableId → Prop
  /-- How a run may fail. -/
  Fails : RunError → Prop

/-- All tasks of the pipeline may be run. -/
def Contract.Runs (K : Contract) (p : Pipeline) : Prop :=
  ∀ t ∈ p.tasks, K.Admits t

/-- From `w` on, every step of the action keeps the contract. It may fail as `fails` says, and
otherwise has a result and leaves a workspace as `post` says. -/
def Action.Meets {α : Type} (K : Contract) (fails : Failure → Prop)
    (post : α → Workspace → Prop) : Action α → Workspace → Prop
  | .done a, w => post a w
  | .fail f, _ => fails f
  | .read v next, w => K.Reads w v ∧ (next (w.value v)).Meets K fails post w
  | .write v x next, w => K.Holds (w.write v x) ∧ next.Meets K fails post (w.write v x)
  | .put v x next, w => K.Holds (w.put v x) ∧ next.Meets K fails post (w.put v x)
  | .mark v next, w => K.Holds (w.mark v) ∧ next.Meets K fails post (w.mark v)
  | .inspect next, w => (next w).Meets K fails post w
  | .report _ next, w => next.Meets K fails post w
  | .run p _ next, w => K.Runs p ∧
      ∀ r after, K.Holds after → w.Grows after → (∀ e, r = .error e → K.Fails e) →
        (next r).Meets K fails post after

theorem meets_andThen {α β : Type} {K : Contract} {fails : Failure → Prop}
    {mid : α → Workspace → Prop} {post : β → Workspace → Prop} {a : Action α} {f : α → Action β}
    {w : Workspace} (ha : a.Meets K fails mid w)
    (hf : ∀ x after, mid x after → (f x).Meets K fails post after) :
    (a.andThen f).Meets K fails post w := by
  induction a generalizing w with
  | done x => exact hf x w ha
  | fail => exact ha
  | read v next ih => exact ⟨ha.1, ih _ ha.2⟩
  | write v x next ih | put v x next ih | mark v next ih => exact ⟨ha.1, ih ha.2⟩
  | inspect next ih => exact ih w ha
  | report e next ih => exact ih ha
  | run p mode next ih =>
    exact ⟨ha.1, fun r after hh hg he => ih r (ha.2 r after hh hg he)⟩

/-- The steps that the runs of a library take by themselves keep the contract, and so do its
methods, if they are called on tasks that may be run and with all inputs set. -/
structure Contract.Sound (K : Contract) (lib : Library) : Prop where
  merge : ∀ {w other} (keep), K.Holds w → K.Holds other → K.Holds (w.mergeFrom other keep)
  markAll : ∀ {t w}, K.Admits t → K.Holds w → K.Holds (w.markAll (t.allOutputs lib.catalog))
  missing : ∀ {t w i e}, K.Admits t → K.Holds w →
    t.missingInput? lib.catalog (Workspace.isOccupied w) i = some e → K.Fails (.missingInput e)
  deep : ∀ name limit, K.Fails (.depthExceeded name limit)
  native : ∀ {t w} (depth silent), K.Admits t → K.Holds w →
    (∀ v ∈ t.allInputs lib.catalog, w.isOccupied v = true) →
    (lib.native t.method ⟨lib.catalog, t, depth, silent⟩).Meets K
      (fun f => ∀ i, K.Fails (f.report (lib.catalog.methodAt t.method).name i))
      (fun _ _ => True) w

/-- What the contract says of a moment. Of inputs and outputs it says what every run respects. -/
def Moment.Meets (K : Contract) (c : Catalog) (x : Moment) : Prop :=
  K.Holds x.workspace ∧
    match x.step with
    | .entered p => K.Runs p
    | .looked _ t => K.Admits t
    | .refused i t e => K.Admits t ∧ t.missingInput? c x.workspace.isOccupied i = some e
    | .called _ t => K.Admits t ∧ ∀ v ∈ t.allInputs c, x.workspace.isOccupied v = true
    | .read v => K.Reads x.workspace v
    | .changed | .returned => True
    | .finished _ t => K.Admits t ∧
        ∀ v ∈ t.allOutputs c, v.index < x.workspace.size → x.workspace.isOccupied v = true
    | .left p r => K.Runs p ∧ ∀ e, r = .error e → K.Fails e

namespace Contract

variable {K : Contract} {lib : Library} {below : Runner} {inside : Trail} (depth : Nat)
  (silent : Bool)

/-- What the contract says of the end of a run that began on `w`. -/
structure Allows (K : Contract) (w : Workspace) (r : Except RunError Unit × State) : Prop where
  holds : K.Holds r.2.workspace
  grows : w.Grows r.2.workspace
  fails : ∀ e, r.1 = .error e → K.Fails e

/-- Runs of pipelines keep the contract, at their end and at every moment. -/
def Keeps (K : Contract) (c : Catalog) (below : Runner) (inside : Trail) : Prop :=
  ∀ silent p s, K.Runs p → K.Holds s.workspace →
    K.Allows s.workspace (below silent p s) ∧ ∀ x ∈ inside silent p s, x.Meets K c

theorem allows_apply (hK : K.Sound lib) (hkeeps : K.Keeps lib.catalog below inside)
    {p : Pipeline} (hp : K.Runs p) (mode : Mode) {s : State} (hs : K.Holds s.workspace) :
    K.Allows s.workspace (mode.apply below silent p s) := by
  cases mode with
  | shared => exact (hkeeps silent p s hp hs).1
  | muted => exact (hkeeps true p s hp hs).1
  | isolated keep =>
    have hrun := (hkeeps silent p s hp hs).1
    unfold Mode.apply
    rcases h : below silent p s with ⟨e | _, after⟩
    · rw [h] at hrun
      exact ⟨hs, .refl _, hrun.fails⟩
    · rw [h] at hrun
      exact ⟨hK.merge keep hs hrun.holds, Workspace.grows_mergeFrom _ _ _, nofun⟩

variable {α : Type} {fails : Failure → Prop} {post : α → Workspace → Prop}

/-- The steps of an action lead where it says. -/
theorem meets_perform (hK : K.Sound lib) (hkeeps : K.Keeps lib.catalog below inside)
    {a : Action α} {s : State} (hs : K.Holds s.workspace)
    (ha : a.Meets K fails post s.workspace) :
    K.Holds (a.perform below silent s).2.workspace ∧
      s.workspace.Grows (a.perform below silent s).2.workspace ∧
      match (a.perform below silent s).1 with
      | .ok x => post x (a.perform below silent s).2.workspace
      | .error f => fails f := by
  induction a generalizing s with
  | done | fail => exact ⟨hs, .refl _, ha⟩
  | read v next ih => exact ih _ hs ha.2
  | write v x next ih =>
    obtain ⟨hholds, hgrows, hpost⟩ := ih (s := s.update (·.write v x)) ha.1 ha.2
    exact ⟨hholds, (s.workspace.grows_write v x).trans hgrows, hpost⟩
  | put v x next ih =>
    obtain ⟨hholds, hgrows, hpost⟩ := ih (s := s.update (·.put v x)) ha.1 ha.2
    exact ⟨hholds, (s.workspace.grows_put v x).trans hgrows, hpost⟩
  | mark v next ih =>
    obtain ⟨hholds, hgrows, hpost⟩ := ih (s := s.update (·.mark v)) ha.1 ha.2
    exact ⟨hholds, (s.workspace.grows_mark v).trans hgrows, hpost⟩
  | inspect next ih => exact ih _ hs ha
  | report e next ih => exact ih (s := s.report e) hs ha
  | run p mode next ih =>
    have hrun := allows_apply silent hK hkeeps ha.1 mode hs
    obtain ⟨hholds, hgrows, hpost⟩ := ih (mode.apply below silent p s).1
      (s := (mode.apply below silent p s).2) hrun.holds
      (ha.2 _ _ hrun.holds hrun.grows hrun.fails)
    exact ⟨hholds, hrun.grows.trans hgrows, hpost⟩

theorem meets_moments (hK : K.Sound lib) (hkeeps : K.Keeps lib.catalog below inside)
    {a : Action α} {s : State} (hs : K.Holds s.workspace)
    (ha : a.Meets K fails post s.workspace) :
    ∀ x ∈ a.moments below inside depth silent s, x.Meets K lib.catalog := by
  induction a generalizing s with
  | done | fail => exact fun x hx => nomatch hx
  | read v next ih =>
    rintro x (_ | ⟨_, hx⟩)
    · exact ⟨hs, ha.1⟩
    · exact ih _ hs ha.2 x hx
  | write v y next ih | put v y next ih | mark v next ih =>
    rintro x (_ | ⟨_, hx⟩)
    · exact ⟨ha.1, trivial⟩
    · exact ih ha.1 ha.2 x hx
  | inspect next ih => exact ih _ hs ha
  | report e next ih => exact ih (s := s.report e) hs ha
  | run p mode next ih =>
    have hrun := allows_apply silent hK hkeeps ha.1 mode hs
    intro x hx
    rcases List.mem_append.mp hx with hx | hx
    · exact (hkeeps (mode.silences silent) p s ha.1 hs).2 x hx
    · rcases List.mem_cons.mp hx with rfl | hx
      · exact ⟨hrun.holds, trivial⟩
      · exact ih _ hrun.holds (ha.2 _ _ hrun.holds hrun.grows hrun.fails) x hx

theorem keeps_task (hK : K.Sound lib) (hkeeps : K.Keeps lib.catalog below inside) {i : Nat}
    {t : Task} (ht : K.Admits t) {s : State} (hs : K.Holds s.workspace) :
    K.Allows s.workspace (runTask lib below depth silent i t s) ∧
      ∀ x ∈ taskMoments lib below inside depth silent i t s, x.Meets K lib.catalog := by
  cases hinputs : t.missingInput? lib.catalog s.workspace.isOccupied i with
  | some e =>
    constructor
    · rw [runTask_of_refused hinputs]
      exact ⟨hs, .refl _, fun _ he => by cases he; exact hK.missing ht hs hinputs⟩
    · intro x hx
      unfold taskMoments at hx
      simp only [hinputs, List.mem_cons, List.not_mem_nil, or_false] at hx
      rcases hx with rfl | rfl
      · exact ⟨hs, ht⟩
      · exact ⟨hs, ht, hinputs⟩
  | none =>
    have hset := Task.missingInput?_eq_none_iff.mp hinputs
    let announced := s.report (.announced (lib.catalog.methodAt t.method).name depth silent)
    have hnative := hK.native (w := announced.workspace) depth silent ht hs hset
    have hperform := meets_perform silent (s := announced) hK hkeeps hs hnative
    have hmoments := meets_moments depth silent (s := announced) hK hkeeps hs hnative
    rw [runTask_of_called hinputs]
    unfold taskMoments
    simp only [hinputs]
    rcases heq : (lib.native t.method ⟨lib.catalog, t, depth, silent⟩).perform below silent
      announced with ⟨f | _, after⟩
    · rw [heq] at hperform
      obtain ⟨hholds, hgrows, hfails⟩ := hperform
      refine ⟨⟨hholds, hgrows, fun _ he => by cases he; exact hfails i⟩, fun x hx => ?_⟩
      simp only [List.append_nil, List.mem_cons] at hx
      rcases hx with rfl | rfl | hx
      · exact ⟨hs, ht⟩
      · exact ⟨hs, ht, hset⟩
      · exact hmoments x hx
    · rw [heq] at hperform
      obtain ⟨hholds, hgrows, -⟩ := hperform
      have hmarked := hK.markAll ht hholds
      have hmarks := Workspace.grows_markAll after.workspace (t.allOutputs lib.catalog)
      refine ⟨⟨hmarked, hgrows.trans hmarks, fun _ he => by cases he⟩, fun x hx => ?_⟩
      simp only [List.mem_cons, List.mem_append, List.not_mem_nil, or_false] at hx
      rcases hx with rfl | rfl | hx | rfl
      · exact ⟨hs, ht⟩
      · exact ⟨hs, ht, hset⟩
      · exact hmoments x hx
      · refine ⟨hmarked, ht, fun v hv hlt => ?_⟩
        rw [hmarks.size_eq] at hlt
        exact Workspace.isOccupied_markAll.mpr (.inr ⟨hv, hlt⟩)

theorem keeps_tasks (hK : K.Sound lib) (hkeeps : K.Keeps lib.catalog below inside) {i : Nat}
    {ts : List Task} (hts : ∀ t ∈ ts, K.Admits t) {s : State} (hs : K.Holds s.workspace) :
    K.Allows s.workspace (runTasks lib below depth silent i ts s) ∧
      ∀ x ∈ tasksMoments lib below inside depth silent i ts s, x.Meets K lib.catalog := by
  induction ts generalizing i s with
  | nil => exact ⟨⟨hs, .refl _, nofun⟩, fun x hx => nomatch hx⟩
  | cons t ts ih =>
    obtain ⟨hrun, htask⟩ := keeps_task depth silent (i := i) hK hkeeps
      (hts t List.mem_cons_self) hs
    unfold runTasks tasksMoments
    rcases heq : runTask lib below depth silent i t s with ⟨e | _, after⟩
    · rw [heq] at hrun
      refine ⟨hrun, fun x hx => ?_⟩
      rw [List.append_nil] at hx
      exact htask x hx
    · rw [heq] at hrun
      obtain ⟨hrest, hmoments⟩ := ih (i := i + 1)
        (fun u hu => hts u (List.mem_cons_of_mem t hu)) hrun.holds
      refine ⟨⟨hrest.holds, hrun.grows.trans hrest.grows, hrest.fails⟩, fun x hx => ?_⟩
      rcases List.mem_append.mp hx with hx | hx
      · exact htask x hx
      · exact hmoments x hx

/-- **Runs keep what every method keeps**, with room for any number of levels. -/
theorem Sound.keeps (hK : K.Sound lib) (limit room : Nat) :
    K.Keeps lib.catalog (execute lib limit room) (moments lib limit room) := by
  induction room with
  | zero =>
    intro silent p s _ hs
    refine ⟨⟨hs, .refl _, ?_⟩, fun x hx => nomatch hx⟩
    intro e he
    cases he
    exact hK.deep p.name limit
  | succ room ih =>
    intro silent p s hp hs
    let depth := limit - room
    let entered := s.report (.entered p.name depth p.tasks.length)
    obtain ⟨hrun, hmoments⟩ := keeps_tasks depth silent (i := 0)
      (s := entered) hK ih hp hs
    obtain ⟨hresult, hworkspace⟩ := execute_succ lib limit room silent p s
    constructor
    · refine ⟨?_, ?_, ?_⟩
      · rw [hworkspace]; exact hrun.holds
      · rw [hworkspace]; exact hrun.grows
      · rw [hresult]; exact hrun.fails
    · intro x hx
      unfold moments at hx
      simp only [List.mem_cons, List.mem_append, List.not_mem_nil, or_false] at hx
      rcases hx with rfl | hx | rfl
      · exact ⟨hs, hp⟩
      · exact hmoments x hx
      · exact ⟨hrun.holds, hp, hrun.fails⟩

/-- **Every moment of every run keeps a contract that the methods keep.** -/
theorem Sound.history (hK : K.Sound lib) (maxDepth : Nat) (silent : Bool) {p : Pipeline}
    (hp : K.Runs p) {w : Workspace} (hw : K.Holds w) :
    ∀ x ∈ lib.history maxDepth silent p w, x.Meets K lib.catalog :=
  (hK.keeps maxDepth (maxDepth + 1) silent p ⟨w, #[]⟩ hp hw).2

/-- So does its end. -/
theorem Sound.run (hK : K.Sound lib) (maxDepth : Nat) (silent : Bool) {p : Pipeline}
    (hp : K.Runs p) {w : Workspace} (hw : K.Holds w) :
    K.Allows w (lib.run maxDepth silent p w) :=
  (hK.keeps maxDepth (maxDepth + 1) silent p ⟨w, #[]⟩ hp hw).1

end Contract
end Runbook
