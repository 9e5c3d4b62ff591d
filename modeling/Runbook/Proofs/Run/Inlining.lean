import Runbook.Proofs.Run.Sequence

/-!
# Nesting is inlining

Some tasks do nothing but run the pipeline in their body. If all other tasks run nothing, a tree of
such pipelines does what its leaves do, one after the other in the order in which they are written;
a leaf does not notice how deep it stands. Where the tree goes beyond the limit, the run ends with
the first pipeline that lies too deep.

* `Task.Leaf`, `Task.Inlines`: the leaves, and the trees that are built from them.
* `Pipeline.visits`: the pipelines and leaves of a tree, each pipeline before what is in it.
* `effect_execute`: a run meets them in this order.
* `nesting_is_inlining`: a tree has the effect of its leaves.
-/

namespace Runbook

/-! ## Leaves -/

namespace Action

variable {α : Type}

theorem RunsNothing.effect_perform {a : Action α} (ha : a.RunsNothing) (below below' : Runner)
    (silent : Bool) {s s' : State} (hs : s.workspace = s'.workspace) :
    effect (a.perform below silent s) = effect (a.perform below' silent s') := by
  induction a generalizing s s' with
  | done | fail => exact Prod.ext rfl hs
  | read v next ih =>
    unfold Action.perform
    rw [← hs]
    exact ih _ (ha _) hs
  | write v x next ih => exact ih ha (congrArg (·.write v x) hs)
  | put v x next ih => exact ih ha (congrArg (·.put v x) hs)
  | mark v next ih => exact ih ha (congrArg (·.mark v) hs)
  | inspect next ih =>
    unfold Action.perform
    rw [← hs]
    exact ih _ (ha _) hs
  | report e next ih =>
    have hreport : (s.report e).workspace = (s'.report e).workspace := hs
    exact ih ha hreport
  | run => exact ha.elim

end Action

/-- The method of the task runs no pipeline and does not heed its nesting level. -/
structure Task.Leaf (lib : Library) (t : Task) : Prop where
  runsNothing : ∀ depth silent,
    (lib.native t.method ⟨lib.catalog, t, depth, silent⟩).RunsNothing
  heedless : ∀ depth depth' silent,
    lib.native t.method ⟨lib.catalog, t, depth, silent⟩ =
      lib.native t.method ⟨lib.catalog, t, depth', silent⟩

/-- A leaf does the same wherever it stands. -/
theorem Task.Leaf.effect_runTask {lib : Library} {t : Task} (ht : t.Leaf lib)
    (below below' : Runner) (depth depth' : Nat) (silent : Bool) (i : Nat) {s s' : State}
    (hs : s.workspace = s'.workspace) :
    effect (runTask lib below depth silent i t s) =
      effect (runTask lib below' depth' silent i t s') := by
  refine effect_runTask_congr hs ?_ i
  rw [ht.heedless depth depth']
  exact (ht.runsNothing depth' silent).effect_perform below below' silent hs

/-! ## Trees -/

/-- The task is a leaf, or it has a method of `nests` and runs the pipeline in its body, which is
built in the same way. -/
inductive Task.Inlines (lib : Library) (nests : MethodId → Bool) : Task → Prop where
  | leaf {t : Task} : nests t.method = false ∨ t.embedded = none → t.Leaf lib → Inlines lib nests t
  | nest {t : Task} {p : Pipeline} : nests t.method = true → t.embedded = some p →
    lib.native t.method = Call.runEmbedded → t.allInputs lib.catalog = [] →
    t.allOutputs lib.catalog = [] → (∀ u ∈ p.tasks, Inlines lib nests u) → Inlines lib nests t

/-- What is met in a tree. -/
inductive Visit where
  /-- A leaf, with the number that it has in its own pipeline. -/
  | leaf (i : Nat) (t : Task)
  /-- A pipeline, which is to be entered at nesting level `depth`. -/
  | enter (depth : Nat) (p : Pipeline)

mutual

/-- What is met in a task at nesting level `depth`, which has number `i` there. -/
def Task.visits (nests : MethodId → Bool) (depth i : Nat) : Task → List Visit
  | ⟨m, ks, os, is, none⟩ => [.leaf i ⟨m, ks, os, is, none⟩]
  | ⟨m, ks, os, is, some p⟩ =>
    if nests m then Pipeline.visits nests (depth + 1) p else [.leaf i ⟨m, ks, os, is, some p⟩]

/-- What is met in tasks that are counted from `i`. -/
def Task.allVisits (nests : MethodId → Bool) (depth : Nat) : Nat → List Task → List Visit
  | _, [] => []
  | i, t :: ts => Task.visits nests depth i t ++ Task.allVisits nests depth (i + 1) ts

/-- What is met in a pipeline, itself before all that is in it. -/
def Pipeline.visits (nests : MethodId → Bool) (depth : Nat) : Pipeline → List Visit
  | ⟨name, ts⟩ => .enter depth ⟨name, ts⟩ :: Task.allVisits nests depth 0 ts

end

mutual

/-- How many pipelines lie within each other in the body of a task. -/
def Task.height (nests : MethodId → Bool) : Task → Nat
  | ⟨_, _, _, _, none⟩ => 0
  | ⟨m, _, _, _, some p⟩ => if nests m then Pipeline.height nests p + 1 else 0

/-- The height of the highest task. -/
def Task.maxHeight (nests : MethodId → Bool) : List Task → Nat
  | [] => 0
  | t :: ts => max (Task.height nests t) (Task.maxHeight nests ts)

/-- How many pipelines lie within each other in a pipeline. -/
def Pipeline.height (nests : MethodId → Bool) : Pipeline → Nat
  | ⟨_, ts⟩ => Task.maxHeight nests ts

end

/-- The leaves among the visits. -/
def leaves : List Visit → List (Task × Nat)
  | [] => []
  | .leaf i t :: vs => (t, i) :: leaves vs
  | .enter .. :: vs => leaves vs

section

variable {nests : MethodId → Bool} {depth i : Nat} {t : Task}

theorem Task.visits_leaf (h : nests t.method = false ∨ t.embedded = none) :
    t.visits nests depth i = [.leaf i t] := by
  obtain ⟨m, ks, os, is, _ | p⟩ := t
  · rfl
  · rcases h with h | h
    · simp only [Task.visits, h, Bool.false_eq_true, if_false]
    · cases h

theorem Task.visits_nest {p : Pipeline} (hnests : nests t.method = true)
    (hbody : t.embedded = some p) : t.visits nests depth i = p.visits nests (depth + 1) := by
  obtain ⟨m, ks, os, is, embedded⟩ := t
  cases hbody
  exact if_pos hnests

theorem Pipeline.visits_eq (p : Pipeline) :
    p.visits nests depth = .enter depth p :: Task.allVisits nests depth 0 p.tasks := by
  obtain ⟨name, ts⟩ := p
  rw [Pipeline.visits]

end

/-! ## Height -/

/-- Every pipeline that is met lies within the limit. -/
def Within (limit : Nat) (vs : List Visit) : Prop :=
  ∀ depth p, Visit.enter depth p ∈ vs → depth ≤ limit

/-- The first pipeline beyond the limit lies just beyond it. -/
def Exceeds (limit : Nat) (vs : List Visit) : Prop :=
  ∃ before p after, vs = before ++ .enter (limit + 1) p :: after ∧ Within limit before

theorem Within.append {limit : Nat} {us vs : List Visit} (hu : Within limit us)
    (hv : Within limit vs) : Within limit (us ++ vs) := fun depth p h =>
  (List.mem_append.mp h).elim (hu depth p) (hv depth p)

theorem Exceeds.append_right {limit : Nat} {us : List Visit} (h : Exceeds limit us)
    (vs : List Visit) : Exceeds limit (us ++ vs) := by
  obtain ⟨before, p, after, rfl, hbefore⟩ := h
  exact ⟨before, p, after ++ vs, by simp, hbefore⟩

theorem Within.append_exceeds {limit : Nat} {us vs : List Visit} (hu : Within limit us)
    (hv : Exceeds limit vs) : Exceeds limit (us ++ vs) := by
  obtain ⟨before, p, after, rfl, hbefore⟩ := hv
  exact ⟨us ++ before, p, after, by simp, hu.append hbefore⟩

section

variable (nests : MethodId → Bool) {limit : Nat}

mutual

theorem Task.within_visits {depth : Nat} (t : Task) (i : Nat) (h : depth + t.height nests ≤ limit) :
    Within limit (t.visits nests depth i) := by
  match t with
  | ⟨m, ks, os, is, none⟩ => simp [Within, Task.visits]
  | ⟨m, ks, os, is, some p⟩ =>
    rw [Task.visits]
    rw [Task.height] at h
    split
    case isTrue hm =>
      rw [if_pos hm] at h
      exact p.within_visits (by omega)
    case isFalse => simp [Within]

theorem Task.within_allVisits {depth : Nat} (ts : List Task) (i : Nat)
    (h : depth + Task.maxHeight nests ts ≤ limit) :
    Within limit (Task.allVisits nests depth i ts) := by
  match ts with
  | [] => exact nofun
  | t :: ts =>
    rw [Task.maxHeight] at h
    rw [Task.allVisits]
    exact (t.within_visits i (by omega)).append (Task.within_allVisits ts (i + 1) (by omega))

/-- A tree that is low enough lies within the limit. -/
theorem Pipeline.within_visits {depth : Nat} (p : Pipeline)
    (h : depth + p.height nests ≤ limit) : Within limit (p.visits nests depth) := by
  match p with
  | ⟨name, ts⟩ =>
    rw [Pipeline.height] at h
    have htasks := Task.within_allVisits ts 0 h
    rintro d q (_ | ⟨_, hq⟩)
    · omega
    · exact htasks d q hq

end

mutual

theorem Task.exceeds_visits {depth : Nat} (t : Task) (i : Nat) (hdepth : depth ≤ limit)
    (h : limit < depth + t.height nests) : Exceeds limit (t.visits nests depth i) := by
  match t with
  | ⟨m, ks, os, is, none⟩ =>
    rw [Task.height] at h
    omega
  | ⟨m, ks, os, is, some p⟩ =>
    rw [Task.visits]
    rw [Task.height] at h
    split
    case isTrue hm =>
      rw [if_pos hm] at h
      exact p.exceeds_visits (by omega) (by omega)
    case isFalse hm =>
      rw [if_neg hm] at h
      omega

theorem Task.exceeds_allVisits {depth : Nat} (ts : List Task) (i : Nat)
    (hdepth : depth ≤ limit) (h : limit < depth + Task.maxHeight nests ts) :
    Exceeds limit (Task.allVisits nests depth i ts) := by
  match ts with
  | [] =>
    rw [Task.maxHeight] at h
    omega
  | t :: ts =>
    rw [Task.maxHeight] at h
    rw [Task.allVisits]
    by_cases ht : depth + t.height nests ≤ limit
    · exact (t.within_visits nests i ht).append_exceeds
        (Task.exceeds_allVisits ts (i + 1) hdepth (by omega))
    · exact (t.exceeds_visits i hdepth (by omega)).append_right _

/-- A tree that is too high exceeds the limit. -/
theorem Pipeline.exceeds_visits {depth : Nat} (p : Pipeline) (hdepth : depth ≤ limit + 1)
    (h : limit < depth + p.height nests) : Exceeds limit (p.visits nests depth) := by
  match p with
  | ⟨name, ts⟩ =>
    rw [Pipeline.visits]
    rcases Nat.eq_or_lt_of_le hdepth with rfl | hlt
    · exact ⟨[], ⟨name, ts⟩, _, rfl, nofun⟩
    · have hle := Nat.le_of_lt_succ hlt
      have hhead : Within limit [.enter depth ⟨name, ts⟩] := by
        rintro d q (_ | ⟨_, ⟨⟩⟩)
        exact hle
      rw [Pipeline.height] at h
      exact hhead.append_exceeds (Task.exceeds_allVisits ts 0 hle h)

end

end

/-! ## Runs of trees -/

/-- Runs what is met in turn. A pipeline is entered if it lies within the limit; leaves are run at
the outermost level, above `below`. -/
def runVisits (lib : Library) (below : Runner) (limit : Nat) (silent : Bool) :
    List Visit → Workspace → Except RunError Unit × Workspace
  | [], w => (.ok (), w)
  | .enter depth p :: vs, w =>
    if depth ≤ limit then runVisits lib below limit silent vs w
    else (.error (.depthExceeded p.name limit), w)
  | .leaf i t :: vs, w =>
    match effect (runTask lib below 0 silent i t ⟨w, #[]⟩) with
    | (.ok (), after) => runVisits lib below limit silent vs after
    | (.error e, after) => (.error e, after)

section

variable {lib : Library} (below : Runner) {limit : Nat} (silent : Bool)

theorem runVisits_append (us vs : List Visit) (w : Workspace) :
    runVisits lib below limit silent (us ++ vs) w =
      match runVisits lib below limit silent us w with
      | (.ok (), after) => runVisits lib below limit silent vs after
      | (.error e, after) => (.error e, after) := by
  induction us generalizing w with
  | nil => rfl
  | cons u us ih =>
    cases u with
    | leaf i t =>
      rw [List.cons_append, runVisits, runVisits]
      rcases effect (runTask lib below 0 silent i t ⟨w, #[]⟩) with ⟨e | _, after⟩
      · rfl
      · exact ih after
    | enter depth p =>
      rw [List.cons_append, runVisits, runVisits]
      by_cases hdepth : depth ≤ limit
      · rw [if_pos hdepth, if_pos hdepth]
        exact ih w
      · rw [if_neg hdepth, if_neg hdepth]

theorem runVisits_leaf (i : Nat) (t : Task) (w : Workspace) :
    runVisits lib below limit silent [.leaf i t] w =
      effect (runTask lib below 0 silent i t ⟨w, #[]⟩) := by
  rw [runVisits]
  rcases effect (runTask lib below 0 silent i t ⟨w, #[]⟩) with ⟨e | _, after⟩
  · rfl
  · rfl

/-- A task that runs its body has the effect of its body. -/
theorem effect_runTask_nest {t : Task} {p : Pipeline}
    (hnative : lib.native t.method = Call.runEmbedded) (hbody : t.embedded = some p)
    (hinputs : t.allInputs lib.catalog = []) (houtputs : t.allOutputs lib.catalog = [])
    {below : Runner} (hbelow : below.Matches below) (depth i : Nat) (s : State) :
    effect (runTask lib below depth silent i t s) = effect (below silent p s) := by
  let announced := s.report (.announced (lib.catalog.methodAt t.method).name depth silent)
  have hmissing : t.missingInput? lib.catalog s.workspace.isOccupied i = none :=
    Task.missingInput?_eq_none_iff.mpr (by simp [hinputs])
  have hperform :
      (lib.native t.method ⟨lib.catalog, t, depth, silent⟩).perform below silent announced =
        ((below silent p announced).1.mapError .nested, (below silent p announced).2) := by
    rw [hnative, Call.runEmbedded, hbody]
    exact perform_execute below silent p .shared announced
  rw [runTask_of_nested_of_nil hmissing houtputs hperform]
  exact hbelow silent p announced s rfl

variable {nests : MethodId → Bool}

/-- If the pipelines one level deeper are met in order, so are the tasks of a pipeline. -/
theorem effect_runTasks_inlines {room : Nat} (hroom : room ≤ limit)
    (hbelow : ∀ p : Pipeline, (∀ t ∈ p.tasks, t.Inlines lib nests) → ∀ s : State,
      effect (execute lib limit room silent p s) =
        runVisits lib below limit silent (p.visits nests (limit + 1 - room)) s.workspace)
    {ts : List Task} (hts : ∀ t ∈ ts, t.Inlines lib nests) (i : Nat) (s : State) :
    effect (runTasks lib (execute lib limit room) (limit - room) silent i ts s) =
      runVisits lib below limit silent (Task.allVisits nests (limit - room) i ts) s.workspace := by
  induction ts generalizing i s with
  | nil => rfl
  | cons t ts ih =>
    obtain ⟨ht, hts⟩ := List.forall_mem_cons.mp hts
    have htask : effect (runTask lib (execute lib limit room) (limit - room) silent i t s) =
        runVisits lib below limit silent (t.visits nests (limit - room) i) s.workspace := by
      cases ht with
      | leaf hno hleaf =>
        rw [Task.visits_leaf hno, runVisits_leaf]
        exact hleaf.effect_runTask _ _ _ _ silent i rfl
      | nest hnests hbody hnative hinputs houtputs htasks =>
        rw [Task.visits_nest hnests hbody, ← Nat.sub_add_comm hroom, ← hbelow _ htasks]
        exact effect_runTask_nest silent hnative hbody hinputs houtputs
          (matches_execute lib limit room) _ i s
    rw [Task.allVisits, runVisits_append, ← htask, runTasks]
    rcases runTask lib (execute lib limit room) (limit - room) silent i t s with ⟨e | _, after⟩
    · rfl
    · exact ih hts (i + 1) after

/-- **A run meets the pipelines and leaves of a tree in order.** -/
theorem effect_execute {room : Nat} (hroom : room ≤ limit + 1) {p : Pipeline}
    (hp : ∀ t ∈ p.tasks, t.Inlines lib nests) (s : State) :
    effect (execute lib limit room silent p s) =
      runVisits lib below limit silent (p.visits nests (limit + 1 - room)) s.workspace := by
  -- on the levels that are left: each body is run with one level less
  induction room generalizing p s with
  | zero =>
    rw [Pipeline.visits_eq, runVisits, if_neg (by omega)]
    rfl
  | succ room ih =>
    have hle := Nat.le_of_succ_le_succ hroom
    rw [effect_execute_succ, Pipeline.visits_eq, runVisits, Nat.add_sub_add_right,
      if_pos (Nat.sub_le limit room)]
    exact effect_runTasks_inlines below silent hle (fun p hp => ih (by omega) hp) hp 0 _

end

/-! ## Leaves in a row -/

/-- The number that leaf number `k` has in its own pipeline. -/
def ownNumber (ls : List (Task × Nat)) (k : Nat) : Nat :=
  (ls[k]?.map Prod.snd).getD k

theorem zipIdx_ownNumber (ls : List (Task × Nat)) :
    (ls.map Prod.fst).zipIdx.map (Prod.map id (ownNumber ls)) = ls := by
  refine List.ext_getElem? fun k => ?_
  cases hk : ls[k]? with
  | none => simp [hk]
  | some l => simp [ownNumber, hk]

/-- Leaves as one flat pipeline, at the outermost level. If an error is raised for one of them, it
has the number that the leaf has in its own pipeline. -/
def Library.runFlat (lib : Library) (maxDepth : Nat) (silent : Bool) (name : String)
    (ls : List (Task × Nat)) (w : Workspace) : Except RunError Unit × Workspace :=
  let flat : Pipeline := ⟨name, ls.map Prod.fst⟩
  let r := lib.run maxDepth silent flat w
  (renumberIf (lib.raises maxDepth 0 silent flat w) (ownNumber ls) r.1, r.2.workspace)

section

variable (lib : Library) (limit : Nat) (silent : Bool)

theorem effect_runNumbered_eq_runVisits {below : Runner} (hbelow : below.Matches below)
    {vs : List Visit} (hvs : Within limit vs) (s : State) :
    effect (runNumbered lib below 0 silent (leaves vs) s) =
      runVisits lib below limit silent vs s.workspace := by
  induction vs generalizing s with
  | nil => rfl
  | cons v vs ih =>
    have hrest := ih fun depth p h => hvs depth p (List.mem_cons_of_mem v h)
    cases v with
    | enter depth p =>
      rw [leaves, runVisits, if_pos (hvs depth p List.mem_cons_self)]
      exact hrest s
    | leaf i t =>
      have htask : effect (runTask lib below 0 silent i t s) =
          effect (runTask lib below 0 silent i t ⟨s.workspace, #[]⟩) :=
        hbelow.runTask silent lib 0 i t rfl
      rw [leaves, runNumbered, runVisits, ← htask]
      rcases runTask lib below 0 silent i t s with ⟨e | _, after⟩
      · rfl
      · exact hrest after

/-- Leaves in a row do what they do as a flat pipeline. -/
theorem runVisits_eq_runFlat (name : String) {vs : List Visit} (hvs : Within limit vs)
    (w : Workspace) :
    runVisits lib (execute lib limit limit) limit silent vs w =
      lib.runFlat limit silent name (leaves vs) w := by
  have hflat := effect_runAt lib silent (Nat.zero_le limit)
    ⟨name, (leaves vs).map Prod.fst⟩ ⟨w, #[]⟩
  obtain ⟨hresult, hworkspace⟩ := Prod.mk.inj hflat
  have hnumbered := runNumbered_renumber lib (execute lib limit limit) 0 silent
    (ownNumber (leaves vs)) (((leaves vs).map Prod.fst).zipIdx 0) ⟨w, #[]⟩
  rw [zipIdx_ownNumber, ← runTasks_eq_runNumbered, List.zipIdx_map_fst] at hnumbered
  rw [← effect_runNumbered_eq_runVisits lib limit silent (matches_execute lib limit limit) hvs
    ⟨w, #[]⟩, hnumbered]
  exact Prod.ext (congrArg (renumberIf _ _) hresult.symm) hworkspace.symm

end

/-! ## Every tree -/

/-- **Nesting is inlining.** A tree of pipelines in which each task either runs nothing or just runs
the pipeline in its body comes to the same result and the same workspace as its leaves, run in the
order of the text as one flat pipeline; an error that is raised for a leaf has the number of the
leaf in its own pipeline. If the tree is higher than the limit, it does what the leaves do that
stand before the first pipeline beyond the limit, and then fails for that pipeline. -/
theorem nesting_is_inlining {lib : Library} {nests : MethodId → Bool} {p : Pipeline}
    (hp : ∀ t ∈ p.tasks, t.Inlines lib nests) (maxDepth : Nat) (silent : Bool) (name : String)
    (w : Workspace) :
    (p.height nests ≤ maxDepth →
      effect (lib.run maxDepth silent p w) =
        lib.runFlat maxDepth silent name (leaves (p.visits nests 0)) w) ∧
    (maxDepth < p.height nests →
      ∃ before q after,
        p.visits nests 0 = before ++ .enter (maxDepth + 1) q :: after ∧
        (∀ depth u, .enter depth u ∈ before → depth ≤ maxDepth) ∧
        effect (lib.run maxDepth silent p w) =
          match lib.runFlat maxDepth silent name (leaves before) w with
          | (.ok (), w') => (.error (.depthExceeded q.name maxDepth), w')
          | (.error e, w') => (.error e, w')) := by
  have hrun := effect_execute (execute lib maxDepth maxDepth) silent (Nat.le_refl (maxDepth + 1)) hp
    ⟨w, #[]⟩
  rw [Nat.sub_self] at hrun
  constructor
  · intro hheight
    have hwithin : Within maxDepth (p.visits nests 0) := p.within_visits nests (by omega)
    exact hrun.trans (runVisits_eq_runFlat lib maxDepth silent name hwithin w)
  · intro hheight
    have hexceeds : Exceeds maxDepth (p.visits nests 0) :=
      p.exceeds_visits nests (Nat.zero_le _) (by omega)
    obtain ⟨before, q, after, heq, hbefore⟩ := hexceeds
    refine ⟨before, q, after, heq, hbefore, ?_⟩
    have hcut : ∀ w', runVisits lib (execute lib maxDepth maxDepth) maxDepth silent
        (.enter (maxDepth + 1) q :: after) w' = (.error (.depthExceeded q.name maxDepth), w') := by
      intro w'
      rw [runVisits, if_neg (Nat.not_succ_le_self maxDepth)]
    rw [← runVisits_eq_runFlat lib maxDepth silent name hbefore, Library.run, hrun, heq,
      runVisits_append]
    rcases runVisits lib (execute lib maxDepth maxDepth) maxDepth silent before w with ⟨e | _, w'⟩
    · rfl
    · exact hcut w'

namespace Blocks

/-- Counts once more. -/
def count : Native := fun _ => do
  let i ← .contents (← .get ⟨0⟩).asIndex
  .set ⟨0⟩ (.index (i + 1))

/-- A small library: a method that runs its body, one that counts and one that fails. -/
def library : Library where
  catalog :=
    ⟨[⟨"count", .index, "How often Count was called."⟩], ⟨[("count", ⟨0⟩)]⟩,
      [⟨"Block", "Runs the enclosed methods.", [], [], [], [], [], true⟩,
       ⟨"Count", "Counts once more.", [⟨0⟩], [], [], [], [], false⟩,
       ⟨"Stop", "Fails.", [], [], [], [], [], false⟩],
      ⟨[("Stop", ⟨2⟩), ("Count", ⟨1⟩), ("Block", ⟨0⟩)]⟩⟩
  natives := [Call.runEmbedded, count, fun _ => .fault (.raised "stop")]
  length_eq := rfl

/-- The method that runs its body. -/
def nests (m : MethodId) : Bool :=
  m == ⟨0⟩

/-- Blocks in a block, one of them without tasks, and more tasks after them. -/
def tree : Pipeline :=
  ⟨"main", [.simple ⟨1⟩, ⟨⟨0⟩, [], [], [], some ⟨"Block",
    [.simple ⟨1⟩, ⟨⟨0⟩, [], [], [], some ⟨"Block", []⟩⟩, .simple ⟨2⟩]⟩⟩, .simple ⟨1⟩]⟩

theorem inlines_count : (Task.simple ⟨1⟩).Inlines library nests := by
  refine .leaf (.inl rfl) ⟨fun _ _ x => ?_, fun _ _ _ => rfl⟩
  cases x <;> trivial

theorem inlines_stop : (Task.simple ⟨2⟩).Inlines library nests :=
  .leaf (.inl rfl) ⟨fun _ _ => trivial, fun _ _ _ => rfl⟩

theorem inlines_block {p : Pipeline} (hp : ∀ t ∈ p.tasks, t.Inlines library nests) :
    Task.Inlines library nests ⟨⟨0⟩, [], [], [], some p⟩ :=
  .nest rfl rfl rfl rfl rfl hp

theorem inlines_tree : ∀ t ∈ tree.tasks, t.Inlines library nests := by
  have hempty : ∀ t ∈ (Pipeline.mk "Block" []).tasks, t.Inlines library nests := nofun
  simp [tree, inlines_count, inlines_stop, inlines_block, inlines_block hempty]

/-- For two levels the tree is low enough; for one level its inner block lies too deep. -/
theorem tree_inlined :
    let w := Workspace.fresh library.catalog
    (∀ t ∈ tree.tasks, t.Inlines library nests) ∧
    (tree.height nests ≤ 2 ∧
      effect (library.run 2 false tree w) = library.runFlat 2 false "flat"
        [(.simple ⟨1⟩, 0), (.simple ⟨1⟩, 0), (.simple ⟨2⟩, 2), (.simple ⟨1⟩, 2)] w) ∧
    1 < tree.height nests ∧
      ∃ before q after, tree.visits nests 0 = before ++ .enter 2 q :: after ∧
        (∀ depth u, .enter depth u ∈ before → depth ≤ 1) ∧
        effect (library.run 1 false tree w) =
          match library.runFlat 1 false "flat" (leaves before) w with
          | (.ok (), w') => (.error (.depthExceeded q.name 1), w')
          | (.error e, w') => (.error e, w') := by
  intro w
  have hheight : tree.height nests = 2 := by
    simp [tree, Pipeline.height, Task.maxHeight, Task.height, Task.simple, nests]
  have hleaves : leaves (tree.visits nests 0) =
      [(.simple ⟨1⟩, 0), (.simple ⟨1⟩, 0), (.simple ⟨2⟩, 2), (.simple ⟨1⟩, 2)] := by
    simp [tree, Pipeline.visits, Task.allVisits, Task.visits, Task.simple, nests, leaves]
  have hfits := (nesting_is_inlining inlines_tree 2 false "flat" w).1 (by omega)
  rw [hleaves] at hfits
  exact ⟨inlines_tree, ⟨by omega, hfits⟩, by omega,
    (nesting_is_inlining inlines_tree 1 false "flat" w).2 (by omega)⟩

end Blocks
end Runbook
