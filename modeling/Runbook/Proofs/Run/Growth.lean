import Runbook.Proofs.Run.Contract

/-!
# Occupancy only grows

What is set stays set for as long as its workspace is in use, and no slot comes or goes. A run stays
on one workspace, and each isolated run that it starts has a private copy to itself. So the moments
of a run fall into tracks, one for each workspace, and along every track the marks grow. This no
method can break, for all that an action can do is to set, to change and to mark, and a merge only
sets what it copies.

* `Tracks`, `tracks`: the moments of a run, parted by workspace.
* `Rises`: from one workspace along a track to another no mark is lost.
* `follow_tracks`: the tracks of a run make up its history, and all of them rise.
* `occupancy_grows`: what that comes to for every run.
-/

namespace Runbook

/-! ## Merges -/

/-- A merge marks what it copies, and nothing else. -/
theorem Workspace.isOccupied_mergeFrom_iff {w other : Workspace} (hsize : other.size = w.size)
    {vs : List VariableId} {u : VariableId} :
    (w.mergeFrom other vs).isOccupied u = true ↔
      w.isOccupied u = true ∨ (u ∈ vs ∧ other.isOccupied u = true) := by
  induction vs generalizing w with
  | nil => simp [mergeFrom]
  | cons v vs ih =>
    by_cases hv : other.isOccupied v = true
    · have hrest := ih (w := w.write v (other.value v)) (by simp [hsize])
      have hlt : v.index < w.size := hsize ▸ lt_size_of_isOccupied hv
      rw [mergeFrom, List.foldl_cons, if_pos hv]
      refine hrest.trans ?_
      by_cases huv : u = v
      · simp [huv, hlt, hv]
      · simp [huv]
    · rw [mergeFrom, List.foldl_cons, if_neg hv]
      refine (ih hsize).trans ?_
      by_cases huv : u = v
      · simp [huv, hv]
      · simp [huv]

/-! ## Tracks -/

/-- The moments of a run, parted by the workspace that they are on: its own, and the private copies
that were made on the way. -/
structure Tracks where
  own : List Moment
  copies : List (List Moment)

namespace Tracks

/-- No moments, and no copies. -/
def empty : Tracks :=
  ⟨[], []⟩

/-- Every track, that of the run's own workspace first. -/
def all (t : Tracks) : List (List Moment) :=
  t.own :: t.copies

/-- A moment on the workspace of the run, and then `t`. -/
def cons (x : Moment) (t : Tracks) : Tracks :=
  { t with own := x :: t.own }

/-- First `t`, then `u`, on the same workspace. -/
def append (t u : Tracks) : Tracks :=
  ⟨t.own ++ u.own, t.copies ++ u.copies⟩

end Tracks

/-- The tracks of a run as they are for the method that has started it: an isolated run has not been
on the workspace of the method. -/
def Mode.tracks (mode : Mode) (t : Tracks) : Tracks :=
  match mode with
  | .shared | .muted => t
  | .isolated _ => ⟨[], t.all⟩

/-- A way to part the moments of a pipeline's run. -/
abbrev Tracker := Bool → Pipeline → State → Tracks

/-- The tracks of an action. Pipelines are run by `below`, and `inside` parts their moments. -/
def Action.tracks {α : Type} (below : Runner) (inside : Tracker) (depth : Nat) (silent : Bool) :
    Action α → State → Tracks
  | .done _, _ | .fail _, _ => .empty
  | .read v next, s =>
    .cons ⟨depth, .read v, s.workspace⟩
      ((next (s.workspace.value v)).tracks below inside depth silent s)
  | .write v x next, s =>
    let after := s.update (·.write v x)
    .cons ⟨depth, .changed, after.workspace⟩ (next.tracks below inside depth silent after)
  | .put v x next, s =>
    let after := s.update (·.put v x)
    .cons ⟨depth, .changed, after.workspace⟩ (next.tracks below inside depth silent after)
  | .mark v next, s =>
    let after := s.update (·.mark v)
    .cons ⟨depth, .changed, after.workspace⟩ (next.tracks below inside depth silent after)
  | .inspect next, s => (next s.workspace).tracks below inside depth silent s
  | .report e next, s => next.tracks below inside depth silent (s.report e)
  | .run p mode next, s =>
    (mode.tracks (inside (mode.silences silent) p s)).append <|
      match mode.apply below silent p s with
      | (r, after) =>
        .cons ⟨depth, .returned, after.workspace⟩ ((next r).tracks below inside depth silent after)

/-- The tracks of task number `i`. -/
def taskTracks (lib : Library) (below : Runner) (inside : Tracker) (depth : Nat) (silent : Bool)
    (i : Nat) (t : Task) (s : State) : Tracks :=
  let announced := s.report (.announced (lib.catalog.methodAt t.method).name depth silent)
  let body := lib.native t.method ⟨lib.catalog, t, depth, silent⟩
  .cons ⟨depth, .looked i t, s.workspace⟩ <|
    match t.missingInput? lib.catalog s.workspace.isOccupied i with
    | some e => .cons ⟨depth, .refused i t e, s.workspace⟩ .empty
    | none =>
      .cons ⟨depth, .called i t, s.workspace⟩ <|
        (body.tracks below inside depth silent announced).append <|
          match body.perform below silent announced with
          | (.ok (), after) =>
            .cons ⟨depth, .finished i t, after.workspace.markAll (t.allOutputs lib.catalog)⟩ .empty
          | (.error _, _) => .empty

/-- The tracks of tasks that are counted from `i`. -/
def tasksTracks (lib : Library) (below : Runner) (inside : Tracker) (depth : Nat) (silent : Bool) :
    Nat → List Task → State → Tracks
  | _, [], _ => .empty
  | i, t :: ts, s =>
    (taskTracks lib below inside depth silent i t s).append <|
      match runTask lib below depth silent i t s with
      | (.ok (), after) => tasksTracks lib below inside depth silent (i + 1) ts after
      | (.error _, _) => .empty

/-- The tracks of a pipeline's run with room for `room` levels. -/
def tracks (lib : Library) (limit : Nat) : Nat → Tracker
  | 0, _, _, _ => .empty
  | room + 1, silent, p, s =>
    let depth := limit - room
    let below := execute lib limit room
    let entered := s.report (.entered p.name depth p.tasks.length)
    let result := runTasks lib below depth silent 0 p.tasks entered
    .cons ⟨depth, .entered p, s.workspace⟩ <|
      (tasksTracks lib below (tracks lib limit room) depth silent 0 p.tasks entered).append <|
        .cons ⟨depth, .left p result.1, result.2.workspace⟩ .empty

/-! ## Tracks that rise -/

/-- From `w` over the moments to `w'` the marks grow. -/
def Rises : Workspace → List Moment → Workspace → Prop
  | w, [], w' => w.Grows w'
  | w, x :: l, w' => w.Grows x.workspace ∧ Rises x.workspace l w'

namespace Rises

variable {u v w : Workspace} {l m : List Moment}

/-- It may begin with fewer marks. -/
theorem of_grows (h : u.Grows v) (hl : Rises v l w) : Rises u l w := by
  cases l with
  | nil => exact h.trans hl
  | cons x l => exact ⟨h.trans hl.1, hl.2⟩

theorem append (hl : Rises u l v) (hm : Rises v m w) : Rises u (l ++ m) w := by
  induction l generalizing u with
  | nil => exact hm.of_grows hl
  | cons x l ih => exact ⟨hl.1, ih hl.2⟩

theorem grows (hl : Rises u l w) : u.Grows w := by
  induction l generalizing u with
  | nil => exact hl
  | cons x l ih => exact hl.1.trans (ih hl.2)

theorem between (hl : Rises u l w) : ∀ x ∈ l, u.Grows x.workspace ∧ x.workspace.Grows w := by
  induction l generalizing u with
  | nil => exact nofun
  | cons x l ih =>
    obtain ⟨hx, hl⟩ := hl
    refine List.forall_mem_cons.mpr ⟨⟨hx, hl.grows⟩, fun y hy => ?_⟩
    exact (ih hl y hy).imp_left hx.trans

/-- Of any two moments the later one has all marks of the earlier one. -/
theorem pairwise (hl : Rises u l w) : l.Pairwise fun x y => x.workspace.Grows y.workspace := by
  induction l generalizing u with
  | nil => exact .nil
  | cons x l ih => exact .cons (fun y hy => (hl.2.between y hy).1) (ih hl.2)

end Rises

namespace Tracks

/-- The tracks are those of the moments `l`, from `w` to `w'`: they hold all moments, each track in
order of time, and they rise, that of the run itself up to `w'`. -/
structure Follow (t : Tracks) (w : Workspace) (l : List Moment) (w' : Workspace) : Prop where
  perm : t.all.flatten.Perm l
  sublist : ∀ track ∈ t.all, track.Sublist l
  own : Rises w t.own w'
  copies : ∀ track ∈ t.copies, ∃ u, Rises w track u

namespace Follow

variable {t t' : Tracks} {u v w : Workspace} {l m : List Moment}

theorem empty (h : u.Grows w) : Tracks.empty.Follow u [] w where
  perm := .refl _
  sublist := by simp [all, Tracks.empty]
  own := h
  copies := nofun

theorem cons {x : Moment} (hx : u.Grows x.workspace) (h : t.Follow x.workspace l w) :
    (t.cons x).Follow u (x :: l) w where
  perm := h.perm.cons x
  sublist := by
    obtain ⟨hown, hcopies⟩ := List.forall_mem_cons.mp h.sublist
    exact List.forall_mem_cons.mpr
      ⟨hown.cons_cons x, fun track htrack => (hcopies track htrack).cons x⟩
  own := ⟨hx, h.own⟩
  copies track htrack := (h.copies track htrack).imp fun _ hrises => hrises.of_grows hx

theorem append (h : t.Follow u l v) (h' : t'.Follow v m w) : (t.append t').Follow u (l ++ m) w where
  perm := by
    refine List.Perm.trans ?_ (h.perm.append h'.perm)
    simp only [all, Tracks.append, List.flatten_cons, List.flatten_append, List.append_assoc]
    exact (List.perm_append_comm_assoc _ _ _).append_left _
  sublist := by
    obtain ⟨hown, hcopies⟩ := List.forall_mem_cons.mp h.sublist
    obtain ⟨hown', hcopies'⟩ := List.forall_mem_cons.mp h'.sublist
    refine List.forall_mem_cons.mpr ⟨hown.append hown', ?_⟩
    refine List.forall_mem_append.mpr ⟨fun track htrack => ?_, fun track htrack => ?_⟩
    · exact (hcopies track htrack).trans (List.sublist_append_left l m)
    · exact (hcopies' track htrack).trans (List.sublist_append_right l m)
  own := h.own.append h'.own
  copies := by
    refine List.forall_mem_append.mpr ⟨h.copies, fun track htrack => ?_⟩
    exact (h'.copies track htrack).imp fun _ hrises => hrises.of_grows h.own.grows

/-- On a private copy the run is not seen, however the workspace of the method grows. -/
theorem apart (h : t.Follow u l v) (hw : u.Grows w) : Tracks.Follow ⟨[], t.all⟩ u l w where
  perm := h.perm
  sublist := List.forall_mem_cons.mpr ⟨List.nil_sublist l, h.sublist⟩
  own := hw
  copies := List.forall_mem_cons.mpr ⟨⟨v, h.own⟩, h.copies⟩

end Follow
end Tracks

/-! ## Runs -/

/-- Where pipelines are run by `below`, the tracks of their moments are those of `inside`. -/
def Tracker.Follows (inside : Tracker) (below : Runner) (trail : Trail) : Prop :=
  ∀ silent p s,
    (inside silent p s).Follow s.workspace (trail silent p s) (below silent p s).2.workspace

section

variable {inside : Tracker} {below : Runner} {trail : Trail}
  (hinside : inside.Follows below trail) (silent : Bool)

include hinside

theorem follow_apply (mode : Mode) (p : Pipeline) (s : State) :
    (mode.tracks (inside (mode.silences silent) p s)).Follow s.workspace
      (trail (mode.silences silent) p s) (mode.apply below silent p s).2.workspace := by
  cases mode with
  | shared => exact hinside silent p s
  | muted => exact hinside true p s
  | isolated keep =>
    refine (hinside silent p s).apart ?_
    unfold Mode.apply
    rcases below silent p s with ⟨e | _, after⟩
    · exact .refl _
    · exact Workspace.grows_mergeFrom _ _ _

omit hinside in
/-- What is marked when an isolated run is over. -/
theorem isOccupied_isolated {p : Pipeline} {s : State}
    (hsize : (below silent p s).2.workspace.size = s.workspace.size) (keep : List VariableId)
    (v : VariableId) :
    ((Mode.isolated keep).apply below silent p s).2.workspace.isOccupied v = true ↔
      s.workspace.isOccupied v = true ∨ ((below silent p s).1 = .ok () ∧ v ∈ keep ∧
        (below silent p s).2.workspace.isOccupied v = true) := by
  unfold Mode.apply
  rcases hrun : below silent p s with ⟨e | _, after⟩
  · simp
  · rw [hrun] at hsize
    simpa using Workspace.isOccupied_mergeFrom_iff hsize

variable (depth : Nat)

theorem follow_action {α : Type} (a : Action α) (s : State) :
    (a.tracks below inside depth silent s).Follow s.workspace
      (a.moments below trail depth silent s) (a.perform below silent s).2.workspace := by
  induction a generalizing s with
  | done | fail => exact .empty (.refl _)
  | read v next ih => exact .cons (.refl _) (ih _ s)
  | write v x next ih => exact .cons (s.workspace.grows_write v x) (ih (s.update (·.write v x)))
  | put v x next ih => exact .cons (s.workspace.grows_put v x) (ih (s.update (·.put v x)))
  | mark v next ih => exact .cons (s.workspace.grows_mark v) (ih (s.update (·.mark v)))
  | inspect next ih => exact ih _ s
  | report e next ih => exact ih (s.report e)
  | run p mode next ih =>
    exact (follow_apply hinside silent mode p s).append (.cons (.refl _) (ih _ _))

variable (lib : Library)

theorem follow_task (i : Nat) (t : Task) (s : State) :
    (taskTracks lib below inside depth silent i t s).Follow s.workspace
      (taskMoments lib below trail depth silent i t s)
      (runTask lib below depth silent i t s).2.workspace := by
  let announced := s.report (.announced (lib.catalog.methodAt t.method).name depth silent)
  unfold taskTracks taskMoments
  cases hinputs : t.missingInput? lib.catalog s.workspace.isOccupied i with
  | some e =>
    rw [runTask_of_refused hinputs]
    exact .cons (.refl _) (.cons (.refl _) (.empty (.refl _)))
  | none =>
    have hbody := follow_action hinside silent depth
      (lib.native t.method ⟨lib.catalog, t, depth, silent⟩) announced
    rw [runTask_of_called hinputs]
    refine .cons (.refl _) (.cons (.refl _) ?_)
    rcases hrun : (lib.native t.method ⟨lib.catalog, t, depth, silent⟩).perform below silent
      announced with ⟨e | _, after⟩
    · rw [hrun] at hbody
      exact hbody.append (.empty (.refl _))
    · rw [hrun] at hbody
      exact hbody.append (.cons (after.workspace.grows_markAll _) (.empty (.refl _)))

theorem follow_tasks (i : Nat) (ts : List Task) (s : State) :
    (tasksTracks lib below inside depth silent i ts s).Follow s.workspace
      (tasksMoments lib below trail depth silent i ts s)
      (runTasks lib below depth silent i ts s).2.workspace := by
  induction ts generalizing i s with
  | nil => exact .empty (.refl _)
  | cons t ts ih =>
    have htask := follow_task hinside silent depth lib i t s
    unfold tasksTracks tasksMoments runTasks
    rcases hrun : runTask lib below depth silent i t s with ⟨e | _, after⟩
    · rw [hrun] at htask
      exact htask.append (.empty (.refl _))
    · rw [hrun] at htask
      exact htask.append (ih (i + 1) after)

end

/-- **The tracks of a run make up its history, and all of them rise.** -/
theorem follow_tracks (lib : Library) (limit room : Nat) :
    (tracks lib limit room).Follows (execute lib limit room) (moments lib limit room) := by
  induction room with
  | zero => exact fun _ _ _ => .empty (.refl _)
  | succ room ih =>
    intro silent p s
    obtain ⟨-, hworkspace⟩ := execute_succ lib limit room silent p s
    rw [hworkspace]
    have htasks := follow_tasks ih silent (limit - room) lib 0 p.tasks
      (s.report (.entered p.name (limit - room) p.tasks.length))
    exact .cons (.refl _) (htasks.append (.cons (.refl _) (.empty (.refl _))))

/-- **Occupancy only grows.** In every run of every library, at any nesting level, silent or not and
whatever its end: what was set before is set afterwards, and there are as many slots. The moments of
the run fall into tracks in order of time, one for its own workspace and one for each private copy,
and along each track of any two moments the later one has all marks of the earlier one, and those
from before the run. An isolated run, whatever it is to keep and however it ends, leaves all marks
and adds only those of kept variables that a successful run has set. -/
theorem occupancy_grows (lib : Library) (limit room : Nat) (silent : Bool) (p : Pipeline)
    (s : State) :
    let r := execute lib limit room silent p s
    let t := tracks lib limit room silent p s
    s.workspace.Grows r.2.workspace ∧
    t.all.flatten.Perm (moments lib limit room silent p s) ∧
    (∀ track ∈ t.all, track.Sublist (moments lib limit room silent p s) ∧
      (track.Pairwise fun x y => x.workspace.Grows y.workspace) ∧
      ∀ x ∈ track, s.workspace.Grows x.workspace) ∧
    (∀ x ∈ t.own, x.workspace.Grows r.2.workspace) ∧
    ∀ keep v,
      let isolated := (Mode.isolated keep).apply (execute lib limit room) silent p s
      isolated.2.workspace.isOccupied v = true ↔ s.workspace.isOccupied v = true ∨
        (r.1 = .ok () ∧ v ∈ keep ∧ r.2.workspace.isOccupied v = true) := by
  intro r t
  have hfollow := follow_tracks lib limit room silent p s
  refine ⟨hfollow.own.grows, hfollow.perm, fun track htrack => ?_,
    fun x hx => (hfollow.own.between x hx).2,
    isOccupied_isolated silent hfollow.own.grows.size_eq⟩
  obtain ⟨u, hrises⟩ : ∃ u, Rises s.workspace track u := by
    rcases List.mem_cons.mp htrack with rfl | hcopy
    · exact ⟨_, hfollow.own⟩
    · exact hfollow.copies track hcopy
  exact ⟨hfollow.sublist track htrack, hrises.pairwise, fun x hx => (hrises.between x hx).1⟩

end Runbook
