import Runbook.Proofs.Run.Definedness

/-!
# The static check and the run

The check goes through the tasks of a pipeline with a set of variables, the run with a workspace.
The set stays within the marks of the workspace whatever the methods do, so a pipeline that passes
the check is refused none of its tasks. If the methods run no pipelines, change no marks but those
of their outputs and fail for faults only, set and marks stay equal, and the check foretells which
input is missing.

* `Native.Local`: methods that run no pipelines and keep to the marks of their outputs.
* `open_of_checked`: no task that the check went through is refused.
* `runTasks_of_check`: check and run of tasks with such methods.
* `check_agrees_with_run`: both, for every run.
* `check_disagrees_with_run`: the check does not foretell what a method fails with that is no fault.
-/

namespace Runbook

variable {lib : Library} {below : Runner} {inside : Trail} {depth : Nat} {silent : Bool}

/-! ## Variables that are set -/

/-- The variables on the list are set. -/
theorem Workspace.contains_occupied (w : Workspace) (v : VariableId) :
    w.occupied.contains v = w.isOccupied v := by
  rw [Bool.eq_iff_iff, List.contains_iff_mem, occupied, List.mem_filter, List.mem_map]
  constructor
  · exact fun h => h.2
  · intro h
    exact ⟨⟨v.index, List.mem_range.mpr (lt_size_of_isOccupied h), rfl⟩, h⟩

/-- Where the check is content, so is the run on a workspace with all these marks. -/
theorem Task.missingInput?_of_subset {c : Catalog} {set : List VariableId} {w : Workspace} {i : Nat}
    {t : Task} (hset : ∀ v ∈ set, w.isOccupied v = true)
    (h : t.missingInput? c set.contains i = none) : t.missingInput? c w.isOccupied i = none := by
  rw [missingInput?_eq_none_iff] at h ⊢
  intro v hv
  exact hset v (List.contains_iff_mem.mp (h v hv))

/-! ## Checked pipelines -/

/-- One task keeps the set of the check within the marks of the workspace. -/
theorem subset_of_runTask (hkeeps : Contract.free.Keeps lib.catalog below inside) {i : Nat}
    {t : Task} {s after : State} {set : List VariableId}
    (hset : ∀ v ∈ set, s.workspace.isOccupied v = true)
    (hslots : ∀ v ∈ t.allOutputs lib.catalog, v.index < s.workspace.size)
    (h : runTask lib below depth silent i t s = (.ok (), after)) :
    after.workspace.size = s.workspace.size ∧
      ∀ v ∈ t.allOutputs lib.catalog ++ set, after.workspace.isOccupied v = true := by
  have hgrows := (Contract.keeps_task depth silent (i := i) (t := t) (s := s)
    (Contract.sound_free lib) hkeeps trivial trivial).1.grows
  rw [h] at hgrows
  refine ⟨hgrows.size_eq, fun v hv => ?_⟩
  rcases List.mem_append.mp hv with hv | hv
  · obtain ⟨-, mid, -, rfl⟩ := of_runTask h
    have hlt : v.index < mid.workspace.size := by
      have hsize := hgrows.size_eq
      rw [State.update, (Workspace.grows_markAll _ _).size_eq] at hsize
      rw [hsize]
      exact hslots v hv
    exact Workspace.isOccupied_markAll.mpr (.inr ⟨hv, hlt⟩)
  · exact hgrows.marks v (hset v hv)

/-- No task that the check went through is refused, whatever the methods do. -/
theorem open_of_checked (hkeeps : Contract.free.Keeps lib.catalog below inside)
    (hinside : ∀ x, inside.Has x → depth < x.depth) {i : Nat} {ts : List Task} {s : State}
    {set : List VariableId} (hset : ∀ v ∈ set, s.workspace.isOccupied v = true)
    (hslots : ∀ t ∈ ts, ∀ v ∈ t.allOutputs lib.catalog, v.index < s.workspace.size)
    (hcheck : checkTasks lib.catalog set i ts = .ok ()) {x : Moment}
    (hx : x ∈ tasksMoments lib below inside depth silent i ts s) (hdepth : x.depth = depth) :
    x.Open := by
  induction ts generalizing i s set with
  | nil => cases hx
  | cons t ts ih =>
    rw [checkTasks] at hcheck
    split at hcheck
    case h_1 => cases hcheck
    case h_2 hinputs =>
      unfold tasksMoments at hx
      rcases List.mem_append.mp hx with hx | hx
      · rcases mem_taskMoments hx with ⟨-, -, hopen⟩ | hdeeper
        · exact hopen (Task.missingInput?_of_subset hset hinputs)
        · exact absurd hdepth (hinside x hdeeper).ne'
      · split at hx
        case h_1 after hrun =>
          obtain ⟨hsize, hset'⟩ := subset_of_runTask hkeeps hset (hslots t List.mem_cons_self) hrun
          refine ih hset' ?_ hcheck hx
          intro u hu v hv
          rw [hsize]
          exact hslots u (List.mem_cons_of_mem t hu) v hv
        case h_2 => cases hx

/-! ## Methods that keep to themselves -/

/-- In this call the method runs no pipelines, and of the marks it changes at most those of the
outputs. -/
structure Native.Local (n : Native) (c : Call) : Prop where
  runsNothing : (n c).RunsNothing
  marks : ∀ (below : Runner) (silent : Bool) (s : State), ∀ v ∉ c.task.allOutputs c.catalog,
    ((n c).perform below silent s).2.workspace.isOccupied v = s.workspace.isOccupied v

/-- A method that stays within the slots of its task and runs no pipelines is one of these, and it
fails for faults only. -/
theorem Native.WithinSlots.local {n : Native} (hn : n.WithinSlots false) (c : Call) :
    n.Local c ∧ (n c).FaultsOnly :=
  have hwithin := hn c (fun _ => True) (Call.brings_of_forall fun _ => trivial)
  ⟨⟨runsNothing_of_within hwithin fun _ => trivial, fun below silent s _ hv =>
    isOccupied_of_within hwithin (fun _ => trivial) below silent s hv⟩,
    faultsOnly_of_within hwithin (fun _ => trivial) fun _ => id⟩

/-- So are all standard methods but the three that run pipelines. -/
theorem Standard.local_native {m : MethodId} (hm : m.index < library.catalog.methods.length)
    (hname : (library.catalog.methodAt m).name ∉ runners) (c : Call) :
    (library.native m).Local c ∧ (library.native m c).FaultsOnly := by
  obtain ⟨s, hs, hdeclare, hnative⟩ := exists_spec hm
  have hwithin := within_of_mem hs
  rw [← (Builder.of_declare hdeclare).1, Bool.eq_false_iff.mpr fun h =>
    hname (List.contains_iff_mem.mp h)] at hwithin
  rw [hnative]
  exact hwithin.local c

/-- One task with such a method keeps the set of the check equal to the marks. -/
theorem marks_of_runTask (hkeeps : Contract.free.Keeps lib.catalog below inside) {i : Nat}
    {t : Task} (hlocal : (lib.native t.method).Local ⟨lib.catalog, t, depth, silent⟩)
    {s after : State} {set : List VariableId}
    (hset : ∀ v, v ∈ set ↔ s.workspace.isOccupied v = true)
    (hslots : ∀ v ∈ t.allOutputs lib.catalog, v.index < s.workspace.size)
    (h : runTask lib below depth silent i t s = (.ok (), after)) :
    after.workspace.size = s.workspace.size ∧
      ∀ v, v ∈ t.allOutputs lib.catalog ++ set ↔ after.workspace.isOccupied v = true := by
  obtain ⟨hsize, hsubset⟩ := subset_of_runTask hkeeps (fun v hv => (hset v).mp hv) hslots h
  refine ⟨hsize, fun v => ⟨hsubset v, fun hv => ?_⟩⟩
  obtain ⟨-, mid, hperform, rfl⟩ := of_runTask h
  rw [List.mem_append]
  rcases Workspace.isOccupied_markAll.mp hv with hv | ⟨hv, -⟩
  · by_cases hout : v ∈ t.allOutputs lib.catalog
    · exact .inl hout
    · have hmarks := hlocal.marks below silent
        (s.report (.announced (lib.catalog.methodAt t.method).name depth silent)) v hout
      rw [hperform] at hmarks
      exact .inr ((hset v).mpr (hmarks.symm.trans hv))
  · exact .inl hv

theorem le_task_of_checkTasks {c : Catalog} {set : List VariableId} {i : Nat} {ts : List Task}
    {e : MissingInput} (h : checkTasks c set i ts = .error e) : i ≤ e.task := by
  induction ts generalizing i set with
  | nil => cases h
  | cons t ts ih =>
    rw [checkTasks] at h
    split at h
    case h_1 e' hinputs =>
      cases h
      obtain ⟨_, _, _, -, -, -, rfl⟩ := Task.missingInput?_eq_some_iff.mp hinputs
      exact Nat.le_refl i
    case h_2 => exact Nat.le_of_succ_le (ih h)

/-- The run fails in a method, at a task before number `n`. -/
def RunError.MethodBefore (n : Nat) (r : Except RunError Unit) : Prop :=
  ∃ method task contexts fault, task < n ∧
    r = .error (.methodFailed method task contexts fault)

/-- What the check says of tasks, the run does, unless a method fails before. -/
theorem runTasks_of_check (hkeeps : Contract.free.Keeps lib.catalog below inside) {i : Nat}
    {ts : List Task}
    (hlocal : ∀ t ∈ ts, (lib.native t.method).Local ⟨lib.catalog, t, depth, silent⟩)
    (hfaults : ∀ t ∈ ts, (lib.native t.method ⟨lib.catalog, t, depth, silent⟩).FaultsOnly)
    {s : State} {set : List VariableId} (hset : ∀ v, v ∈ set ↔ s.workspace.isOccupied v = true)
    (hslots : ∀ t ∈ ts, ∀ v ∈ t.allOutputs lib.catalog, v.index < s.workspace.size) :
    match checkTasks lib.catalog set i ts with
    | .ok () => (runTasks lib below depth silent i ts s).1 = .ok () ∨
        RunError.MethodBefore (i + ts.length) (runTasks lib below depth silent i ts s).1
    | .error e => (runTasks lib below depth silent i ts s).1 = .error (.missingInput e) ∨
        RunError.MethodBefore e.task (runTasks lib below depth silent i ts s).1 := by
  induction ts generalizing i s set with
  | nil => exact .inl rfl
  | cons t ts ih =>
    have hsame : set.contains = s.workspace.isOccupied := by
      funext v
      rw [Bool.eq_iff_iff, List.contains_iff_mem]
      exact hset v
    rw [checkTasks, hsame, runTasks]
    cases hinputs : t.missingInput? lib.catalog s.workspace.isOccupied i with
    | some e =>
      refine .inl ?_
      rw [runTask_of_refused hinputs]
    | none =>
      simp only
      rcases hrun : runTask lib below depth silent i t s with ⟨e | _, after⟩
      · -- The method fails, so whatever the check says of later tasks is too late.
        have hfailed : ∃ contexts fault,
            e = .methodFailed (lib.catalog.methodAt t.method).name i contexts fault := by
          rw [runTask_of_called hinputs] at hrun
          split at hrun
          case h_1 => cases hrun
          case h_2 f hf =>
            cases hrun
            obtain ⟨fault, hfault⟩ := Action.own_of_runsNothing
              (hlocal t List.mem_cons_self).runsNothing (hfaults t List.mem_cons_self) hf
            exact ⟨f.contexts, fault, by rw [Failure.report, hfault]⟩
        obtain ⟨contexts, fault, rfl⟩ := hfailed
        split
        case h_1 => exact .inr ⟨_, i, contexts, fault, by simp, rfl⟩
        case h_2 e he => exact .inr ⟨_, i, contexts, fault, le_task_of_checkTasks he, rfl⟩
      · obtain ⟨hsize, hset'⟩ := marks_of_runTask hkeeps (hlocal t List.mem_cons_self) hset
          (hslots t List.mem_cons_self) hrun
        have hrest := ih (i := i + 1) (fun u hu => hlocal u (List.mem_cons_of_mem t hu))
          (fun u hu => hfaults u (List.mem_cons_of_mem t hu)) hset'
          (fun u hu v hv => by rw [hsize]; exact hslots u (List.mem_cons_of_mem t hu) v hv)
        rw [List.length_cons, Nat.add_comm ts.length, ← Nat.add_assoc]
        exact hrest

/-! ## Every run -/

/-- **Check and run agree.** On a workspace with a slot for every output of the pipeline, let the
check begin with the variables that are set there. If it passes, no task of the pipeline itself is
refused in the run, whatever the methods do and at whatever level they do it. If in addition the
methods of the pipeline run no pipelines, change no marks but those of their outputs, and fail for
faults only, then a missing input that the check reports is what the run fails with, unless a method
fails at a task before; and a missing input that the run fails with is what the check reports. -/
theorem check_agrees_with_run (lib : Library) (maxDepth : Nat) (silent : Bool) (p : Pipeline)
    (w : Workspace)
    (hslots : ∀ t ∈ p.tasks, ∀ v ∈ t.allOutputs lib.catalog, v.index < w.size) :
    (p.check lib.catalog w.occupied = .ok () →
      ∀ x ∈ lib.history maxDepth silent p w, x.depth = 0 → x.step.refusal? = none) ∧
    ((∀ t ∈ p.tasks, (lib.native t.method).Local ⟨lib.catalog, t, 0, silent⟩) →
      (∀ t ∈ p.tasks, (lib.native t.method ⟨lib.catalog, t, 0, silent⟩).FaultsOnly) →
      (∀ e, p.check lib.catalog w.occupied = .error e →
        (lib.run maxDepth silent p w).1 = .error (.missingInput e) ∨
          RunError.MethodBefore e.task (lib.run maxDepth silent p w).1) ∧
      ∀ e, (lib.run maxDepth silent p w).1 = .error (.missingInput e) →
        p.check lib.catalog w.occupied = .error e) := by
  have hkeeps := (Contract.sound_free lib).keeps maxDepth maxDepth
  have hset : ∀ v, v ∈ w.occupied ↔ w.isOccupied v = true := fun v => by
    rw [← w.contains_occupied v, List.contains_iff_mem]
  constructor
  · intro hcheck x hx hdepth
    unfold Library.history moments at hx
    simp only [Nat.sub_self, List.mem_cons, List.mem_append, List.not_mem_nil, or_false] at hx
    rcases hx with rfl | hx | rfl
    · rfl
    · refine open_of_checked hkeeps ?_ (fun v hv => (hset v).mp hv) hslots
        hcheck hx hdepth
      rintro y ⟨_, _, _, hy⟩
      have := lt_depth_add_room hy
      omega
    · rfl
  · intro hlocal hfaults
    obtain ⟨hresult, -⟩ := execute_succ lib maxDepth maxDepth silent p ⟨w, #[]⟩
    rw [Nat.sub_self] at hresult
    have hrun := runTasks_of_check (i := 0)
      (s := State.report ⟨w, #[]⟩ (.entered p.name 0 p.tasks.length))
      hkeeps hlocal hfaults hset hslots
    rw [← hresult] at hrun
    change match p.check lib.catalog w.occupied with
      | .ok () => (lib.run maxDepth silent p w).1 = .ok () ∨
          RunError.MethodBefore (0 + p.tasks.length) (lib.run maxDepth silent p w).1
      | .error e => (lib.run maxDepth silent p w).1 = .error (.missingInput e) ∨
          RunError.MethodBefore e.task (lib.run maxDepth silent p w).1 at hrun
    constructor
    · intro e hcheck
      rw [hcheck] at hrun
      exact hrun
    · intro e hfails
      rw [hfails] at hrun
      cases hcheck : p.check lib.catalog w.occupied with
      | ok =>
        rw [hcheck] at hrun
        rcases hrun with hrun | ⟨_, _, _, _, -, hrun⟩ <;> cases hrun
      | error e' =>
        rw [hcheck] at hrun
        rcases hrun with hrun | ⟨_, _, _, _, -, hrun⟩
        · cases hrun
          rfl
        · cases hrun

/-- A pipeline whose last task copies a variable that nothing sets. -/
def Standard.copiesUnset : Pipeline :=
  ⟨"main", [⟨⟨0⟩, [.index 7], [⟨0⟩], [], none⟩, ⟨⟨9⟩, [], [⟨1⟩], [⟨0⟩], none⟩,
    ⟨⟨9⟩, [], [⟨2⟩], [⟨3⟩], none⟩]⟩

/-- The check reports the unset variable, and the run fails for it or for a method before. -/
theorem Standard.copiesUnset_agrees :
    (∀ t ∈ copiesUnset.tasks, ∀ v ∈ t.allOutputs library.catalog,
      v.index < (Workspace.fresh library.catalog).size) ∧
    copiesUnset.check library.catalog (Workspace.fresh library.catalog).occupied =
      .error ⟨"Copy", "numeric_2", 2⟩ ∧
    ((library.run 64 false copiesUnset (Workspace.fresh library.catalog)).1 =
        .error (.missingInput ⟨"Copy", "numeric_2", 2⟩) ∨
      RunError.MethodBefore 2
        (library.run 64 false copiesUnset (Workspace.fresh library.catalog)).1) := by
  have hslots : ∀ t ∈ copiesUnset.tasks, ∀ v ∈ t.allOutputs library.catalog,
      v.index < (Workspace.fresh library.catalog).size := by
    decide +kernel
  have hcheck : copiesUnset.check library.catalog (Workspace.fresh library.catalog).occupied =
      .error ⟨"Copy", "numeric_2", 2⟩ := by
    decide +kernel
  have hmethods : ∀ t ∈ copiesUnset.tasks, t.method.index < library.catalog.methods.length ∧
      (library.catalog.methodAt t.method).name ∉ runners := by
    decide +kernel
  have hagrees := check_agrees_with_run library 64 false copiesUnset
    (Workspace.fresh library.catalog) hslots
  have hlocal := fun t ht => local_native (hmethods t ht).1 (hmethods t ht).2
    ⟨library.catalog, t, 0, false⟩
  exact ⟨hslots, hcheck,
    (hagrees.2 (fun t ht => (hlocal t ht).1) fun t ht => (hlocal t ht).2).1 _ hcheck⟩

/-! ## Failures that are no faults -/

namespace Checking

/-- A method that checks the pipeline in its body, with no variable set, and fails as that does. -/
def checkBody : Native := fun c =>
  match c.task.embedded with
  | some p =>
    match p.check c.catalog [] with
    | .ok () => .done ()
    | .error e => .fail (.nested (.missingInput e))
  | none => .fault (.noEmbedded c.method.name)

/-- A small library: a method that checks its body, and one with an input. -/
def library : Library where
  catalog :=
    ⟨[⟨"x", .index, "Never set."⟩], ⟨[("x", ⟨0⟩)]⟩,
      [⟨"Check", "Checks the enclosed methods.", [], [], [], [], [], true⟩,
       ⟨"Use", "Needs x.", [], [⟨0⟩], [], [], [], false⟩],
      ⟨[("Use", ⟨1⟩), ("Check", ⟨0⟩)]⟩⟩
  natives := [checkBody, fun _ => .done ()]
  length_eq := rfl

/-- A task is checked in a body, and then it stands there itself. -/
def checksFirst : Pipeline :=
  ⟨"main", [⟨⟨0⟩, [], [], [], some ⟨"Check", [.simple ⟨1⟩]⟩⟩, .simple ⟨1⟩]⟩

theorem local_checkBody (c : Call) : checkBody.Local c := by
  have hcases : (∃ e, checkBody c = .fail e) ∨ checkBody c = .done () := by
    unfold checkBody
    split
    · split
      · exact .inr rfl
      · exact .inl ⟨_, rfl⟩
    · exact .inl ⟨_, rfl⟩
  rcases hcases with ⟨e, h⟩ | h
  · exact ⟨by rw [h]; trivial, fun _ _ _ _ _ => by rw [h]; rfl⟩
  · exact ⟨by rw [h]; trivial, fun _ _ _ _ _ => by rw [h]; rfl⟩

end Checking

/-- An agenda without tasks, stored and then executed, and a task that copies a variable that
nothing sets. -/
def Standard.executesThenCopies : Pipeline :=
  ⟨"main", [⟨⟨18⟩, [], [⟨10⟩], [], some ⟨"AgendaSet", []⟩⟩, ⟨⟨20⟩, [], [], [⟨10⟩], none⟩,
    ⟨⟨9⟩, [], [⟨2⟩], [⟨3⟩], none⟩]⟩

/-- **For other failures than faults, check and run may disagree.** A method that runs nothing and
changes no marks may fail with a missing input that it has found in its body; then the run reports
that one, and the check another one. And a method may fail because the pipeline that it would run
lies too deep: none but the pipeline itself is entered, and the run reports neither a missing input
nor a failed method. -/
theorem check_disagrees_with_run :
    ((∀ t ∈ Checking.checksFirst.tasks,
        (Checking.library.native t.method).Local ⟨Checking.library.catalog, t, 0, false⟩) ∧
      Checking.checksFirst.check Checking.library.catalog
        (Workspace.fresh Checking.library.catalog).occupied = .error ⟨"Use", "x", 1⟩ ∧
      (Checking.library.run 64 false Checking.checksFirst
        (.fresh Checking.library.catalog)).1 = .error (.missingInput ⟨"Use", "x", 0⟩)) ∧
    (∀ x ∈ Standard.library.history 0 false Standard.executesThenCopies
        (.fresh Standard.library.catalog), x.depth = 0) ∧
      Standard.executesThenCopies.check Standard.library.catalog
        (Workspace.fresh Standard.library.catalog).occupied = .error ⟨"Copy", "numeric_2", 2⟩ ∧
      (Standard.library.run 0 false Standard.executesThenCopies
        (.fresh Standard.library.catalog)).1 = .error (.depthExceeded "agenda_1" 0) := by
  refine ⟨⟨?_, rfl, rfl⟩, by decide +kernel, by decide +kernel, ?_⟩
  · refine List.forall_mem_cons.mpr ⟨Checking.local_checkBody _, List.forall_mem_singleton.mpr ?_⟩
    exact ⟨trivial, fun _ _ _ _ _ => rfl⟩
  · have hdeep : (match (Standard.library.run 0 false Standard.executesThenCopies
          (.fresh Standard.library.catalog)).1 with
        | .error (.depthExceeded q limit) => (q, limit)
        | _ => ("", 1)) = ("agenda_1", 0) := by
      decide +kernel
    split at hdeep
    case h_1 q limit hrun =>
      cases hdeep
      exact hrun
    case h_2 => cases (Prod.mk.inj hdeep).2

end Runbook
