import Runbook.Proofs.Run.Dependence
import Runbook.Proofs.Run.Growth
import Runbook.Proofs.Run.Sequence
import Runbook.Proofs.Standard.Conduct

/-!
# Isolated runs

An agenda may be run on the workspace itself or on a private copy of it. Both runs go the same way,
since both begin with the same values. They differ in what is left: of the copy only the kept
variables that it has set come back, and nothing at all if the run fails.

* `Workspace.mergeFrom_agreesOn_kept`, `Workspace.mergeFrom_agreesOn_rest`: a merge copies what it
  is told to, as far as it is set, and nothing else.
* `Isolates`: how a run on a private copy compares with one on the workspace itself.
* `isolates_apply`: so does every isolated run.
* `keptVariables_known`, `keptVariables_unknown`: the list of variables to keep.
* `exclusive_isolates`: the two standard methods that run an agenda.
-/

namespace Runbook

/-! ## Merges -/

namespace Workspace

variable {w other : Workspace}

/-- A merge copies values that are set, and leaves all others alone. -/
theorem value_mergeFrom (hsize : other.size = w.size) (vs : List VariableId) (u : VariableId) :
    (w.mergeFrom other vs).value u =
      if u ∈ vs ∧ other.isOccupied u = true then other.value u else w.value u := by
  induction vs generalizing w with
  | nil => simp [mergeFrom]
  | cons v vs ih =>
    by_cases hv : other.isOccupied v = true
    · have hrest := ih (w := w.write v (other.value v)) (by simp [hsize])
      have hlt : v.index < w.size := hsize ▸ lt_size_of_isOccupied hv
      rw [mergeFrom, List.foldl_cons, if_pos hv]
      refine hrest.trans ?_
      by_cases huv : u = v
      · simp [huv, hv, value_write_self hlt]
      · simp [huv, value_write_of_ne huv]
    · rw [mergeFrom, List.foldl_cons, if_neg hv]
      refine (ih hsize).trans ?_
      by_cases huv : u = v
      · simp [huv, hv]
      · simp [huv]

/-- The variables of `vs` that are set. -/
def setAmong (w : Workspace) (vs : List VariableId) : Set VariableId :=
  { u | u ∈ vs ∧ w.isOccupied u = true }

theorem mergeFrom_agreesOn_kept (hsize : other.size = w.size) (vs : List VariableId) :
    AgreesOn (other.setAmong vs) (w.mergeFrom other vs) other := by
  refine ⟨(w.grows_mergeFrom other vs).size_eq.trans hsize.symm, fun u hu => ?_, fun u hu => ?_⟩
  · exact (value_mergeFrom hsize vs u).trans (if_pos hu)
  · rw [hu.2, isOccupied_mergeFrom_iff hsize]
    exact .inr hu

theorem mergeFrom_agreesOn_rest (hsize : other.size = w.size) (vs : List VariableId) :
    AgreesOn (other.setAmong vs)ᶜ (w.mergeFrom other vs) w := by
  refine ⟨(w.grows_mergeFrom other vs).size_eq, fun u hu => ?_, fun u hu => ?_⟩
  · exact (value_mergeFrom hsize vs u).trans (if_neg hu)
  · rw [Bool.eq_iff_iff, isOccupied_mergeFrom_iff hsize]
    exact or_iff_left hu

end Workspace

/-! ## Runs on private copies -/

/-- How a run from `w` on a private copy, of which the variables of `keep` are kept, compares with a
run on the workspace itself. Both end alike. A failure leaves `w` as it was. After a success the
kept variables that the other run has set are as that has left them, and all others as they were. -/
structure Isolates {ε : Type} (keep : List VariableId) (w : Workspace)
    (shared isolated : Except ε Unit × Workspace) : Prop where
  result_eq : isolated.1 = shared.1
  restored : ∀ e, shared.1 = .error e → isolated.2 = w
  kept : shared.1 = .ok () → Workspace.AgreesOn (shared.2.setAmong keep) isolated.2 shared.2
  rest : shared.1 = .ok () → Workspace.AgreesOn (shared.2.setAmong keep)ᶜ isolated.2 w

/-- It does so too if the errors of both are told in other words. -/
theorem Isolates.mapError {ε ε' : Type} {keep : List VariableId} {w : Workspace}
    {shared isolated : Except ε Unit × Workspace} (h : Isolates keep w shared isolated)
    (f : ε → ε') :
    Isolates keep w (shared.1.mapError f, shared.2) (isolated.1.mapError f, isolated.2) := by
  obtain ⟨r, after⟩ := shared
  obtain ⟨r', after'⟩ := isolated
  obtain rfl : r' = r := h.result_eq
  cases r' with
  | error e => exact ⟨rfl, fun _ _ => h.restored e rfl, nofun, nofun⟩
  | ok => exact ⟨rfl, nofun, fun _ => h.kept rfl, fun _ => h.rest rfl⟩

/-- An isolated run, if runs keep the number of slots. -/
theorem isolates_apply {below : Runner} {silent : Bool} {q : Pipeline} {s : State}
    (hsize : (below silent q s).2.workspace.size = s.workspace.size) (keep : List VariableId) :
    Isolates keep s.workspace (effect (below silent q s))
      (effect ((Mode.isolated keep).apply below silent q s)) := by
  unfold Mode.apply
  rcases hrun : below silent q s with ⟨e | _, after⟩
  · exact ⟨rfl, fun _ _ => rfl, nofun, nofun⟩
  · rw [hrun] at hsize
    exact ⟨rfl, nofun, fun _ => Workspace.mergeFrom_agreesOn_kept hsize keep,
      fun _ => Workspace.mergeFrom_agreesOn_rest hsize keep⟩

/-- What an isolated run reports is not lost. -/
theorem log_isolated (below : Runner) (silent : Bool) (q : Pipeline) (s : State)
    (keep : List VariableId) :
    ((Mode.isolated keep).apply below silent q s).2.log = (below silent q s).2.log := by
  unfold Mode.apply
  rcases below silent q s with ⟨e | _, after⟩
  · rfl
  · rfl

/-! ## The two methods -/

namespace Standard

/-- The task executes the agenda in `v`. -/
structure ExecutesAgenda (t : Task) (v : VariableId) : Prop where
  name_eq : (library.catalog.methodAt t.method).name = "AgendaExecute"
  input_eq : (t.allInputs library.catalog)[0]? = some v

/-- The task executes the agenda in `v` and keeps only the variables called so. -/
structure ExecutesExclusive (t : Task) (v : VariableId) (names : List String) : Prop where
  name_eq : (library.catalog.methodAt t.method).name = "AgendaExecuteExclusive"
  input_eq : (t.allInputs library.catalog)[0]? = some v
  keyword_eq : t.keywords[0]? = some (.stringArray names)

theorem keptVariables_known {c : Catalog} {names : List String} {keep : List VariableId}
    (h : names.mapM c.findVariable? = some keep) : keptVariables c names = .done keep := by
  induction names generalizing keep with
  | nil =>
    cases h
    rfl
  | cons name names ih =>
    simp only [List.mapM_cons, Option.pure_def, Option.bind_eq_bind, Option.bind_eq_some_iff,
      Option.some.injEq] at h
    obtain ⟨v, hv, vs, hvs, rfl⟩ := h
    simp [keptVariables, hv, ih hvs, Action.andThen]

theorem keptVariables_unknown {c : Catalog} {names : List String} {name : String}
    (h : names.find? (fun name => (c.findVariable? name).isNone) = some name) :
    keptVariables c names = .refuse (.unknownKeep name) := by
  induction names with
  | nil => cases h
  | cons n names ih =>
    cases hn : c.findVariable? n with
    | none =>
      obtain rfl : n = name := by simpa [hn] using h
      simp [keptVariables, hn]
    | some v =>
      have hrest := ih (by simpa [hn] using h)
      simp [keptVariables, hn, hrest, Action.refuse, Action.fault, Action.andThen]

section

variable {t x : Task} {v : VariableId} {names : List String} {q : Pipeline} {s : State}
  (below : Runner) (depth : Nat) (silent : Bool)

theorem perform_executesAgenda (ht : ExecutesAgenda t v)
    (hq : s.workspace.value v = .pipeline q) :
    (library.native t.method ⟨library.catalog, t, depth, silent⟩).perform below silent s =
      ((below silent q s).1.mapError .nested, (below silent q s).2) := by
  let call : Call := ⟨library.catalog, t, depth, silent⟩
  have hnative : library.native t.method = executeAgenda :=
    native_of_name (i := 20) (by decide) ht.name_eq
  have hin : call.inputId 0 = .done v := by simp [call, Call.inputId, ht.input_eq]
  rw [hnative]
  exact perform_executeAgenda below silent hin hq

theorem native_executesExclusive (hx : ExecutesExclusive x v names) :
    library.native x.method ⟨library.catalog, x, depth, silent⟩ =
      .read v fun y => (Action.contents y.asPipeline).andThen fun p =>
        (keptVariables library.catalog names).andThen fun keep =>
          .execute p (.isolated keep) := by
  let call : Call := ⟨library.catalog, x, depth, silent⟩
  have hnative : library.native x.method = executeAgendaExclusive :=
    native_of_name (i := 21) (by decide) hx.name_eq
  have hin : call.inputId 0 = .done v := by simp [call, Call.inputId, hx.input_eq]
  have hkeyword : call.keyword 0 = .done (.stringArray names) := by
    simp [call, Call.keyword, hx.keyword_eq]
  have hcall : executeAgendaExclusive call =
      .read v fun y => (Action.contents y.asPipeline).andThen fun p =>
        (keptVariables library.catalog names).andThen fun keep =>
          .execute p (.isolated keep) := by
    simp [executeAgendaExclusive, Call.pipelineInput, Call.input, hin, hkeyword, Action.get,
      Action.andThen, Value.asStringArray, Action.contents, call]
  rw [hnative, hcall]

theorem perform_executesExclusive (hx : ExecutesExclusive x v names)
    (hq : s.workspace.value v = .pipeline q) {keep : List VariableId}
    (hkeep : names.mapM library.catalog.findVariable? = some keep) :
    let r := (Mode.isolated keep).apply below silent q s
    (library.native x.method ⟨library.catalog, x, depth, silent⟩).perform below silent s =
      (r.1.mapError .nested, r.2) := by
  rw [native_executesExclusive depth silent hx, Action.perform, hq, keptVariables_known hkeep]
  exact perform_execute below silent q (.isolated keep) s

/-- An unknown name is found out before anything is run. -/
theorem perform_unknownKeep (hx : ExecutesExclusive x v names)
    (hq : s.workspace.value v = .pipeline q) {name : String}
    (hname : names.find? (fun name => (library.catalog.findVariable? name).isNone) = some name) :
    (library.native x.method ⟨library.catalog, x, depth, silent⟩).perform below silent s =
      (.error (.ofFault (.argument (.unknownKeep name))), s) := by
  rw [native_executesExclusive depth silent hx, Action.perform, hq, keptVariables_unknown hname]
  rfl

end

/-- **An exclusive execution is an isolated, atomic one.** Take a task that executes an agenda and
one that executes the same agenda exclusively, at any level, silent or not, on any workspace. If the
names in the list are known, in any order and also if some are repeated, the second one fails if and
only if the first one does, and with the same error, and then leaves the workspace as it was. After
a success the kept variables that the first one has set have its values and marks, and all others
are as they were. If a name is unknown, the first such name is refused; nothing has been run then,
and nothing has changed. -/
theorem exclusive_isolates {t x : Task} {u v : VariableId} {names : List String}
    (ht : ExecutesAgenda t u) (hx : ExecutesExclusive x v names) {s : State} {q : Pipeline}
    (hu : s.workspace.value u = .pipeline q) (hv : s.workspace.value v = .pipeline q)
    (depth : Nat) (silent : Bool) :
    (∀ keep, names.mapM library.catalog.findVariable? = some keep → ∀ maxDepth,
      let below := execute library maxDepth (maxDepth - depth)
      let call (t : Task) := library.native t.method ⟨library.catalog, t, depth, silent⟩
      let shared := (call t).perform below silent s
      let isolated := (call x).perform below silent s
      Isolates keep s.workspace (effect shared) (effect isolated) ∧
      isolated.2.log = shared.2.log ∧
      ∀ m n, t.missingInput? library.catalog s.workspace.isOccupied m = none →
        x.missingInput? library.catalog s.workspace.isOccupied n = none →
        t.allOutputs library.catalog = [] → x.allOutputs library.catalog = [] →
        Isolates keep s.workspace (effect (runTask library below depth silent m t s))
          (effect (runTask library below depth silent n x s))) ∧
    ∀ name, names.find? (fun name => (library.catalog.findVariable? name).isNone) = some name →
      ∀ below,
        (library.native x.method ⟨library.catalog, x, depth, silent⟩).perform below silent s =
          (.error (.ofFault (.argument (.unknownKeep name))), s) ∧
        ∀ n, x.missingInput? library.catalog s.workspace.isOccupied n = none →
          let method := (library.catalog.methodAt x.method).name
          runTask library below depth silent n x s =
            (.error (.methodFailed method n [] (.argument (.unknownKeep name))),
              s.report (.announced method depth silent)) := by
  refine ⟨fun keep hkeep maxDepth => ?_, fun name hname below => ⟨?_, fun n hinputs => ?_⟩⟩
  · intro below call shared isolated
    have hsize (s' : State) : (below silent q s').2.workspace.size = s'.workspace.size :=
      (follow_tracks library maxDepth (maxDepth - depth) silent q s').own.grows.size_eq
    have hshared := perform_executesAgenda below depth silent ht hu
    have hisolated := perform_executesExclusive below depth silent hx hv hkeep
    refine ⟨?_, ?_, fun m n hm hn ht' hx' => ?_⟩
    · rw [show shared = _ from hshared, show isolated = _ from hisolated]
      exact (isolates_apply (hsize s) keep).mapError Failure.nested
    · rw [show shared = _ from hshared, show isolated = _ from hisolated]
      exact log_isolated below silent q s keep
    · let announced (t : Task) :=
        s.report (.announced (library.catalog.methodAt t.method).name depth silent)
      -- the announcements differ, but the effect of the agenda does not depend on them
      have heffect :
          effect (below silent q (announced t)) = effect (below silent q (announced x)) :=
        matches_execute library maxDepth (maxDepth - depth) silent q _ _ rfl
      rw [runTask_of_nested_of_nil hm ht'
          (perform_executesAgenda (s := announced t) below depth silent ht hu),
        runTask_of_nested_of_nil hn hx'
          (perform_executesExclusive (s := announced x) below depth silent hx hv hkeep), heffect]
      exact isolates_apply (hsize (announced x)) keep
  · exact perform_unknownKeep below depth silent hx hv hname
  · have hperform := perform_unknownKeep (s := s.report (.announced
      (library.catalog.methodAt x.method).name depth silent)) below depth silent hx hv hname
    rw [runTask_of_called hinputs, hperform]
    rfl

/-- Executes the agenda `agenda_1`. -/
def executesShared : Task :=
  ⟨⟨20⟩, [], [], [⟨10⟩], none⟩

/-- Executes the agenda `agenda_1` and keeps the given variables. -/
def executesKeeping (names : List String) : Task :=
  ⟨⟨21⟩, [.stringArray names], [], [⟨10⟩], none⟩

theorem executesAgenda_executesShared : ExecutesAgenda executesShared ⟨10⟩ where
  name_eq := by decide +kernel
  input_eq := by
    have hinputs : (library.catalog.methodAt ⟨20⟩).fixedInputs = [] := by decide +kernel
    rw [Task.allInputs, executesShared, hinputs]
    rfl

theorem executesExclusive_executesKeeping (names : List String) :
    ExecutesExclusive (executesKeeping names) ⟨10⟩ names where
  name_eq := by
    have hname : (library.catalog.methodAt ⟨21⟩).name = "AgendaExecuteExclusive" := by
      decide +kernel
    exact hname
  input_eq := by
    have hinputs : (library.catalog.methodAt ⟨21⟩).fixedInputs = [] := by decide +kernel
    rw [Task.allInputs, executesKeeping, hinputs]
    rfl
  keyword_eq := rfl

/-- The agenda that replaces itself, with the replacement kept, and with an unknown name. -/
theorem executesKeeping_isolates :
    let x := executesKeeping ["numeric_1", "agenda_1", "numeric_1"]
    let y := executesKeeping ["agenda_1", "agenda_9"]
    let below := execute library 64 64
    withStored.value ⟨10⟩ = .pipeline storedTask ∧
    ["numeric_1", "agenda_1", "numeric_1"].mapM library.catalog.findVariable? =
      some [⟨2⟩, ⟨10⟩, ⟨2⟩] ∧
    Isolates [⟨2⟩, ⟨10⟩, ⟨2⟩] withStored
      (effect (runTask library below 0 false 0 executesShared ⟨withStored, #[]⟩))
      (effect (runTask library below 0 false 0 x ⟨withStored, #[]⟩)) ∧
    runTask library below 0 false 0 y ⟨withStored, #[]⟩ =
      (.error (.methodFailed "AgendaExecuteExclusive" 0 [] (.argument (.unknownKeep "agenda_9"))),
        ⟨withStored, #[.announced "AgendaExecuteExclusive" 0 false]⟩) := by
  intro x y below
  have hlt : (10 : Nat) < (Workspace.fresh library.catalog).size := by decide +kernel
  have hstored : withStored.value ⟨10⟩ = .pipeline storedTask :=
    Workspace.value_write_self hlt (.pipeline storedTask)
  have hkeep : ["numeric_1", "agenda_1", "numeric_1"].mapM library.catalog.findVariable? =
      some [⟨2⟩, ⟨10⟩, ⟨2⟩] := by decide +kernel
  have hname : ["agenda_1", "agenda_9"].find?
      (fun name => (library.catalog.findVariable? name).isNone) = some "agenda_9" := by
    decide +kernel
  have hboth (names : List String) := exclusive_isolates (s := ⟨withStored, #[]⟩)
    executesAgenda_executesShared (executesExclusive_executesKeeping names) hstored hstored 0 false
  obtain ⟨-, -, htask⟩ := (hboth _).1 _ hkeep 64
  refine ⟨hstored, hkeep, ?_, ?_⟩
  · exact htask 0 0 (by decide +kernel) (by decide +kernel) (by decide +kernel) (by decide +kernel)
  · have hrun := ((hboth _).2 _ hname below).2 0 (by decide +kernel)
    rw [(executesExclusive_executesKeeping _).name_eq] at hrun
    exact hrun

end Standard
end Runbook
