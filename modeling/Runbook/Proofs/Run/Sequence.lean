import Runbook.Proofs.Grammar.Files
import Runbook.Proofs.Run.DepthLimit
import Runbook.Proofs.Run.Numbering

/-!
# Running in sequence

A pipeline that was put together from parts does what the parts do one after the other, each on the
workspace that the one before has left, up to the first that fails. Only the numbers tell them
apart: in an error that is raised for a task of a later part, the tasks before it are counted too.

* `Library.runEach`: several pipelines, one after the other.
* `effect_runAt_flatMap`: a pipeline that was put together; `effect_runAt_append`: of two parts.
* `effect_appends`, `effect_executes`: an agenda that was extended, and one that is executed.
* `runs_in_sequence`: all of it, and the pipeline of several files.
-/

namespace Runbook

/-! ## Parts -/

namespace Library

variable (lib : Library) (maxDepth depth : Nat) (silent : Bool)

/-- The run fails, and the error is raised for a task of `p` itself. -/
def raises (p : Pipeline) (w : Workspace) : Bool :=
  raisesTasks lib (execute lib maxDepth (maxDepth - depth)) depth silent p.tasks ⟨w, #[]⟩

/-- The effect of `p` as a part of a pipeline, after `n` other tasks. -/
def runPart (n : Nat) (p : Pipeline) (w : Workspace) : Except RunError Unit × Workspace :=
  let r := lib.runAt maxDepth depth silent p w
  (renumberIf (lib.raises maxDepth depth silent p w) (n + ·) r.1, r.2.workspace)

/-- The effect of pipelines that run one after the other, after `n` other tasks, each on the
workspace that the one before has left. The first failure ends it. -/
def runEach : Nat → List Pipeline → Workspace → Except RunError Unit × Workspace
  | _, [], w => (.ok (), w)
  | n, p :: ps, w =>
    match lib.runPart maxDepth depth silent n p w with
    | (.ok (), after) => runEach (n + p.tasks.length) ps after
    | (.error e, after) => (.error e, after)

end Library

section

variable (lib : Library) {maxDepth depth : Nat} (silent : Bool)

/-- Beyond the limit a pipeline is not entered. -/
theorem runAt_of_lt (hdepth : maxDepth < depth) (p : Pipeline) (w : Workspace) :
    lib.runAt maxDepth depth silent p w = (.error (.depthExceeded p.name maxDepth), ⟨w, #[]⟩) := by
  rw [Library.runAt, Nat.sub_eq_zero_of_le hdepth]
  rfl

/-- Within it the effect of a pipeline is that of its tasks. -/
theorem effect_runAt (hdepth : depth ≤ maxDepth) (p : Pipeline) (s : State) :
    effect (lib.runAt maxDepth depth silent p s.workspace) =
      effect (runTasks lib (execute lib maxDepth (maxDepth - depth)) depth silent 0 p.tasks s) := by
  rw [Library.runAt, Nat.sub_add_comm hdepth, effect_execute_succ, Nat.sub_sub_self hdepth]
  exact (matches_execute lib maxDepth _).runTasks silent lib depth 0 p.tasks rfl

theorem runPart_zero (p : Pipeline) (w : Workspace) :
    lib.runPart maxDepth depth silent 0 p w = effect (lib.runAt maxDepth depth silent p w) := by
  have hid : (fun i : Nat => 0 + i) = id := funext Nat.zero_add
  rw [Library.runPart, hid, renumberIf_id]
  rfl

/-- The tasks of a part have the effect of the part. -/
theorem effect_runTasks (hdepth : depth ≤ maxDepth) (n : Nat) (p : Pipeline) (s : State) :
    effect (runTasks lib (execute lib maxDepth (maxDepth - depth)) depth silent n p.tasks s) =
      lib.runPart maxDepth depth silent n p s.workspace := by
  have hmatches := matches_execute lib maxDepth (maxDepth - depth)
  have hrun := effect_runAt lib silent hdepth p s
  have hraises : lib.raises maxDepth depth silent p s.workspace =
      raisesTasks lib (execute lib maxDepth (maxDepth - depth)) depth silent p.tasks s :=
    raisesTasks_congr hmatches lib depth silent p.tasks rfl
  obtain ⟨hresult, hworkspace⟩ := Prod.mk.inj hrun
  rw [runTasks_number, Library.runPart, hraises, hresult, hworkspace]
  rfl

/-- Tasks that are put together from parts have the effect of the parts in turn. -/
theorem effect_runTasks_flatMap (hdepth : depth ≤ maxDepth) (n : Nat) (parts : List Pipeline)
    (s : State) :
    effect (runTasks lib (execute lib maxDepth (maxDepth - depth)) depth silent n
        (parts.flatMap Pipeline.tasks) s) =
      lib.runEach maxDepth depth silent n parts s.workspace := by
  induction parts generalizing n s with
  | nil => rfl
  | cons p parts ih =>
    have hpart := effect_runTasks lib silent hdepth n p s
    rw [List.flatMap_cons, runTasks_append, Library.runEach, ← hpart]
    rcases runTasks lib (execute lib maxDepth (maxDepth - depth)) depth silent n p.tasks s
      with ⟨e | _, after⟩
    · rfl
    · exact ih (n + p.tasks.length) after

/-- **A pipeline that is put together has the effect of its parts in turn.** -/
theorem effect_runAt_flatMap (hdepth : depth ≤ maxDepth) (name : String) (parts : List Pipeline)
    (w : Workspace) :
    effect (lib.runAt maxDepth depth silent ⟨name, parts.flatMap Pipeline.tasks⟩ w) =
      lib.runEach maxDepth depth silent 0 parts w :=
  (effect_runAt lib silent hdepth ⟨name, parts.flatMap Pipeline.tasks⟩ ⟨w, #[]⟩).trans
    (effect_runTasks_flatMap lib silent hdepth 0 parts ⟨w, #[]⟩)

/-- The name of a pipeline matters only if it is not entered. -/
theorem effect_runAt_rename (hdepth : depth ≤ maxDepth) (p : Pipeline) (name : String)
    (w : Workspace) :
    effect (lib.runAt maxDepth depth silent (p.rename name) w) =
      effect (lib.runAt maxDepth depth silent p w) :=
  (effect_runAt lib silent hdepth (p.rename name) ⟨w, #[]⟩).trans
    (effect_runAt lib silent hdepth p ⟨w, #[]⟩).symm

/-- Of two parts, the second one is not run if the first one fails. -/
theorem runEach_pair (p q : Pipeline) (w : Workspace) :
    lib.runEach maxDepth depth silent 0 [p, q] w =
      match lib.runAt maxDepth depth silent p w with
      | (.error e, after) => (.error e, after.workspace)
      | (.ok (), after) =>
        lib.runPart maxDepth depth silent p.tasks.length q after.workspace := by
  rw [Library.runEach, runPart_zero]
  rcases lib.runAt maxDepth depth silent p w with ⟨e | _, after⟩
  · rfl
  · dsimp only [effect]
    rw [Nat.zero_add, Library.runEach]
    rcases lib.runPart maxDepth depth silent p.tasks.length q after.workspace with ⟨e | _, w'⟩
    · rfl
    · rfl

/-- **Two parts in turn**, at any nesting level. -/
theorem effect_runAt_append (p q : Pipeline) (w : Workspace) :
    effect (lib.runAt maxDepth depth silent (p.append q) w) =
      lib.runEach maxDepth depth silent 0 [p, q] w := by
  -- beyond the limit there is no task to be run, and the refusal names the first part
  by_cases hdepth : depth ≤ maxDepth
  · have hparts : p.append q = ⟨p.name, [p, q].flatMap Pipeline.tasks⟩ := by
      simp [Pipeline.append]
    rw [hparts, effect_runAt_flatMap lib silent hdepth]
  · have hlt := Nat.lt_of_not_le hdepth
    rw [runEach_pair, runAt_of_lt lib silent hlt, runAt_of_lt lib silent hlt]
    rfl

end

/-! ## Agendas -/

/-- The task puts its body at the end of the agenda in `source` and stores the result in
`target`. -/
structure Task.Appends (lib : Library) (t : Task) (source target : VariableId) : Prop where
  native_eq : lib.native t.method = Standard.appendAgenda
  inputs_eq : t.allInputs lib.catalog = [source]
  outputs_eq : t.allOutputs lib.catalog = [target]
  group_eq : (lib.catalog.variableAt target).group = .pipeline

/-- The task executes the agenda in `v`. -/
structure Task.Executes (lib : Library) (t : Task) (v : VariableId) : Prop where
  native_eq : lib.native t.method = Standard.executeAgenda
  inputs_eq : t.allInputs lib.catalog = [v]
  outputs_eq : t.allOutputs lib.catalog = []

/-- The pipeline in the body of a task. -/
def Task.body (t : Task) : Pipeline :=
  t.embedded.getD default

theorem bodyTasks_eq (c : Call) : Standard.bodyTasks c = c.task.body.tasks := by
  unfold Standard.bodyTasks Task.body
  cases c.task.embedded with
  | none => rfl
  | some p => rfl

/-- What has just been written is marked. -/
theorem Workspace.mark_write (w : Workspace) (v : VariableId) (x : Value) :
    (w.write v x).mark v = w.write v x := by
  simp [mark, write, List.modify_modify_eq, Function.comp_def]

section

variable {lib : Library} {t : Task}

theorem missingInput?_of_occupied {v : VariableId} (hinputs : t.allInputs lib.catalog = [v])
    {w : Workspace} (hset : w.isOccupied v = true) (i : Nat) :
    t.missingInput? lib.catalog w.isOccupied i = none := by
  refine Task.missingInput?_eq_none_iff.mpr fun u hu => ?_
  rw [hinputs, List.mem_singleton] at hu
  rw [hu, hset]

variable {source target : VariableId} (below : Runner) (depth : Nat) (silent : Bool) (i : Nat)

/-- What a task stores that extends an agenda, be it in the variable that it was read from. -/
theorem effect_appends (ht : t.Appends lib source target) {s : State} {agenda : Pipeline}
    (hset : s.workspace.isOccupied source = true)
    (hagenda : s.workspace.value source = .pipeline agenda) :
    effect (runTask lib below depth silent i t s) =
      (.ok (), s.workspace.write target
        (.pipeline ((agenda.append t.body).rename (lib.catalog.variableAt target).name))) := by
  let call : Call := ⟨lib.catalog, t, depth, silent⟩
  let announced := s.report (.announced (lib.catalog.methodAt t.method).name depth silent)
  let made := Value.pipeline ((agenda.append t.body).rename (lib.catalog.variableAt target).name)
  have hin : call.inputId 0 = .done source := by simp [call, Call.inputId, ht.inputs_eq]
  have hout : call.outputId 0 = .done target := by simp [call, Call.outputId, ht.outputs_eq]
  have hgroup : ∀ p, (Value.pipeline p).group = (call.catalog.variableAt target).group :=
    fun _ => ht.group_eq.symm
  have hvalue : announced.workspace.value source = .pipeline agenda := hagenda
  have hperform : (Standard.appendAgenda call).perform below silent announced =
      (.ok (), announced.update (·.write target made)) := by
    simp [Standard.appendAgenda, Call.pipelineInput, Call.input, hin, Action.get, Action.andThen,
      Action.perform, hvalue, Value.asPipeline, Action.contents, Standard.storeAgenda, hout,
      Call.output, hgroup, Action.set, bodyTasks_eq, Pipeline.append, Pipeline.rename,
      call, made]
  rw [runTask_of_called (missingInput?_of_occupied ht.inputs_eq hset i), ht.native_eq, hperform,
    ht.outputs_eq]
  exact congrArg (fun w => (Except.ok (), w)) (s.workspace.mark_write target made)

/-- Executing an agenda, which is run and nothing else. -/
theorem Standard.perform_executeAgenda {call : Call} (hin : call.inputId 0 = .done target)
    {s : State} {agenda : Pipeline} (hagenda : s.workspace.value target = .pipeline agenda) :
    (Standard.executeAgenda call).perform below silent s =
      ((below silent agenda s).1.mapError .nested, (below silent agenda s).2) := by
  have hcall : Standard.executeAgenda call = .read target fun y =>
      (Action.contents y.asPipeline).andThen fun p => .execute p .shared := by
    simp [Standard.executeAgenda, Call.pipelineInput, Call.input, hin, Action.get, Action.andThen]
  rw [hcall, Action.perform, hagenda]
  exact perform_execute below silent agenda .shared s

/-- What a task does that executes an agenda: what the agenda does, one level deeper. -/
theorem effect_executes (ht : t.Executes lib target) {s : State} {agenda : Pipeline}
    (hset : s.workspace.isOccupied target = true)
    (hagenda : s.workspace.value target = .pipeline agenda) {maxDepth : Nat} :
    effect (runTask lib (execute lib maxDepth (maxDepth - depth)) depth silent i t s) =
      effect (lib.runAt maxDepth (depth + 1) silent agenda s.workspace) := by
  let below := execute lib maxDepth (maxDepth - depth)
  let call : Call := ⟨lib.catalog, t, depth, silent⟩
  let announced := s.report (.announced (lib.catalog.methodAt t.method).name depth silent)
  have hin : call.inputId 0 = .done target := by simp [call, Call.inputId, ht.inputs_eq]
  have hperform : (lib.native t.method call).perform below silent announced =
      ((below silent agenda announced).1.mapError .nested, (below silent agenda announced).2) := by
    rw [ht.native_eq]
    exact Standard.perform_executeAgenda below silent hin hagenda
  rw [runTask_of_nested_of_nil (missingInput?_of_occupied ht.inputs_eq hset i) ht.outputs_eq
    hperform, Library.runAt, Nat.add_sub_add_right]
  exact matches_execute lib maxDepth (maxDepth - depth) silent agenda announced ⟨s.workspace, #[]⟩
    rfl

end

/-! ## Every run -/

/-- **A pipeline that was put together runs in sequence**, in every library, from every workspace,
at every nesting level and silent or not. With the tasks of `q` after those of `p` it fails as `p`
does, or else does what `q` does on the workspace that `p` has left; only an error that is raised
for a task of `q` itself counts the tasks of `p` too. An agenda that a task has extended, be it in
the variable that it was read from, has under its new name the effect of the old agenda and then of
the task's body; a name shows only where a pipeline is not entered. And the pipeline of several
files has the effect of the files one after the other. -/
theorem runs_in_sequence (lib : Library) (maxDepth : Nat) :
    (∀ depth silent p q w,
      effect (lib.runAt maxDepth depth silent (p.append q) w) =
        match lib.runAt maxDepth depth silent p w with
        | (.error e, after) => (.error e, after.workspace)
        | (.ok (), after) =>
          lib.runPart maxDepth depth silent p.tasks.length q after.workspace) ∧
    (∀ t source target, Task.Appends lib t source target →
      ∀ (s : State) agenda, s.workspace.isOccupied source = true →
        s.workspace.value source = .pipeline agenda →
      let name := (lib.catalog.variableAt target).name
      let made := Value.pipeline ((agenda.append t.body).rename name)
      (∀ below depth silent i,
        effect (runTask lib below depth silent i t s) = (.ok (), s.workspace.write target made)) ∧
      ∀ x, Task.Executes lib x target →
        ∀ s' : State, s'.workspace.isOccupied target = true → s'.workspace.value target = made →
        ∀ depth silent i,
          effect (runTask lib (execute lib maxDepth (maxDepth - depth)) depth silent i x s') =
            lib.runEach maxDepth (depth + 1) silent 0 [agenda.rename name, t.body] s'.workspace) ∧
    (∀ depth silent p name w, depth ≤ maxDepth →
      effect (lib.runAt maxDepth depth silent (p.rename name) w) =
        effect (lib.runAt maxDepth depth silent p w)) ∧
    ∀ files main silent w, ControlFile.bindFiles lib.catalog files = .ok main →
      ∃ parts, ControlFile.BindsEach lib.catalog files parts ∧
        effect (lib.run maxDepth silent main w) = lib.runEach maxDepth 0 silent 0 parts w := by
  refine ⟨fun depth silent p q w => ?_, fun t source target ht s agenda hset hagenda => ⟨?_, ?_⟩,
    fun depth silent p name w hdepth => effect_runAt_rename lib silent hdepth p name w,
    fun files main silent w hbind => ?_⟩
  · exact (effect_runAt_append lib silent p q w).trans (runEach_pair lib silent p q w)
  · exact fun below depth silent i => effect_appends below depth silent i ht hset hagenda
  · intro x hx s' hset' hmade depth silent i
    rw [effect_executes depth silent i hx hset' hmade]
    exact effect_runAt_append lib silent (agenda.rename _) t.body s'.workspace
  · obtain ⟨parts, hparts, rfl⟩ := ControlFile.bindFiles_eq_ok_iff.mp hbind
    exact ⟨parts, hparts, effect_runAt_flatMap lib silent (Nat.zero_le maxDepth) _ parts w⟩

namespace Standard

/-- Extends the scratch agenda by tasks that store another one in its place. -/
def extendsStored : Task :=
  ⟨⟨19⟩, [], [⟨10⟩], [⟨10⟩], some storedTask⟩

theorem methodAt_appendAgenda : library.catalog.methodAt ⟨19⟩ =
    ⟨"AgendaAppend", "Appends the enclosed methods to an agenda.", [], [], [.pipeline],
      [.pipeline], [], true⟩ := by decide +kernel

theorem appends_extendsStored : extendsStored.Appends library ⟨10⟩ ⟨10⟩ where
  native_eq := by
    rw [Library.native, natives_eq]
    rfl
  inputs_eq := by
    rw [Task.allInputs, extendsStored, methodAt_appendAgenda]
    rfl
  outputs_eq := by
    rw [Task.allOutputs, extendsStored, methodAt_appendAgenda]
    rfl
  group_eq := by decide +kernel

theorem executes_stored : Task.Executes library ⟨⟨20⟩, [], [], [⟨10⟩], none⟩ ⟨10⟩ where
  native_eq := by
    rw [Library.native, natives_eq]
    rfl
  inputs_eq := by
    rw [Task.allInputs, methodAt_executeAgenda]
    rfl
  outputs_eq := by
    rw [Task.allOutputs, methodAt_executeAgenda]
    rfl

/-- Two control files. -/
def twoFiles : List (String × ControlFile.Contents) :=
  [("set.run", .ok "NumericSet(numeric_1) \x7b value = 0.5 \x7d"),
   ("touch.run", .ok "Touch(numeric_1) \x7b\x7d # nothing more")]

/-- The agenda is extended in its own variable and executed afterwards. -/
theorem extendsStored_in_sequence :
    let made : Pipeline := (storedTask.append storedTask).rename "agenda_1"
    let after := withStored.write ⟨10⟩ (.pipeline made)
    (extendsStored.Appends library ⟨10⟩ ⟨10⟩ ∧ withStored.isOccupied ⟨10⟩ = true ∧
      withStored.value ⟨10⟩ = .pipeline storedTask ∧
      effect (runTask library (execute library 64 64) 0 false 0 extendsStored ⟨withStored, #[]⟩) =
        (.ok (), after)) ∧
    (Task.Executes library ⟨⟨20⟩, [], [], [⟨10⟩], none⟩ ⟨10⟩ ∧ after.isOccupied ⟨10⟩ = true ∧
      after.value ⟨10⟩ = .pipeline made ∧
      effect (runTask library (execute library 64 64) 0 false 1 ⟨⟨20⟩, [], [], [⟨10⟩], none⟩
          ⟨after, #[]⟩) =
        library.runEach 64 1 false 0 [storedTask.rename "agenda_1", storedTask] after) ∧
    (1 ≤ 64 ∧ effect (library.runAt 64 1 true (storedTask.rename "other") withStored) =
      effect (library.runAt 64 1 true storedTask withStored)) ∧
    ∃ main parts, ControlFile.bindFiles library.catalog twoFiles = .ok main ∧
      ControlFile.BindsEach library.catalog twoFiles parts ∧
        effect (library.run 64 false main withStored) =
          library.runEach 64 0 false 0 parts withStored := by
  intro made after
  have hname : (library.catalog.variableAt ⟨10⟩).name = "agenda_1" := by decide +kernel
  have hset : withStored.isOccupied ⟨10⟩ = true := by decide +kernel
  have hlt : (⟨10⟩ : VariableId).index < (Workspace.fresh library.catalog).size := by
    decide +kernel
  have hstored : withStored.value ⟨10⟩ = .pipeline storedTask :=
    Workspace.value_write_self hlt (.pipeline storedTask)
  have hset' : after.isOccupied ⟨10⟩ = true := (withStored.grows_write ⟨10⟩ _).marks _ hset
  have hmade : after.value ⟨10⟩ = .pipeline made :=
    Workspace.value_write_self (Workspace.lt_size_of_isOccupied hset) (.pipeline made)
  have hbinds : (ControlFile.bindFiles library.catalog twoFiles).toOption.isSome = true := by
    decide +kernel
  obtain ⟨-, hagenda, hrename, hfiles⟩ := runs_in_sequence library 64
  have hextends := hagenda extendsStored ⟨10⟩ ⟨10⟩ appends_extendsStored ⟨withStored, #[]⟩
    storedTask hset hstored
  rw [hname] at hextends
  refine ⟨⟨appends_extendsStored, hset, hstored, hextends.1 _ 0 false 0⟩,
    ⟨executes_stored, hset', hmade,
      hextends.2 _ executes_stored ⟨after, #[]⟩ hset' hmade 0 false 1⟩,
    ⟨by decide, hrename 1 true storedTask "other" withStored (by decide)⟩, ?_⟩
  cases hmain : ControlFile.bindFiles library.catalog twoFiles with
  | error e =>
    rw [hmain] at hbinds
    cases hbinds
  | ok main =>
    obtain ⟨parts, hparts, hrun⟩ := hfiles twoFiles main false withStored hmain
    exact ⟨main, parts, rfl, hparts, hrun⟩

end Standard
end Runbook
