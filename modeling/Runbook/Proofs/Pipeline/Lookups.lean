import Runbook.Pipeline.Text
import Runbook.Proofs.Pipeline.Occurrence
import Runbook.Proofs.Run.Definedness
import Runbook.Proofs.Typing.WellTyped

/-!
# Lookups

The library answers a question about an unknown variable, method or slot with a default. The
functions here give up instead, at the first lookup that is out of range, and are otherwise the same
as those they are named after. Where all tasks of a pipeline are known they never give up, so no
default is ever used: querying, checking, writing and running such a pipeline is all in range.

* `Strict.reads`, `Strict.writes`, `Strict.check`, `Strict.lines`, `Strict.execute`: with lookups
  that give up.
* `Task.Known`: what they need to know of a task.
* `Pipeline.InRange`: none of them gives up. `inRange_of_known`: so it is where all tasks are known.
-/

namespace Runbook

namespace Strict

/-! ## Lookups that give up -/

/-- The variables that the task reads, if its method is known. -/
def inputs (c : Catalog) (t : Task) : Option (List VariableId) :=
  (c.methodAt? t.method).map fun m => m.fixedInputs ++ t.inputs

/-- The variables that the task writes, if its method is known. -/
def outputs (c : Catalog) (t : Task) : Option (List VariableId) :=
  (c.methodAt? t.method).map fun m => m.fixedOutputs ++ t.outputs

/-- The names of variables, if all are known. -/
def names (c : Catalog) (vs : List VariableId) : Option (List String) :=
  vs.mapM fun v => (c.variableAt? v).map Variable.name

/-- Whether `v` has been set, if it has a slot. -/
def isOccupied (w : Workspace) (v : VariableId) : Option Bool :=
  w.slots[v.index]?.map Slot.occupied

/-- Marks each of the variables, if all have slots. -/
def markAll (w : Workspace) : List VariableId → Option Workspace
  | [] => some w
  | v :: vs => if v.index < w.size then markAll (w.mark v) vs else none

/-- The first of the variables that is not set, if those up to it have slots. -/
def firstUnset (w : Workspace) : List VariableId → Option (Option VariableId)
  | [] => some none
  | v :: vs => do if ← isOccupied w v then firstUnset w vs else return some v

/-- The first input of `t` that is not set. -/
def missingInput (c : Catalog) (w : Workspace) (i : Nat) (t : Task) :
    Option (Option MissingInput) := do
  match ← firstUnset w (← inputs c t) with
  | none => return none
  | some v => return some ⟨(← c.methodAt? t.method).name, (← c.variableAt? v).name, i⟩

/-! ## Queries -/

mutual

/-- Whether the task, or one in its body, has a slot with `v` on the side that `slots` gives. -/
def taskTouches (slots : MethodId → List VariableId → List VariableId → Option (List VariableId))
    (v : VariableId) : Task → Option Bool
  | ⟨m, _, os, is, none⟩ => do return (← slots m os is).contains v
  | ⟨m, _, os, is, some p⟩ => do return (← slots m os is).contains v || (← touches slots v p)

/-- Whether one of the tasks has such a slot. -/
def anyTouches (slots : MethodId → List VariableId → List VariableId → Option (List VariableId))
    (v : VariableId) : List Task → Option Bool
  | [] => some false
  | t :: ts => do return (← taskTouches slots v t) || (← anyTouches slots v ts)

/-- Whether a task at any nesting level has such a slot. -/
def touches (slots : MethodId → List VariableId → List VariableId → Option (List VariableId))
    (v : VariableId) : Pipeline → Option Bool
  | ⟨_, ts⟩ => anyTouches slots v ts

end

/-- Whether a task at any nesting level reads `v`. -/
def reads (c : Catalog) (p : Pipeline) (v : VariableId) : Option Bool :=
  touches (fun m _ inputs => (c.methodAt? m).map (·.fixedInputs ++ inputs)) v p

/-- Whether a task at any nesting level writes `v`. -/
def writes (c : Catalog) (p : Pipeline) (v : VariableId) : Option Bool :=
  touches (fun m outputs _ => (c.methodAt? m).map (·.fixedOutputs ++ outputs)) v p

/-! ## The static check -/

/-- The first unset input of `ts`, counted from `i`, with the marks that `w` has before. -/
def checkTasks (c : Catalog) (w : Workspace) (i : Nat) :
    List Task → Option (Except MissingInput Unit)
  | [] => some (.ok ())
  | t :: ts => do
    match ← missingInput c w i t with
    | some e => return .error e
    | none => checkTasks c (← markAll w (← outputs c t)) (i + 1) ts

/-- The check on one mark for each variable. -/
def check (c : Catalog) (p : Pipeline) (set : List VariableId) :
    Option (Except MissingInput Unit) := do
  checkTasks c (← markAll (.fresh c) set) 0 p.tasks

/-! ## Writing -/

/-- Method name and generic variables. -/
def heading (c : Catalog) (m : MethodId) (generics : List VariableId) : Option String := do
  let method ← c.methodAt? m
  let arguments ← names c generics
  return method.name ++ if generics.isEmpty then "" else "(" ++ ", ".intercalate arguments ++ ")"

/-- One line per keyword, if each has its value. -/
def keywordLines (c : Catalog) (m : MethodId) (depth : Nat) (values : List Value) :
    Option (List String) := do
  let method ← c.methodAt? m
  if method.keywords.length = values.length then
    return List.zipWith (fun k v => s!"{indent (depth + 1)}{k.name} = {v.text}")
      method.keywords values
  else none

mutual

/-- The lines of a task at nesting level `depth`. -/
def taskLines (c : Catalog) (depth : Nat) : Task → Option (List String)
  | ⟨m, ks, os, is, none⟩ => do
    let head := indent depth ++ (← heading c m (os ++ is))
    let keywords ← keywordLines c m depth ks
    return if ks.isEmpty then [head ++ " \x7b\x7d"]
      else (head ++ " \x7b") :: (keywords ++ [indent depth ++ "\x7d"])
  | ⟨m, ks, os, is, some p⟩ => do
    let head := indent depth ++ (← heading c m (os ++ is))
    let keywords ← keywordLines c m depth ks
    let body ← lines c (depth + 1) p
    return if ks.isEmpty && body.isEmpty then [head ++ " \x7b\x7d"]
      else (head ++ " \x7b") :: (keywords ++ body ++ [indent depth ++ "\x7d"])

/-- The lines of several tasks. -/
def allLines (c : Catalog) (depth : Nat) : List Task → Option (List String)
  | [] => some []
  | t :: ts => do return (← taskLines c depth t) ++ (← allLines c depth ts)

/-- The lines of a pipeline's tasks. -/
def lines (c : Catalog) (depth : Nat) : Pipeline → Option (List String)
  | ⟨_, ts⟩ => allLines c depth ts

end

/-! ## Running -/

/-- Runs task number `i` of a pipeline at nesting level `depth`. -/
def runTask (lib : Library) (below : Runner) (depth : Nat) (silent : Bool) (i : Nat) (t : Task)
    (s : State) : Option (Except RunError Unit × State) := do
  let method ← lib.catalog.methodAt? t.method
  let announced := s.report (.announced method.name depth silent)
  match ← missingInput lib.catalog announced.workspace i t with
  | some e => return (.error (.missingInput e), announced)
  | none =>
    let native ← lib.natives[t.method.index]?
    match (native ⟨lib.catalog, t, depth, silent⟩).perform below silent announced with
    | (.ok (), after) =>
      let marked ← markAll after.workspace (← outputs lib.catalog t)
      return (.ok (), { after with workspace := marked })
    | (.error f, after) => return (.error (f.report method.name i), after)

/-- Runs tasks that are counted from `i`. -/
def runTasks (lib : Library) (below : Runner) (depth : Nat) (silent : Bool) :
    Nat → List Task → State → Option (Except RunError Unit × State)
  | _, [], s => some (.ok (), s)
  | i, t :: ts, s => do
    match ← runTask lib below depth silent i t s with
    | (.ok (), after) => runTasks lib below depth silent (i + 1) ts after
    | (.error e, after) => return (.error e, after)

/-- Runs a pipeline with room for `room` nesting levels from its own on. What its methods run is
left to the library. -/
def execute (lib : Library) (limit : Nat) :
    Nat → Bool → Pipeline → State → Option (Except RunError Unit × State)
  | 0, _, p, s => some (.error (.depthExceeded p.name limit), s)
  | room + 1, silent, p, s => do
    let depth := limit - room
    let entered := s.report (.entered p.name depth p.tasks.length)
    match ← runTasks lib (Runbook.execute lib limit room) depth silent 0 p.tasks entered with
    | (.ok (), after) => return (.ok (), after.report (.exited p.name depth))
    | (.error e, after) => return (.error e, after)

end Strict

/-! ## Known tasks -/

/-- The method of the task and all its variables are known, and there are as many values as
keywords. -/
structure Task.Known (c : Catalog) (t : Task) : Prop where
  method : t.method.index < c.methods.length
  inputs : ∀ v ∈ t.allInputs c, v.index < c.vars.length
  outputs : ∀ v ∈ t.allOutputs c, v.index < c.vars.length
  keywords : (c.methodAt t.method).keywords.length = t.keywords.length

theorem Catalog.methodAt?_eq {c : Catalog} {m : MethodId} (h : m.index < c.methods.length) :
    c.methodAt? m = some (c.methodAt m) := by
  simp [methodAt, methodAt?, h]

theorem Catalog.variableAt?_eq {c : Catalog} {v : VariableId} (h : v.index < c.vars.length) :
    c.variableAt? v = some (c.variableAt v) := by
  simp [variableAt, variableAt?, h]

namespace Strict

variable {c : Catalog} {t : Task} {w : Workspace}

theorem inputs_eq (h : t.Known c) : inputs c t = some (t.allInputs c) := by
  rw [inputs, Catalog.methodAt?_eq h.method]
  rfl

theorem outputs_eq (h : t.Known c) : outputs c t = some (t.allOutputs c) := by
  rw [outputs, Catalog.methodAt?_eq h.method]
  rfl

theorem names_eq {vs : List VariableId} (h : ∀ v ∈ vs, v.index < c.vars.length) :
    names c vs = some (vs.map fun v => (c.variableAt v).name) := by
  induction vs with
  | nil => rfl
  | cons v vs ih =>
    obtain ⟨hv, hvs⟩ := List.forall_mem_cons.mp h
    rw [names] at ih ⊢
    rw [List.mapM_cons, ih hvs, Catalog.variableAt?_eq hv]
    rfl

theorem isOccupied_eq {v : VariableId} (h : v.index < w.size) :
    isOccupied w v = some (w.isOccupied v) := by
  have h' : v.index < w.slots.length := h
  simp [isOccupied, Workspace.isOccupied, h']

theorem markAll_eq {vs : List VariableId} (h : ∀ v ∈ vs, v.index < w.size) :
    markAll w vs = some (w.markAll vs) := by
  induction vs generalizing w with
  | nil => rfl
  | cons v vs ih =>
    obtain ⟨hv, hvs⟩ := List.forall_mem_cons.mp h
    rw [markAll, if_pos hv, ih (by simpa using hvs)]
    rfl

theorem firstUnset_eq {vs : List VariableId} (h : ∀ v ∈ vs, v.index < w.size) :
    firstUnset w vs = some (vs.find? fun v => !w.isOccupied v) := by
  induction vs with
  | nil => rfl
  | cons v vs ih =>
    obtain ⟨hv, hvs⟩ := List.forall_mem_cons.mp h
    rw [firstUnset, isOccupied_eq hv, ih hvs, List.find?_cons]
    cases w.isOccupied v <;> rfl

theorem missingInput_eq (h : t.Known c) (hsize : w.size = c.vars.length) (i : Nat) :
    missingInput c w i t = some (t.missingInput? c w.isOccupied i) := by
  have hinputs : ∀ v ∈ t.allInputs c, v.index < w.size := hsize ▸ h.inputs
  rw [missingInput, inputs_eq h, Task.missingInput?]
  dsimp only [Option.bind_eq_bind, Option.bind_some]
  rw [firstUnset_eq hinputs]
  cases hfind : (t.allInputs c).find? fun v => !w.isOccupied v with
  | none => rfl
  | some v =>
    have hv := h.inputs v (List.mem_of_find?_eq_some hfind)
    dsimp only [Option.bind_some]
    rw [Catalog.methodAt?_eq h.method, Catalog.variableAt?_eq hv]
    rfl

/-! ## Queries -/

section

variable {slots? : MethodId → List VariableId → List VariableId → Option (List VariableId)}
  {slots : MethodId → List VariableId → List VariableId → List VariableId} {v : VariableId}

mutual

theorem taskTouches_eq (t : Task)
    (h : slots? t.method t.outputs t.inputs = some (slots t.method t.outputs t.inputs))
    (hbody : ∀ q, t.embedded = some q → ∀ u, q.Includes u →
      slots? u.method u.outputs u.inputs = some (slots u.method u.outputs u.inputs)) :
    taskTouches slots? v t = some (Task.touches slots v t) := by
  match t with
  | ⟨m, _, os, is, none⟩ =>
    rw [taskTouches, h]
    rfl
  | ⟨m, _, os, is, some p⟩ =>
    rw [taskTouches, h, touches_eq p (hbody p rfl)]
    rfl

theorem anyTouches_eq (name : String) (ts : List Task)
    (h : ∀ u, (Pipeline.mk name ts).Includes u →
      slots? u.method u.outputs u.inputs = some (slots u.method u.outputs u.inputs)) :
    anyTouches slots? v ts = some (Task.anyTouches slots v ts) := by
  match ts with
  | [] => rfl
  | t :: ts =>
    have ht := h t (Pipeline.includes_cons.mpr (.inl rfl))
    rw [anyTouches, taskTouches_eq t ht fun q hq u hu =>
        h u (Pipeline.includes_cons.mpr (.inr (.inl ⟨q, hq, hu⟩))),
      anyTouches_eq name ts fun u hu => h u (Pipeline.includes_cons.mpr (.inr (.inr hu)))]
    rfl

/-- Where the slots of all tasks are found, so is the answer. -/
theorem touches_eq (p : Pipeline) (h : ∀ u, p.Includes u →
    slots? u.method u.outputs u.inputs = some (slots u.method u.outputs u.inputs)) :
    touches slots? v p = some (p.touches slots v) := by
  match p with
  | ⟨name, ts⟩ => rw [touches, Pipeline.touches, anyTouches_eq name ts h]

end

end

theorem reads_eq {p : Pipeline} (h : ∀ u, p.Includes u → u.Known c) (v : VariableId) :
    reads c p v = some (p.reads c v) :=
  touches_eq p fun u hu => by rw [Catalog.methodAt?_eq (h u hu).method]; rfl

theorem writes_eq {p : Pipeline} (h : ∀ u, p.Includes u → u.Known c) (v : VariableId) :
    writes c p v = some (p.writes c v) :=
  touches_eq p fun u hu => by rw [Catalog.methodAt?_eq (h u hu).method]; rfl

/-! ## The static check -/

theorem contains_markAll {vs set : List VariableId} (h : ∀ v ∈ vs, v.index < w.size)
    (hset : w.isOccupied = set.contains) :
    (w.markAll vs).isOccupied = (vs ++ set).contains := by
  funext v
  rw [Bool.eq_iff_iff, Workspace.isOccupied_markAll, hset, List.contains_iff_mem,
    List.contains_iff_mem, List.mem_append]
  constructor
  · rintro (hv | ⟨hv, -⟩)
    · exact .inr hv
    · exact .inl hv
  · rintro (hv | hv)
    · exact .inr ⟨hv, h v hv⟩
    · exact .inl hv

theorem checkTasks_eq {ts : List Task} (h : ∀ t ∈ ts, t.Known c) (hsize : w.size = c.vars.length)
    {set : List VariableId} (hset : w.isOccupied = set.contains) (i : Nat) :
    checkTasks c w i ts = some (Runbook.checkTasks c set i ts) := by
  induction ts generalizing w set i with
  | nil => rfl
  | cons t ts ih =>
    obtain ⟨ht, hts⟩ := List.forall_mem_cons.mp h
    have houtputs : ∀ v ∈ t.allOutputs c, v.index < w.size := hsize ▸ ht.outputs
    rw [checkTasks, Runbook.checkTasks, missingInput_eq ht hsize, hset]
    dsimp only [Option.bind_eq_bind, Option.bind_some]
    cases t.missingInput? c set.contains i with
    | some e => rfl
    | none =>
      dsimp only
      rw [outputs_eq ht, Option.bind_some, markAll_eq houtputs, Option.bind_some]
      refine ih hts ?_ (contains_markAll houtputs hset) (i + 1)
      rw [(w.grows_markAll _).size_eq, hsize]

theorem check_eq {p : Pipeline} (h : ∀ t ∈ p.tasks, t.Known c) {set : List VariableId}
    (hset : ∀ v ∈ set, v.index < c.vars.length) : check c p set = some (p.check c set) := by
  have hsize : (Workspace.fresh c).size = c.vars.length := Workspace.size_fresh
  have hset' : ∀ v ∈ set, v.index < (Workspace.fresh c).size := hsize ▸ hset
  have hfresh : (Workspace.fresh c).isOccupied = ([] : List VariableId).contains := by
    funext v
    cases hv : c.vars[v.index]? with
    | none => simp [Workspace.fresh, Workspace.isOccupied, hv]
    | some x => simp [Workspace.fresh, Workspace.isOccupied, hv]
  have hmarked := contains_markAll hset' hfresh
  rw [List.append_nil] at hmarked
  rw [check, markAll_eq hset', Pipeline.check]
  exact checkTasks_eq h (((Workspace.fresh c).grows_markAll set).size_eq.trans hsize) hmarked 0

/-! ## Writing -/

theorem heading_eq (h : t.Known c) :
    heading c t.method (t.outputs ++ t.inputs) =
      some (Task.heading c t.method (t.outputs ++ t.inputs)) := by
  have hgenerics : ∀ v ∈ t.outputs ++ t.inputs, v.index < c.vars.length := by
    intro v hv
    rcases List.mem_append.mp hv with hv | hv
    · exact h.outputs v (List.mem_append_right _ hv)
    · exact h.inputs v (List.mem_append_right _ hv)
  rw [heading, Catalog.methodAt?_eq h.method, names_eq hgenerics]
  rfl

theorem keywordLines_eq (h : t.Known c) (depth : Nat) :
    keywordLines c t.method depth t.keywords =
      some (Task.keywordLines c t.method depth t.keywords) := by
  rw [keywordLines, Catalog.methodAt?_eq h.method]
  dsimp only [Option.bind_eq_bind, Option.bind_some]
  rw [if_pos h.keywords]
  rfl

mutual

theorem taskLines_eq (depth : Nat) (t : Task) (h : t.Known c)
    (hbody : ∀ q, t.embedded = some q → ∀ u, q.Includes u → u.Known c) :
    taskLines c depth t = some (Task.lines c depth t) := by
  have hheading := heading_eq h
  have hkeywords := keywordLines_eq h depth
  match t with
  | ⟨m, ks, os, is, none⟩ =>
    rw [taskLines, hheading, hkeywords, Task.lines]
    rfl
  | ⟨m, ks, os, is, some p⟩ =>
    rw [taskLines, hheading, hkeywords, lines_eq (depth + 1) p (hbody p rfl), Task.lines]
    rfl

theorem allLines_eq (depth : Nat) (name : String) (ts : List Task)
    (h : ∀ u, (Pipeline.mk name ts).Includes u → u.Known c) :
    allLines c depth ts = some (Task.allLines c depth ts) := by
  match ts with
  | [] => rfl
  | t :: ts =>
    rw [allLines,
      taskLines_eq depth t (h t (Pipeline.includes_cons.mpr (.inl rfl))) fun q hq u hu =>
        h u (Pipeline.includes_cons.mpr (.inr (.inl ⟨q, hq, hu⟩))),
      allLines_eq depth name ts fun u hu => h u (Pipeline.includes_cons.mpr (.inr (.inr hu)))]
    rfl

theorem lines_eq (depth : Nat) (p : Pipeline) (h : ∀ u, p.Includes u → u.Known c) :
    lines c depth p = some (p.lines c depth) := by
  match p with
  | ⟨name, ts⟩ => rw [lines, Pipeline.lines, allLines_eq depth name ts h]

end

/-! ## Running -/

section

variable {lib : Library} {below : Runner} {inside : Trail}
  (hkeeps : Contract.free.Keeps lib.catalog below inside) (depth : Nat) (silent : Bool)

theorem natives_eq {m : MethodId} (h : m.index < lib.catalog.methods.length) :
    lib.natives[m.index]? = some (lib.native m) := by
  have h' : m.index < lib.natives.length := lib.length_eq ▸ h
  simp [Library.native, h']

include hkeeps

theorem runTask_eq {t : Task} (h : t.Known lib.catalog) {s : State}
    (hsize : s.workspace.size = lib.catalog.vars.length) (i : Nat) :
    runTask lib below depth silent i t s =
      some (Runbook.runTask lib below depth silent i t s) := by
  let announced := s.report (.announced (lib.catalog.methodAt t.method).name depth silent)
  have hmissing := missingInput_eq (w := announced.workspace) h hsize i
  rw [runTask, Runbook.runTask, Catalog.methodAt?_eq h.method]
  dsimp only [Option.bind_eq_bind, Option.bind_some]
  rw [hmissing]
  dsimp only [Option.bind_some]
  cases t.missingInput? lib.catalog announced.workspace.isOccupied i with
  | some e => rfl
  | none =>
    let action := lib.native t.method ⟨lib.catalog, t, depth, silent⟩
    have hgrows := (Contract.meets_perform silent (s := announced) (Contract.sound_free lib) hkeeps
      trivial (Contract.meets_free action announced.workspace)).2.1
    dsimp only
    rw [natives_eq h.method, Option.bind_some]
    rcases hrun : action.perform below silent announced with ⟨f | _, after⟩
    · rfl
    · rw [hrun] at hgrows
      have hafter : after.workspace.size = lib.catalog.vars.length := hgrows.size_eq.trans hsize
      have houtputs : ∀ v ∈ t.allOutputs lib.catalog, v.index < after.workspace.size :=
        hafter ▸ h.outputs
      dsimp only
      rw [outputs_eq h, Option.bind_some, markAll_eq houtputs]
      rfl

theorem runTasks_eq {ts : List Task} (h : ∀ t ∈ ts, t.Known lib.catalog) {s : State}
    (hsize : s.workspace.size = lib.catalog.vars.length) (i : Nat) :
    runTasks lib below depth silent i ts s =
      some (Runbook.runTasks lib below depth silent i ts s) := by
  induction ts generalizing i s with
  | nil => rfl
  | cons t ts ih =>
    obtain ⟨ht, hts⟩ := List.forall_mem_cons.mp h
    have hgrows := (Contract.keeps_task depth silent (i := i) (t := t) (s := s)
      (Contract.sound_free lib) hkeeps trivial trivial).1.grows
    rw [runTasks, Runbook.runTasks, runTask_eq hkeeps depth silent ht hsize]
    dsimp only [Option.bind_eq_bind, Option.bind_some]
    rcases hrun : Runbook.runTask lib below depth silent i t s with ⟨e | _, after⟩
    · rfl
    · rw [hrun] at hgrows
      exact ih hts (hgrows.size_eq.trans hsize) (i + 1)

end

theorem execute_eq {lib : Library} {p : Pipeline} (h : ∀ t ∈ p.tasks, t.Known lib.catalog)
    (limit room : Nat) (silent : Bool) {s : State}
    (hsize : s.workspace.size = lib.catalog.vars.length) :
    execute lib limit room silent p s = some (Runbook.execute lib limit room silent p s) := by
  cases room with
  | zero => rfl
  | succ room =>
    let entered := s.report (.entered p.name (limit - room) p.tasks.length)
    have hrun := runTasks_eq ((Contract.sound_free lib).keeps limit room) (limit - room) silent h
      (s := entered) hsize 0
    rw [execute, Runbook.execute, hrun]
    dsimp only [Option.bind_eq_bind, Option.bind_some]
    rcases Runbook.runTasks lib (Runbook.execute lib limit room) (limit - room) silent 0 p.tasks
      entered with ⟨e | _, after⟩
    · rfl
    · rfl

end Strict

/-! ## Pipelines in range -/

/-- No lookup for the pipeline is out of range: not in a query, not in the static check from known
variables, not in writing at any level of indent, and not in a run on a workspace with a slot for
each variable, at any nesting level and whatever the methods do. -/
structure Pipeline.InRange (lib : Library) (p : Pipeline) : Prop where
  reads : ∀ v, Strict.reads lib.catalog p v = some (p.reads lib.catalog v)
  writes : ∀ v, Strict.writes lib.catalog p v = some (p.writes lib.catalog v)
  check : ∀ set : List VariableId, (∀ v ∈ set, v.index < lib.catalog.vars.length) →
    Strict.check lib.catalog p set = some (p.check lib.catalog set)
  lines : ∀ depth, Strict.lines lib.catalog depth p = some (p.lines lib.catalog depth)
  execute : ∀ limit room silent (s : State), s.workspace.size = lib.catalog.vars.length →
    Strict.execute lib limit room silent p s = some (execute lib limit room silent p s)

/-- **Where all tasks are known, no lookup is out of range.** -/
theorem Pipeline.inRange_of_known {lib : Library} {p : Pipeline}
    (h : ∀ t, p.Includes t → t.Known lib.catalog) : p.InRange lib where
  reads := Strict.reads_eq h
  writes := Strict.writes_eq h
  check _ hset := Strict.check_eq (fun t ht => h t (.here ht)) hset
  lines depth := Strict.lines_eq depth p h
  execute limit room silent _ hsize :=
    Strict.execute_eq (fun t ht => h t (.here ht)) limit room silent hsize

end Runbook
