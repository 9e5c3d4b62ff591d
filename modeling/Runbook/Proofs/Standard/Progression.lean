import Runbook.Proofs.Run.Orderly
import Runbook.Proofs.Standard.Termination

/-!
# Loops and progressions

A loop stores the terms of an arithmetic progression one after the other, and runs an agenda after
each. The terms are those of the progression of integers, from the start up to the last one that
has not passed the bound, also where the next one is out of the range of indices. They are settled
before the first round, and so is the agenda: what the rounds do with the variables of both is of
no account.

* `Reaches`, `IsProgression`: the terms of a progression up to a bound.
* `indices`: the indices of a loop; `isProgression_indices`, `getElem?_succ_indices`: which ones
  they are, seen from the start and from one to the next.
* `rounds`: each index is stored, and the agenda is run.
* `perform_loop`, `perform_forLoop`: that is what the method does.
* `loop_visits_progression`: a task that loops.
-/

namespace Runbook.Standard

/-! ## Progressions -/

/-- On the way that `step` goes, `i` has not passed `stop`. -/
def Reaches (stop step i : Int) : Prop :=
  (0 < step ∧ i ≤ stop) ∨ (step < 0 ∧ stop ≤ i)

instance (stop step i : Int) : Decidable (Reaches stop step i) :=
  inferInstanceAs (Decidable (_ ∨ _))

/-- The list is that of `start`, `start + step`, `start + 2 * step` and so on, as long as `stop` has
not been passed. -/
def IsProgression (start stop step : Int) (is : List Int) : Prop :=
  ∀ k : Nat, is[k]? =
    if Reaches stop step (start + k * step) then some (start + k * step) else none

/-- What comes after a term that has passed the bound has passed it too. -/
theorem reaches_of_add {stop step i : Int} {k : Nat} (h : Reaches stop step (i + k * step)) :
    Reaches stop step i := by
  rcases h with ⟨hstep, hi⟩ | ⟨hstep, hi⟩
  · have hdistance : 0 ≤ k * step := Int.mul_nonneg (Int.natCast_nonneg k) hstep.le
    exact .inl ⟨hstep, by omega⟩
  · have hdistance : k * step ≤ 0 :=
      Int.mul_nonpos_of_nonneg_of_nonpos (Int.natCast_nonneg k) hstep.le
    exact .inr ⟨hstep, by omega⟩

/-- The terms that have not passed the bound are as many as the rounds of a loop. -/
theorem lt_loopCount_iff {start stop step : Int} {k : Nat} :
    k < loopCount start stop step ↔ Reaches stop step (start + k * step) := by
  induction k generalizing start with
  | zero =>
    rw [Nat.cast_zero, Int.zero_mul, Int.add_zero]
    by_cases h : Reaches stop step start
    · rw [loopCount_of_goesOn h]
      exact iff_of_true (Nat.succ_pos _) h
    · rw [loopCount_of_ends h]
      exact iff_of_false (Nat.not_lt_zero 0) h
  | succ k ih =>
    have hterm : start + ((k + 1 : Nat) : Int) * step = start + step + k * step := by
      push_cast
      ring
    by_cases h : Reaches stop step start
    · rw [loopCount_of_goesOn h, Nat.succ_lt_succ_iff, ih, hterm]
    · rw [loopCount_of_ends h]
      exact iff_of_false (Nat.not_lt_zero _) fun h' => h (reaches_of_add h')

/-- All terms lie between the first one and the bound. -/
theorem between_of_reaches {start stop step : Int} {k : Nat}
    (h : Reaches stop step (start + k * step)) :
    min start stop ≤ start + k * step ∧ start + k * step ≤ max start stop := by
  rcases h with ⟨hstep, hi⟩ | ⟨hstep, hi⟩
  · have hdistance : 0 ≤ k * step := Int.mul_nonneg (Int.natCast_nonneg k) hstep.le
    omega
  · have hdistance : k * step ≤ 0 :=
      Int.mul_nonpos_of_nonneg_of_nonpos (Int.natCast_nonneg k) hstep.le
    omega

/-! ## Indices of a loop -/

/-- So many indices from `i` on. -/
def indicesFrom (step : Int) : Nat → Int → List Int64
  | 0, _ => []
  | n + 1, i => Int64.ofInt i :: indicesFrom step n (i + step)

/-- The indices that a loop visits. -/
def indices (start stop step : Int64) : List Int64 :=
  indicesFrom step.toInt (loopCount start.toInt stop.toInt step.toInt) start.toInt

theorem getElem?_indicesFrom (step : Int) (n : Nat) (i : Int) (k : Nat) :
    (indicesFrom step n i)[k]? = if k < n then some (Int64.ofInt (i + k * step)) else none := by
  induction n generalizing i k with
  | zero => rfl
  | succ n ih =>
    cases k with
    | zero => simp [indicesFrom]
    | succ k =>
      have hterm : i + step + k * step = i + ((k + 1 : Nat) : Int) * step := by
        push_cast
        ring
      rw [indicesFrom, List.getElem?_cons_succ, ih, hterm]
      simp only [Nat.succ_lt_succ_iff]

section

variable {start stop step : Int64}

/-- No term up to the bound is out of the range of indices. -/
theorem toInt_of_reaches {k : Nat}
    (h : Reaches stop.toInt step.toInt (start.toInt + k * step.toInt)) :
    (Int64.ofInt (start.toInt + k * step.toInt)).toInt = start.toInt + k * step.toInt := by
  obtain ⟨hlow, hhigh⟩ := between_of_reaches h
  have hstart := start.le_toInt
  have hstart' := start.toInt_lt
  have hstop := stop.le_toInt
  have hstop' := stop.toInt_lt
  exact Int64.toInt_ofInt_of_le (by omega) (by omega)

theorem getElem?_indices (k : Nat) :
    (indices start stop step)[k]? =
      if Reaches stop.toInt step.toInt (start.toInt + k * step.toInt) then
        some (Int64.ofInt (start.toInt + k * step.toInt))
      else none := by
  rw [indices, getElem?_indicesFrom]
  simp only [lt_loopCount_iff]

/-- **The indices of a loop are a progression of integers.** -/
theorem isProgression_indices :
    IsProgression start.toInt stop.toInt step.toInt
      ((indices start stop step).map Int64.toInt) := by
  intro k
  rw [List.getElem?_map, getElem?_indices]
  split
  case isTrue h => exact congrArg some (toInt_of_reaches h)
  case isFalse => rfl

/-- After each index comes the sum with the step, if that is an index and has not passed the
bound. -/
theorem getElem?_succ_indices {k : Nat} {i : Int64} (h : (indices start stop step)[k]? = some i) :
    (indices start stop step)[k + 1]? =
      (addIndices? i step).filter fun j => Reaches stop.toInt step.toInt j.toInt := by
  rw [getElem?_indices] at h ⊢
  have hterm : start.toInt + ((k + 1 : Nat) : Int) * step.toInt =
      start.toInt + k * step.toInt + step.toInt := by
    push_cast
    ring
  split at h
  case isFalse => cases h
  case isTrue hreaches =>
    cases h
    have hi := toInt_of_reaches hreaches
    split
    case isTrue hnext =>
      have hj := toInt_of_reaches hnext
      let next := Int64.ofInt (start.toInt + ((k + 1 : Nat) : Int) * step.toInt)
      have hlow : Int64.minValue.toInt ≤ next.toInt := next.minValue_le_toInt
      have hhigh : next.toInt ≤ Int64.maxValue.toInt := next.toInt_le
      rw [hj, hterm] at hlow hhigh
      rw [addIndices?, hi, if_pos ⟨hlow, hhigh⟩, ← hterm, Option.filter_some, hj,
        if_pos (by simpa using hnext)]
    case isFalse hnext =>
      cases hsum : addIndices? (Int64.ofInt (start.toInt + k * step.toInt)) step with
      | none => rfl
      | some j =>
        have hj := toInt_of_addIndices? hsum
        rw [hi, ← hterm] at hj
        rw [Option.filter_some, hj, if_neg (by simpa using hnext)]

end

/-! ## Rounds -/

/-- The rounds of a loop whose agenda is run at level `depth`. Each index is stored, and then the
agenda is run on what the round before has left, silently but for the first round. The first round
that fails ends the loop. -/
def rounds (maxDepth depth : Nat) (index : VariableId) (agenda : Pipeline) :
    Bool → List Int64 → State → Except RunError Unit × State
  | _, [], s => (.ok (), s)
  | silent, i :: is, s =>
    match execute library maxDepth (maxDepth + 1 - depth) silent agenda
        (s.update (·.write index (.index i))) with
    | (.ok (), after) => rounds maxDepth depth index agenda true is after
    | (.error e, after) => (.error e, after)

/-- The rounds of a loop, whichever way the first agenda is run. -/
theorem perform_loop {maxDepth depth : Nat} {silent first : Bool} {mode : Mode}
    {index : VariableId} {agenda : Pipeline} {step : Int}
    (hmode : ∀ s, mode.apply (execute library maxDepth (maxDepth + 1 - depth)) silent agenda s =
      execute library maxDepth (maxDepth + 1 - depth) first agenda s) (n : Nat) (i : Int)
    (s : State) :
    (loop index agenda step n mode i).perform (execute library maxDepth (maxDepth + 1 - depth))
        silent s =
      ((rounds maxDepth depth index agenda first (indicesFrom step n i) s).1.mapError .nested,
        (rounds maxDepth depth index agenda first (indicesFrom step n i) s).2) := by
  induction n generalizing mode first i s with
  | zero => rfl
  | succ n ih =>
    rw [loop, indicesFrom, rounds, Action.perform, Action.perform, hmode]
    rcases execute library maxDepth (maxDepth + 1 - depth) first agenda
      (s.update (·.write index (.index (Int64.ofInt i)))) with ⟨e | _, after⟩
    · rfl
    · -- all later rounds are silent, however the first one was run
      have hmuted (s : State) :
          Mode.apply (execute library maxDepth (maxDepth + 1 - depth)) silent agenda s .muted =
            execute library maxDepth (maxDepth + 1 - depth) true agenda s := rfl
      exact ih hmuted (i + step) after

/-! ## Tasks that loop -/

/-- The variable that the current index of a loop is stored in. -/
def loopIndex : VariableId := ⟨16⟩

/-- The variable that holds the agenda of a loop. -/
def loopAgenda : VariableId := ⟨17⟩

theorem findVariable?_loop :
    library.catalog.findVariable? "forloop_index" = some loopIndex ∧
      library.catalog.findVariable? "forloop_agenda" = some loopAgenda := by decide +kernel

/-- The task is a loop with these bounds and this step. -/
structure Loops (t : Task) (start stop step : Int64) : Prop where
  name_eq : (library.catalog.methodAt t.method).name = loopName
  start_eq : t.keywords[0]? = some (.index start)
  stop_eq : t.keywords[1]? = some (.index stop)
  step_eq : t.keywords[2]? = some (.index step)

theorem fixedSlots_loop {m : MethodId} (h : (library.catalog.methodAt m).name = loopName) :
    (library.catalog.methodAt m).fixedOutputs = [loopIndex] ∧
      (library.catalog.methodAt m).fixedInputs = [loopAgenda] := by
  have hall : ∀ d ∈ library.catalog.methods, d.name = loopName →
      d.fixedOutputs = [loopIndex] ∧ d.fixedInputs = [loopAgenda] := by decide +kernel
  exact methodAt_of_name (by decide) hall h

section

variable {t : Task} {start stop step : Int64} {q : Pipeline} {s : State}

/-- **What a loop does**, once it is called: its rounds, with the agenda that it finds. -/
theorem perform_forLoop (ht : Loops t start stop step) (hstep : step ≠ 0)
    (hq : s.workspace.value loopAgenda = .pipeline q) (maxDepth depth : Nat) (silent : Bool) :
    let r := rounds maxDepth (depth + 1) loopIndex q silent (indices start stop step) s
    (library.native t.method ⟨library.catalog, t, depth, silent⟩).perform
        (execute library maxDepth (maxDepth - depth)) silent s =
      (r.1.mapError .nested, r.2) := by
  intro r
  let call : Call := ⟨library.catalog, t, depth, silent⟩
  obtain ⟨houtputs, hinputs⟩ := fixedSlots_loop ht.name_eq
  have hin : call.inputId 0 = .done loopAgenda := by
    simp [call, Call.inputId, Task.allInputs, hinputs]
  have hout : call.outputId 0 = .done loopIndex := by
    simp [call, Call.outputId, Task.allOutputs, houtputs]
  have hstart : call.keyword 0 = .done (.index start) := by simp [call, Call.keyword, ht.start_eq]
  have hstop : call.keyword 1 = .done (.index stop) := by simp [call, Call.keyword, ht.stop_eq]
  have hby : call.keyword 2 = .done (.index step) := by simp [call, Call.keyword, ht.step_eq]
  have hbelow : maxDepth + 1 - (depth + 1) = maxDepth - depth :=
    Nat.add_sub_add_right maxDepth 1 depth
  have hloop : (forLoop call).perform (execute library maxDepth (maxDepth - depth)) silent s =
      (loop loopIndex q step.toInt (loopCount start.toInt stop.toInt step.toInt) .shared
        start.toInt).perform (execute library maxDepth (maxDepth - depth)) silent s := by
    simp [forLoop, Call.pipelineInput, Call.input, Call.indexKeyword, hin, hout, hstart, hstop, hby,
      Action.get, Action.andThen, Action.perform, hq, Value.asPipeline, Value.asIndex,
      Action.contents, hstep]
  rw [native_forLoop ht.name_eq, hloop, ← hbelow]
  exact perform_loop (fun _ => rfl) _ _ s

/-- A loop that is past its bound from the start has no rounds. -/
theorem indices_eq_nil (h : ¬ Reaches stop.toInt step.toInt start.toInt) :
    indices start stop step = [] := by
  have hhead : (indices start stop step)[0]? = _ := getElem?_indices 0
  rw [Nat.cast_zero, Int.zero_mul, Int.add_zero, if_neg h] at hhead
  exact List.eq_nil_of_length_eq_zero (Nat.le_zero.mp (List.getElem?_eq_none_iff.mp hhead))

/-- A task that loops is over with its rounds; its outputs are marked if all have succeeded. -/
theorem runTask_forLoop (ht : Loops t start stop step) (hstep : step ≠ 0)
    (hq : s.workspace.value loopAgenda = .pipeline q) (maxDepth depth : Nat) (silent : Bool)
    {n : Nat} (hinputs : t.missingInput? library.catalog s.workspace.isOccupied n = none) :
    runTask library (execute library maxDepth (maxDepth - depth)) depth silent n t s =
      match rounds maxDepth (depth + 1) loopIndex q silent (indices start stop step)
          (s.report (.announced loopName depth silent)) with
      | (.ok (), after) => (.ok (), after.update (·.markAll (t.allOutputs library.catalog)))
      | (.error e, after) => (.error e, after) := by
  refine runTask_of_nested hinputs ?_
  rw [ht.name_eq]
  exact perform_forLoop (s := s.report (.announced loopName depth silent)) ht hstep hq maxDepth
    depth silent

end

/-- **A loop visits exactly the terms of a progression.** For all indices `start` and `stop` and
every step but zero these are the integers from `start` on that have not passed `stop`; each is an
index, and counting on from each, as far as indices go, comes to the next one, and from the last one
to none. Called at any level, silent or not, on any workspace that holds an agenda to loop over, the
task stores the terms one after the other and runs that agenda after each, one level deeper. It ends
with the last term, or with the first run that fails and as that has left everything. The terms and
the agenda are those from before the first round, whatever the rounds store in their place. If
`start` has passed `stop` already, nothing is run and nothing is stored. -/
theorem loop_visits_progression (start stop step : Int64) (hstep : step ≠ 0) :
    let is := indices start stop step
    IsProgression start.toInt stop.toInt step.toInt (is.map Int64.toInt) ∧
    (∀ k i, is[k]? = some i →
      is[k + 1]? = (addIndices? i step).filter fun j => Reaches stop.toInt step.toInt j.toInt) ∧
    (library.catalog.findVariable? "forloop_index" = some loopIndex ∧
      library.catalog.findVariable? "forloop_agenda" = some loopAgenda) ∧
    ∀ t, Loops t start stop step →
    ∀ (s : State) q, s.workspace.value loopAgenda = .pipeline q → ∀ maxDepth depth silent,
      let below := execute library maxDepth (maxDepth - depth)
      let method := library.native t.method ⟨library.catalog, t, depth, silent⟩
      let call := method.perform below silent
      let r := rounds maxDepth (depth + 1) loopIndex q silent is
      call s = ((r s).1.mapError .nested, (r s).2) ∧
      (¬ Reaches stop.toInt step.toInt start.toInt → call s = (.ok (), s)) ∧
      ∀ n, t.missingInput? library.catalog s.workspace.isOccupied n = none →
        runTask library below depth silent n t s =
          match r (s.report (.announced loopName depth silent)) with
          | (.ok (), after) => (.ok (), after.update (·.markAll (t.allOutputs library.catalog)))
          | (.error e, after) => (.error e, after) := by
  intro is
  refine ⟨isProgression_indices, fun _ _ => getElem?_succ_indices, findVariable?_loop,
    fun t ht s q hq maxDepth depth silent => ?_⟩
  have hcall := perform_forLoop ht hstep hq maxDepth depth silent
  refine ⟨hcall, fun hempty => ?_, fun n => runTask_forLoop ht hstep hq maxDepth depth silent⟩
  rw [indices_eq_nil hempty] at hcall
  exact hcall

/-- A loop over the two largest indices. -/
def loopsToLimit : Task :=
  ⟨⟨22⟩, [.index (Int64.maxValue - 1), .index Int64.maxValue, .index 1], [], [], none⟩

/-- An agenda that sets the index of its loop and empties the agenda. -/
def overwritesLoop : Pipeline :=
  ⟨"forloop_agenda", [⟨⟨0⟩, [.index 0], [loopIndex], [], none⟩,
    ⟨⟨18⟩, [], [loopAgenda], [], some ⟨"AgendaSet", []⟩⟩]⟩

theorem loops_loopsToLimit : Loops loopsToLimit (Int64.maxValue - 1) Int64.maxValue 1 where
  name_eq := by decide +kernel
  start_eq := rfl
  stop_eq := rfl
  step_eq := rfl

/-- Both rounds are run, and nothing after the largest index. -/
theorem loopsToLimit_rounds :
    let w := (Workspace.fresh library.catalog).write loopAgenda (.pipeline overwritesLoop)
    (1 : Int64) ≠ 0 ∧ Loops loopsToLimit (Int64.maxValue - 1) Int64.maxValue 1 ∧
    w.value loopAgenda = .pipeline overwritesLoop ∧
    loopsToLimit.missingInput? library.catalog w.isOccupied 0 = none ∧
    ∃ after, rounds 64 1 loopIndex overwritesLoop false [Int64.maxValue - 1, Int64.maxValue]
        ⟨w, #[.announced loopName 0 false]⟩ = (.ok (), after) ∧
      runTask library (execute library 64 64) 0 false 0 loopsToLimit ⟨w, #[]⟩ =
        (.ok (), after.update (·.markAll (loopsToLimit.allOutputs library.catalog))) := by
  intro w
  have hlt : loopAgenda.index < (Workspace.fresh library.catalog).size := by decide +kernel
  have hstored : w.value loopAgenda = .pipeline overwritesLoop :=
    Workspace.value_write_self hlt (.pipeline overwritesLoop)
  have hinputs : loopsToLimit.missingInput? library.catalog w.isOccupied 0 = none := by
    decide +kernel
  have hindices : indices (Int64.maxValue - 1) Int64.maxValue 1 =
      [Int64.maxValue - 1, Int64.maxValue] := by decide +kernel
  have hsucceeds : (rounds 64 1 loopIndex overwritesLoop false [Int64.maxValue - 1, Int64.maxValue]
      ⟨w, #[.announced loopName 0 false]⟩).1.isOk = true := by decide +kernel
  obtain ⟨-, -, -, hloop⟩ := loop_visits_progression (Int64.maxValue - 1) Int64.maxValue 1
    (by decide)
  obtain ⟨-, -, hrun⟩ := hloop loopsToLimit loops_loopsToLimit ⟨w, #[]⟩ overwritesLoop hstored
    64 0 false
  refine ⟨by decide, loops_loopsToLimit, hstored, hinputs, ?_⟩
  have htask := hrun 0 hinputs
  rw [hindices] at htask
  rcases hrounds : rounds 64 1 loopIndex overwritesLoop false
    [Int64.maxValue - 1, Int64.maxValue] ⟨w, #[.announced loopName 0 false]⟩ with ⟨e | _, after⟩
  · rw [hrounds] at hsucceeds
    cases hsucceeds
  · refine ⟨after, rfl, htask.trans ?_⟩
    have hreport : State.report ⟨w, #[]⟩ (.announced loopName 0 false) =
        ⟨w, #[.announced loopName 0 false]⟩ := rfl
    rw [hreport, hrounds]

end Runbook.Standard
