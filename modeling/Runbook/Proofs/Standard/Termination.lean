import Mathlib.Tactic.Linarith
import Runbook.Proofs.Run.Bounds
import Runbook.Proofs.Run.Machine
import Runbook.Proofs.Standard.Conduct

/-!
# Termination

An agenda may execute itself, loop over itself, or change itself while it runs, so nothing in the
text of a pipeline gets smaller on the way. What gets smaller is the distance to the deepest level,
then the number of tasks that are left, then the number of rounds of a loop. The last one is no
number that the loop counts down: it tests before each round whether it has passed the last index,
and it ends also where the next index would be out of range.

* `Round`: a loop between two rounds, with nothing known about how many are left.
* `loopCount_of_goesOn`, `loopCount_of_ends`: how many there are.
* `routines`, `unrollTo_library`: the standard methods as the machine runs them.
* `run_halts`: every run halts.
-/

namespace Runbook.Standard

/-! ## Loops round by round -/

/-- A loop before a round. -/
structure Round where
  index : VariableId
  agenda : Pipeline
  stop : Int64
  step : Int64
  i : Int64
  mode : Mode

namespace Round

/-- The last index has not been passed. -/
def GoesOn (r : Round) : Prop :=
  (0 < r.step ∧ r.i ≤ r.stop) ∨ (r.step < 0 ∧ r.stop ≤ r.i)

instance (r : Round) : Decidable r.GoesOn :=
  inferInstanceAs (Decidable (_ ∨ _))

/-- One round, if there is to be one. The next one is for the next index, if the sum is in the range
of indices. -/
def action (r : Round) : Action (Option Round) :=
  if r.GoesOn then
    .write r.index (.index r.i) <|
      .run r.agenda r.mode fun
        | .ok () => .done ((addIndices? r.i r.step).map fun i => { r with i, mode := .muted })
        | .error e => .fail (.nested e)
  else .done none

/-- How many rounds there are from here on. -/
def count (r : Round) : Nat :=
  loopCount r.i.toInt r.stop.toInt r.step.toInt

/-- All of them. -/
def all (r : Round) : Action Unit :=
  loop r.index r.agenda r.step.toInt r.count r.mode r.i.toInt

end Round

theorem fdiv_sub_self {distance step : Int} (hstep : 0 < step) :
    (distance - step).fdiv step = distance.fdiv step - 1 := by
  rw [show distance - step = distance + -1 * step by ring, Int.add_mul_fdiv_right _ _ hstep.ne']
  rfl

/-- While the last index has not been passed, there is one round more than from the next index. -/
theorem loopCount_of_goesOn {i stop step : Int}
    (h : (0 < step ∧ i ≤ stop) ∨ (step < 0 ∧ stop ≤ i)) :
    loopCount i stop step = loopCount (i + step) stop step + 1 := by
  unfold loopCount
  rcases h with ⟨hstep, hi⟩ | ⟨hstep, hi⟩
  · have hnonneg : 0 ≤ (stop - i).fdiv step := Int.fdiv_nonneg (by omega) hstep.le
    rw [if_pos hstep, if_pos hstep, show stop - (i + step) = stop - i - step by ring,
      fdiv_sub_self hstep]
    omega
  · have hnonneg : 0 ≤ (i - stop).fdiv (-step) := Int.fdiv_nonneg (by omega) (by omega)
    rw [if_neg hstep.not_gt, if_neg hstep.not_gt, if_pos hstep, if_pos hstep,
      show i + step - stop = i - stop - -step by ring, fdiv_sub_self (by omega)]
    omega

/-- Once it has been passed, there is none. -/
theorem loopCount_of_ends {i stop step : Int}
    (h : ¬ ((0 < step ∧ i ≤ stop) ∨ (step < 0 ∧ stop ≤ i))) : loopCount i stop step = 0 := by
  unfold loopCount
  split
  case isTrue hstep =>
    have hneg : (stop - i).fdiv step < 0 := Int.fdiv_neg_of_neg_of_pos (by omega) hstep
    omega
  case isFalse hstep =>
    split
    case isTrue hstep' =>
      have hneg : (i - stop).fdiv (-step) < 0 := Int.fdiv_neg_of_neg_of_pos (by omega) (by omega)
      omega
    case isFalse => rfl

theorem toInt_of_addIndices? {a b sum : Int64} (h : addIndices? a b = some sum) :
    sum.toInt = a.toInt + b.toInt := by
  unfold addIndices? at h
  dsimp only at h
  split at h
  case isTrue hrange =>
    cases h
    have hlt : a.toInt + b.toInt < 2 ^ 63 := lt_of_le_of_lt hrange.2 (by decide)
    exact Int64.toInt_ofInt_of_le hrange.1 hlt
  case isFalse => cases h

namespace Round

variable (r : Round)

theorem goesOn_iff : r.GoesOn ↔ (0 < r.step.toInt ∧ r.i.toInt ≤ r.stop.toInt) ∨
    (r.step.toInt < 0 ∧ r.stop.toInt ≤ r.i.toInt) := by
  unfold GoesOn
  rw [Int64.lt_iff_toInt_lt, Int64.lt_iff_toInt_lt, Int64.le_iff_toInt_le, Int64.le_iff_toInt_le]
  rfl

variable {r}

/-- The round after an index that can be counted on. -/
theorem count_next (h : r.GoesOn) {i : Int64} (hi : addIndices? r.i r.step = some i) (mode : Mode) :
    r.count = { r with i, mode }.count + 1 := by
  unfold count
  rw [loopCount_of_goesOn (r.goesOn_iff.mp h), toInt_of_addIndices? hi]

/-- If the next index would be out of range, then `stop` has been passed: it is in range itself. -/
theorem count_last (h : r.GoesOn) (hi : addIndices? r.i r.step = none) : r.count = 1 := by
  have hrange : ¬ (Int64.minValue.toInt ≤ r.i.toInt + r.step.toInt ∧
      r.i.toInt + r.step.toInt ≤ Int64.maxValue.toInt) := by
    intro hrange
    unfold addIndices? at hi
    rw [if_pos hrange] at hi
    cases hi
  have hlow := r.stop.minValue_le_toInt
  have hhigh := r.stop.toInt_le
  have hi_low := r.i.minValue_le_toInt
  have hi_high := r.i.toInt_le
  have hgoes := r.goesOn_iff.mp h
  unfold count
  rw [loopCount_of_goesOn hgoes, loopCount_of_ends (by omega)]

theorem count_ends (h : ¬ r.GoesOn) : r.count = 0 :=
  loopCount_of_ends fun h' => h (r.goesOn_iff.mpr h')

variable (r)

/-- What there is to be done, while there is: this round, and all from the next index on. -/
theorem all_of_goesOn (h : r.GoesOn) :
    r.all = .write r.index (.index r.i) (.run r.agenda r.mode fun
      | .ok () => Routines.rest all
          ((addIndices? r.i r.step).map fun i => { r with i, mode := .muted })
      | .error e => .fail (.nested e)) := by
  cases hi : addIndices? r.i r.step with
  | none =>
    rw [all, count_last h hi, loop, Int64.ofInt_toInt]
    rfl
  | some i =>
    rw [all, count_next h hi .muted, loop, Int64.ofInt_toInt, ← toInt_of_addIndices? hi]
    rfl

/-- A round and all after it are all from it on. -/
theorem action_andThen_all : r.action.andThen (Routines.rest all) = r.all := by
  unfold action
  split
  case isTrue h =>
    rw [all_of_goesOn r h]
    simp only [Action.andThen]
    congr 2
    funext result
    cases result with
    | ok | error => rfl
  case isFalse h =>
    rw [all, count_ends h]
    rfl

/-- The rounds that are left get fewer. -/
theorem action_yields : r.action.Yields fun next => ∀ r' ∈ next, r'.count < r.count := by
  unfold action
  split
  case isTrue h =>
    intro result
    cases result with
    | ok =>
      intro r' hr'
      obtain ⟨i, hi, rfl⟩ := Option.map_eq_some_iff.mp hr'
      rw [count_next h hi .muted]
      exact Nat.lt_succ_self _
    | error => trivial
  case isFalse => exact nofun

end Round

/-! ## The standard methods on the machine -/

/-- What a loop settles before its first round. -/
def firstRound (c : Call) : Action (Option Round) := do
  let agenda ← c.pipelineInput 0
  let start ← c.indexKeyword 0
  let stop ← c.indexKeyword 1
  let step ← c.indexKeyword 2
  if step = 0 then .refuse .loopStepZero
  else
    let index ← c.outputId 0
    return some ⟨index, agenda, stop, step, start, .shared⟩

/-- The standard methods: loops go on in rounds, and all others have none. -/
def routines : Routines Round where
  catalog := library.catalog
  start m c :=
    if (library.catalog.methodAt m).name = "ForLoop" then firstRound c
    else (library.native m c).andThen fun _ => .done none
  round := Round.action

/-- The first round and all after it are the whole loop. -/
theorem firstRound_andThen_all (c : Call) :
    (firstRound c).andThen (Routines.rest Round.all) = forLoop c := by
  unfold firstRound forLoop
  simp only [Action.bind_eq, Action.andThen_assoc]
  congr 1
  funext agenda
  congr 1
  funext start
  congr 1
  funext stop
  congr 1
  funext step
  split
  · rfl
  · rw [Action.andThen_assoc]
    rfl

theorem native_forLoop {m : MethodId} (h : (library.catalog.methodAt m).name = "ForLoop") :
    library.native m = forLoop :=
  native_of_name (i := 22) (by decide) h

/-- On the machine the standard methods do what they do in the library. -/
theorem unrollTo_library : routines.UnrollTo library Round.all Round.count where
  catalog_eq := rfl
  start_eq m c := by
    unfold routines
    dsimp only
    split
    case isTrue h => rw [firstRound_andThen_all, native_forLoop h]
    case isFalse => rw [Action.andThen_assoc]; exact Action.andThen_done _
  round_eq := Round.action_andThen_all
  rank_lt := Round.action_yields

/-! ## Every run -/

/-- **Every run of the standard library halts.** Below the largest limit, from every workspace and
with every pipeline, finitely many steps lead to the result and the state that the library says the
run comes to, also if agendas execute, repeat or change themselves or each other. On the way every
open pipeline is at a level within the limit, and no level is too large for its number. -/
theorem run_halts (limit : UInt64) (hlimit : limit.toNat + 1 < UInt64.size) (silent : Bool)
    (p : Pipeline) (w : Workspace) :
    let start : Stage Round := .enter p 0 silent ⟨w, #[]⟩ []
    let r := library.run limit.toNat silent p w
    (∃ n, (routines.step limit)^[n] start = .halted r.1 r.2) ∧
      ∀ n, (routines.step limit)^[n] start ≠ .overflow ∧
        ∀ f ∈ ((routines.step limit)^[n] start).frames, f.depth ≤ limit := by
  intro start r
  refine ⟨unrollTo_library.halts hlimit silent p w, fun n => ?_⟩
  have hwithin : ((routines.step limit)^[n] start).Within limit :=
    (Stage.within_enter p silent ⟨w, #[]⟩).iterate hlimit n
  obtain ⟨hframes, hnow⟩ := hwithin
  refine ⟨fun hoverflow => ?_, hframes⟩
  rw [hoverflow] at hnow
  exact hnow

/-- The pipeline that a run has failed for because it is too deep, and the limit. -/
def tooDeep? : Except RunError Unit → Option (String × Nat)
  | .error (.depthExceeded name limit) => some (name, limit)
  | _ => none

theorem eq_of_tooDeep? {r : Except RunError Unit} {name : String} {limit : Nat}
    (h : tooDeep? r = some (name, limit)) : r = .error (.depthExceeded name limit) := by
  unfold tooDeep? at h
  split at h
  case h_1 => cases h; rfl
  case h_2 => cases h

/-- A workspace whose agenda executes itself. -/
def withSelfExecuting : Workspace :=
  (Workspace.fresh library.catalog).write ⟨10⟩ (.pipeline executesStored)

/-- The agenda is entered on the levels from 1 to 3, and refused on the next one. -/
theorem selfExecuting_halts :
    (3 : UInt64).toNat + 1 < UInt64.size ∧
    let start : Stage Round := .enter executesStored 0 false ⟨withSelfExecuting, #[]⟩ []
    (∃ n s, (routines.step 3)^[n] start = .halted (.error (.depthExceeded "main" 3)) s) ∧
      ∀ n, (routines.step 3)^[n] start ≠ .overflow ∧
        ∀ f ∈ ((routines.step 3)^[n] start).frames, f.depth ≤ 3 := by
  have hlimit : (3 : UInt64).toNat + 1 < UInt64.size := by decide
  have hresult : (library.run 3 false executesStored withSelfExecuting).1 =
      .error (.depthExceeded "main" 3) :=
    eq_of_tooDeep? (by decide +kernel)
  obtain ⟨⟨n, hn⟩, hlevels⟩ := run_halts 3 hlimit false executesStored withSelfExecuting
  refine ⟨hlimit, ⟨n, (library.run 3 false executesStored withSelfExecuting).2, ?_⟩, hlevels⟩
  rw [← hresult]
  exact hn

end Runbook.Standard
