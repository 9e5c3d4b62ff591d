import Runbook.Proofs.Run.Blame
import Runbook.Proofs.Run.Translation

/-!
# Silence

A silent run and one that is not are the same run. They differ in the level at which tasks are
announced, and in nothing else.

A run that is not silent has silent parts, though: all rounds of a loop but the first, with
everything that is run in them. Which round of which loops a run is in can be read off its log. The
task that was announced last at a level is still at work when something is announced at a deeper
one, and if it is a loop, each pipeline that was entered one level below since then began a round.

* `loopRounds`, `LaterRound`: the rounds of a loop so far, and whether it is past the first one.
* `Levelled`: every task in a log is silent exactly if it was in a later round.
* `levels_execute`: a run keeps its log so.
* `silence_observational`: the two runs of any pipeline with the standard library.
-/

namespace Runbook

namespace Event

/-- The event as it is in a silent run. -/
def hushed : Event → Event
  | announced method depth _ => announced method depth true
  | e => e

/-- The rounds that a loop at level `depth` has begun after this event, if there were `rounds`
before it, or if there was no loop. -/
def countRound (depth : Nat) (rounds : Option Nat) : Event → Option Nat
  | announced method d _ =>
    if depth < d then rounds
    else if d = depth ∧ method = Standard.loopName then some 0
    else none
  | entered _ d _ => if d = depth + 1 then rounds.map (· + 1) else rounds
  | _ => rounds

theorem announces_of_other (e : Event) (he : e.ofExecution = false) : e.announces = false := by
  cases e with
  | announced => cases he
  | _ => rfl

end Event

/-- The rounds that a loop at level `depth` has begun, if a loop was announced there last. -/
def loopRounds (depth : Nat) (log : List Event) : Option Nat :=
  log.foldl (Event.countRound depth) none

/-- What is announced at level `depth` next is in a later round than the first of some loop. -/
def LaterRound (log : List Event) (depth : Nat) : Prop :=
  ∃ d < depth, ∃ n, loopRounds d log = some n ∧ 1 < n

/-- Each task was announced silently exactly if it was in a later round then. -/
def Levelled (log : List Event) : Prop :=
  ∀ before method depth silent, before ++ [.announced method depth silent] <+: log →
    (silent = true ↔ LaterRound before depth)

/-! ## Logs -/

/-- The events so far, as a list. -/
def State.events (s : State) : List Event :=
  s.log.toList

theorem State.events_report (s : State) (e : Event) : (s.report e).events = s.events ++ [e] :=
  Array.toList_push

theorem loopRounds_concat (depth : Nat) (log : List Event) (e : Event) :
    loopRounds depth (log ++ [e]) = e.countRound depth (loopRounds depth log) :=
  List.foldl_concat ..

/-- What is not of the execution begins no round. -/
theorem loopRounds_other {e : Event} (he : e.ofExecution = false) (depth : Nat) (log : List Event) :
    loopRounds depth (log ++ [e]) = loopRounds depth log := by
  rw [loopRounds_concat]
  cases e with
  | entered | announced | exited => cases he
  | bound | filesBound | consistent | printed | note | finished | fatal => rfl

theorem loopRounds_exited (depth : Nat) (log : List Event) (p : String) (d : Nat) :
    loopRounds depth (log ++ [.exited p d]) = loopRounds depth log :=
  loopRounds_concat ..

/-- A task makes no difference to the loops at outer levels. -/
theorem loopRounds_announced {depth d : Nat} (h : d < depth) (log : List Event) (method : String)
    (silent : Bool) : loopRounds d (log ++ [.announced method depth silent]) = loopRounds d log :=
  (loopRounds_concat ..).trans (if_pos h)

/-- Nor does a pipeline that a task at an inner level runs. -/
theorem loopRounds_entered {depth d : Nat} (h : d < depth) (log : List Event) (p : String)
    (tasks : Nat) : loopRounds d (log ++ [.entered p (depth + 1) tasks]) = loopRounds d log :=
  (loopRounds_concat ..).trans (if_neg (by omega))

/-- A pipeline that a task runs is a round, if that is a loop. -/
theorem loopRounds_entered_self (depth : Nat) (log : List Event) (p : String) (tasks : Nat) :
    loopRounds depth (log ++ [.entered p (depth + 1) tasks]) =
      (loopRounds depth log).map (· + 1) :=
  (loopRounds_concat ..).trans (if_pos rfl)

/-- At the outermost level nothing is in a loop. -/
theorem not_laterRound_zero (log : List Event) : ¬ LaterRound log 0 := by
  rintro ⟨d, hd, -⟩
  exact Nat.not_lt_zero d hd

theorem laterRound_congr {log log' : List Event} {depth : Nat}
    (h : ∀ d < depth, loopRounds d log' = loopRounds d log) :
    LaterRound log' depth ↔ LaterRound log depth := by
  constructor
  · rintro ⟨d, hd, n, hn, hlater⟩
    exact ⟨d, hd, n, (h d hd).symm.trans hn, hlater⟩
  · rintro ⟨d, hd, n, hn, hlater⟩
    exact ⟨d, hd, n, (h d hd).trans hn, hlater⟩

/-- What a pipeline announces is in a later round if the task that runs it is, or if that is a loop
that has begun a round before. -/
theorem laterRound_entered (log : List Event) (depth : Nat) (p : String) (tasks : Nat) :
    LaterRound (log ++ [.entered p (depth + 1) tasks]) (depth + 1) ↔
      LaterRound log depth ∨ ∃ n, loopRounds depth log = some n ∧ 0 < n := by
  constructor
  · rintro ⟨d, hd, n, hn, hlater⟩
    rcases Nat.lt_succ_iff_lt_or_eq.mp hd with hd | rfl
    · rw [loopRounds_entered hd] at hn
      exact .inl ⟨d, hd, n, hn, hlater⟩
    · rw [loopRounds_entered_self, Option.map_eq_some_iff] at hn
      obtain ⟨k, hk, rfl⟩ := hn
      exact .inr ⟨k, hk, Nat.lt_of_succ_lt_succ hlater⟩
  · rintro (⟨d, hd, n, hn, hlater⟩ | ⟨n, hn, hbegun⟩)
    · exact ⟨d, Nat.lt_succ_of_lt hd, n, (loopRounds_entered hd ..).trans hn, hlater⟩
    · refine ⟨depth, Nat.lt_succ_self depth, n + 1, ?_, Nat.succ_lt_succ hbegun⟩
      rw [loopRounds_entered_self, hn, Option.map_some]

/-- A loop in its second round. -/
example : loopRounds 0 [.announced "ForLoop" 0 false, .entered "body" 1 1,
    .announced "Touch" 1 false, .exited "body" 1, .entered "body" 1 1] = some 2 := by
  decide

theorem levelled_nil : Levelled [] := by
  intro before method depth silent h
  exact absurd (List.prefix_nil.mp h) (List.concat_ne_nil _ _)

/-- One event more: if it is a task, that must be silent exactly if it is in a later round. -/
theorem Levelled.concat {log : List Event} (hlog : Levelled log) {e : Event}
    (he : ∀ method depth silent, e = .announced method depth silent →
      (silent = true ↔ LaterRound log depth)) : Levelled (log ++ [e]) := by
  intro before method depth silent h
  rcases List.prefix_concat_iff.mp h with heq | hprefix
  · obtain ⟨rfl, hlast⟩ := List.append_inj' heq rfl
    exact he method depth silent (List.head_eq_of_cons_eq hlast).symm
  · exact hlog before method depth silent hprefix

/-- If it is no task, nothing is asked of it. -/
theorem Levelled.concat_other {log : List Event} (hlog : Levelled log) {e : Event}
    (he : e.announces = false) : Levelled (log ++ [e]) := by
  refine hlog.concat ?_
  rintro method depth silent rfl
  cases he

/-! ## Runs -/

/-- A log is levelled, and if nothing has failed the loops above level `depth` are as they were in
`log`. -/
structure Keeps {ε α : Type} (depth : Nat) (log : List Event) (r : Except ε α × State) : Prop where
  levelled : Levelled r.2.events
  rounds : ∀ x, r.1 = .ok x → ∀ d < depth, loopRounds d r.2.events = loopRounds d log

/-- Pipelines that are run at level `depth` keep the log levelled, if they are run silently exactly
where they are in a later round. -/
def Runner.Levels (below : Runner) (depth : Nat) : Prop :=
  ∀ silent (p : Pipeline) (s : State),
    let log := s.events ++ [.entered p.name depth p.tasks.length]
    Levelled s.events → (silent = true ↔ LaterRound log depth) →
      Keeps depth log (below silent p s)

/-- If the task at work is a loop, it has begun as many rounds; `ran` says if there was one. -/
def Standing (loops ran : Prop) : Option Nat → Prop
  | none => ¬ loops
  | some n => loops ∧ (0 < n ↔ ran)

theorem Standing.begun_iff {loops ran : Prop} {rounds : Option Nat}
    (h : Standing loops ran rounds) : (∃ n, rounds = some n ∧ 0 < n) ↔ loops ∧ ran := by
  cases rounds with
  | none =>
    refine iff_of_false ?_ fun hboth => h hboth.1
    rintro ⟨n, hn, -⟩
    cases hn
  | some n =>
    simp only [Option.some.injEq, exists_eq_left']
    exact h.2.trans (and_iff_right h.1).symm

theorem Standing.next {loops ran : Prop} {rounds : Option Nat} (h : Standing loops ran rounds) :
    Standing loops True (rounds.map (· + 1)) := by
  cases rounds with
  | none => exact h
  | some n => exact ⟨h.1, iff_of_true n.succ_pos trivial⟩

theorem Mode.silences_iff (mode : Mode) (silent : Bool) :
    mode.silences silent = true ↔ silent = true ∨ mode = .muted := by
  cases mode <;> simp [silences]

section

variable {below : Runner} {depth : Nat} {silent : Bool}

theorem Keeps.refl {ε α : Type} {s : State} (h : Levelled s.events) (x : Except ε α) :
    Keeps depth s.events (x, s) :=
  ⟨h, fun _ _ _ _ => rfl⟩

/-- After a failure nothing is asked of the loops. -/
theorem Keeps.of_error {ε α : Type} {log : List Event} {s : State} (h : Levelled s.events) (e : ε) :
    Keeps depth log ((.error e, s) : Except ε α × State) where
  levelled := h
  rounds x hx := by cases hx

theorem Keeps.trans {ε α : Type} {log mid : List Event} {r : Except ε α × State}
    (hmid : ∀ d < depth, loopRounds d mid = loopRounds d log) (h : Keeps depth mid r) :
    Keeps depth log r :=
  ⟨h.levelled, fun x hx d hd => (h.rounds x hx d hd).trans (hmid d hd)⟩

theorem Runner.Levels.apply (hbelow : below.Levels depth) (mode : Mode) (p : Pipeline) {s : State}
    (hs : Levelled s.events)
    (hmode : mode.silences silent = true ↔
      LaterRound (s.events ++ [.entered p.name depth p.tasks.length]) depth) :
    Keeps depth (s.events ++ [.entered p.name depth p.tasks.length])
      (mode.apply below silent p s) := by
  obtain ⟨s', hrun, hlog⟩ := mode.exists_run below silent p s
  obtain ⟨hlevelled, hrounds⟩ := hbelow (mode.silences silent) p s hs hmode
  have hevents : s'.events = (mode.apply below silent p s).2.events := congrArg Array.toList hlog
  rw [hrun] at hlevelled hrounds
  rw [hevents] at hlevelled
  simp only [hevents] at hrounds
  exact ⟨hlevelled, hrounds⟩

/-- An orderly action keeps the log levelled. -/
theorem Runner.Levels.perform (hbelow : below.Levels (depth + 1)) {α : Type} {loops ran : Prop}
    {a : Action α} (ha : a.Orderly loops ran) {s : State} (hs : Levelled s.events)
    (hsilent : silent = true ↔ LaterRound s.events depth)
    (hstanding : Standing loops ran (loopRounds depth s.events)) :
    Keeps depth s.events (a.perform below silent s) := by
  induction a generalizing ran s with
  | done | fail => exact .refl hs _
  | read v next ih | inspect next ih => exact ih _ (ha _) hs hsilent hstanding
  | write v x next ih => exact ih ha (s := s.update (·.write v x)) hs hsilent hstanding
  | put v x next ih => exact ih ha (s := s.update (·.put v x)) hs hsilent hstanding
  | mark v next ih => exact ih ha (s := s.update (·.mark v)) hs hsilent hstanding
  | report e next ih =>
    have hsame (d : Nat) : loopRounds d (s.report e).events = loopRounds d s.events := by
      rw [s.events_report]
      exact loopRounds_other ha.1 d s.events
    have hlevelled : Levelled (s.report e).events := by
      rw [s.events_report]
      exact hs.concat_other (e.announces_of_other ha.1)
    refine .trans (fun d _ => hsame d) (ih ha.2 hlevelled ?_ ?_)
    · exact hsilent.trans (laterRound_congr fun d _ => hsame d).symm
    · rw [hsame]
      exact hstanding
  | run p mode next ih =>
    obtain ⟨hmuted, hok, herror⟩ := ha
    -- The pipeline stands in a later round of an outer loop, or begins one of this loop.
    have hmode : mode.silences silent = true ↔ LaterRound
        (s.events ++ [.entered p.name (depth + 1) p.tasks.length]) (depth + 1) := by
      rw [mode.silences_iff, laterRound_entered, hsilent, hmuted, hstanding.begun_iff]
    have hrun := hbelow.apply mode p hs hmode
    unfold Action.perform
    rcases happly : mode.apply below silent p s with ⟨e | _, after⟩
    all_goals rw [happly] at hrun
    · dsimp only
      rw [herror]
      exact .of_error hrun.levelled _
    · have hsame : ∀ d < depth, loopRounds d after.events = loopRounds d s.events := fun d hd =>
        (hrun.rounds () rfl d (Nat.lt_succ_of_lt hd)).trans (loopRounds_entered hd ..)
      refine .trans hsame (ih _ hok hrun.levelled ?_ ?_)
      · exact hsilent.trans (laterRound_congr hsame).symm
      · rw [hrun.rounds () rfl depth (Nat.lt_succ_self depth), loopRounds_entered_self]
        exact hstanding.next

variable {lib : Library} (hlib : lib.Orderly) (hbelow : below.Levels (depth + 1))

include hlib hbelow

theorem levels_runTask (i : Nat) (t : Task) {s : State} (hs : Levelled s.events)
    (hsilent : silent = true ↔ LaterRound s.events depth) :
    Keeps depth s.events (runTask lib below depth silent i t s) := by
  let method := (lib.catalog.methodAt t.method).name
  let announced := s.report (.announced method depth silent)
  have hevents : announced.events = s.events ++ [.announced method depth silent] :=
    s.events_report _
  have hsame : ∀ d < depth, loopRounds d announced.events = loopRounds d s.events := by
    intro d hd
    rw [hevents]
    exact loopRounds_announced hd ..
  have hlevelled : Levelled announced.events := by
    rw [hevents]
    refine hs.concat ?_
    rintro _ _ _ heq
    cases heq
    exact hsilent
  refine .trans hsame ?_
  cases hinputs : t.missingInput? lib.catalog s.workspace.isOccupied i with
  | some e =>
    rw [runTask_of_refused hinputs]
    exact .refl hlevelled _
  | none =>
    have hstanding : Standing (method = Standard.loopName) False
        (loopRounds depth announced.events) := by
      rw [hevents, loopRounds_concat, Event.countRound, if_neg (Nat.lt_irrefl depth)]
      by_cases hloop : method = Standard.loopName
      · rw [if_pos ⟨rfl, hloop⟩]
        exact ⟨hloop, iff_of_false (Nat.lt_irrefl 0) id⟩
      · rw [if_neg fun h => hloop h.2]
        exact hloop
    have hperform := hbelow.perform (hlib t depth silent) hlevelled
      (hsilent.trans (laterRound_congr hsame).symm) hstanding
    rw [runTask_of_called hinputs]
    split
    case h_1 heq => exact ⟨hperform.levelled, fun _ _ => hperform.rounds () heq⟩
    case h_2 => exact .of_error hperform.levelled _

theorem levels_runTasks (i : Nat) (ts : List Task) {s : State} (hs : Levelled s.events)
    (hsilent : silent = true ↔ LaterRound s.events depth) :
    Keeps depth s.events (runTasks lib below depth silent i ts s) := by
  induction ts generalizing i s with
  | nil => exact .refl hs _
  | cons t ts ih =>
    have htask := levels_runTask hlib hbelow i t hs hsilent
    unfold runTasks
    rcases hrun : runTask lib below depth silent i t s with ⟨e | _, after⟩
    all_goals rw [hrun] at htask
    · exact .of_error htask.levelled e
    · have hsame := htask.rounds () rfl
      exact .trans hsame
        (ih (i + 1) htask.levelled (hsilent.trans (laterRound_congr hsame).symm))

end

/-- **A run keeps its log levelled.** The induction is on the levels that are left. -/
theorem levels_execute {lib : Library} (hlib : lib.Orderly) {limit room : Nat}
    (hroom : room ≤ limit + 1) : (execute lib limit room).Levels (limit + 1 - room) := by
  induction room with
  | zero => exact fun _ _ _ hs _ => .of_error hs _
  | succ room ih =>
    intro silent p s
    have hbelow := ih (Nat.le_of_succ_le hroom)
    rw [Nat.succ_sub (Nat.le_of_succ_le_succ hroom)] at hbelow
    rw [Nat.add_sub_add_right]
    intro log hs hsilent
    have hevents : (s.report (.entered p.name (limit - room) p.tasks.length)).events = log :=
      s.events_report _
    have hlevelled : Levelled log := hs.concat_other rfl
    rw [← hevents] at hlevelled hsilent ⊢
    have htasks := levels_runTasks hlib hbelow 0 p.tasks hlevelled hsilent
    unfold execute
    dsimp only
    rcases hrun : runTasks lib (execute lib limit room) (limit - room) silent 0 p.tasks
      (s.report (.entered p.name (limit - room) p.tasks.length)) with ⟨e | _, after⟩
    all_goals rw [hrun] at htasks
    · exact .of_error htasks.levelled e
    · refine ⟨?_, ?_⟩
      · rw [State.events_report]
        exact htasks.levelled.concat_other rfl
      · intro x _ d hd
        rw [State.events_report, loopRounds_exited]
        exact htasks.rounds () rfl d hd

/-! ## Two runs -/

/-- In a silent run tasks are announced silently, and nothing else differs. -/
theorem between_hushed (limit : Nat) :
    Translation.Between ⟨Event.hushed, id, fun _ => true⟩ limit limit where
  muted := rfl
  entered _ _ _ _ := rfl
  announced _ _ _ _ := rfl
  exited _ _ _ := rfl
  other e he := by
    cases e with
    | entered | announced | exited => cases he
    | bound | filesBound | consistent | printed | note | finished | fatal => rfl
  tooDeep _ := rfl
  missing _ := rfl
  failed _ _ _ _ := rfl

theorem Event.unlevelled_hushed (e : Event) : e.hushed.unlevelled = e.unlevelled := by
  cases e <;> rfl

theorem Event.level_announced (method : String) (depth : Nat) (silent : Bool) :
    (announced method depth silent).record.level = .info ↔ silent = false := by
  cases silent <;> simp [record]

namespace Standard

/-- A silent run is the one that is not silent, with its tasks announced silently. -/
theorem run_silent (maxDepth : Nat) (p : Pipeline) (w : Workspace) :
    let loud := library.run maxDepth false p w
    library.run maxDepth true p w = (loud.1, ⟨loud.2.workspace, loud.2.log.map Event.hushed⟩) := by
  have hrun := (between_hushed maxDepth).execute orderly heedless (Nat.le_refl (maxDepth + 1)) false
    p ⟨w, #[]⟩
  rw [Translation.state_start] at hrun
  unfold Library.run
  dsimp only
  rw [hrun]
  rcases execute library maxDepth (maxDepth + 1) false p ⟨w, #[]⟩ with ⟨_ | _, after⟩ <;> rfl

/-- **Silence is purely observational.** For any pipeline, a silent run of the standard library has
the result of one that is not, and it leaves the same workspace; the logs are the same too, but for
the level of tasks. A silent run never announces a task at info level. A run that is not silent does
so, except where a task is in a later round than the first of a loop, however deep it stands. -/
theorem silence_observational (maxDepth : Nat) (p : Pipeline) (w : Workspace) :
    let loud := library.run maxDepth false p w
    let quiet := library.run maxDepth true p w
    (quiet.1 = loud.1 ∧ quiet.2.workspace = loud.2.workspace ∧
      quiet.2.log.map Event.unlevelled = loud.2.log.map Event.unlevelled) ∧
    (∀ method depth silent, .announced method depth silent ∈ quiet.2.log →
      (Event.announced method depth silent).record.level ≠ .info) ∧
    ∀ before method depth silent,
      before ++ [.announced method depth silent] <+: loud.2.log.toList →
        ((Event.announced method depth silent).record.level = .info ↔
          ¬ LaterRound before depth) := by
  dsimp only
  rw [run_silent]
  refine ⟨⟨rfl, rfl, ?_⟩, ?_, ?_⟩
  · rw [Array.map_map]
    exact Array.map_congr_left fun e _ => e.unlevelled_hushed
  · intro method depth silent hmem hlevel
    rw [Event.level_announced] at hlevel
    obtain ⟨e, -, he⟩ := Array.mem_map.mp hmem
    cases e with
    | announced => cases he; cases hlevel
    | _ => cases he
  · intro before method depth silent hprefix
    have hstart : false = true ↔
        LaterRound ([] ++ [.entered p.name 0 p.tasks.length]) 0 :=
      iff_of_false Bool.false_ne_true (not_laterRound_zero _)
    have hlevels := levels_execute orderly (Nat.le_refl (maxDepth + 1))
    rw [Nat.sub_self] at hlevels
    have hlog := (hlevels false p ⟨w, #[]⟩ levelled_nil hstart).levelled
    rw [Event.level_announced, ← hlog before method depth silent hprefix, Bool.not_eq_true]

end Standard
end Runbook
