import Runbook.Proofs.Registry.Registration
import Runbook.Proofs.Registry.Standard

/-!
# Refused registrations

A refused variable or method leaves the builder as it was. A set makes its calls one after the
other and nothing takes them back: when one of them is refused, those before it stay.

* `Registration.calls`: the single calls that a registration comes to.
* `registerAll_calls`: a registration is those calls, but for the sets that its fault names.
* `Builder.Leaves`: what accepted calls leave behind, for names and for a second attempt.
* `refused_leaves_accepted`: a refused registration leaves the calls before the failing one.
* `refused_set_changes`: so a refused set may change the builder.
-/

namespace Runbook

/-- The fault of the call that failed, without the sets around it. -/
def LibraryFault.innermost : LibraryFault → LibraryFault
  | inSet _ fault => fault.innermost
  | fault => fault

namespace Registration

mutual

/-- The single calls that a registration comes to, in order. -/
def calls : Registration → List Registration
  | .ofVariable v => [.ofVariable v]
  | .ofMethod m => [.ofMethod m]
  | .ofSet _ _ members => allCalls members

/-- Those of several registrations. -/
def allCalls : List Registration → List Registration
  | [] => []
  | r :: rs => r.calls ++ allCalls rs

end

/-- A call that registers one variable or one method. -/
inductive Single : Registration → Prop where
  | ofVariable (v : Variable) : Single (.ofVariable v)
  | ofMethod (m : MethodSpec) : Single (.ofMethod m)

mutual

theorem single_of_mem_calls (r : Registration) : ∀ c ∈ r.calls, c.Single := by
  cases r with
  | ofVariable v =>
    rw [calls]
    exact List.forall_mem_singleton.mpr (.ofVariable v)
  | ofMethod m =>
    rw [calls]
    exact List.forall_mem_singleton.mpr (.ofMethod m)
  | ofSet name description members =>
    rw [calls]
    exact single_of_mem_allCalls members

theorem single_of_mem_allCalls (rs : List Registration) : ∀ c ∈ allCalls rs, c.Single := by
  cases rs with
  | nil =>
    rw [allCalls]
    exact nofun
  | cons r rs =>
    rw [allCalls]
    exact List.forall_mem_append.mpr ⟨single_of_mem_calls r, single_of_mem_allCalls rs⟩

end

end Registration

open Registration (allCalls allVars allMethods)

namespace Builder

variable {b b' : Builder}

/-! ## Single calls -/

/-- A refused call changes nothing, and its fault names no set. -/
theorem of_refused_single {c : Registration} (hc : c.Single) {e : LibraryFault}
    (h : b.register c = (.error e, b')) : b' = b ∧ e.innermost = e := by
  cases hc with
  | ofVariable v =>
    rw [register, addVariable] at h
    by_cases hgroup : v.group = .any
    · rw [if_pos hgroup] at h
      cases h
      exact ⟨rfl, rfl⟩
    · rw [if_neg hgroup] at h
      by_cases htaken : b.variableIndex.contains v.name = true
      · rw [if_pos htaken] at h
        cases h
        exact ⟨rfl, rfl⟩
      · rw [if_neg htaken] at h
        cases h
  | ofMethod m =>
    rw [register, addMethod] at h
    by_cases htaken : b.methodIndex.contains m.name = true
    · rw [if_pos htaken] at h
      cases h
      exact ⟨rfl, rfl⟩
    · rw [if_neg htaken] at h
      cases hfind : m.keywords.find? fun k => k.group = .pipeline with
      | some k =>
        rw [hfind] at h
        cases h
        exact ⟨rfl, rfl⟩
      | none =>
        rw [hfind] at h
        cases h

/-- The names of variables that have been added are taken. -/
theorem Gains.contains_variable {vs : List Variable} {ms : List MethodSpec} (h : b.Gains vs ms b')
    {v : Variable} (hv : v ∈ vs) : b'.variableIndex.contains v.name = true := by
  have hgrows := h.variableIndex
  rw [h.vars] at hgrows
  exact hgrows.contains VariableId.index_bijective.2 hv

theorem Gains.contains_method {vs : List Variable} {ms : List MethodSpec} (h : b.Gains vs ms b')
    {m : MethodSpec} (hm : m ∈ ms) : b'.methodIndex.contains m.name = true := by
  have hgrows := h.methodIndex
  rw [h.methods] at hgrows
  exact hgrows.contains MethodId.index_bijective.2 hm

/-- A call that registers what has been added already is refused: its name is taken. -/
theorem Gains.refuses {vs : List Variable} {ms : List MethodSpec} (h : b.Gains vs ms b')
    {c : Registration} (hc : c.Single) (hvars : c.vars ⊆ vs) (hmethods : c.methods ⊆ ms) :
    ∃ e, b'.register c = (.error e, b') := by
  cases hc with
  | ofVariable v =>
    rw [Registration.vars] at hvars
    rw [register, addVariable, if_pos (h.contains_variable (hvars List.mem_cons_self))]
    by_cases hgroup : v.group = .any
    · rw [if_pos hgroup]
      exact ⟨_, rfl⟩
    · rw [if_neg hgroup]
      exact ⟨_, rfl⟩
  | ofMethod m =>
    rw [Registration.methods] at hmethods
    rw [register, addMethod, if_pos (h.contains_method (hmethods List.mem_cons_self))]
    exact ⟨_, rfl⟩

/-! ## Calls in a row -/

theorem registerAll_append (b : Builder) (rs ss : List Registration) :
    b.registerAll (rs ++ ss) =
      match b.registerAll rs with
      | (.ok (), b) => b.registerAll ss
      | (.error e, b) => (.error e, b) := by
  induction rs generalizing b with
  | nil =>
    rw [List.nil_append]
    simp only [registerAll]
  | cons r rs ih =>
    rw [List.cons_append, registerAll, registerAll]
    rcases b.register r with ⟨_ | _, after⟩
    · rfl
    · exact ih after

/-- The first refused call ends the row. -/
theorem exists_refused_of_registerAll {rs : List Registration} {e : LibraryFault}
    (h : b.registerAll rs = (.error e, b')) :
    ∃ before c after mid, rs = before ++ c :: after ∧ b.registerAll before = (.ok (), mid) ∧
      mid.register c = (.error e, b') := by
  induction rs generalizing b with
  | nil =>
    rw [registerAll] at h
    cases h
  | cons r rs ih =>
    rw [registerAll] at h
    rcases hr : b.register r with ⟨_ | _, next⟩
    · rw [hr] at h
      cases h
      exact ⟨[], r, rs, b, rfl, by rw [registerAll], hr⟩
    · rw [hr] at h
      obtain ⟨before, c, after, mid, rfl, hbefore, hc⟩ := ih h
      refine ⟨r :: before, c, after, mid, rfl, ?_, hc⟩
      rw [registerAll, hr]
      exact hbefore

/-! ## Sets -/

/-- The answer without the sets that the fault names. -/
def bare (r : Except LibraryFault Unit × Builder) : Except LibraryFault Unit × Builder :=
  (r.1.mapError LibraryFault.innermost, r.2)

theorem registerAll_single {c : Registration} (hc : c.Single) :
    b.registerAll [c] = bare (b.register c) := by
  rw [registerAll]
  rcases h : b.register c with ⟨e | _, after⟩
  · have hbare := (of_refused_single hc h).2
    rw [bare, Except.mapError, hbare]
  · change after.registerAll [] = _
    rw [registerAll]
    rfl

mutual

/-- **A registration is its single calls in a row**, but for the sets that its fault names. -/
theorem registerAll_calls (b : Builder) (r : Registration) :
    b.registerAll r.calls = bare (b.register r) := by
  cases r with
  | ofVariable v =>
    rw [Registration.calls]
    exact registerAll_single (.ofVariable v)
  | ofMethod m =>
    rw [Registration.calls]
    exact registerAll_single (.ofMethod m)
  | ofSet name description members =>
    rw [Registration.calls, register, registerAll_allCalls b members]
    rcases b.registerAll members with ⟨_ | _, after⟩
    · rfl
    · rfl

theorem registerAll_allCalls (b : Builder) (rs : List Registration) :
    b.registerAll (allCalls rs) = bare (b.registerAll rs) := by
  cases rs with
  | nil =>
    rw [allCalls, registerAll]
    rfl
  | cons r rs =>
    rw [allCalls, registerAll_append, registerAll_calls b r, registerAll]
    rcases b.register r with ⟨_ | _, after⟩
    · rfl
    · exact registerAll_allCalls after rs

end

/-! ## What is left -/

/-- What the calls `accepted` leave behind, from `b` to `b'`: their variables and methods are added
to what there was, in the lists and in the indexes, where every name keeps its id; and a set that
begins with them is refused from then on. -/
structure Leaves (b : Builder) (accepted : List Registration) (b' : Builder) : Prop extends
    b.Gains (allVars accepted) (allMethods accepted) b' where
  findVariable? : ∀ name id, b.findVariable? name = some id → b'.findVariable? name = some id
  findMethod? : ∀ name id, b.findMethod? name = some id → b'.findMethod? name = some id
  unchanged_iff : b' = b ↔ accepted = []
  repeated : accepted ≠ [] → ∀ name description members rest,
    allCalls members = accepted ++ rest →
      ∃ e, b'.register (.ofSet name description members) = (.error e, b')

/-- A row of calls whose first one is refused changes nothing. -/
theorem refused_of_first {c : Registration} {rest members : List Registration} {name : String}
    {description : String} (hcalls : allCalls members = c :: rest)
    (h : ∃ e, b.register c = (.error e, b)) :
    ∃ e, b.register (.ofSet name description members) = (.error e, b) := by
  obtain ⟨e, he⟩ := h
  have hbare := registerAll_allCalls b members
  rw [hcalls, registerAll, he] at hbare
  rw [register]
  rcases hmembers : b.registerAll members with ⟨fault | _, after⟩
  · rw [hmembers] at hbare
    cases (Prod.mk.inj hbare).2
    exact ⟨_, rfl⟩
  · rw [hmembers] at hbare
    cases (Prod.mk.inj hbare).1

theorem leaves_of_registerAll {accepted : List Registration} (hsingle : ∀ c ∈ accepted, c.Single)
    (h : b.registerAll accepted = (.ok (), b')) : b.Leaves accepted b' := by
  have hgains := gains_of_registerAll h
  -- the first accepted call has taken a name
  have hfirst : ∀ c rest, accepted = c :: rest →
      (∃ next, b.register c = (.ok (), next)) ∧ ∃ e, b'.register c = (.error e, b') := by
    rintro c rest rfl
    rw [allVars, allMethods] at hgains
    refine ⟨?_, hgains.refuses (hsingle c List.mem_cons_self) (List.subset_append_left _ _)
      (List.subset_append_left _ _)⟩
    rw [registerAll] at h
    rcases hc : b.register c with ⟨_ | _, next⟩
    · rw [hc] at h
      cases h
    · exact ⟨next, rfl⟩
  refine ⟨hgains, fun _ _ => hgains.variableIndex.find?, fun _ _ => hgains.methodIndex.find?,
    ?_, ?_⟩
  · constructor
    · rintro rfl
      cases accepted with
      | nil => rfl
      | cons c rest =>
        obtain ⟨⟨next, hok⟩, e, herror⟩ := hfirst c rest rfl
        rw [hok] at herror
        cases herror
    · rintro rfl
      rw [registerAll] at h
      cases h
      rfl
  · intro hne name description members rest hcalls
    obtain ⟨c, others, rfl⟩ := List.exists_cons_of_ne_nil hne
    exact refused_of_first hcalls (hfirst c others rfl).2

end Builder

/-- **A refused registration leaves the calls before the failing one, and nothing else.** A refused
variable or method leaves the builder as it was, lists and indexes. A refused set leaves it as its
calls before the failing one do when they are made by themselves; the failing call adds nothing. So
variables and methods from before keep their places and names, those of the accepted calls follow,
and the builder is unchanged exactly if the first call fails; otherwise a corrected set that begins
with the same calls is refused again. -/
theorem refused_leaves_accepted {b b' : Builder} {r : Registration} {e : LibraryFault}
    (h : b.register r = (.error e, b')) :
    (r.Single → b' = b) ∧
    ∃ accepted c later, r.calls = accepted ++ c :: later ∧
      b.registerAll accepted = (.ok (), b') ∧ b'.register c = (.error e.innermost, b') ∧
      b.Leaves accepted b' := by
  refine ⟨fun hr => (Builder.of_refused_single hr h).1, ?_⟩
  have hcalls := b.registerAll_calls r
  rw [h] at hcalls
  obtain ⟨accepted, c, later, mid, heq, haccepted, hc⟩ :=
    Builder.exists_refused_of_registerAll hcalls
  have hsingle := r.single_of_mem_calls
  rw [heq] at hsingle
  obtain ⟨rfl, -⟩ := Builder.of_refused_single
    (hsingle c (List.mem_append_right _ List.mem_cons_self)) hc
  exact ⟨accepted, c, later, heq, haccepted, hc,
    Builder.leaves_of_registerAll (fun x hx => hsingle x (List.mem_append_left _ hx)) haccepted⟩

/-- A set that registers a variable twice, from within another set. -/
def repeatsVariable : Registration :=
  .ofSet "outer" "" [.ofSet "inner" "" [.ofVariable ⟨"a", .index, ""⟩],
    .ofVariable ⟨"a", .numeric, ""⟩, .ofVariable ⟨"b", .index, ""⟩]

/-- The first of its calls stays, and the corrected set is refused. -/
theorem repeatsVariable_leaves_first :
    ∃ b', Builder.empty.register repeatsVariable =
        (.error (.inSet "outer" (.variableTaken "a")), b') ∧
      b'.vars = [⟨"a", .index, ""⟩] ∧
      ∃ e, b'.register (.ofSet "outer" "" [.ofVariable ⟨"a", .index, ""⟩,
        .ofVariable ⟨"b", .index, ""⟩]) = (.error e, b') := by
  have h : Builder.empty.register repeatsVariable =
      (.error (.inSet "outer" (.variableTaken "a")),
        ⟨[⟨"a", .index, ""⟩], ⟨[("a", ⟨0⟩)]⟩, [], .empty⟩) := by rfl
  obtain ⟨-, accepted, c, later, hcalls, haccepted, -, hleaves⟩ := refused_leaves_accepted h
  have hvars := hleaves.vars
  change [.ofVariable _, .ofVariable _, .ofVariable _] = accepted ++ c :: later at hcalls
  -- one variable was accepted, so it is the first call alone
  rcases accepted with _ | ⟨x, _ | ⟨y, rest⟩⟩
  · cases hvars
  · obtain rfl := (List.cons.inj hcalls).1
    exact ⟨_, h, rfl, hleaves.repeated (by simp) _ _ _ _ rfl⟩
  · obtain ⟨rfl, hlater⟩ := List.cons.inj hcalls
    obtain rfl := (List.cons.inj hlater).1
    cases hvars

/-- **A refused set may change the builder**: one that registers a variable twice leaves the first
one behind. -/
theorem refused_set_changes :
    ¬ ∀ (before : List Registration) (r : Registration) (e : LibraryFault) (b' : Builder),
      (Builder.empty.registerEach before).register r = (.error e, b') →
        b' = Builder.empty.registerEach before := by
  intro hall
  have hsame := hall [] repeatsVariable _ _ rfl
  have hvars := congrArg Builder.vars hsame
  cases hvars

end Runbook
