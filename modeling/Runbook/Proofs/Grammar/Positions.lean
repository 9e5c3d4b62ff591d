import Runbook.Proofs.Grammar.Places
import Runbook.Proofs.Registry.Standard
import Runbook.Proofs.Spelling.Positions

/-!
# Where binding errors stand

An error of a text stands at one of its tokens: where the reader takes a place from a token ahead,
it may have kept it for long, but it never makes up one. If the input ends too soon, that is at the
last token.

* `mem_of_bindTokens_error`: the place is that of a token, since it moves as soon as the tokens do.
* `EndsAt`: the input is only found to end at a certain place.
* `endsAt_readTask_readBody`, `endsAt_readTasks`: so do the readers of tasks, with enough fuel.
* `located_of_bindTokens_error`: both.
* `everything_located`: the places of all tokens and errors.
-/

namespace Runbook

namespace ControlFile

/-! ## The places of tokens -/

/-- An error has the place of one of the tokens. -/
theorem mem_of_bindTokens_error {c : Catalog} {name : String} {ts : List Placed} {e : BindError}
    (h : bindTokens c name ts = .error e) : ∃ t ∈ ts, e.position = some t.position := by
  obtain ⟨q, hq⟩ := exists_position_of_bindTokens h
  by_contra hnone
  -- only `q` is moved, so no token is, and then the error must not move either
  let f (p : Position) : Position := if p = q then q.next ' ' else p
  have hmoves : f q ≠ q := by
    intro heq
    have hoffset := congrArg Position.offset heq
    simp [f] at hoffset
  have hfix : ∀ t ∈ ts, f t.position = t.position := by
    intro t ht
    refine if_neg fun heq => hnone ⟨t, ht, ?_⟩
    rw [hq, heq]
  have htokens : moveAll f ts = ts := by
    refine (List.map_congr_left fun t ht => ?_).trans (List.map_id ts)
    rw [Placed.move, hfix t ht]
    rfl
  have hlast : relocate f none (ts.getLast?.map Placed.position) =
      ts.getLast?.map Placed.position := by
    cases hlast : ts.getLast? with
    | none => rfl
    | some t =>
      have ht := hfix t (List.mem_of_getLast? hlast)
      simp [relocate, ht]
  have hread := readTasks_move f none (ts.getLast?.map Placed.position) c (Nat.le_refl ts.length)
    (Nat.le_refl ts.length)
  rw [htokens, hlast, readTasks_of_bindTokens_error h] at hread
  have hposition := congrArg BindError.position (Except.error.inj hread)
  rw [BindError.move, hq] at hposition
  exact hmoves (Option.some.inj hposition).symm

/-! ## The end of the input -/

/-- If it is found that the input ends, that is at `last`. -/
def EndsAt {α : Type} (last : Option Position) (r : Except BindError α) : Prop :=
  ∀ e, r = .error e → e.fault.kind = .unexpectedEnd → e.position = last

section

variable {α β : Type} {last : Option Position}

theorem endsAt_ok (a : α) : EndsAt last (.ok a : Except BindError α) :=
  nofun

theorem endsAt_end (wanted : Expectation) :
    EndsAt last (fail (.endOfInput wanted) last : Except BindError α) := by
  rintro e ⟨⟩ -
  rfl

theorem endsAt_fail {fault : BindFault} (h : fault.kind ≠ .unexpectedEnd)
    (position : Option Position) : EndsAt last (fail fault position : Except BindError α) := by
  rintro e ⟨⟩ hkind
  exact absurd hkind h

theorem EndsAt.bind {x : Except BindError α} {k : α → Except BindError β} (hx : EndsAt last x)
    (hk : ∀ a, x = .ok a → EndsAt last (k a)) : EndsAt last (x >>= k) := by
  cases x with
  | error e => exact fun e' he => hx e' (by cases he; rfl)
  | ok a => exact hk a rfl

theorem EndsAt.map {x : Except BindError α} (hx : EndsAt last x) (f : α → β) :
    EndsAt last (f <$> x) := by
  cases x with
  | error e => exact fun e' he => hx e' (by cases he; rfl)
  | ok a => exact endsAt_ok (f a)

end

section

variable {c : Catalog} (last : Option Position) (m : Method)

theorem endsAt_readMark (mark : Mark) (ts : List Placed) : EndsAt last (readMark last mark ts) := by
  unfold readMark
  split
  case h_1 => exact endsAt_end _
  case h_2 =>
    split
    case isTrue => exact endsAt_ok _
    case isFalse => exact endsAt_fail (by rintro ⟨⟩) _
  case h_3 => exact endsAt_fail (by rintro ⟨⟩) _

theorem endsAt_readMethodName (ts : List Placed) : EndsAt last (readMethodName last ts) := by
  unfold readMethodName
  split
  case h_1 => exact endsAt_end _
  case h_2 => exact endsAt_ok _
  case h_3 => exact endsAt_fail (by rintro ⟨⟩) _

theorem endsAt_readValue (ts : List Placed) :
    (∀ opened, EndsAt last (readValue last opened ts)) ∧
    ∀ opened l, EndsAt last (afterValue last opened l ts) := by
  induction ts with
  | nil =>
    refine ⟨fun opened => ?_, fun opened l => ?_⟩
    · rw [readValue]
      exact endsAt_end _
    · unfold afterValue
      cases opened with
      | nil => exact endsAt_ok _
      | cons => exact endsAt_end _
  | cons t ts ih =>
    obtain ⟨ihread, ihafter⟩ := ih
    obtain ⟨t, p⟩ := t
    constructor
    · intro opened
      unfold readValue
      split
      case h_1 | h_2 | h_3 => exact ihafter _ _
      case h_4 => exact ihread _
      case h_5 => exact ihafter _ _
      case h_6 => exact endsAt_fail (by rintro ⟨⟩) _
    · intro opened l
      unfold afterValue
      split
      case h_1 => exact endsAt_ok _
      case h_2 items outer =>
        split
        case h_1 heq => cases heq
        case h_2 heq =>
          cases heq
          exact ihread _
        case h_3 heq =>
          cases heq
          exact ihafter _ _
        case h_4 => exact endsAt_fail (by rintro ⟨⟩) _

theorem endsAt_readNames (ts : List Placed) : EndsAt last (readNames last ts) := by
  fun_induction readNames last ts with
  | case1 | case2 => exact endsAt_end _
  | case3 s p q ts ih => exact ih.bind fun x _ => endsAt_ok _
  | case4 => exact endsAt_ok _
  | case5 | case6 => exact endsAt_fail (by rintro ⟨⟩) _

theorem endsAt_readNameList (ts : List Placed) : EndsAt last (readNameList last ts) := by
  unfold readNameList
  split
  case h_1 => exact endsAt_readNames last _
  case h_2 => exact endsAt_ok _

theorem endsAt_resolveNames (names : List (String × Position)) (groups : List Group) :
    EndsAt last (resolveNames c m names groups) := by
  fun_induction resolveNames c m names groups with
  | case1 => exact endsAt_fail (by rintro ⟨⟩) _
  | case2 _ _ _ _ _ _ _ _ _ ih => exact ih.map _
  | case3 => exact endsAt_fail (by rintro ⟨⟩) _
  | case4 => exact endsAt_ok _

theorem endsAt_readGenerics (ts : List Placed) : EndsAt last (readGenerics c last m ts) := by
  rw [readGenerics_eq]
  refine (endsAt_readNameList last ts).bind fun x _ => ?_
  split
  case isTrue => exact endsAt_fail (by rintro ⟨⟩) _
  case isFalse => exact (endsAt_resolveNames last m _ _).bind fun ids _ => endsAt_ok _

theorem endsAt_readKeywordName (k : Keyword) (ts : List Placed) :
    EndsAt last (readKeywordName last m k ts) := by
  unfold readKeywordName
  split
  case h_1 => exact endsAt_end _
  case h_2 =>
    split
    case isTrue => exact endsAt_ok _
    case isFalse =>
      split
      case isTrue => exact endsAt_fail (by rintro ⟨⟩) _
      case isFalse => exact endsAt_fail (by rintro ⟨⟩) _
  case h_3 | h_4 => exact endsAt_fail (by rintro ⟨⟩) _
  case h_5 =>
    split
    case isTrue => exact endsAt_ok _
    case isFalse => exact endsAt_fail (by rintro ⟨⟩) _

theorem endsAt_readKeywords (ks : List Keyword) (ts : List Placed) :
    EndsAt last (readKeywords last m ks ts) := by
  induction ks generalizing ts with
  | nil => exact endsAt_ok _
  | cons k ks ih =>
    rw [readKeywords]
    refine (endsAt_readKeywordName last m k ts).bind fun start _ => ?_
    refine ((endsAt_readValue last start).1 []).bind fun x _ => ?_
    obtain ⟨l, rest⟩ := x
    dsimp only
    split
    case h_1 => exact endsAt_fail (by rintro ⟨⟩) _
    case h_2 => exact (ih rest).bind fun y _ => endsAt_ok _

/-- With fuel for all tokens, and one more for a body, no reader stops for a lack of fuel. -/
theorem endsAt_readTask_readBody (fuel : Nat) :
    (∀ ts : List Placed, ts.length ≤ fuel → EndsAt last (readTask c last fuel ts)) ∧
    ∀ (m : Method) (ts : List Placed), ts.length < fuel →
      EndsAt last (readBody c last m fuel ts) := by
  induction fuel with
  | zero =>
    refine ⟨fun ts hlen => ?_, fun _ _ hlen => absurd hlen (Nat.not_lt_zero _)⟩
    obtain rfl := List.length_eq_zero_iff.mp (Nat.le_zero.mp hlen)
    exact endsAt_end _
  | succ fuel ih =>
    obtain ⟨ihtask, ihbody⟩ := ih
    constructor
    · intro ts hlen
      rw [readTask]
      refine (endsAt_readMethodName last ts).bind fun x hname => ?_
      obtain ⟨⟨name, p⟩, ts1⟩ := x
      obtain rfl := readMethodName_sound hname
      dsimp only
      split
      case h_1 => exact endsAt_fail (by rintro ⟨⟩) _
      case h_2 id hid =>
        refine (endsAt_readGenerics last _ ts1).bind fun x hgenerics => ?_
        obtain ⟨ids, ts2⟩ := x
        obtain ⟨gs, rfl, -⟩ := readGenerics_sound hgenerics
        refine (endsAt_readMark last _ ts2).bind fun ts3 hleft => ?_
        obtain ⟨pl, rfl⟩ := readMark_sound hleft
        refine (endsAt_readKeywords last _ _ ts3).bind fun x hkeywords => ?_
        obtain ⟨values, ts4⟩ := x
        obtain ⟨ks, rfl, -⟩ := readKeywords_sound hkeywords
        simp only [List.length_cons, List.length_append] at hlen
        refine (ihbody _ ts4 (by omega)).bind fun x _ => ?_
        exact (endsAt_readMark last _ x.2).bind fun ts6 _ => endsAt_ok _
    · intro m ts hlen
      unfold readBody
      split
      case h_1 s p later =>
        split
        case isTrue =>
          refine (ihtask _ (Nat.le_of_lt_succ hlen)).bind fun x hread => ?_
          have hrest := length_of_readTask last hread
          exact (ihbody m x.2 (by omega)).bind fun y _ => endsAt_ok _
        case isFalse => split <;> exact endsAt_fail (by rintro ⟨⟩) _
      case h_2 => exact endsAt_ok _

theorem endsAt_readTasks {fuel : Nat} {ts : List Placed} (hlen : ts.length ≤ fuel) :
    EndsAt last (readTasks c last fuel ts) := by
  induction fuel generalizing ts with
  | zero =>
    obtain rfl := List.length_eq_zero_iff.mp (Nat.le_zero.mp hlen)
    exact endsAt_ok _
  | succ fuel ih =>
    cases ts with
    | nil => exact endsAt_ok _
    | cons t ts =>
      rw [readTasks]
      · refine ((endsAt_readTask_readBody last (fuel + 1)).1 _ hlen).bind fun x hread => ?_
        have hrest := length_of_readTask last hread
        exact (ih (by omega)).map _
      · simp

end

/-! ## All places -/

/-- **An error stands at one of the tokens**, and at the last one if the input ends too soon. -/
theorem located_of_bindTokens_error {c : Catalog} {name : String} {ts : List Placed}
    {e : BindError} (h : bindTokens c name ts = .error e) :
    ∃ t ∈ ts, e.position = some t.position ∧
      (e.fault.kind = .unexpectedEnd → ts.getLast? = some t) := by
  obtain ⟨t, ht, hposition⟩ := mem_of_bindTokens_error h
  by_cases hkind : e.fault.kind = .unexpectedEnd
  · have hlast := endsAt_readTasks _ (Nat.le_refl ts.length) e (readTasks_of_bindTokens_error h)
      hkind
    rw [hposition] at hlast
    obtain ⟨u, hu, hut⟩ := Option.map_eq_some_iff.mp hlast.symm
    exact ⟨u, List.mem_of_getLast? hu, by rw [hposition, hut], fun _ => hu⟩
  · exact ⟨t, ht, hposition, fun hend => absurd hend hkind⟩

/-- **Every token and every error is located.** If a text can be scanned, it is a text of words with
one token for each, in order and at growing offsets, and each where its lexeme begins: there its
line and column are counted by the line feeds before it. If it cannot be scanned, the place of the
fault is one of the text, or its end, and counted likewise. An error of binding has a place: that of
the fault if the text cannot be scanned, and otherwise the place of one of its tokens, which is the
last one if the input ends too soon. -/
theorem everything_located :
    (∀ source placed, scan source = .ok placed →
      ∃ words final, TokensStand placed words final source.toList) ∧
    (∀ source e, scan source = .error e → e.position.Locates source.toList) ∧
    ∀ c name source e, bindText c name source = .error e →
      match scan source with
      | .error fault => e.fault = .scan fault ∧ e.position = some fault.position
      | .ok placed => ∃ t ∈ placed, e.position = some t.position ∧
          (e.fault.kind = .unexpectedEnd → placed.getLast? = some t) := by
  refine ⟨fun source placed h => tokensStand_of_scan h, fun source e h => locates_of_scan_error h,
    fun c name source e h => ?_⟩
  unfold bindText at h
  cases hscan : scan source with
  | error fault =>
    rw [hscan] at h
    cases h
    exact ⟨rfl, rfl⟩
  | ok placed =>
    rw [hscan] at h
    exact located_of_bindTokens_error h

end ControlFile

namespace Standard

open ControlFile

/-- A control file whose last brace is not closed, and a comment after it. -/
def endsOpen : String :=
  "Touch(numeric_1)\n \x7b # open"

/-- The error of it has the place of that brace, in the second column of the second line. -/
theorem endsOpen_located :
    (∃ placed e t, scan endsOpen = .ok placed ∧
      (∃ words final, TokensStand placed words final endsOpen.toList) ∧
      bindText library.catalog "main" endsOpen = .error e ∧ e.fault.kind = .unexpectedEnd ∧
      placed.getLast? = some t ∧ e.position = some t.position ∧ t.position = ⟨2, 2, 18⟩) ∧
    ∃ e, scan "\"open" = .error e ∧ e.position.Locates "\"open".toList := by
  constructor
  · have hscans : ((scan endsOpen).toOption.bind fun placed =>
        placed.getLast?.map Placed.position) = some ⟨2, 2, 18⟩ := by decide +kernel
    have hends : ((bindText library.catalog "main" endsOpen).map fun p => p.tasks.length).mapError
        (fun e => e.fault.kind) = .error .unexpectedEnd := by decide +kernel
    cases hscan : scan endsOpen with
    | error e =>
      rw [hscan] at hscans
      cases hscans
    | ok placed =>
      rw [hscan] at hscans
      cases hbind : bindText library.catalog "main" endsOpen with
      | ok p =>
        rw [hbind] at hends
        cases hends
      | error e =>
        rw [hbind] at hends
        have hkind := Except.error.inj hends
        have hlocated := everything_located.2.2 library.catalog "main" endsOpen e hbind
        rw [hscan] at hlocated
        obtain ⟨t, -, hposition, hlast⟩ := hlocated
        obtain ⟨u, hu, hut⟩ := Option.map_eq_some_iff.mp hscans
        obtain rfl : t = u := Option.some.inj ((hlast hkind).symm.trans hu)
        exact ⟨placed, e, t, rfl, everything_located.1 endsOpen placed hscan, rfl, hkind,
          hlast hkind, hposition, hut⟩
  · have hfails : (scan "\"open").toOption.isSome = false := by decide +kernel
    cases hscan : scan "\"open" with
    | error e => exact ⟨e, rfl, everything_located.2.1 _ e hscan⟩
    | ok placed =>
      rw [hscan] at hfails
      cases hfails

end Standard
end Runbook
