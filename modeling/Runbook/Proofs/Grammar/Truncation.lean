import Runbook.Proofs.Grammar.Phrases
import Runbook.Proofs.Grammar.Places
import Runbook.Proofs.Registry.Standard

/-!
# Truncated control files

A control file that binds, cut off after some token. If tasks remain, and nothing else, they are
bound. Otherwise the input is found to end too soon, but for two places where what comes next is
decided by the token after a name: there the name alone is taken for something else, and the error
is about what seems to be missing.

* `CutFault`: what is wrong with a text that was cut off.
* `SameOrCut`: a reader of the truncated text reads the same, or meets such a fault.
* `readTask_readBody_cut`: so do the readers of tasks.
* `truncated_refused`: what a truncated control file is refused for.
* `not_always_unexpected_end`: so it is not always the end of the input that is reported.
-/

namespace Runbook

namespace ControlFile

open TaskPhrase (allTokens)

/-! ## What is wrong with a truncated text -/

/-- The token tells what the name before it is: after that of a method there may be a parenthesis,
and after that of a keyword there is a sign. -/
def followsName : Token → Bool
  | .mark .leftParen | .mark .equals => true
  | _ => false

/-- What is cut off begins with such a token. -/
def CutsName (after : List Placed) : Prop :=
  ∃ t ∈ after.head?, followsName t.token = true

instance (after : List Placed) : Decidable (CutsName after) :=
  inferInstanceAs (Decidable (∃ t ∈ after.head?, followsName t.token = true))

theorem CutsName.eq_cons {after : List Placed} (h : CutsName after) :
    ∃ p later, after = ⟨.mark .leftParen, p⟩ :: later ∨ after = ⟨.mark .equals, p⟩ :: later := by
  obtain ⟨⟨t, p⟩, hhead, ht⟩ := h
  obtain ⟨later, rfl⟩ := List.head?_eq_some_iff.mp hhead
  obtain rfl | rfl : t = .mark .leftParen ∨ t = .mark .equals := by
    dsimp only [followsName] at ht
    split at ht <;> simp_all
  · exact ⟨p, later, .inl rfl⟩
  · exact ⟨p, later, .inr rfl⟩

theorem not_cutsName_cons_name (name : String) (p : Position) (ts : List Placed) :
    ¬CutsName (⟨.name name, p⟩ :: ts) := by
  rintro ⟨t, ⟨⟩, ⟨⟩⟩

/-- What is wrong with `before` if `after` is cut off. -/
inductive CutFault (c : Catalog) (before after : List Placed) : BindFault → Prop where
  /-- The name of a method with generic slots: no variables are given. -/
  | method {name : String} {p q : Position} {id : MethodId} :
    before.getLast? = some ⟨.name name, p⟩ → after.head? = some ⟨.mark .leftParen, q⟩ →
    c.findMethod? name = some id → (c.methodAt id).generics ≠ [] →
      CutFault c before after
        (.genericCount (c.methodAt id).name (c.methodAt id).generics.length 0)
  /-- The name of a keyword: that keyword is missing. -/
  | keyword {p q : Position} {id : MethodId} {k : Keyword} :
    before.getLast? = some ⟨.name k.name, p⟩ → after.head? = some ⟨.mark .equals, q⟩ →
    k ∈ (c.methodAt id).keywords →
      CutFault c before after (.missingKeyword (c.methodAt id).name k.name)
  /-- Any other token: the input ends. -/
  | ends (wanted : Expectation) : ¬CutsName after → CutFault c before after (.endOfInput wanted)

/-- The input is only found to end if what is cut off begins with no mark of a name. -/
theorem CutFault.kind_iff {c : Catalog} {before after : List Placed} {fault : BindFault}
    (h : CutFault c before after fault) :
    (fault.kind = .unexpectedEnd ↔ ¬CutsName after) ∧
      (fault.kind = .wrongArity ↔ CutsName after) := by
  cases h with
  | method _ hafter =>
    have hcut : CutsName after := ⟨_, hafter, rfl⟩
    exact ⟨iff_of_false nofun (not_not.mpr hcut), iff_of_true rfl hcut⟩
  | keyword _ hafter =>
    have hcut : CutsName after := ⟨_, hafter, rfl⟩
    exact ⟨iff_of_false nofun (not_not.mpr hcut), iff_of_true rfl hcut⟩
  | ends _ hno => exact ⟨iff_of_true rfl hno, iff_of_false nofun hno⟩

theorem CutFault.of_suffix {c : Catalog} {mid after : List Placed} {fault : BindFault}
    (passed : List Placed) (h : CutFault c mid after fault) :
    CutFault c (passed ++ mid) after fault := by
  have hlast {t : Placed} (ht : mid.getLast? = some t) : (passed ++ mid).getLast? = some t := by
    rw [List.getLast?_append, ht, Option.some_or]
  cases h with
  | method hbefore hafter hid hgenerics => exact .method (hlast hbefore) hafter hid hgenerics
  | keyword hbefore hafter hk => exact .keyword (hlast hbefore) hafter hk
  | ends wanted hno => exact .ends wanted hno

/-- Reading `before` meets a fault of a text that was cut off. -/
def CutShort {α : Type} (c : Catalog) (before after : List Placed) (answer : Except BindError α) :
    Prop :=
  ∃ e, answer = .error e ∧ CutFault c before after e.fault

/-- Where the reader of the whole text gives an answer, that of the truncated one gives the same,
but for what is left to read, or is cut short. -/
def SameOrCut {α : Type} (c : Catalog) (before after : List Placed) (lengthen : α → α)
    (whole short : Except BindError α) : Prop :=
  ∀ y, whole = .ok y → (∃ x, y = lengthen x ∧ short = .ok x) ∨ CutShort c before after short

/-- What is left to read, if nothing is cut off. -/
def withRest {α : Type} (after : List Placed) (x : α × List Placed) : α × List Placed :=
  (x.1, x.2 ++ after)

section

variable {α β : Type} {c : Catalog} {before after : List Placed}

theorem cutShort_end (wanted : Expectation) (position : Option Position) (h : ¬CutsName after) :
    CutShort c before after (fail (.endOfInput wanted) position : Except BindError α) :=
  ⟨_, rfl, .ends wanted h⟩

theorem CutShort.bind {x : Except BindError α} (h : CutShort c before after x)
    (k : α → Except BindError β) : CutShort c before after (x >>= k) := by
  obtain ⟨e, rfl, he⟩ := h
  exact ⟨e, rfl, he⟩

theorem CutShort.map {x : Except BindError α} (h : CutShort c before after x) (f : α → β) :
    CutShort c before after (f <$> x) := by
  obtain ⟨e, rfl, he⟩ := h
  exact ⟨e, rfl, he⟩

theorem CutShort.of_suffix {x : Except BindError α} (passed : List Placed)
    (h : CutShort c before after x) : CutShort c (passed ++ before) after x := by
  obtain ⟨e, rfl, he⟩ := h
  exact ⟨e, rfl, he.of_suffix passed⟩

variable {f : α → α} {g : β → β}

theorem sameOrCut_ok (x : α) : SameOrCut c before after f (.ok (f x)) (.ok x) := by
  rintro _ ⟨⟩
  exact .inl ⟨x, rfl, rfl⟩

theorem sameOrCut_fail (fault : BindFault) (position : Option Position)
    (short : Except BindError α) : SameOrCut c before after f (fail fault position) short :=
  nofun

theorem SameOrCut.of_suffix {whole short : Except BindError α} (passed : List Placed)
    (h : SameOrCut c before after f whole short) :
    SameOrCut c (passed ++ before) after f whole short :=
  fun y hy => (h y hy).imp_right (CutShort.of_suffix passed)

theorem SameOrCut.bind {whole short : Except BindError α} {k k' : α → Except BindError β}
    (h : SameOrCut c before after f whole short)
    (hk : ∀ x, whole = .ok (f x) → short = .ok x → SameOrCut c before after g (k (f x)) (k' x)) :
    SameOrCut c before after g (whole >>= k) (short >>= k') := by
  intro z hz
  obtain ⟨y, hy, hz⟩ := bind_eq_ok.mp hz
  rcases h y hy with ⟨x, rfl, hx⟩ | hcut
  · rw [hx]
    exact hk x hy hx z hz
  · exact .inr (hcut.bind k')

end

/-! ## Marks, literals and names -/

section

variable {c : Catalog} (last last' : Option Position) (m : Method) (after : List Placed)

theorem readMark_cut {mark : Mark} (hparen : mark ≠ .leftParen) (hequals : mark ≠ .equals)
    (before : List Placed) :
    SameOrCut c before after (· ++ after) (readMark last mark (before ++ after))
      (readMark last' mark before) := by
  intro rest h
  obtain ⟨p, heq⟩ := readMark_sound h
  cases before with
  | nil =>
    refine .inr (cutShort_end _ _ ?_)
    obtain rfl : after = _ := heq
    intro hcut
    obtain ⟨q, later, heq | heq⟩ := hcut.eq_cons
    · cases heq
      exact hparen rfl
    · cases heq
      exact hequals rfl
  | cons t ts =>
    cases heq
    exact .inl ⟨ts, rfl, readMark_cons mark p ts⟩

/-- No literal begins with a mark of a name, and none goes on with one. -/
theorem not_cutsName_of_readValue {after : List Placed} {opened : List (List Literal)}
    {y : Literal × List Placed} (h : readValue last opened after = .ok y) : ¬CutsName after := by
  intro hcut
  obtain ⟨p, later, rfl | rfl⟩ := hcut.eq_cons <;> simp [readValue, fail] at h

theorem not_cutsName_of_afterValue {after : List Placed} {opened : List (List Literal)}
    {items : List Literal} {l : Literal} {y : Literal × List Placed}
    (h : afterValue last (items :: opened) l after = .ok y) : ¬CutsName after := by
  intro hcut
  obtain ⟨p, later, rfl | rfl⟩ := hcut.eq_cons <;> simp [afterValue, fail] at h

theorem readValue_cut (before : List Placed) :
    (∀ opened, SameOrCut c before after (withRest after) (readValue last opened (before ++ after))
      (readValue last' opened before)) ∧
    ∀ opened l, SameOrCut c before after (withRest after)
      (afterValue last opened l (before ++ after)) (afterValue last' opened l before) := by
  induction before with
  | nil =>
    refine ⟨fun opened y h => .inr ?_, fun opened l => ?_⟩
    · rw [readValue]
      exact cutShort_end _ _ (not_cutsName_of_readValue last h)
    · cases opened with
      | nil =>
        rw [afterValue, afterValue]
        exact sameOrCut_ok (l, [])
      | cons items outer =>
        intro y h
        exact .inr (cutShort_end _ _ (not_cutsName_of_afterValue last h))
  | cons t ts ih =>
    obtain ⟨ihread, ihafter⟩ := ih
    obtain ⟨t, p⟩ := t
    have hsuffix {whole short : Except BindError (Literal × List Placed)}
        (h : SameOrCut c ts after (withRest after) whole short) :
        SameOrCut c (⟨t, p⟩ :: ts) after (withRest after) whole short :=
      h.of_suffix [⟨t, p⟩]
    constructor
    · intro opened
      rw [List.cons_append]
      unfold readValue
      split
      case h_1 | h_2 | h_3 | h_5 => exact hsuffix (ihafter _ _)
      case h_4 => exact hsuffix (ihread _)
      case h_6 => exact sameOrCut_fail _ _ _
    · intro opened l
      cases opened with
      | nil =>
        rw [afterValue, afterValue]
        exact sameOrCut_ok (l, ⟨t, p⟩ :: ts)
      | cons items outer =>
        rw [List.cons_append]
        unfold afterValue
        split
        case h_1 heq => cases heq
        case h_2 heq =>
          cases heq
          exact hsuffix (ihread _)
        case h_3 heq =>
          cases heq
          exact hsuffix (ihafter _ _)
        case h_4 => exact sameOrCut_fail _ _ _

theorem readNames_cut (before : List Placed) :
    SameOrCut c before after (withRest after) (readNames last (before ++ after))
      (readNames last' before) := by
  fun_induction readNames last' before with
  | case1 =>
    refine fun y h => .inr (cutShort_end _ _ fun hcut => ?_)
    obtain ⟨p, later, rfl | rfl⟩ := hcut.eq_cons <;> simp [readNames, fail] at h
  | case2 s p =>
    refine fun y h => .inr (cutShort_end _ _ fun hcut => ?_)
    obtain ⟨p, later, rfl | rfl⟩ := hcut.eq_cons <;> simp [readNames, fail] at h
  | case3 s p q ts ih =>
    refine (ih.of_suffix [⟨.name s, p⟩, ⟨.mark .comma, q⟩]).bind fun x _ _ => ?_
    exact sameOrCut_ok ((s, p) :: x.1, x.2)
  | case4 s p q ts => exact sameOrCut_ok ([(s, p)], ts)
  | case5 s p t q ts hcomma hparen =>
    have hwhole : readNames last (⟨.name s, p⟩ :: ⟨t, q⟩ :: (ts ++ after)) =
        fail (.unexpected (.commaOr .rightParen) t.text) (some q) := by
      simp_all [readNames]
    rw [List.cons_append, List.cons_append, hwhole]
    exact sameOrCut_fail _ _ _
  | case6 t p ts hlone hcomma hparen hother =>
    have hname : ∀ s, t ≠ .name s := by
      rintro s rfl
      cases ts with
      | nil => exact hlone s rfl rfl
      | cons u us => exact hother s u.token u.position us rfl rfl
    rw [List.cons_append, readNames]
    · exact sameOrCut_fail _ _ _
    all_goals simp_all

/-- Unless the parenthesis itself is cut off, the names are read alike. -/
theorem readNameList_cut {before : List Placed}
    (h : before = [] → ∀ q later, after ≠ ⟨.mark .leftParen, q⟩ :: later) :
    SameOrCut c before after (withRest after) (readNameList last (before ++ after))
      (readNameList last' before) := by
  have hnone : ∀ (last : Option Position) (ts : List Placed),
      (∀ q later, ts ≠ ⟨.mark .leftParen, q⟩ :: later) → readNameList last ts = .ok ([], ts) := by
    intro last ts hts
    unfold readNameList
    split
    case h_1 => exact absurd rfl (hts _ _)
    case h_2 => rfl
  rcases before with _ | ⟨⟨t, p⟩, ts⟩
  · rw [hnone last' [] nofun, List.nil_append, hnone last after (h rfl)]
    exact sameOrCut_ok ([], [])
  · by_cases ht : t = .mark .leftParen
    · subst ht
      exact (readNames_cut last last' after ts).of_suffix [⟨.mark .leftParen, p⟩]
    · rw [hnone last' (⟨t, p⟩ :: ts) (by simp [ht]), hnone last _ (by simp [ht])]
      exact sameOrCut_ok ([], ⟨t, p⟩ :: ts)

/-- After the name of a method, its variables are read alike, or none seem to be given. -/
theorem readGenerics_cut {name : String} {id : MethodId} (p : Position)
    (hid : c.findMethod? name = some id) (before : List Placed) :
    SameOrCut c (⟨.name name, p⟩ :: before) after (withRest after)
      (readGenerics c last (c.methodAt id) (before ++ after))
      (readGenerics c last' (c.methodAt id) before) := by
  rw [readGenerics_eq, readGenerics_eq]
  by_cases hparen : before = [] ∧ ∃ q later, after = ⟨.mark .leftParen, q⟩ :: later
  · obtain ⟨rfl, q, later, rfl⟩ := hparen
    intro y h
    obtain ⟨⟨names, rest⟩, hnames, h⟩ := bind_eq_ok.mp h
    obtain ⟨-, -, -, hne⟩ := readNames_sound hnames
    have hcount : names.length = (c.methodAt id).generics.length := by
      by_contra hcount
      simp [hcount, fail] at h
    have hslots : 0 ≠ (c.methodAt id).generics.length :=
      fun hzero => hne (List.length_eq_zero_iff.mp (hcount.trans hzero.symm))
    have hgenerics : (c.methodAt id).generics ≠ [] := by
      rintro hnil
      simp [hnil] at hslots
    refine .inr ⟨_, if_pos hslots, .method rfl rfl hid hgenerics⟩
  · have hnames : SameOrCut c before after (withRest after) (readNameList last (before ++ after))
        (readNameList last' before) := by
      refine readNameList_cut last last' after fun hnil q later heq => ?_
      exact hparen ⟨hnil, q, later, heq⟩
    refine (hnames.of_suffix [⟨.name name, p⟩]).bind fun x _ _ => ?_
    dsimp only [withRest]
    split
    case isTrue => exact sameOrCut_fail _ _ _
    case isFalse =>
      intro y h
      obtain ⟨ids, hids, h⟩ := bind_eq_ok.mp h
      cases h
      rw [hids]
      exact .inl ⟨(ids, x.2), rfl, rfl⟩

/-! ## Keywords -/

/-- The name of a keyword is read alike, or the keyword seems to be missing. -/
theorem readKeywordName_cut {id : MethodId} {k : Keyword} (hk : k ∈ (c.methodAt id).keywords)
    (before : List Placed) :
    SameOrCut c before after (· ++ after)
      (readKeywordName last (c.methodAt id) k (before ++ after))
      (readKeywordName last' (c.methodAt id) k before) := by
  intro rest h
  rcases readKeywordName_sound h with ⟨p, q, heq⟩ | ⟨hone, heq, hbare⟩
  · rcases before with _ | ⟨t, _ | ⟨u, ts⟩⟩
    · obtain rfl : after = _ := heq
      exact .inr (cutShort_end _ _ (not_cutsName_cons_name k.name p _))
    · cases heq
      exact .inr ⟨_, rfl, .keyword rfl rfl hk⟩
    · cases heq
      refine .inl ⟨ts, rfl, ?_⟩
      rw [readKeywordName, if_pos rfl]
  · subst heq
    obtain ⟨t, p, ts, heq, hstart⟩ := hbare
    rcases before with _ | ⟨u, us⟩
    · obtain rfl : after = _ := heq
      refine .inr (cutShort_end _ _ ?_)
      intro hcut
      obtain ⟨q, later, heq | heq⟩ := hcut.eq_cons
      · cases heq
        cases hstart
      · cases heq
        cases hstart
    · cases heq
      exact .inl ⟨⟨t, p⟩ :: us, rfl, readKeywordName_bare k p us hone hstart⟩

theorem readKeywords_cut {id : MethodId} {ks : List Keyword}
    (hks : ∀ k ∈ ks, k ∈ (c.methodAt id).keywords) (before : List Placed) :
    SameOrCut c before after (withRest after)
      (readKeywords last (c.methodAt id) ks (before ++ after))
      (readKeywords last' (c.methodAt id) ks before) := by
  induction ks generalizing before with
  | nil => exact sameOrCut_ok ([], before)
  | cons k ks ih =>
    obtain ⟨hk, hks⟩ := List.forall_mem_cons.mp hks
    rw [readKeywords, readKeywords]
    refine (readKeywordName_cut last last' after hk before).bind fun start _ hname => ?_
    obtain ⟨named, rfl⟩ : ∃ named, before = named ++ start := by
      rcases readKeywordName_sound hname with ⟨p, q, rfl⟩ | ⟨-, rfl, -⟩
      · exact ⟨[_, _], rfl⟩
      · exact ⟨[], rfl⟩
    refine (((readValue_cut last last' after start).1 []).of_suffix named).bind
      fun x _ hliteral => ?_
    obtain ⟨l, rest⟩ := x
    obtain ⟨passed, rfl, -⟩ := readLiteral_sound hliteral
    dsimp only [withRest]
    split
    case h_1 => exact sameOrCut_fail _ _ _
    case h_2 v hv =>
      rw [← List.append_assoc]
      refine ((ih hks rest).of_suffix (named ++ passed)).bind fun y _ _ => ?_
      exact sameOrCut_ok (v :: y.1, y.2)

/-! ## Tasks -/

theorem readMethodName_cut (before : List Placed) :
    SameOrCut c before after (withRest after) (readMethodName last (before ++ after))
      (readMethodName last' before) := by
  rintro ⟨⟨name, p⟩, rest⟩ h
  have heq := readMethodName_sound h
  rcases before with _ | ⟨t, ts⟩
  · obtain rfl : after = _ := heq
    exact .inr (cutShort_end _ _ (not_cutsName_cons_name name p _))
  · cases heq
    exact .inl ⟨((name, p), ts), rfl, rfl⟩

/-- The tasks in a body are read alike or cut short; or they end with the input, and it is left to
the brace after them to find that out. -/
def BodyCut (c : Catalog) (before after : List Placed)
    (whole short : Except BindError (List Task × List Placed)) : Prop :=
  ∀ y, whole = .ok y → (∃ x, y = withRest after x ∧ short = .ok x) ∨
    CutShort c before after short ∨ (¬CutsName after ∧ ∃ ts, short = .ok (ts, []))

section

variable {before : List Placed} {whole short : Except BindError (List Task × List Placed)}

theorem SameOrCut.bodyCut {after : List Placed}
    (h : SameOrCut c before after (withRest after) whole short) :
    BodyCut c before after whole short :=
  fun y hy => (h y hy).imp_right .inl

theorem BodyCut.of_suffix {after : List Placed} (passed : List Placed)
    (h : BodyCut c before after whole short) :
    BodyCut c (passed ++ before) after whole short :=
  fun y hy => (h y hy).imp_right (.imp_left (CutShort.of_suffix passed))

theorem SameOrCut.bindBody {α : Type} {after : List Placed} {f : α → α}
    {whole short : Except BindError α} {k k' : α → Except BindError (List Task × List Placed)}
    (h : SameOrCut c before after f whole short)
    (hk : ∀ x, whole = .ok (f x) → short = .ok x → BodyCut c before after (k (f x)) (k' x)) :
    BodyCut c before after (whole >>= k) (short >>= k') := by
  intro z hz
  obtain ⟨y, hy, hz⟩ := bind_eq_ok.mp hz
  rcases h y hy with ⟨x, rfl, hx⟩ | hcut
  · rw [hx]
    exact hk x hy hx z hz
  · exact .inr (.inl (hcut.bind k'))

theorem BodyCut.cons {after : List Placed} (t : Task) (h : BodyCut c before after whole short) :
    BodyCut c before after (whole >>= fun x => .ok (t :: x.1, x.2))
      (short >>= fun x => .ok (t :: x.1, x.2)) := by
  intro z hz
  obtain ⟨y, hy, hz⟩ := bind_eq_ok.mp hz
  cases hz
  rcases h y hy with ⟨x, rfl, hx⟩ | hcut | ⟨hno, ts, hts⟩
  · rw [hx]
    exact .inl ⟨(t :: x.1, x.2), rfl, rfl⟩
  · exact .inr (.inl (hcut.bind _))
  · rw [hts]
    exact .inr (.inr ⟨hno, t :: ts, rfl⟩)

/-- What comes after the body has to find out that the input ends. -/
theorem BodyCut.bind {α : Type} {after : List Placed} {f : α → α}
    {k k' : List Task × List Placed → Except BindError α} (h : BodyCut c before after whole short)
    (hk : ∀ x, whole = .ok (withRest after x) → short = .ok x →
      SameOrCut c before after f (k (withRest after x)) (k' x))
    (hend : ∀ ts, ¬CutsName after → CutShort c before after (k' (ts, []))) :
    SameOrCut c before after f (whole >>= k) (short >>= k') := by
  intro z hz
  obtain ⟨y, hy, hz⟩ := bind_eq_ok.mp hz
  rcases h y hy with ⟨x, rfl, hx⟩ | hcut | ⟨hno, ts, hts⟩
  · rw [hx]
    exact hk x hy hx z hz
  · exact .inr (hcut.bind k')
  · rw [hts]
    exact .inr (hend ts hno)

end

theorem readBody_of_no_name (m : Method) (fuel : Nat) (ts : List Placed)
    (h : ∀ name p later, ts ≠ ⟨.name name, p⟩ :: later) :
    readBody c last m fuel ts = .ok ([], ts) := by
  unfold readBody
  split
  case h_1 => exact absurd rfl (h _ _ _)
  case h_2 => rfl

theorem readTask_readBody_cut (fuel : Nat) :
    (∀ (whole : Nat) (before : List Placed), before.length ≤ fuel →
      SameOrCut c before after (withRest after) (readTask c last whole (before ++ after))
        (readTask c last' fuel before)) ∧
    ∀ (m : Method) (whole : Nat) (before : List Placed), before.length < fuel →
      BodyCut c before after (readBody c last m whole (before ++ after))
        (readBody c last' m fuel before) := by
  induction fuel with
  | zero =>
    refine ⟨fun whole before hlen y h => ?_, fun _ _ _ hlen => absurd hlen (Nat.not_lt_zero _)⟩
    obtain rfl := List.length_eq_zero_iff.mp (Nat.le_zero.mp hlen)
    cases whole with
    | zero => cases h
    | succ whole =>
      rw [readTask] at h
      obtain ⟨⟨⟨name, p⟩, rest⟩, hname, -⟩ := bind_eq_ok.mp h
      obtain rfl : after = _ := readMethodName_sound hname
      exact .inr (cutShort_end _ _ (not_cutsName_cons_name name p rest))
  | succ fuel ih =>
    obtain ⟨ihtask, ihbody⟩ := ih
    constructor
    · intro whole before hlen
      cases whole with
      | zero => exact sameOrCut_fail _ _ _
      | succ whole =>
        rw [readTask, readTask]
        refine (readMethodName_cut last last' after before).bind fun x _ hname => ?_
        obtain ⟨⟨name, p⟩, ts1⟩ := x
        obtain rfl := readMethodName_sound hname
        dsimp only [withRest]
        split
        case h_1 => exact sameOrCut_fail _ _ _
        case h_2 id hid =>
          refine (readGenerics_cut last last' after p hid ts1).bind fun x _ hgenerics => ?_
          obtain ⟨ids, ts2⟩ := x
          obtain ⟨gs, rfl, -⟩ := readGenerics_sound hgenerics
          refine SameOrCut.of_suffix (⟨.name name, p⟩ :: gs) ?_
          refine (readMark_cut last last' after (by simp) (by simp) ts2).bind fun ts3 _ hleft => ?_
          obtain ⟨pl, rfl⟩ := readMark_sound hleft
          refine SameOrCut.of_suffix [⟨.mark .leftBrace, pl⟩] ?_
          refine (readKeywords_cut last last' after (fun k hk => hk) ts3).bind
            fun x _ hkeywords => ?_
          obtain ⟨values, ts4⟩ := x
          obtain ⟨ks, rfl, -⟩ := readKeywords_sound hkeywords
          refine SameOrCut.of_suffix ks ?_
          simp only [List.length_cons, List.length_append] at hlen
          refine (ihbody _ whole ts4 (by omega)).bind (fun x _ hbody => ?_) fun ts hno => ?_
          · obtain ⟨body, ts5⟩ := x
            obtain ⟨bs, rfl, -⟩ := (readTask_readBody_sound fuel).2 hbody
            refine SameOrCut.of_suffix bs ?_
            refine (readMark_cut last last' after (by simp) (by simp) ts5).bind fun ts6 _ _ => ?_
            exact sameOrCut_ok (_, ts6)
          · exact (cutShort_end _ _ hno).bind _
    · intro m whole before hlen
      by_cases hname : ∃ name p later, before ++ after = ⟨.name name, p⟩ :: later
      · obtain ⟨name, p, later, heq⟩ := hname
        rcases before with _ | ⟨t, ts⟩
        · obtain rfl : after = _ := heq
          refine fun y h => .inr (.inr ⟨not_cutsName_cons_name name p later, [], ?_⟩)
          exact readBody_of_no_name last' m _ [] fun _ _ _ h => List.cons_ne_nil _ _ h.symm
        · cases heq
          unfold readBody
          cases hembeds : m.embeds with
          | false =>
            intro y h
            simp only [List.cons_append, Bool.false_eq_true, if_false] at h
            split at h <;> cases h
          | true =>
            cases whole with
            | zero =>
              intro y h
              cases h
            | succ whole =>
              refine (ihtask whole _ (Nat.le_of_lt_succ hlen)).bindBody fun x _ htask => ?_
              obtain ⟨u, rest⟩ := x
              obtain ⟨passed, heq, -⟩ := readTask_sound htask
              have hrest := length_of_readTask last' htask
              rw [heq]
              exact ((ihbody m whole rest (by omega)).of_suffix passed).cons u
      · have hwhole := readBody_of_no_name (c := c) last m whole (before ++ after)
          fun name p later heq => hname ⟨name, p, later, heq⟩
        have hshort := readBody_of_no_name (c := c) last' m (fuel + 1) before
          fun name p later heq => hname ⟨name, p, later ++ after, by rw [heq]; rfl⟩
        rw [hwhole, hshort]
        exact (sameOrCut_ok ([], before)).bodyCut

end

/-! ## Control files -/

/-- Tasks that are not cut off are read; a task that is cut off is not. -/
theorem readTasks_cut {c : Catalog} (last : Option Position) {after : List Placed}
    {xs : List TaskPhrase} {tasks : List Task} (h : DenoteAll c xs tasks) {before : List Placed}
    (htokens : (before ++ after).map Placed.token = allTokens xs) {fuel : Nat}
    (hlen : before.length ≤ fuel) :
    (∃ k, before.map Placed.token = allTokens (xs.take k) ∧
      readTasks c last fuel before = .ok (tasks.take k)) ∨
    CutShort c before after (readTasks c last fuel before) := by
  induction xs generalizing tasks before fuel with
  | nil =>
    rw [allTokens] at htokens
    obtain ⟨rfl, -⟩ := List.append_eq_nil_iff.mp (List.map_eq_nil_iff.mp htokens)
    exact .inl ⟨0, rfl, by cases fuel <;> rfl⟩
  | cons x xs ih =>
    rcases before with _ | ⟨u, us⟩
    · exact .inl ⟨0, rfl, by cases fuel <;> rfl⟩
    obtain ⟨fuel, rfl⟩ := Nat.exists_eq_add_one_of_ne_zero (Nat.ne_zero_of_lt hlen)
    cases h with
    | @cons _ _ t ts hx hxs =>
      rw [allTokens] at htokens
      obtain ⟨first, later, heq, hfirst, hlater⟩ := exists_append_of_map_eq htokens
      have hwhole : readTask c last first.length (u :: us ++ after) = .ok (t, later) := by
        rw [heq]
        exact readTask_complete last later (hfirst ▸ hx.tokens) (Nat.le_refl _)
      have hread : readTasks c last (fuel + 1) (u :: us) =
          readTask c last (fuel + 1) (u :: us) >>= fun y =>
            (y.1 :: ·) <$> readTasks c last fuel y.2 := by
        rw [readTasks]
        simp
      rw [hread]
      rcases (readTask_readBody_cut last last after (fuel + 1)).1 _ (u :: us) hlen _ hwhole with
        ⟨⟨t', rest⟩, hy, htask⟩ | hcut
      · cases hy
        have hpassed : u :: us = first ++ rest :=
          List.append_cancel_right (heq.trans (List.append_assoc ..).symm)
        have hrest := length_of_readTask last htask
        rw [htask]
        rcases ih hxs hlater (show rest.length ≤ fuel by omega) with ⟨k, hbefore, hlast⟩ | hcut
        · refine .inl ⟨k + 1, ?_, map_eq_ok.mpr ⟨_, hlast, List.take_succ_cons⟩⟩
          rw [List.take_succ_cons, allTokens, hpassed, List.map_append, hfirst, hbefore]
        · rw [hpassed]
          exact .inr ((hcut.map _).of_suffix first)
      · exact .inr (hcut.bind _)

/-- **What a truncated control file is refused for.** Let the tokens of a text that binds be cut off
somewhere. If that is at the end of a task, or before the first one, the tasks up to there are
bound. Otherwise binding fails, and it is the end of the input that is found, unless the cut
separates a name from the parenthesis or the equality sign after it: then the method is said to be
given no variables, and the keyword to be missing. -/
theorem truncated_refused {c : Catalog} {name source : String} {p : Pipeline}
    (h : bindText c name source = .ok p) :
    ∃ placed xs, scan source = .ok placed ∧ placed.map Placed.token = allTokens xs ∧
      DenoteAll c xs p.tasks ∧
      ∀ before after, placed = before ++ after →
        (∃ k, before.map Placed.token = allTokens (xs.take k) ∧
          bindTokens c name before = .ok ⟨name, p.tasks.take k⟩) ∨
        ∃ e, bindTokens c name before = .error e ∧ CutFault c before after e.fault ∧
          (e.fault.kind = .unexpectedEnd ↔ ¬CutsName after) ∧
          (e.fault.kind = .wrongArity ↔ CutsName after) := by
  unfold bindText at h
  cases hscan : scan source with
  | error e =>
    rw [hscan] at h
    cases h
  | ok placed =>
    rw [hscan] at h
    obtain ⟨-, xs, htokens, hxs⟩ := ((bindTokens_grammar c name placed).1 p).mp h
    refine ⟨placed, xs, rfl, htokens.symm, hxs, ?_⟩
    rintro before after rfl
    rcases readTasks_cut (before.getLast?.map Placed.position) hxs htokens.symm
      (Nat.le_refl before.length) with ⟨k, hbefore, hread⟩ | hcut
    · exact .inl ⟨k, hbefore, map_eq_ok.mpr ⟨_, hread, rfl⟩⟩
    · obtain ⟨e, he, hfault⟩ := hcut.map (Pipeline.mk name)
      exact .inr ⟨e, he, hfault, hfault.kind_iff⟩

end ControlFile

namespace Standard

open ControlFile

/-- A control file of one task, whose keyword is named. -/
def setsIndex : String :=
  "IndexSet(index_1) \x7b value = 2 \x7d"

/-- Cut off after the name of the keyword it lacks that keyword, and one token later it ends. -/
theorem setsIndex_truncated :
    ∃ p placed e e', bindText library.catalog "main" setsIndex = .ok p ∧
      scan setsIndex = .ok placed ∧
      bindTokens library.catalog "main" (placed.take 6) = .error e ∧ e.fault.kind = .wrongArity ∧
      bindTokens library.catalog "main" (placed.take 7) = .error e' ∧
      e'.fault.kind = .unexpectedEnd := by
  have hbinds : (bindText library.catalog "main" setsIndex).toOption.isSome = true := by
    decide +kernel
  have hcuts : ((scan setsIndex).toOption.map fun placed =>
      ((bindTokens library.catalog "main" (placed.take 6)).toOption.isSome,
        decide (CutsName (placed.drop 6)),
        (bindTokens library.catalog "main" (placed.take 7)).toOption.isSome,
        decide (CutsName (placed.drop 7)))) = some (false, true, false, false) := by
    decide +kernel
  cases hp : bindText library.catalog "main" setsIndex with
  | error e =>
    rw [hp] at hbinds
    cases hbinds
  | ok p =>
    obtain ⟨placed, xs, hscan, -, -, hcut⟩ := truncated_refused hp
    rw [hscan] at hcuts
    simp only [Except.toOption, Option.map_some, Option.some.injEq, Prod.mk.injEq,
      decide_eq_true_eq, decide_eq_false_iff_not] at hcuts
    obtain ⟨hsix, hname, hseven, hother⟩ := hcuts
    rcases hcut _ _ (List.take_append_drop 6 placed).symm with ⟨k, -, hbound⟩ | ⟨e, he, -, -, hkind⟩
    · rw [hbound] at hsix
      cases hsix
    rcases hcut _ _ (List.take_append_drop 7 placed).symm with
      ⟨k, -, hbound⟩ | ⟨e', he', -, hkind', -⟩
    · rw [hbound] at hseven
      cases hseven
    exact ⟨p, placed, e, e', rfl, hscan, he, hkind.mpr hname, he', hkind'.mpr hother⟩

/-- **Not every truncated text is found to end**: cut off after the name of its method, this one is
refused for the number of its variables. -/
theorem not_always_unexpected_end :
    ¬∀ (source : String) (p : Pipeline) (before after : List Placed),
      bindText library.catalog "main" source = .ok p → scan source = .ok (before ++ after) →
      before ≠ [] → after ≠ [] →
      (∀ tasks, ¬DenotesTasks library.catalog (before.map Placed.token) tasks) →
      ∃ e, bindTokens library.catalog "main" before = .error e ∧
        e.fault.kind = .unexpectedEnd := by
  intro hall
  have hbinds : (bindText library.catalog "main" setsIndex).toOption.isSome = true := by
    decide +kernel
  have hcut : ((scan setsIndex).toOption.map fun placed =>
      (placed.length, ((bindTokens library.catalog "main" (placed.take 1)).map fun p =>
        p.tasks.length).mapError fun e => e.fault.kind)) = some (9, .error .wrongArity) := by
    decide +kernel
  cases hp : bindText library.catalog "main" setsIndex with
  | error e =>
    rw [hp] at hbinds
    cases hbinds
  | ok p =>
    cases hscan : scan setsIndex with
    | error e =>
      rw [hscan] at hcut
      cases hcut
    | ok placed =>
      rw [hscan] at hcut
      simp only [Except.toOption, Option.map_some, Option.some.injEq, Prod.mk.injEq] at hcut
      obtain ⟨hlen, hfails⟩ := hcut
      cases hbind : bindTokens library.catalog "main" (placed.take 1) with
      | ok q =>
        rw [hbind] at hfails
        cases hfails
      | error e =>
        have harity : e.fault.kind = .wrongArity := by
          rw [hbind] at hfails
          exact Except.error.inj hfails
        have hnone : ∀ tasks,
            ¬DenotesTasks library.catalog ((placed.take 1).map Placed.token) tasks := by
          intro tasks htasks
          have hread : bindTokens library.catalog "main" (placed.take 1) = .ok ⟨"main", tasks⟩ :=
            bindTokens_iff.mpr ⟨rfl, htasks⟩
          rw [hbind] at hread
          cases hread
        obtain ⟨e', he', hend⟩ := hall setsIndex p (placed.take 1) (placed.drop 1) hp
          (by rw [hscan, List.take_append_drop])
          (List.ne_nil_of_length_pos (by rw [List.length_take, hlen]; decide))
          (List.ne_nil_of_length_pos (by rw [List.length_drop, hlen]; decide)) hnone
        rw [hbind] at he'
        cases he'
        rw [harity] at hend
        cases hend

end Standard
end Runbook
