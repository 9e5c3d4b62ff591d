import Runbook.Proofs.Grammar.Tasks
import Runbook.Proofs.Spelling.Joined

/-!
# Readers and places

A reader only hands the places of tokens on, to its faults and with what it answers. So if the same
tokens stand elsewhere, it answers alike, but for the places; and what is given as the place of a
missing token only shows in faults about missing tokens. Nor does it matter how much fuel is left,
if it is enough.

* `carry`: an answer with all places in it changed.
* `carry_bind`: what is put together from readers answers alike if they do.
* `readTask_readBody_move`, `readTasks_move`: the readers of tasks.
* `exists_position`: a fault of a text has a place.
-/

namespace Runbook

/-- The fault at another place, as far as it says where it was met. -/
def BindFault.move (f : Position → Position) : BindFault → BindFault
  | scan e => scan (e.move f)
  | fault => fault

theorem BindFault.kind_move (f : Position → Position) (fault : BindFault) :
    (fault.move f).kind = fault.kind := by
  cases fault <;> rfl

/-- The place changed by `f`, or `d` where there is none. -/
def relocate (f : Position → Position) (d place : Option Position) : Option Position :=
  (place.map f).or d

/-- The error at another place. -/
def BindError.move (f : Position → Position) (d : Option Position) (e : BindError) : BindError :=
  { e with fault := e.fault.move f, position := relocate f d e.position }

namespace ControlFile

variable {f : Position → Position} {d : Option Position}

/-! ## Answers -/

/-- The answer `r` with what was read changed by `g`, and a fault at another place. -/
def carry {α β : Type} (f : Position → Position) (d : Option Position) (g : α → β)
    (r : Except BindError α) : Except BindError β :=
  (r.map g).mapError (BindError.move f d)

/-- Two steps answer alike if each does. -/
theorem carry_bind {α α' β β' : Type} {g : α → α'} {h : β → β'} {x : Except BindError α}
    {k : α → Except BindError β} {k' : α' → Except BindError β'}
    (hk : ∀ a, x = .ok a → k' (g a) = carry f d h (k a)) :
    (carry f d g x >>= k') = carry f d h (x >>= k) := by
  cases x with
  | error e => rfl
  | ok a => exact hk a rfl

theorem carry_map {α α' β β' : Type} {g : α → α'} {h : β → β'} {u : α → β} {u' : α' → β'}
    (hu : ∀ a, u' (g a) = h (u a)) (x : Except BindError α) :
    u' <$> carry f d g x = carry f d h (u <$> x) := by
  cases x with
  | error e => rfl
  | ok a => exact congrArg Except.ok (hu a)

/-- The rest of the tokens, moved. -/
abbrev moveAll (f : Position → Position) : List Placed → List Placed :=
  List.map (Placed.move f)

variable (f) (d last : Option Position)

theorem placeOf_move (ts : List Placed) :
    placeOf (relocate f d last) (moveAll f ts) = relocate f d (placeOf last ts) := by
  cases ts with
  | nil => rfl
  | cons t ts => rfl

/-! ## Marks and names -/

theorem readMark_move (m : Mark) (ts : List Placed) :
    readMark (relocate f d last) m (moveAll f ts) = carry f d (moveAll f) (readMark last m ts) := by
  cases ts with
  | nil => rfl
  | cons t ts =>
    obtain ⟨t, p⟩ := t
    cases t with
    | mark m' =>
      simp only [List.map_cons, Placed.move, readMark, apply_ite (carry f d (moveAll f))]
      rfl
    | string | integer | number | name => rfl

theorem readMethodName_move (ts : List Placed) :
    readMethodName (relocate f d last) (moveAll f ts) =
      carry f d (Prod.map (Prod.map id f) (moveAll f)) (readMethodName last ts) := by
  cases ts with
  | nil => rfl
  | cons t ts =>
    obtain ⟨t, p⟩ := t
    cases t with
    | mark | string | integer | number | name => rfl

/-! ## Literals -/

theorem readValue_move (ts : List Placed) :
    (∀ opened, readValue (relocate f d last) opened (moveAll f ts) =
      carry f d (Prod.map id (moveAll f)) (readValue last opened ts)) ∧
    ∀ opened l, afterValue (relocate f d last) opened l (moveAll f ts) =
      carry f d (Prod.map id (moveAll f)) (afterValue last opened l ts) := by
  induction ts with
  | nil =>
    refine ⟨fun opened => rfl, fun opened l => ?_⟩
    cases opened with
    | nil => rfl
    | cons items outer => rfl
  | cons t ts ih =>
    obtain ⟨ihread, ihafter⟩ := ih
    obtain ⟨t, p⟩ := t
    constructor
    · intro opened
      cases t with
      | integer i => exact ihafter opened (.integer i)
      | number x => exact ihafter opened (.number x)
      | string s => exact ihafter opened (.string s)
      | name s => rfl
      | mark m =>
        cases m with
        | leftBracket => exact ihread ([] :: opened)
        | rightBracket =>
          rcases opened with _ | ⟨_ | ⟨l, items⟩, outer⟩
          · rfl
          · exact ihafter outer (.list [])
          · rfl
        | leftParen | rightParen | leftBrace | rightBrace | comma | equals => rfl
    · intro opened l
      cases opened with
      | nil => rfl
      | cons items outer =>
        cases t with
        | integer | number | string | name => rfl
        | mark m =>
          cases m with
          | comma => exact ihread ((l :: items) :: outer)
          | rightBracket => exact ihafter outer (.list (l :: items).reverse)
          | leftParen | rightParen | leftBrace | rightBrace | leftBracket | equals => rfl

/-! ## Generic variables -/

theorem readNames_move (ts : List Placed) :
    readNames (relocate f d last) (moveAll f ts) =
      carry f d (Prod.map (List.map (Prod.map id f)) (moveAll f)) (readNames last ts) := by
  fun_induction readNames last ts with
  | case1 => rfl
  | case2 => rfl
  | case3 s p q ts ih =>
    simp only [List.map_cons, Placed.move, readNames, ih]
    refine carry_bind fun x _ => ?_
    rfl
  | case4 => rfl
  | case5 s p t q ts hcomma hparen =>
    cases t with
    | integer | number | string | name => rfl
    | mark m =>
      cases m with
      | comma => exact (hcomma rfl).elim
      | rightParen => exact (hparen rfl).elim
      | leftParen | leftBrace | rightBrace | leftBracket | rightBracket | equals => rfl
  | case6 t p ts hlone _ _ hother =>
    cases t with
    | name s =>
      cases ts with
      | nil => exact (hlone s rfl rfl).elim
      | cons u us => exact (hother s u.token u.position us rfl rfl).elim
    | integer | number | string | mark => rfl

theorem resolveNames_move (c : Catalog) (m : Method) (names : List (String × Position))
    (groups : List Group) :
    resolveNames c m (names.map (Prod.map id f)) groups =
      carry f d id (resolveNames c m names groups) := by
  induction names generalizing groups with
  | nil => cases groups <;> rfl
  | cons n names ih =>
    obtain ⟨name, p⟩ := n
    cases groups with
    | nil => rfl
    | cons wanted groups =>
      simp only [List.map_cons, Prod.map_apply, id_eq, resolveNames]
      cases c.findVariable? name with
      | none => rfl
      | some v =>
        dsimp only
        split
        case isTrue =>
          rw [ih]
          have hcons : ∀ vs : List VariableId, v :: id vs = id (v :: vs) := fun _ => rfl
          exact carry_map hcons _
        case isFalse => rfl

theorem readNameList_move (ts : List Placed) :
    readNameList (relocate f d last) (moveAll f ts) =
      carry f d (Prod.map (List.map (Prod.map id f)) (moveAll f)) (readNameList last ts) := by
  cases ts with
  | nil => rfl
  | cons t ts =>
    obtain ⟨t, p⟩ := t
    cases t with
    | integer | number | string | name => rfl
    | mark m =>
      cases m with
      | leftParen => exact readNames_move f d last ts
      | rightParen | leftBrace | rightBrace | leftBracket | rightBracket | comma | equals => rfl

theorem readGenerics_move (c : Catalog) (m : Method) (ts : List Placed) :
    readGenerics c (relocate f d last) m (moveAll f ts) =
      carry f d (Prod.map id (moveAll f)) (readGenerics c last m ts) := by
  rw [readGenerics_eq, readGenerics_eq, readNameList_move]
  refine carry_bind fun x _ => ?_
  simp only [Prod.map_fst, Prod.map_snd, List.length_map]
  split
  case isTrue =>
    rw [placeOf_move]
    rfl
  case isFalse =>
    rw [resolveNames_move]
    exact carry_bind fun _ _ => rfl

/-! ## Keywords -/

theorem readKeywordName_move (m : Method) (k : Keyword) (ts : List Placed) :
    readKeywordName (relocate f d last) m k (moveAll f ts) =
      carry f d (moveAll f) (readKeywordName last m k ts) := by
  rcases ts with _ | ⟨⟨t, p⟩, ts⟩
  · rfl
  · cases t with
    | string | integer | number =>
      simp only [List.map_cons, Placed.move, readKeywordName, apply_ite (carry f d (moveAll f))]
      rfl
    | mark m' =>
      cases m' with
      | rightBrace => rfl
      | leftParen | rightParen | leftBrace | leftBracket | rightBracket | comma | equals =>
        simp only [List.map_cons, Placed.move, readKeywordName, apply_ite (carry f d (moveAll f))]
        rfl
    | name given =>
      rcases ts with _ | ⟨⟨t, q⟩, ts⟩
      · rfl
      · cases t with
        | string | integer | number | name => rfl
        | mark m' =>
          cases m' with
          | equals =>
            simp only [List.map_cons, Placed.move, readKeywordName,
              apply_ite (carry f d (moveAll f))]
            rfl
          | leftParen | rightParen | leftBrace | rightBrace | leftBracket | rightBracket
          | comma => rfl

theorem readKeywords_move (m : Method) (ks : List Keyword) (ts : List Placed) :
    readKeywords (relocate f d last) m ks (moveAll f ts) =
      carry f d (Prod.map id (moveAll f)) (readKeywords last m ks ts) := by
  induction ks generalizing ts with
  | nil => rfl
  | cons k ks ih =>
    rw [readKeywords, readKeywords, readKeywordName_move]
    refine carry_bind fun start _ => ?_
    rw [readLiteral, (readValue_move f d last start).1]
    refine carry_bind fun x _ => ?_
    obtain ⟨l, rest⟩ := x
    dsimp only [Prod.map_apply, id_eq]
    cases l.coerce? k.group with
    | none =>
      dsimp only
      rw [placeOf_move]
      rfl
    | some v =>
      dsimp only
      rw [ih]
      exact carry_bind fun _ _ => rfl

/-! ## Tasks -/

theorem readTask_nil (c : Catalog) (fuel : Nat) :
    readTask c last fuel [] = fail (.endOfInput .methodName) last := by
  cases fuel with
  | zero => rfl
  | succ fuel => rfl

theorem readBody_nil (c : Catalog) (m : Method) (fuel : Nat) :
    readBody c last m fuel [] = .ok ([], []) := by
  unfold readBody
  rfl

/-- A task has at least its name and its braces, so the rest is shorter. -/
theorem length_of_readTask {c : Catalog} {fuel : Nat} {ts rest : List Placed} {t : Task}
    (h : readTask c last fuel ts = .ok (t, rest)) : rest.length + 3 ≤ ts.length := by
  obtain ⟨passed, rfl, hpassed⟩ := readTask_sound h
  have hmin := length_of_denotesTask hpassed
  rw [List.length_map] at hmin
  rw [List.length_append]
  omega

section

variable (c : Catalog) {fuel fuel' : Nat}

/-- If the readers of bodies answer alike with the fuel that is left, so do those of tasks. -/
theorem readTask_move_succ
    (hbody : ∀ (m : Method) (ts : List Placed), ts.length < fuel → ts.length < fuel' →
      readBody c (relocate f d last) m fuel' (moveAll f ts) =
        carry f d (Prod.map id (moveAll f)) (readBody c last m fuel ts))
    (ts : List Placed) (hlen : ts.length ≤ fuel + 1) (hlen' : ts.length ≤ fuel' + 1) :
    readTask c (relocate f d last) (fuel' + 1) (moveAll f ts) =
      carry f d (Prod.map id (moveAll f)) (readTask c last (fuel + 1) ts) := by
  rw [readTask, readTask, readMethodName_move]
  refine carry_bind fun x hname => ?_
  obtain ⟨⟨name, p⟩, ts1⟩ := x
  obtain rfl := readMethodName_sound hname
  simp only [Prod.map_apply, id_eq]
  cases c.findMethod? name with
  | none => rfl
  | some id =>
    dsimp only
    rw [readGenerics_move]
    refine carry_bind fun x hgenerics => ?_
    obtain ⟨ids, ts2⟩ := x
    obtain ⟨gs, rfl, -⟩ := readGenerics_sound hgenerics
    dsimp only [Prod.map_apply, id_eq]
    rw [readMark_move]
    refine carry_bind fun ts3 hleft => ?_
    obtain ⟨pl, rfl⟩ := readMark_sound hleft
    rw [readKeywords_move]
    refine carry_bind fun x hkeywords => ?_
    obtain ⟨values, ts4⟩ := x
    obtain ⟨ks, rfl, -⟩ := readKeywords_sound hkeywords
    simp only [List.length_cons, List.length_append] at hlen hlen'
    dsimp only [Prod.map_apply, id_eq]
    -- the name and the brace have been passed, so the fuel is enough for the body
    rw [hbody _ ts4 (by omega) (by omega)]
    refine carry_bind fun x _ => ?_
    obtain ⟨body, ts5⟩ := x
    dsimp only [Prod.map_apply, id_eq]
    rw [readMark_move]
    exact carry_bind fun ts6 _ => rfl

/-- If the readers of tasks and of shorter bodies answer alike, so do those of bodies. -/
theorem readBody_move_succ (m : Method)
    (htask : ∀ ts : List Placed, ts.length ≤ fuel → ts.length ≤ fuel' →
      readTask c (relocate f d last) fuel' (moveAll f ts) =
        carry f d (Prod.map id (moveAll f)) (readTask c last fuel ts))
    (hbody : ∀ ts : List Placed, ts.length < fuel → ts.length < fuel' →
      readBody c (relocate f d last) m fuel' (moveAll f ts) =
        carry f d (Prod.map id (moveAll f)) (readBody c last m fuel ts))
    (ts : List Placed) (hlen : ts.length ≤ fuel) (hlen' : ts.length ≤ fuel') :
    readBody c (relocate f d last) m (fuel' + 1) (moveAll f ts) =
      carry f d (Prod.map id (moveAll f)) (readBody c last m (fuel + 1) ts) := by
  rcases ts with _ | ⟨⟨t, p⟩, ts⟩
  · rw [readBody_nil]
    exact readBody_nil (relocate f d last) c m (fuel' + 1)
  · cases t with
    | string | integer | number | mark =>
      unfold readBody
      rfl
    | name s =>
      have hfirst := htask (⟨.name s, p⟩ :: ts) hlen hlen'
      simp only [List.map_cons, Placed.move] at hfirst ⊢
      unfold readBody
      by_cases hembeds : m.embeds = true
      · rw [if_pos hembeds, if_pos hembeds]
        dsimp only
        rw [hfirst]
        refine carry_bind fun x hread => ?_
        obtain ⟨t, rest⟩ := x
        have hrest := length_of_readTask last hread
        dsimp only [Prod.map_apply, id_eq]
        rw [hbody rest (by omega) (by omega)]
        exact carry_bind fun _ _ => rfl
      · rw [if_neg hembeds, if_neg hembeds]
        rcases ts with _ | ⟨⟨t, q⟩, ts⟩
        · rfl
        · cases t with
          | string | integer | number | name => rfl
          | mark m' => cases m' <;> rfl

end

/-- **With enough fuel on both sides the readers of tasks answer alike.** -/
theorem readTask_readBody_move (c : Catalog) (fuel fuel' : Nat) :
    (∀ ts : List Placed, ts.length ≤ fuel → ts.length ≤ fuel' →
      readTask c (relocate f d last) fuel' (moveAll f ts) =
        carry f d (Prod.map id (moveAll f)) (readTask c last fuel ts)) ∧
    ∀ (m : Method) (ts : List Placed), ts.length < fuel → ts.length < fuel' →
      readBody c (relocate f d last) m fuel' (moveAll f ts) =
        carry f d (Prod.map id (moveAll f)) (readBody c last m fuel ts) := by
  have hempty : ∀ fuel fuel', readTask c (relocate f d last) fuel' [] =
      carry f d (Prod.map id (moveAll f)) (readTask c last fuel []) := by
    intro fuel fuel'
    rw [readTask_nil, readTask_nil]
    rfl
  induction fuel generalizing fuel' with
  | zero =>
    refine ⟨fun ts hlen _ => ?_, fun _ _ hlen => absurd hlen (Nat.not_lt_zero _)⟩
    obtain rfl := List.length_eq_zero_iff.mp (Nat.le_zero.mp hlen)
    exact hempty 0 fuel'
  | succ fuel ih =>
    cases fuel' with
    | zero =>
      refine ⟨fun ts _ hlen => ?_, fun _ _ _ hlen => absurd hlen (Nat.not_lt_zero _)⟩
      obtain rfl := List.length_eq_zero_iff.mp (Nat.le_zero.mp hlen)
      exact hempty (fuel + 1) 0
    | succ fuel' =>
      obtain ⟨ihtask, ihbody⟩ := ih fuel'
      refine ⟨readTask_move_succ f d last c ihbody, fun m ts hlen hlen' => ?_⟩
      exact readBody_move_succ f d last c m ihtask (ihbody m) ts (Nat.le_of_lt_succ hlen)
        (Nat.le_of_lt_succ hlen')

/-- Tokens that stand elsewhere denote the same tasks, and the faults lie elsewhere. -/
theorem readTasks_move (c : Catalog) {fuel fuel' : Nat} {ts : List Placed}
    (hlen : ts.length ≤ fuel) (hlen' : ts.length ≤ fuel') :
    readTasks c (relocate f d last) fuel' (moveAll f ts) =
      carry f d id (readTasks c last fuel ts) := by
  induction fuel generalizing fuel' ts with
  | zero =>
    obtain rfl := List.length_eq_zero_iff.mp (Nat.le_zero.mp hlen)
    cases fuel' <;> rfl
  | succ fuel ih =>
    rcases ts with _ | ⟨t, ts⟩
    · cases fuel' <;> rfl
    · obtain ⟨fuel', rfl⟩ := Nat.exists_eq_add_one_of_ne_zero (Nat.ne_zero_of_lt hlen')
      have htask :=
        (readTask_readBody_move f d last c (fuel + 1) (fuel' + 1)).1 (t :: ts) hlen hlen'
      simp only [List.map_cons] at htask ⊢
      rw [readTasks, readTasks, htask]
      · refine carry_bind fun x hread => ?_
        obtain ⟨t', rest⟩ := x
        have hrest := length_of_readTask last hread
        dsimp only [Prod.map_apply, id_eq]
        rw [ih (by omega) (by omega)]
        have hcons : ∀ us : List Task, t' :: id us = id (t' :: us) := fun _ => rfl
        exact carry_map hcons _
      · simp
      · simp

/-! ## Control files -/

/-- The faults of tokens are those of the reader of tasks. -/
theorem readTasks_of_bindTokens_error {c : Catalog} {name : String} {ts : List Placed}
    {e : BindError} (h : bindTokens c name ts = .error e) :
    readTasks c (ts.getLast?.map Placed.position) ts.length ts = .error e := by
  unfold bindTokens at h
  cases hread : readTasks c (ts.getLast?.map Placed.position) ts.length ts with
  | ok us =>
    rw [hread] at h
    cases h
  | error e' =>
    rw [hread] at h
    cases h
    rfl

/-- Every fault of tokens has a place: those at the end of the input have that of the last token. -/
theorem exists_position_of_bindTokens {c : Catalog} {name : String} {ts : List Placed}
    {e : BindError} (h : bindTokens c name ts = .error e) : ∃ p, e.position = some p := by
  replace h := readTasks_of_bindTokens_error h
  cases hlast : ts.getLast? with
  | none =>
    obtain rfl := List.getLast?_eq_none_iff.mp hlast
    cases h
  | some t =>
    -- without that place the tokens are read alike, and it fills in where there was none
    have hread := readTasks_move id (some t.position) none c (Nat.le_refl ts.length)
      (Nat.le_refl ts.length)
    have hmove : moveAll id ts = ts := List.map_id ts
    have hplace : relocate id (some t.position) none = (some t).map Placed.position := rfl
    rw [hmove, hplace, ← hlast, h] at hread
    cases hnone : readTasks c none ts.length ts with
    | ok us =>
      rw [hnone] at hread
      cases hread
    | error e' =>
      rw [hnone] at hread
      cases hread
      rcases hposition : e'.position with _ | p
      · exact ⟨t.position, by simp [BindError.move, relocate, hposition]⟩
      · exact ⟨p, by simp [BindError.move, relocate, hposition]⟩

/-- **Every fault of a text has a place.** -/
theorem exists_position {c : Catalog} {name source : String} {e : BindError}
    (h : bindText c name source = .error e) : ∃ p, e.position = some p := by
  unfold bindText at h
  cases hscan : scan source with
  | error e' =>
    rw [hscan] at h
    cases h
    exact ⟨e'.position, rfl⟩
  | ok ts =>
    rw [hscan] at h
    exact exists_position_of_bindTokens h

end ControlFile
end Runbook
