import Runbook.Proofs.Registry.WellFormed
import Runbook.Proofs.Grammar.Literals

/-!
# The grammar of control files

Which tokens denote which tasks over a catalog, as a relation that knows nothing of the reader; and
the reader decides it.

* `DenotesGenerics`, `DenotesKeyword`, `DenotesTask`, `DenotesTasks`: the grammar.
* `readTask_sound`: what is read as a task denotes that task.
* `readTask_complete`: what denotes a task is read as that task, if there is fuel for each token.
* `bindTokens_iff`: tokens are bound to a pipeline iff they denote its tasks.
-/

namespace Runbook.ControlFile

/-! ## The grammar -/

/-- Names in parentheses, separated by commas; no names are no tokens. -/
def nameTokens : List String → List Token
  | [] => []
  | s :: ss =>
    .mark .leftParen :: .name s ::
      (ss.flatMap (fun s => [.mark .comma, .name s]) ++ [.mark .rightParen])

/-- The tokens name variables for the generic slots of `m`, each of a group that its slot takes. -/
def DenotesGenerics (c : Catalog) (m : Method) (ts : List Token) (ids : List VariableId) : Prop :=
  ∃ names, ts = nameTokens names ∧
    List.Forall₂ (fun name id => c.findVariable? name = some id) names ids ∧
    List.Forall₂ (fun g id => g.accepts (c.variableAt id).group = true) m.generics ids

/-- The tokens give keyword `k` of `m` the value `v`. A lone keyword needs no name. -/
inductive DenotesKeyword (m : Method) (k : Keyword) : List Token → Value → Prop where
  | named {l : Literal} {v : Value} :
    l.coerce? k.group = some v →
      DenotesKeyword m k (.name k.name :: .mark .equals :: l.tokens) v
  | bare {l : Literal} {v : Value} :
    m.keywords.length = 1 → l.coerce? k.group = some v → DenotesKeyword m k l.tokens v

/-- The tokens give each of the keywords a value, in order. -/
inductive DenotesKeywords (m : Method) : List Keyword → List Token → List Value → Prop where
  | nil : DenotesKeywords m [] [] []
  | cons {k : Keyword} {ks : List Keyword} {ts us : List Token} {v : Value} {vs : List Value} :
    DenotesKeyword m k ts v → DenotesKeywords m ks us vs →
      DenotesKeywords m (k :: ks) (ts ++ us) (v :: vs)

mutual

/-- The tokens denote the task: the name of its method, generic variables, and in braces the
keywords and the tasks of the pipeline that the method takes. -/
inductive DenotesTask (c : Catalog) : List Token → Task → Prop where
  | mk {name : String} {id : MethodId} {generics keywords body : List Token}
      {ids : List VariableId} {values : List Value} {tasks : List Task} :
    c.findMethod? name = some id →
    DenotesGenerics c (c.methodAt id) generics ids →
    DenotesKeywords (c.methodAt id) (c.methodAt id).keywords keywords values →
    DenotesTasks c body tasks →
    ((c.methodAt id).embeds = false → tasks = []) →
      DenotesTask c
        (.name name ::
          (generics ++ .mark .leftBrace :: (keywords ++ (body ++ [.mark .rightBrace]))))
        ⟨id, values, ids.take (c.methodAt id).genericOutputs.length,
          ids.drop (c.methodAt id).genericOutputs.length,
          if (c.methodAt id).embeds then some ⟨(c.methodAt id).name, tasks⟩ else none⟩

/-- The tokens denote the tasks, one after the other. -/
inductive DenotesTasks (c : Catalog) : List Token → List Task → Prop where
  | nil : DenotesTasks c [] []
  | cons {ts us : List Token} {t : Task} {tasks : List Task} :
    DenotesTask c ts t → DenotesTasks c us tasks → DenotesTasks c (ts ++ us) (t :: tasks)

end

theorem denotesTasks_of_nil {c : Catalog} {tasks : List Task} (h : DenotesTasks c [] tasks) :
    tasks = [] := by
  generalize hts : ([] : List Token) = ts at h
  cases h with
  | nil => rfl
  | cons ht _ =>
    cases ht with
    | mk => cases hts

/-! ## Marks and names -/

variable {c : Catalog} {last : Option Position} {m : Method}

theorem readMark_sound {mark : Mark} {tokens rest : List Placed}
    (h : readMark last mark tokens = .ok rest) :
    ∃ p, tokens = ⟨.mark mark, p⟩ :: rest := by
  unfold readMark at h
  split at h
  case h_1 => cases h
  case h_2 p _ =>
    split at h
    case isTrue heq => cases h; subst heq; exact ⟨p, rfl⟩
    case isFalse => cases h
  case h_3 => cases h

theorem readMark_cons (mark : Mark) (p : Position) (ts : List Placed) :
    readMark last mark (⟨.mark mark, p⟩ :: ts) = .ok ts := by
  simp [readMark]

theorem readMethodName_sound {tokens rest : List Placed} {name : String} {p : Position}
    (h : readMethodName last tokens = .ok ((name, p), rest)) :
    tokens = ⟨.name name, p⟩ :: rest := by
  unfold readMethodName at h
  split at h
  case h_1 => cases h
  case h_2 => cases h; rfl
  case h_3 => cases h

/-! ## Generic variables -/

/-- The tokens after the opening parenthesis. -/
theorem readNames_sound {tokens rest : List Placed} {names : List (String × Position)}
    (h : readNames last tokens = .ok (names, rest)) :
    ∃ passed, tokens = passed ++ rest ∧
      .mark .leftParen :: passed.map Placed.token = nameTokens (names.map Prod.fst) ∧
      names ≠ [] := by
  fun_induction readNames last tokens generalizing names rest with
  | case1 => cases h
  | case2 => cases h
  | case3 s p q ts ih =>
    obtain ⟨⟨names', rest'⟩, hread, h⟩ := bind_eq_ok.mp h
    cases h
    obtain ⟨passed, rfl, htokens, hne⟩ := ih hread
    refine ⟨⟨.name s, p⟩ :: ⟨.mark .comma, q⟩ :: passed, rfl, ?_, by simp⟩
    obtain ⟨⟨s', p'⟩, names', rfl⟩ := List.exists_cons_of_ne_nil hne
    simp only [List.map_cons, nameTokens, List.cons.injEq, true_and] at htokens ⊢
    simp [htokens]
  | case4 s p q ts =>
    cases h
    exact ⟨[⟨.name s, p⟩, ⟨.mark .rightParen, q⟩], rfl, by simp [nameTokens], by simp⟩
  | case5 => cases h
  | case6 => cases h

theorem readNames_complete (last : Option Position) (rest : List Placed) {s : String}
    {ss : List String} {placed : List Placed}
    (h : .mark .leftParen :: placed.map Placed.token = nameTokens (s :: ss)) :
    ∃ names, readNames last (placed ++ rest) = .ok (names, rest) ∧
      names.map Prod.fst = s :: ss := by
  induction ss generalizing s placed with
  | nil =>
    simp only [nameTokens, List.flatMap_nil, List.nil_append, List.cons.injEq, true_and] at h
    obtain ⟨p, b, rfl, hb⟩ := exists_cons_of_map_eq h
    obtain ⟨q, d, rfl, hd⟩ := exists_cons_of_map_eq hb
    obtain rfl := List.map_eq_nil_iff.mp hd
    exact ⟨[(s, p)], rfl, rfl⟩
  | cons s' ss ih =>
    simp only [nameTokens, List.flatMap_cons, List.cons_append, List.nil_append, List.cons.injEq,
      true_and] at h
    obtain ⟨p, b, rfl, hb⟩ := exists_cons_of_map_eq h
    obtain ⟨q, d, rfl, hd⟩ := exists_cons_of_map_eq hb
    have hlater : .mark .leftParen :: d.map Placed.token = nameTokens (s' :: ss) := by
      simp [nameTokens, hd]
    obtain ⟨names, hread, hnames⟩ := ih hlater
    refine ⟨(s, p) :: names, ?_, by rw [List.map_cons, hnames]⟩
    simp only [List.cons_append, readNames, hread]
    rfl

theorem resolveNames_iff {names : List (String × Position)} {groups : List Group}
    {ids : List VariableId} (hlen : names.length = groups.length) :
    resolveNames c m names groups = .ok ids ↔
      List.Forall₂ (fun name id => c.findVariable? name = some id) (names.map Prod.fst) ids ∧
        List.Forall₂ (fun g id => g.accepts (c.variableAt id).group = true) groups ids := by
  induction names generalizing groups ids with
  | nil =>
    obtain rfl := List.length_eq_zero_iff.mp hlen.symm
    rw [resolveNames]
    constructor
    · intro h; cases h; exact ⟨.nil, .nil⟩
    · rintro ⟨h, -⟩; cases h; rfl
    · simp
  | cons n names ih =>
    obtain ⟨name, p⟩ := n
    cases groups with
    | nil => cases hlen
    | cons g groups =>
      rw [resolveNames]
      constructor
      · intro h
        split at h
        case h_1 => cases h
        case h_2 v hv =>
          simp only at h
          split at h
          case isTrue hacc =>
            obtain ⟨vs, hvs, rfl⟩ := map_eq_ok.mp h
            obtain ⟨h1, h2⟩ := (ih (by simpa using hlen)).mp hvs
            exact ⟨.cons hv h1, .cons hacc h2⟩
          case isFalse => cases h
      · rintro ⟨h1, h2⟩
        cases h1 with
        | cons hv h1 =>
          cases h2 with
          | cons hacc h2 =>
            simp only [hv, hacc, if_true]
            rw [(ih (by simpa using hlen)).mpr ⟨h1, h2⟩]
            rfl

/-- The names in parentheses, if there are any. -/
def readNameList (last : Option Position) :
    List Placed → Except BindError (List (String × Position) × List Placed)
  | ⟨.mark .leftParen, _⟩ :: ts => readNames last ts
  | ts => .ok ([], ts)

theorem readGenerics_eq (tokens : List Placed) :
    readGenerics c last m tokens =
      readNameList last tokens >>= fun x =>
        if x.1.length ≠ m.generics.length then
          fail (.genericCount m.name m.generics.length x.1.length) (placeOf last tokens)
        else resolveNames c m x.1 m.generics >>= fun ids => .ok (ids, x.2) := by
  unfold readGenerics
  split
  case h_1 => rfl
  case h_2 hne =>
    have hnone : readNameList last tokens = .ok ([], tokens) := by
      unfold readNameList
      split
      case h_1 => exact absurd rfl (hne _ _)
      case h_2 => rfl
    rw [hnone]

theorem readGenerics_sound {tokens rest : List Placed} {ids : List VariableId}
    (h : readGenerics c last m tokens = .ok (ids, rest)) :
    ∃ passed, tokens = passed ++ rest ∧ DenotesGenerics c m (passed.map Placed.token) ids := by
  rw [readGenerics_eq] at h
  obtain ⟨⟨names, rest'⟩, hnames, h⟩ := bind_eq_ok.mp h
  simp only at h
  split at h
  case isTrue => cases h
  case isFalse hlen =>
    obtain ⟨ids', hids, h⟩ := bind_eq_ok.mp h
    cases h
    have hslots := (resolveNames_iff (not_not.mp hlen)).mp hids
    unfold readNameList at hnames
    split at hnames
    case h_1 p ts =>
      obtain ⟨passed, rfl, htokens, -⟩ := readNames_sound hnames
      exact ⟨⟨.mark .leftParen, p⟩ :: passed, rfl, names.map Prod.fst, htokens, hslots⟩
    case h_2 =>
      cases hnames
      exact ⟨[], rfl, [], rfl, hslots⟩

/-- The tokens after the generic variables do not go on with a parenthesis. -/
theorem readGenerics_complete (last : Option Position) (rest : List Placed) {placed : List Placed}
    {ids : List VariableId} {p : Position}
    (h : DenotesGenerics c m (placed.map Placed.token) ids) :
    readGenerics c last m (placed ++ ⟨.mark .leftBrace, p⟩ :: rest) =
      .ok (ids, ⟨.mark .leftBrace, p⟩ :: rest) := by
  obtain ⟨names, htokens, hids, hgroups⟩ := h
  have hcount : names.length = m.generics.length := hids.length_eq.trans hgroups.length_eq.symm
  cases names with
  | nil =>
    obtain rfl := List.map_eq_nil_iff.mp htokens
    have hresolve : resolveNames c m [] m.generics = .ok ids :=
      (resolveNames_iff hcount).mpr ⟨hids, hgroups⟩
    simp [readGenerics_eq, readNameList, ← hcount, hresolve, bind_eq_ok]
  | cons s ss =>
    obtain ⟨q, b, rfl, hb⟩ := exists_cons_of_map_eq htokens
    have hnamed : .mark .leftParen :: b.map Placed.token = nameTokens (s :: ss) := by
      simp [nameTokens, hb]
    obtain ⟨names, hread, hnames⟩ :=
      readNames_complete last (⟨.mark .leftBrace, p⟩ :: rest) hnamed
    have hlen : names.length = m.generics.length := by
      rw [← hcount, ← hnames, List.length_map]
    have hresolve : resolveNames c m names m.generics = .ok ids :=
      (resolveNames_iff hlen).mpr ⟨hnames ▸ hids, hgroups⟩
    simp [readGenerics_eq, readNameList, hread, hlen, hresolve, bind_eq_ok]

/-! ## Keywords -/

/-- A literal begins with a token that may begin one. -/
theorem tokens_eq_cons (l : Literal) :
    ∃ t ts, l.tokens = t :: ts ∧ startsLiteral t = true := by
  cases l <;> exact ⟨_, _, by rw [Literal.tokens], rfl⟩

/-- The name of a lone keyword may be left out. -/
theorem readKeywordName_bare (k : Keyword) {t : Token} (p : Position) (ts : List Placed)
    (hone : m.keywords.length = 1) (hstart : startsLiteral t = true) :
    readKeywordName last m k (⟨t, p⟩ :: ts) = .ok (⟨t, p⟩ :: ts) := by
  unfold readKeywordName
  split <;> simp_all [startsLiteral]

/-- The name of a keyword was there, or it was not and the keyword is the only one. -/
theorem readKeywordName_sound {k : Keyword} {tokens rest : List Placed}
    (h : readKeywordName last m k tokens = .ok rest) :
    (∃ p q, tokens = ⟨.name k.name, p⟩ :: ⟨.mark .equals, q⟩ :: rest) ∨
      (m.keywords.length = 1 ∧ tokens = rest ∧
        ∃ t p ts, tokens = ⟨t, p⟩ :: ts ∧ startsLiteral t = true) := by
  unfold readKeywordName at h
  split at h
  case h_1 => cases h
  case h_2 given p q ts =>
    split at h
    case isTrue heq => cases h; subst heq; exact .inl ⟨p, q, rfl⟩
    case isFalse => split at h <;> cases h
  case h_3 => cases h
  case h_4 => cases h
  case h_5 =>
    split at h
    case isTrue hone => cases h; exact .inr ⟨hone.1, rfl, _, _, _, rfl, hone.2⟩
    case isFalse => cases h

theorem readKeywords_sound {ks : List Keyword} {tokens rest : List Placed} {vs : List Value}
    (h : readKeywords last m ks tokens = .ok (vs, rest)) :
    ∃ passed, tokens = passed ++ rest ∧ DenotesKeywords m ks (passed.map Placed.token) vs := by
  induction ks generalizing tokens vs rest with
  | nil => cases h; exact ⟨[], rfl, .nil⟩
  | cons k ks ih =>
    rw [readKeywords] at h
    obtain ⟨start, hname, h⟩ := bind_eq_ok.mp h
    obtain ⟨⟨l, afterLiteral⟩, hliteral, h⟩ := bind_eq_ok.mp h
    simp only at h
    split at h
    case h_1 => cases h
    case h_2 v hv =>
      obtain ⟨⟨vs', rest'⟩, hrest, h⟩ := bind_eq_ok.mp h
      cases h
      obtain ⟨passed, rfl, htokens⟩ := readLiteral_sound hliteral
      obtain ⟨later, rfl, hlater⟩ := ih hrest
      rcases readKeywordName_sound hname with ⟨p, q, rfl⟩ | ⟨hone, rfl, -⟩
      · refine ⟨⟨.name k.name, p⟩ :: ⟨.mark .equals, q⟩ :: (passed ++ later), by simp, ?_⟩
        have := DenotesKeywords.cons (DenotesKeyword.named hv) hlater
        simpa [htokens] using this
      · refine ⟨passed ++ later, by simp, ?_⟩
        have := DenotesKeywords.cons (DenotesKeyword.bare hone hv) hlater
        simpa [htokens] using this

theorem readKeywords_complete (last : Option Position) (rest : List Placed) {ks : List Keyword}
    {placed : List Placed} {ts : List Token} {vs : List Value} (h : DenotesKeywords m ks ts vs)
    (hts : placed.map Placed.token = ts) :
    readKeywords last m ks (placed ++ rest) = .ok (vs, rest) := by
  induction h generalizing placed with
  | nil =>
    obtain rfl := List.map_eq_nil_iff.mp hts
    rfl
  | cons hk _ ih =>
    obtain ⟨first, later, rfl, hfirst, hlater⟩ := exists_append_of_map_eq hts
    rw [readKeywords, List.append_assoc]
    cases hk with
    | named hv =>
      obtain ⟨p, b, rfl, hb⟩ := exists_cons_of_map_eq hfirst
      obtain ⟨q, d, rfl, hd⟩ := exists_cons_of_map_eq hb
      simp [readKeywordName, readLiteral_complete last _ hd, hv, ih hlater, bind_eq_ok]
    | @bare l _ hone hv =>
      obtain ⟨t, ts, htokens, hstart⟩ := tokens_eq_cons l
      obtain ⟨p, b, rfl, hb⟩ := exists_cons_of_map_eq (hfirst.trans htokens)
      have hliteral := readLiteral_complete last (later ++ rest) hfirst
      rw [List.cons_append] at hliteral ⊢
      simp [readKeywordName_bare _ p _ hone hstart, hliteral, hv, ih hlater, bind_eq_ok]

/-! ## Tasks -/

/-- A task has at least its name and its braces. -/
theorem length_of_denotesTask {ts : List Token} {t : Task} (h : DenotesTask c ts t) :
    3 ≤ ts.length := by
  cases h with
  | mk => simp only [List.length_cons, List.length_append, List.length_nil]; omega

/-- What the readers of tasks pass with a given fuel denotes what they answer with. -/
theorem readTask_readBody_sound (fuel : Nat) :
    (∀ {tokens rest : List Placed} {t : Task}, readTask c last fuel tokens = .ok (t, rest) →
      ∃ passed, tokens = passed ++ rest ∧ DenotesTask c (passed.map Placed.token) t) ∧
    (∀ {m : Method} {tokens rest : List Placed} {ts : List Task},
      readBody c last m fuel tokens = .ok (ts, rest) →
        ∃ passed, tokens = passed ++ rest ∧ DenotesTasks c (passed.map Placed.token) ts ∧
          (m.embeds = false → ts = [])) := by
  induction fuel with
  | zero =>
    constructor
    · intro tokens rest t h
      rw [readTask] at h
      cases h
    · intro m tokens rest ts h
      unfold readBody at h
      split at h
      case h_1 =>
        split at h
        case isTrue => cases h
        case isFalse => split at h <;> cases h
      case h_2 => cases h; exact ⟨[], rfl, .nil, fun _ => rfl⟩
  | succ fuel ih =>
    obtain ⟨ihtask, ihbody⟩ := ih
    constructor
    · intro tokens rest t h
      rw [readTask] at h
      obtain ⟨⟨⟨name, p⟩, ts⟩, hname, h⟩ := bind_eq_ok.mp h
      simp only at h
      split at h
      case h_1 => cases h
      case h_2 id hid =>
        obtain ⟨⟨ids, ts1⟩, hgenerics, h⟩ := bind_eq_ok.mp h
        obtain ⟨ts2, hleft, h⟩ := bind_eq_ok.mp h
        obtain ⟨⟨values, ts3⟩, hkeywords, h⟩ := bind_eq_ok.mp h
        obtain ⟨⟨body, ts4⟩, hbody, h⟩ := bind_eq_ok.mp h
        obtain ⟨ts5, hright, h⟩ := bind_eq_ok.mp h
        cases h
        obtain rfl := readMethodName_sound hname
        obtain ⟨gs, rfl, hgs⟩ := readGenerics_sound hgenerics
        obtain ⟨pl, rfl⟩ := readMark_sound hleft
        obtain ⟨ks, rfl, hks⟩ := readKeywords_sound hkeywords
        obtain ⟨bs, rfl, hbs, hempty⟩ := ihbody hbody
        obtain ⟨pr, rfl⟩ := readMark_sound hright
        refine ⟨⟨.name name, p⟩ :: (gs ++ ⟨.mark .leftBrace, pl⟩ ::
          (ks ++ (bs ++ [⟨.mark .rightBrace, pr⟩]))), by simp, ?_⟩
        simpa using DenotesTask.mk hid hgs hks hbs hempty
    · intro m tokens rest ts h
      unfold readBody at h
      split at h
      case h_1 s p later =>
        split at h
        case isTrue hembeds =>
          obtain ⟨⟨t, rest1⟩, htask, h⟩ := bind_eq_ok.mp h
          obtain ⟨⟨body, rest2⟩, hbody, h⟩ := bind_eq_ok.mp h
          cases h
          obtain ⟨passed, heq, hpassed⟩ := ihtask htask
          obtain ⟨passed', rfl, hpassed', -⟩ := ihbody hbody
          refine ⟨passed ++ passed', by simp [heq], ?_, fun hno => by simp [hembeds] at hno⟩
          rw [List.map_append]
          exact .cons hpassed hpassed'
        case isFalse => split at h <;> cases h
      case h_2 => cases h; exact ⟨[], rfl, .nil, fun _ => rfl⟩

/-- **What is read as a task denotes it.** -/
theorem readTask_sound {fuel : Nat} {tokens rest : List Placed} {t : Task}
    (h : readTask c last fuel tokens = .ok (t, rest)) :
    ∃ passed, tokens = passed ++ rest ∧ DenotesTask c (passed.map Placed.token) t :=
  (readTask_readBody_sound fuel).1 h

/-- With fuel for each token, and one more for a body, what denotes is read. -/
theorem readTask_readBody_complete (fuel : Nat) :
    (∀ {placed : List Placed} (rest : List Placed) {t : Task},
      DenotesTask c (placed.map Placed.token) t → placed.length ≤ fuel →
        readTask c last fuel (placed ++ rest) = .ok (t, rest)) ∧
    (∀ (m : Method) {placed : List Placed} (rest : List Placed) {ts : List Task} {p : Position},
      DenotesTasks c (placed.map Placed.token) ts → (m.embeds = false → ts = []) →
      placed.length < fuel →
        readBody c last m fuel (placed ++ ⟨.mark .rightBrace, p⟩ :: rest) =
          .ok (ts, ⟨.mark .rightBrace, p⟩ :: rest)) := by
  induction fuel with
  | zero =>
    constructor
    · intro placed rest t h hlen
      have := length_of_denotesTask h
      rw [List.length_map] at this
      omega
    · intro m placed rest ts p h hempty hlen
      omega
  | succ fuel ih =>
    obtain ⟨ihtask, ihbody⟩ := ih
    constructor
    · intro placed rest t h hlen
      generalize hts : placed.map Placed.token = ts at h
      cases h with
      | @mk name id generics keywords body ids values tasks hid hgs hks hbs hempty =>
        obtain ⟨p, placed1, rfl, h1⟩ := exists_cons_of_map_eq hts
        obtain ⟨gs, placed2, rfl, rfl, h2⟩ := exists_append_of_map_eq h1
        obtain ⟨pl, placed3, rfl, h3⟩ := exists_cons_of_map_eq h2
        obtain ⟨ks, placed4, rfl, hkeywords, h4⟩ := exists_append_of_map_eq h3
        obtain ⟨bs, placed5, rfl, rfl, h5⟩ := exists_append_of_map_eq h4
        obtain ⟨pr, placed6, rfl, h6⟩ := exists_cons_of_map_eq h5
        obtain rfl := List.map_eq_nil_iff.mp h6
        simp only [List.length_cons, List.length_append, List.length_nil] at hlen
        have hbody := ihbody _ rest (p := pr) hbs hempty (by omega)
        have hkeys :=
          readKeywords_complete last (bs ++ ⟨.mark .rightBrace, pr⟩ :: rest) hks hkeywords
        have hgenerics := readGenerics_complete last
          (ks ++ (bs ++ ⟨.mark .rightBrace, pr⟩ :: rest)) hgs (p := pl)
        simp [readTask, readMethodName, hid, hgenerics, readMark_cons, hkeys, hbody, bind_eq_ok]
    · intro m placed rest ts p h hempty hlen
      generalize hts : placed.map Placed.token = us at h
      cases h with
      | nil =>
        obtain rfl := List.map_eq_nil_iff.mp hts
        unfold readBody
        rfl
      | @cons ts us t tasks ht htasks =>
        obtain ⟨first, later, rfl, rfl, rfl⟩ := exists_append_of_map_eq hts
        have hfirst := length_of_denotesTask ht
        rw [List.length_map] at hfirst
        rw [List.length_append] at hlen
        have hembeds : m.embeds = true := by
          by_contra hno
          exact absurd (hempty (by simpa using hno)) (by simp)
        have hread := ihtask (later ++ ⟨.mark .rightBrace, p⟩ :: rest) ht (by omega)
        have hlater := ihbody m rest (p := p) htasks
          (fun hno => by simp [hembeds] at hno) (by omega)
        -- a task begins with a name, so the body goes on
        obtain ⟨s, q, first', rfl⟩ : ∃ s q first', first = ⟨.name s, q⟩ :: first' := by
          generalize hus : first.map Placed.token = us at ht
          cases ht with
          | mk =>
            obtain ⟨q, first', rfl, -⟩ := exists_cons_of_map_eq hus
            exact ⟨_, q, first', rfl⟩
        rw [List.append_assoc]
        rw [List.cons_append] at hread ⊢
        unfold readBody
        simp [hembeds, hread, hlater, bind_eq_ok]

/-- **What denotes a task is read as that task.** -/
theorem readTask_complete (last : Option Position) (rest : List Placed) {fuel : Nat}
    {placed : List Placed} {t : Task} (h : DenotesTask c (placed.map Placed.token) t)
    (hlen : placed.length ≤ fuel) :
    readTask c last fuel (placed ++ rest) = .ok (t, rest) :=
  (readTask_readBody_complete fuel).1 rest h hlen

/-! ## Control files -/

theorem readTasks_sound {fuel : Nat} {tokens : List Placed} {ts : List Task}
    (h : readTasks c last fuel tokens = .ok ts) : DenotesTasks c (tokens.map Placed.token) ts := by
  induction fuel generalizing tokens ts with
  | zero =>
    cases tokens with
    | nil => cases h; exact .nil
    | cons t ts => cases h
  | succ fuel ih =>
    cases tokens with
    | nil => cases h; exact .nil
    | cons t tokens =>
      rw [readTasks] at h
      obtain ⟨⟨task, rest⟩, htask, h⟩ := bind_eq_ok.mp h
      obtain ⟨tasks, hrest, rfl⟩ := map_eq_ok.mp h
      obtain ⟨passed, heq, hpassed⟩ := readTask_sound htask
      rw [heq, List.map_append]
      exact .cons hpassed (ih hrest)
      · simp

theorem readTasks_complete {fuel : Nat} {placed : List Placed} {ts : List Task}
    (h : DenotesTasks c (placed.map Placed.token) ts) (hlen : placed.length ≤ fuel) :
    readTasks c last fuel placed = .ok ts := by
  induction fuel generalizing placed ts with
  | zero =>
    obtain rfl := List.length_eq_zero_iff.mp (Nat.le_zero.mp hlen)
    obtain rfl := denotesTasks_of_nil h
    rfl
  | succ fuel ih =>
    generalize hts : placed.map Placed.token = us at h
    cases h with
    | nil =>
      obtain rfl := List.map_eq_nil_iff.mp hts
      rfl
    | @cons ts us t tasks ht htasks =>
      obtain ⟨first, later, rfl, rfl, rfl⟩ := exists_append_of_map_eq hts
      have hfirst := length_of_denotesTask ht
      rw [List.length_map] at hfirst
      rw [List.length_append] at hlen
      have hread := readTask_complete last later ht
        (show first.length ≤ fuel + 1 by omega)
      obtain ⟨t', first', rfl⟩ : ∃ t' first', first = t' :: first' :=
        List.exists_cons_of_ne_nil (by rintro rfl; simp at hfirst)
      rw [List.cons_append] at hread ⊢
      rw [readTasks]
      · exact bind_eq_ok.mpr ⟨_, hread, map_eq_ok.mpr ⟨_, ih htasks (by omega), rfl⟩⟩
      · simp

/-- **Tokens are bound to a pipeline iff they denote its tasks.** -/
theorem bindTokens_iff {name : String} {placed : List Placed} {p : Pipeline} :
    bindTokens c name placed = .ok p ↔
      p.name = name ∧ DenotesTasks c (placed.map Placed.token) p.tasks := by
  rw [bindTokens, map_eq_ok]
  constructor
  · rintro ⟨ts, hts, rfl⟩
    exact ⟨rfl, readTasks_sound hts⟩
  · rintro ⟨rfl, h⟩
    exact ⟨p.tasks, readTasks_complete h (Nat.le_refl _), by cases p; rfl⟩

end Runbook.ControlFile
