import Runbook.Proofs.Grammar.Tasks

/-!
# Phrases

A control file taken apart: every task with the names, keywords and tasks that it is written with.
A phrase keeps what the text says and knows no catalog; which task it denotes over a catalog is a
relation of its own. Phrases are what derivations in the grammar look like, so that a text has one
derivation only means that it is the text of one list of phrases.

* `TaskPhrase.tokens`: the tokens of a phrase.
* `TaskPhrase.Denotes`: the task that a phrase denotes, with all conditions on names and groups.
* `denotesTasks_iff`: tokens denote tasks iff they are those of phrases that do.
* `allTokens_injective`: no two lists of phrases have the same tokens.
* `bindTokens_grammar`: what is bound is what the only phrases of the tokens denote.
-/

namespace Runbook.ControlFile

/-! ## Phrases and their tokens -/

/-- A keyword as written: its name, unless it is left out, and its literal. -/
structure KeywordPhrase where
  name : Option String
  literal : Literal

/-- The tokens of the keyword. -/
def KeywordPhrase.tokens : KeywordPhrase → List Token
  | ⟨some name, l⟩ => .name name :: .mark .equals :: l.tokens
  | ⟨none, l⟩ => l.tokens

/-- A task as written: the name of its method, those of generic variables, the keywords, and the
tasks in its body. -/
structure TaskPhrase where
  method : String
  generics : List String
  keywords : List KeywordPhrase
  body : List TaskPhrase

namespace TaskPhrase

mutual

/-- The tokens of the task. -/
def tokens : TaskPhrase → List Token
  | ⟨method, generics, keywords, body⟩ =>
    .name method :: (nameTokens generics ++ .mark .leftBrace ::
      (keywords.flatMap KeywordPhrase.tokens ++ (allTokens body ++ [.mark .rightBrace])))

/-- The tokens of several tasks. -/
def allTokens : List TaskPhrase → List Token
  | [] => []
  | x :: xs => x.tokens ++ allTokens xs

end

end TaskPhrase

/-! ## What phrases denote -/

/-- The phrase gives keyword `k` of `m` the value `v`: under the name of the keyword, which may be
left out where there is no other, and by a literal that can be converted to its group. -/
structure KeywordPhrase.Gives (m : Method) (k : Keyword) (x : KeywordPhrase) (v : Value) :
    Prop where
  name : x.name = some k.name ∨ (x.name = none ∧ m.keywords.length = 1)
  literal : x.literal.coerce? k.group = some v

/-- The phrases give each of the keywords a value, one phrase for each, in order. -/
inductive GiveAll (m : Method) : List Keyword → List KeywordPhrase → List Value → Prop where
  | nil : GiveAll m [] [] []
  | cons {k : Keyword} {ks : List Keyword} {x : KeywordPhrase} {xs : List KeywordPhrase}
    {v : Value} {vs : List Value} :
    x.Gives m k v → GiveAll m ks xs vs → GiveAll m (k :: ks) (x :: xs) (v :: vs)

mutual

/-- The phrase denotes the task: its method is in the catalog, it names as many variables as the
method has generic slots, each in the catalog and of a group that the slot takes, its keywords have
the declared values, and only a method that takes a pipeline has tasks in its body. -/
inductive TaskPhrase.Denotes (c : Catalog) : TaskPhrase → Task → Prop where
  | mk {method : String} {id : MethodId} {generics : List String} {ids : List VariableId}
    {keywords : List KeywordPhrase} {values : List Value} {body : List TaskPhrase}
    {tasks : List Task} :
    c.findMethod? method = some id →
    List.Forall₂ (fun name v => c.findVariable? name = some v) generics ids →
    List.Forall₂ (fun g v => g.accepts (c.variableAt v).group = true)
      (c.methodAt id).generics ids →
    GiveAll (c.methodAt id) (c.methodAt id).keywords keywords values →
    DenoteAll c body tasks →
    ((c.methodAt id).embeds = false → body = []) →
      TaskPhrase.Denotes c ⟨method, generics, keywords, body⟩
        ⟨id, values, ids.take (c.methodAt id).genericOutputs.length,
          ids.drop (c.methodAt id).genericOutputs.length,
          if (c.methodAt id).embeds then some ⟨(c.methodAt id).name, tasks⟩ else none⟩

/-- The phrases denote the tasks, one each, in order. -/
inductive DenoteAll (c : Catalog) : List TaskPhrase → List Task → Prop where
  | nil : DenoteAll c [] []
  | cons {x : TaskPhrase} {xs : List TaskPhrase} {t : Task} {ts : List Task} :
    x.Denotes c t → DenoteAll c xs ts → DenoteAll c (x :: xs) (t :: ts)

end

open TaskPhrase (allTokens)

variable {c : Catalog} {m : Method}

/-! ## Phrases are derivations -/

theorem denotesKeyword_iff {k : Keyword} {ts : List Token} {v : Value} :
    DenotesKeyword m k ts v ↔ ∃ x : KeywordPhrase, x.tokens = ts ∧ x.Gives m k v := by
  constructor
  · rintro (hv | ⟨hone, hv⟩)
    · exact ⟨⟨some k.name, _⟩, rfl, .inl rfl, hv⟩
    · exact ⟨⟨none, _⟩, rfl, .inr ⟨rfl, hone⟩, hv⟩
  · rintro ⟨⟨name, l⟩, rfl, hname, hv⟩
    rcases hname with h | ⟨h, hone⟩
    · obtain rfl : name = some k.name := h
      exact .named hv
    · obtain rfl : name = none := h
      exact .bare hone hv

theorem denotesKeywords_iff {ks : List Keyword} {ts : List Token} {vs : List Value} :
    DenotesKeywords m ks ts vs ↔
      ∃ xs : List KeywordPhrase, xs.flatMap KeywordPhrase.tokens = ts ∧ GiveAll m ks xs vs := by
  constructor
  · intro h
    induction h with
    | nil => exact ⟨[], rfl, .nil⟩
    | cons hk _ ih =>
      obtain ⟨x, rfl, hx⟩ := denotesKeyword_iff.mp hk
      obtain ⟨xs, rfl, hxs⟩ := ih
      exact ⟨x :: xs, List.flatMap_cons, .cons hx hxs⟩
  · rintro ⟨xs, rfl, h⟩
    induction h with
    | nil => exact .nil
    | cons hx _ ih =>
      rw [List.flatMap_cons]
      exact .cons (denotesKeyword_iff.mpr ⟨_, rfl, hx⟩) ih

mutual

theorem exists_phrase {ts : List Token} {t : Task} :
    DenotesTask c ts t → ∃ x : TaskPhrase, x.tokens = ts ∧ x.Denotes c t
  | .mk hid hgenerics hkeywords hbody hempty => by
    obtain ⟨names, rfl, hnames, hgroups⟩ := hgenerics
    obtain ⟨keywords, rfl, hvalues⟩ := denotesKeywords_iff.mp hkeywords
    obtain ⟨body, rfl, htasks⟩ := exists_phrases hbody
    refine ⟨⟨_, names, keywords, body⟩, by rw [TaskPhrase.tokens],
      .mk hid hnames hgroups hvalues htasks fun hno => ?_⟩
    obtain rfl := hempty hno
    cases htasks
    rfl

/-- Tokens that denote tasks are those of phrases that do. -/
theorem exists_phrases {ts : List Token} {tasks : List Task} :
    DenotesTasks c ts tasks → ∃ xs, allTokens xs = ts ∧ DenoteAll c xs tasks
  | .nil => ⟨[], by rw [allTokens], .nil⟩
  | .cons ht htasks => by
    obtain ⟨x, rfl, hx⟩ := exists_phrase ht
    obtain ⟨xs, rfl, hxs⟩ := exists_phrases htasks
    exact ⟨x :: xs, by rw [allTokens], .cons hx hxs⟩

end

mutual

theorem TaskPhrase.Denotes.tokens {x : TaskPhrase} {t : Task} :
    x.Denotes c t → DenotesTask c x.tokens t
  | .mk hid hnames hgroups hvalues hbody hempty => by
    rw [TaskPhrase.tokens]
    refine .mk hid ⟨_, rfl, hnames, hgroups⟩ (denotesKeywords_iff.mpr ⟨_, rfl, hvalues⟩)
      hbody.tokens fun hno => ?_
    obtain rfl := hempty hno
    cases hbody
    rfl

theorem DenoteAll.tokens {xs : List TaskPhrase} {ts : List Task} :
    DenoteAll c xs ts → DenotesTasks c (allTokens xs) ts
  | .nil => by rw [allTokens]; exact .nil
  | .cons hx hxs => by rw [allTokens]; exact .cons hx.tokens hxs.tokens

end

/-- **Tokens denote tasks iff they are those of phrases that do.** -/
theorem denotesTasks_iff {ts : List Token} {tasks : List Task} :
    DenotesTasks c ts tasks ↔ ∃ xs, allTokens xs = ts ∧ DenoteAll c xs tasks := by
  constructor
  · exact exists_phrases
  · rintro ⟨xs, rfl, h⟩
    exact h.tokens

/-! ## Where phrases end

A reader that gives back what was spelled shows that the spelling ends where it ends, whatever
comes after: what the reader answers with is determined by its input. -/

/-- Tokens at no place in particular. -/
def anywhere (ts : List Token) : List Placed :=
  ts.map fun t => ⟨t, .start⟩

theorem map_token_anywhere (ts : List Token) : (anywhere ts).map Placed.token = ts := by
  simp [anywhere, Function.comp_def]

theorem anywhere_append (ts us : List Token) :
    anywhere (ts ++ us) = anywhere ts ++ anywhere us :=
  List.map_append

theorem anywhere_injective {ts us : List Token} (h : anywhere ts = anywhere us) : ts = us := by
  rw [← map_token_anywhere ts, h, map_token_anywhere]

/-- A literal ends where its tokens do. -/
theorem literal_ends {l l' : Literal} {r s : List Token} (h : l.tokens ++ r = l'.tokens ++ s) :
    l = l' ∧ r = s := by
  have hl := readLiteral_complete none (anywhere r) (map_token_anywhere l.tokens)
  have hl' := readLiteral_complete none (anywhere s) (map_token_anywhere l'.tokens)
  rw [← anywhere_append, h, anywhere_append, hl'] at hl
  obtain ⟨hliteral, hrest⟩ := Prod.mk.inj (Except.ok.inj hl)
  exact ⟨hliteral.symm, (anywhere_injective hrest).symm⟩

/-- Names in parentheses end with the parenthesis, and no names before an opening brace. -/
theorem names_end {names names' : List String} {r s : List Token}
    (h : nameTokens names ++ .mark .leftBrace :: r = nameTokens names' ++ .mark .leftBrace :: s) :
    names = names' ∧ r = s := by
  cases names with
  | nil =>
    cases names' with
    | nil => exact ⟨rfl, (List.cons.inj h).2⟩
    | cons => cases h
  | cons n ns =>
    cases names' with
    | nil => cases h
    | cons n' ns' =>
      -- The reader of names begins after the opening parenthesis.
      obtain ⟨ts, hts⟩ : ∃ ts, nameTokens (n :: ns) = .mark .leftParen :: ts := ⟨_, rfl⟩
      obtain ⟨us, hus⟩ : ∃ us, nameTokens (n' :: ns') = .mark .leftParen :: us := ⟨_, rfl⟩
      have hspelled :
          .mark .leftParen :: (anywhere ts).map Placed.token = nameTokens (n :: ns) := by
        rw [map_token_anywhere, hts]
      have hspelled' :
          .mark .leftParen :: (anywhere us).map Placed.token = nameTokens (n' :: ns') := by
        rw [map_token_anywhere, hus]
      obtain ⟨read, hread, hnames⟩ :=
        readNames_complete none (anywhere (.mark .leftBrace :: r)) hspelled
      obtain ⟨read', hread', hnames'⟩ :=
        readNames_complete none (anywhere (.mark .leftBrace :: s)) hspelled'
      simp only [hts, hus, List.cons_append, List.cons.injEq, true_and] at h
      rw [← anywhere_append, h, anywhere_append, hread'] at hread
      obtain ⟨rfl, hrest⟩ := Prod.mk.inj (Except.ok.inj hread)
      exact ⟨hnames.symm.trans hnames', (List.cons.inj (anywhere_injective hrest)).2.symm⟩

/-- A keyword ends where its tokens do. -/
theorem keyword_ends {x y : KeywordPhrase} {r s : List Token} (h : x.tokens ++ r = y.tokens ++ s) :
    x = y ∧ r = s := by
  obtain ⟨name, l⟩ := x
  obtain ⟨name', l'⟩ := y
  have hne : ∀ (l : Literal) (r : List Token) name us, l.tokens ++ r ≠ .name name :: us := by
    intro l r name us heq
    obtain ⟨t, ts, hl, hstarts⟩ := tokens_eq_cons l
    rw [hl] at heq
    cases heq
    cases hstarts
  cases name with
  | some n =>
    cases name' with
    | some n' =>
      simp only [KeywordPhrase.tokens, List.cons_append, List.cons.injEq, Token.name.injEq,
        true_and] at h
      obtain ⟨rfl, h⟩ := h
      obtain ⟨rfl, hrest⟩ := literal_ends h
      exact ⟨rfl, hrest⟩
    | none => exact absurd h.symm (hne _ _ _ _)
  | none =>
    cases name' with
    | some n' => exact absurd h (hne _ _ _ _)
    | none =>
      obtain ⟨rfl, hrest⟩ := literal_ends h
      exact ⟨rfl, hrest⟩

/-- After the keywords come tasks or the closing brace, and there no keyword begins. -/
theorem no_keyword_begins (body : List TaskPhrase) (r : List Token) (x : KeywordPhrase)
    (s : List Token) : allTokens body ++ .mark .rightBrace :: r ≠ x.tokens ++ s := by
  intro h
  obtain ⟨name, l⟩ := x
  cases name with
  | some n =>
    cases body with
    | nil => cases h
    | cons y ys =>
      obtain ⟨method, generics, keywords, body⟩ := y
      rw [allTokens, TaskPhrase.tokens] at h
      cases generics <;> cases h
  | none =>
    obtain ⟨t, ts, hl, hstarts⟩ := tokens_eq_cons l
    rw [KeywordPhrase.tokens, hl] at h
    cases body with
    | nil => cases h; cases hstarts
    | cons y ys =>
      obtain ⟨method, generics, keywords, body⟩ := y
      simp only [allTokens, TaskPhrase.tokens, List.cons_append, List.cons.injEq] at h
      obtain ⟨rfl, -⟩ := h
      cases hstarts

/-- The keywords end where no other one begins. -/
theorem keywords_end {xs ys : List KeywordPhrase} {r s : List Token}
    (hr : ∀ (x : KeywordPhrase) u, r ≠ x.tokens ++ u)
    (hs : ∀ (x : KeywordPhrase) u, s ≠ x.tokens ++ u)
    (h : xs.flatMap KeywordPhrase.tokens ++ r = ys.flatMap KeywordPhrase.tokens ++ s) :
    xs = ys ∧ r = s := by
  induction xs generalizing ys with
  | nil =>
    cases ys with
    | nil => exact ⟨rfl, h⟩
    | cons y ys =>
      rw [List.flatMap_cons, List.append_assoc] at h
      exact absurd h (hr _ _)
  | cons x xs ih =>
    cases ys with
    | nil =>
      rw [List.flatMap_cons, List.append_assoc] at h
      exact absurd h.symm (hs _ _)
    | cons y ys =>
      rw [List.flatMap_cons, List.flatMap_cons, List.append_assoc, List.append_assoc] at h
      obtain ⟨rfl, hlater⟩ := keyword_ends h
      obtain ⟨rfl, hrest⟩ := ih hlater
      exact ⟨rfl, hrest⟩

mutual

/-- A task ends where its tokens do. -/
theorem task_ends (x : TaskPhrase) {y : TaskPhrase} {r s : List Token}
    (h : x.tokens ++ r = y.tokens ++ s) : x = y ∧ r = s := by
  obtain ⟨method, generics, keywords, body⟩ := x
  obtain ⟨method', generics', keywords', body'⟩ := y
  simp only [TaskPhrase.tokens, List.cons_append, List.append_assoc, List.nil_append,
    List.cons.injEq, Token.name.injEq] at h
  obtain ⟨rfl, hgenerics⟩ := h
  obtain ⟨rfl, hkeywords⟩ := names_end hgenerics
  obtain ⟨rfl, hbody⟩ :=
    keywords_end (no_keyword_begins body r) (no_keyword_begins body' s) hkeywords
  obtain ⟨rfl, hrest⟩ := tasks_end body hbody
  exact ⟨rfl, hrest⟩

/-- Tasks end at the brace that closes their body. -/
theorem tasks_end (xs : List TaskPhrase) {ys : List TaskPhrase} {r s : List Token}
    (h : allTokens xs ++ .mark .rightBrace :: r = allTokens ys ++ .mark .rightBrace :: s) :
    xs = ys ∧ r = s := by
  cases xs with
  | nil =>
    cases ys with
    | nil => exact ⟨rfl, (List.cons.inj h).2⟩
    | cons y ys =>
      obtain ⟨method, generics, keywords, body⟩ := y
      rw [allTokens, allTokens, TaskPhrase.tokens] at h
      cases h
  | cons x xs =>
    cases ys with
    | nil =>
      obtain ⟨method, generics, keywords, body⟩ := x
      rw [allTokens, allTokens, TaskPhrase.tokens] at h
      cases h
    | cons y ys =>
      rw [allTokens, allTokens, List.append_assoc, List.append_assoc] at h
      obtain ⟨rfl, hlater⟩ := task_ends x h
      obtain ⟨rfl, hrest⟩ := tasks_end xs hlater
      exact ⟨rfl, hrest⟩

end

/-- **The grammar is unambiguous**: no two lists of phrases have the same tokens. -/
theorem allTokens_injective {xs ys : List TaskPhrase} (h : allTokens xs = allTokens ys) :
    xs = ys :=
  (tasks_end (r := []) (s := []) xs (by rw [h])).1

/-! ## What is bound -/

/-- **Binding decides the grammar.** Tokens are bound to a pipeline iff they are those of task
phrases that denote its tasks: each begins with the name of a method of the catalog; variables for
all of its generic slots, outputs first, follow in parentheses, or none if it has none, each of the
catalog and of a group that its slot takes; between braces there is a literal that can be converted
for each declared keyword, in order and under its name unless it is the only one, and then, only if
the method takes a pipeline, the tasks of that pipeline, which is called like the method. The tokens
are those of no other phrases, so there is one derivation and one pipeline. -/
theorem bindTokens_grammar (c : Catalog) (name : String) (placed : List Placed) :
    (∀ p, bindTokens c name placed = .ok p ↔
      p.name = name ∧ ∃ xs, allTokens xs = placed.map Placed.token ∧ DenoteAll c xs p.tasks) ∧
    ∀ xs ys, allTokens xs = placed.map Placed.token → allTokens ys = placed.map Placed.token →
      xs = ys := by
  refine ⟨fun p => ?_, fun xs ys hxs hys => allTokens_injective (hxs.trans hys.symm)⟩
  rw [bindTokens_iff, denotesTasks_iff]

end Runbook.ControlFile
