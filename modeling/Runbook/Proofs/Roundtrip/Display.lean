import Runbook.Proofs.Registry.Standard
import Runbook.Proofs.Roundtrip.Expressible
import Runbook.Pipeline.Text

/-!
# Pipelines read back

The text of a pipeline spells the tokens of its tasks, so binding the text gives the pipeline back
exactly when its tasks are expressible.

* `Catalog.HasIdentifiers`: what is asked of the names of a catalog.
* `spellsWord_text`: the text of a value spells the tokens of its literal.
* `spells_lines`: the lines of an expressible task spell its tokens.
* `bindText_text`: an expressible pipeline is bound again from its text.
* `bindText_text_iff`: no other pipeline is.
-/

namespace Runbook

/-- Every name in the catalog is an identifier. -/
structure Catalog.HasIdentifiers (c : Catalog) : Prop where
  vars : ∀ v ∈ c.vars, Identifier v.name
  methods : ∀ m ∈ c.methods, Identifier m.name
  keywords : ∀ m ∈ c.methods, ∀ k ∈ m.keywords, Identifier k.name

/-! ## Lists -/

/-- The tokens of items with commas between them. -/
def separated {α : Type} (g : α → List Token) : List α → List Token
  | [] => []
  | x :: xs => g x ++ xs.flatMap fun y => .mark .comma :: g y

theorem itemTokens_eq_separated (ls : List Literal) :
    Literal.itemTokens ls = separated Literal.tokens ls := by
  have hlater (ls : List Literal) :
      Literal.laterTokens ls = ls.flatMap fun l => .mark .comma :: l.tokens := by
    induction ls with
    | nil => rfl
    | cons l ls ih => rw [Literal.laterTokens, ih]; rfl
  cases ls with
  | nil => rfl
  | cons l ls => rw [Literal.itemTokens, hlater]; rfl

theorem nameTokens_eq_separated {names : List String} (h : names ≠ []) :
    ControlFile.nameTokens names =
      .mark .leftParen :: (separated (fun s => [.name s]) names ++ [.mark .rightParen]) := by
  cases names with
  | nil => exact absurd rfl h
  | cons s ss => simp [ControlFile.nameTokens, separated]

/-- No mark continues a word. -/
theorem mark_breaks (m : Mark) : isNamePart m.char = false ∧ m.char ≠ '.' := by
  cases m <;> decide

/-- Items with commas between them, up to a closing mark. -/
theorem spells_intercalate {α : Type} {f : α → String} {g : α → List Token} (close : Mark)
    {xs : List α} (h : ∀ x ∈ xs, SpellsWord (f x).toList (g x)) :
    Spells ((", ".intercalate (xs.map f)).toList ++ [close.char])
      (separated g xs ++ [.mark close]) := by
  induction xs with
  | nil => simpa [separated] using spells_mark close
  | cons x xs ih =>
    have hx := h x (by simp)
    have hrest := ih fun y hy => h y (by simp [hy])
    cases xs with
    | nil =>
      simpa [separated] using hx.append (mark_breaks close) (spells_mark close)
    | cons y ys =>
      have hcomma := (spells_mark .comma).append ((spells_blank (c := ' ') rfl).append hrest)
      have := hx.append (c := ',') (mark_breaks .comma) hcomma
      simpa [separated, String.intercalate_cons_cons, Mark.char] using this

/-! ## Values -/

namespace Value

theorem spells_quoted {s : String} (h : Quotable s) : Spells (quoted s).toList [.string s] := by
  simpa [quoted] using spells_string h

/-- Items in brackets are a list literal. -/
theorem spells_bracketed {α : Type} {f : α → String} {g : α → Literal} {xs : List α}
    (h : ∀ x ∈ xs, SpellsWord (f x).toList (g x).tokens) :
    Spells (bracketed (xs.map f)).toList (Literal.list (xs.map g)).tokens := by
  have hitems := spells_intercalate (f := f) (g := fun x => (g x).tokens) .rightBracket h
  have hseparated (xs : List α) :
      separated Literal.tokens (xs.map g) = separated (fun x => (g x).tokens) xs := by
    cases xs with
    | nil => rfl
    | cons x xs => simp [separated, List.flatMap_map]
  have := (spells_mark .leftBracket).append hitems
  simpa [bracketed, Literal.tokens, itemTokens_eq_separated, hseparated, Mark.char] using this

theorem spells_numbersText {xs : List Float} (h : ∀ x ∈ xs, x.isFinite = true) :
    Spells (numbersText xs).toList (Literal.list (xs.map .number)).tokens :=
  spells_bracketed fun x hx => spellsWord_number (NumberText.reads_number (h x hx))

/-- **The text of a value spells the tokens of its literal.** -/
theorem spellsWord_text {v : Value} (hc : v.Clean) (hp : v.group ≠ .pipeline) :
    SpellsWord v.text.toList v.literal.tokens := by
  cases v with
  | index i => exact spellsWord_number (NumberText.reads_integer i)
  | numeric x => exact spellsWord_number (NumberText.reads_number hc)
  | string s => exact (spells_quoted hc).word
  | vector xs => exact (spells_numbersText hc).word
  | indexArray is =>
    exact (spells_bracketed fun i _ => spellsWord_number (NumberText.reads_integer i)).word
  | stringArray ss => exact (spells_bracketed fun s hs => (spells_quoted (hc s hs)).word).word
  | matrix m =>
    refine (spells_bracketed fun row hrow => (spells_numbersText fun x hx => ?_).word).word
    refine hc.1 x ?_
    rw [← m.flatten_toRows]
    exact List.mem_flatten.mpr ⟨row, hrow, hx⟩
  | pipeline p => exact absurd rfl hp

end Value

/-! ## Lines -/

theorem toList_unlines_cons (l : String) (ls : List String) :
    (Text.unlines (l :: ls)).toList = l.toList ++ '\n' :: (Text.unlines ls).toList := by
  simp [Text.unlines]

theorem toList_unlines_append (ls ms : List String) :
    (Text.unlines (ls ++ ms)).toList = (Text.unlines ls).toList ++ (Text.unlines ms).toList := by
  simp [Text.unlines]

theorem spells_indent (depth : Nat) : Spells (indent depth).toList [] := by
  unfold indent
  induction depth with
  | zero => simpa using spells_nil
  | succ depth ih =>
    have hblank := spells_blank (c := ' ') rfl
    rw [List.replicate_succ, String.join_cons, String.toList_append]
    exact (hblank.append hblank).append ih

/-- A line that spells tokens, before lines that spell more. -/
theorem spells_unlines_cons {l : String} {ls : List String} {ts us : List Token}
    (hl : SpellsWord l.toList ts) (hls : Spells (Text.unlines ls).toList us) :
    Spells (Text.unlines (l :: ls)).toList (ts ++ us) := by
  rw [toList_unlines_cons]
  exact hl.append (by decide) ((spells_blank (c := '\n') rfl).append hls)

namespace Task

variable {c : Catalog} (hwf : c.WellFormed) (hid : c.HasIdentifiers)

include hid in
/-- The name of a method and its generic variables. -/
theorem spellsWord_heading {m : MethodId} {ids : List VariableId}
    (hm : m.index < c.methods.length) (hids : ∀ v ∈ ids, v.index < c.vars.length) :
    SpellsWord (heading c m ids).toList
      (.name (c.methodAt m).name ::
        ControlFile.nameTokens (ids.map fun v => (c.variableAt v).name)) := by
  have hname := spellsWord_name (hid.methods _ (Catalog.methodAt_mem hm))
  unfold heading
  cases ids with
  | nil => simpa [ControlFile.nameTokens] using hname
  | cons v vs =>
    have hwords : ∀ w ∈ v :: vs,
        SpellsWord (c.variableAt w).name.toList [.name (c.variableAt w).name] :=
      fun w hw => spellsWord_name (hid.vars _ (Catalog.variableAt_mem (hids w hw)))
    have hvars := spells_intercalate (f := fun v => (c.variableAt v).name) .rightParen hwords
    have hlist := (spells_mark .leftParen).append hvars
    have := hname.append (c := '(') (mark_breaks .leftParen) hlist
    refine Spells.word ?_
    rw [nameTokens_eq_separated (by simp)]
    simpa [separated, List.flatMap_map, Mark.char] using this

include hwf hid in
/-- A line for each keyword. -/
theorem spells_keywordLines {m : MethodId} (depth : Nat) {vs : List Value}
    (hm : m.index < c.methods.length)
    (h : List.Forall₂ (fun k v => v.Fits k.group ∧ v.Clean) (c.methodAt m).keywords vs) :
    Spells (Text.unlines (keywordLines c m depth vs)).toList
      (keywordTokens (c.methodAt m).keywords vs) := by
  have hnames := hid.keywords _ (Catalog.methodAt_mem hm)
  have hgroups := hwf.no_pipeline _ (Catalog.methodAt_mem hm)
  unfold keywordLines
  generalize (c.methodAt m).keywords = ks at *
  induction h with
  | nil => simpa [Text.unlines, keywordTokens] using spells_nil
  | @cons k v ks vs hv _ ih =>
    have hrest := ih (fun k hk => hnames k (by simp [hk])) fun k hk => hgroups k (by simp [hk])
    have hp := Value.group_ne_pipeline_of_fits (hgroups k (by simp)) hv.1
    have hvalue := Value.spellsWord_text hv.2 hp
    have hname := spellsWord_name (hnames k (by simp))
    rw [List.zipWith_cons_cons, keywordTokens]
    refine spells_unlines_cons ?_ hrest
    intro rest us hb hs
    have hblank (cs : List Char) (ts : List Token) (h : Scans cs ts) : Scans (' ' :: cs) ts :=
      scans_blank rfl h
    have hequals := hblank _ _ (spells_mark .equals _ _ (hblank _ _ (hvalue rest us hb hs)))
    have hline := spells_indent (depth + 1) _ _
      (hname _ _ (breaks_cons (c := ' ') (by decide)) hequals)
    change Scans ((indent (depth + 1) ++ k.name ++ " = " ++ v.text).toList ++ rest) _
    simpa [Mark.char] using hline

include hid in
/-- The first line of a task up to its opening brace. -/
theorem spellsWord_indent_heading {m : MethodId} (depth : Nat) {ids : List VariableId}
    (hm : m.index < c.methods.length) (hids : ∀ v ∈ ids, v.index < c.vars.length) :
    SpellsWord (indent depth ++ heading c m ids).toList
      (.name (c.methodAt m).name ::
        ControlFile.nameTokens (ids.map fun v => (c.variableAt v).name)) := by
  intro rest us hb hs
  have := spells_indent depth _ _ (spellsWord_heading hid hm hids rest us hb hs)
  simpa using this

/-- A task without keywords and body, on one line. -/
theorem spells_emptyBraces {head : String} {ts : List Token} (h : SpellsWord head.toList ts) :
    Spells (Text.unlines [head ++ " \x7b\x7d"]).toList
      (ts ++ [.mark .leftBrace, .mark .rightBrace]) := by
  have hbraces := (spells_mark .leftBrace).append (spells_mark .rightBrace)
  have hline := h.append (c := ' ') (by decide) ((spells_blank (c := ' ') rfl).append hbraces)
  have := hline.append (spells_blank (c := '\n') rfl)
  simpa [Text.unlines, Mark.char] using this

/-- A task with its keywords and body on lines of their own. -/
theorem spells_braces {head : String} {depth : Nat} {body : List String} {ts us : List Token}
    (h : SpellsWord head.toList ts) (hbody : Spells (Text.unlines body).toList us) :
    Spells (Text.unlines ((head ++ " \x7b") :: (body ++ [indent depth ++ "\x7d"]))).toList
      (ts ++ .mark .leftBrace :: (us ++ [.mark .rightBrace])) := by
  have hopen := h.append (c := ' ') (by decide)
    ((spells_blank (c := ' ') rfl).append (spells_mark .leftBrace))
  have hclose : Spells (Text.unlines [indent depth ++ "\x7d"]).toList [.mark .rightBrace] := by
    have := (spells_indent depth).append
      ((spells_mark .rightBrace).append (spells_blank (c := '\n') rfl))
    simpa [Text.unlines, Mark.char] using this
  have hlater : Spells (Text.unlines (body ++ [indent depth ++ "\x7d"])).toList
      (us ++ [.mark .rightBrace]) := by
    rw [toList_unlines_append]
    exact hbody.append hclose
  have hfirst : SpellsWord (head ++ " \x7b").toList (ts ++ [.mark .leftBrace]) := by
    simpa [Mark.char] using hopen.word
  simpa using spells_unlines_cons hfirst hlater

theorem lines_ne_nil (depth : Nat) (t : Task) : t.lines c depth ≠ [] := by
  obtain ⟨m, ks, os, is, embedded⟩ := t
  cases embedded with
  | none => rw [lines]; split <;> simp
  | some p => rw [lines]; split <;> simp

/-- Only an empty list of tasks has no lines. -/
theorem eq_nil_of_allLines_eq_nil {depth : Nat} {ts : List Task}
    (h : allLines c depth ts = []) : ts = [] := by
  cases ts with
  | nil => rfl
  | cons t ts =>
    rw [allLines, List.append_eq_nil_iff] at h
    exact absurd h.1 (lines_ne_nil depth t)

/-- The lines of tasks spell their tokens if the lines of each do. -/
theorem spells_allLines {depth : Nat} {ts : List Task}
    (h : ∀ t ∈ ts, Spells (Text.unlines (t.lines c depth)).toList (t.tokens c)) :
    Spells (Text.unlines (allLines c depth ts)).toList (allTokens c ts) := by
  induction ts with
  | nil => simpa [allLines, allTokens, Text.unlines] using spells_nil
  | cons t ts ih =>
    rw [allLines, allTokens, toList_unlines_append]
    exact (h t (by simp)).append (ih fun u hu => h u (by simp [hu]))

include hwf hid in
/-- **The lines of an expressible task spell its tokens.** -/
theorem spells_lines {t : Task} (h : t.Expressible c) (depth : Nat) :
    Spells (Text.unlines (t.lines c depth)).toList (t.tokens c) := by
  induction h generalizing depth with
  | @plain m ks os is hfills hembeds =>
    have hhead := spellsWord_indent_heading hid depth hfills.method_lt hfills.index_lt
    have hkeys := spells_keywordLines hwf hid depth hfills.method_lt hfills.keywords
    rw [lines, tokens, headTokens]
    split
    case isTrue hempty =>
      obtain rfl := List.isEmpty_iff.mp hempty
      simpa [keywordTokens] using spells_emptyBraces hhead
    case isFalse => simpa using spells_braces hhead hkeys
  | @embedding m ks os is ts hfills hembeds _ ih =>
    have hhead := spellsWord_indent_heading hid depth hfills.method_lt hfills.index_lt
    have hkeys := spells_keywordLines hwf hid depth hfills.method_lt hfills.keywords
    have hbody := spells_allLines fun t ht => ih t ht (depth + 1)
    rw [lines, tokens, headTokens, Pipeline.lines, Pipeline.tokens]
    split
    case isTrue hempty =>
      rw [Bool.and_eq_true, List.isEmpty_iff, List.isEmpty_iff] at hempty
      obtain ⟨rfl, hlines⟩ := hempty
      obtain rfl := eq_nil_of_allLines_eq_nil hlines
      simpa [keywordTokens, allTokens] using spells_emptyBraces hhead
    case isFalse =>
      have hall : Spells (Text.unlines (keywordLines c m depth ks ++
          allLines c (depth + 1) ts)).toList
          (keywordTokens (c.methodAt m).keywords ks ++ allTokens c ts) := by
        rw [toList_unlines_append]
        exact hkeys.append hbody
      simpa using spells_braces hhead hall

end Task

/-! ## Binding the text of a pipeline -/

namespace ControlFile

variable {c : Catalog}

/-- **An expressible pipeline is bound again from its text**, down to the bits of its numbers. -/
theorem bindText_text (hwf : c.WellFormed) (hid : c.HasIdentifiers) {p : Pipeline}
    (h : p.Expressible c) : bindText c p.name (p.text c) = .ok p := by
  have hspells : Spells (p.text c).toList (p.tokens c) := by
    obtain ⟨name, ts⟩ := p
    rw [Pipeline.text, Pipeline.lines, Pipeline.tokens]
    exact Task.spells_allLines fun t ht => Task.spells_lines hwf hid (h t ht) 0
  obtain ⟨placed, hscan, htokens⟩ := scan_of_spells hspells
  rw [bindText, hscan]
  exact bindTokens_iff.mpr ⟨rfl, htokens ▸ denotesTasks_tokens hwf h⟩

/-- **Writing and binding are inverse.** The text of a pipeline is bound to a pipeline that equals
it iff every task of it is expressible; what is bound from any text is bound again from its own
text, to the very same pipeline. -/
theorem bindText_text_iff {lib : Library} (hbuilt : lib.Built)
    (hid : lib.catalog.HasIdentifiers) :
    (∀ p : Pipeline,
      (∃ q, bindText lib.catalog p.name (p.text lib.catalog) = .ok q ∧ (q == p) = true) ↔
        p.Expressible lib.catalog) ∧
    ∀ name source p, bindText lib.catalog name source = .ok p →
      bindText lib.catalog p.name (p.text lib.catalog) = .ok p ∧ (p == p) = true := by
  have hwf := wellFormed_of_built hbuilt
  refine ⟨fun p => ⟨?_, fun h => ⟨p, bindText_text hwf hid h, h.beq_self hwf⟩⟩, ?_⟩
  · rintro ⟨q, hbind, hbeq⟩
    exact (expressible_of_bindText hwf hbind).2.of_beq hbeq
  · intro name source p hbind
    have h := (expressible_of_bindText hwf hbind).2
    exact ⟨bindText_text hwf hid h, h.beq_self hwf⟩

end ControlFile

/-! ## In the standard library -/

namespace Standard

theorem hasIdentifiers : library.catalog.HasIdentifiers := by
  have hspecs : ∀ s ∈ specs, Identifier s.name ∧ ∀ k ∈ s.keywords, Identifier k.name := by
    decide +kernel
  refine ⟨?_, ?_, ?_⟩
  · rw [vars_eq]
    decide +kernel
  · intro m hm
    obtain ⟨s, hs, hdeclare⟩ := exists_declare hm
    rw [(Builder.of_declare hdeclare).1]
    exact (hspecs s hs).1
  · intro m hm
    obtain ⟨s, hs, hdeclare⟩ := exists_declare hm
    rw [(Builder.of_declare hdeclare).2]
    exact (hspecs s hs).2

/-- A stored agenda with one task. -/
def storedTask : Pipeline :=
  ⟨"main", [⟨⟨18⟩, [], [⟨10⟩], [],
    some ⟨"AgendaSet", [⟨⟨1⟩, [.numeric 0.1], [⟨2⟩], [], none⟩]⟩⟩]⟩

theorem expressible_storedTask : storedTask.Expressible library.catalog := by
  have hset : library.catalog.methodAt ⟨1⟩ = ⟨"NumericSet",
      "Sets a Numeric variable to the given value.", [], [], [.numeric], [],
      [⟨"value", .numeric⟩], false⟩ := by decide +kernel
  have hagenda : library.catalog.methodAt ⟨18⟩ = ⟨"AgendaSet",
      "Stores the enclosed methods as an agenda.", [], [], [.pipeline], [], [], true⟩ := by
    decide +kernel
  have hinner : Task.Expressible library.catalog ⟨⟨1⟩, [.numeric 0.1], [⟨2⟩], [], none⟩ := by
    refine .plain ⟨by decide +kernel, ?_, ?_, ?_⟩ (by rw [hset])
    · rw [hset]; exact .cons (by decide +kernel) .nil
    · rw [hset]; exact .nil
    · rw [hset]
      exact .cons ⟨rfl, show (0.1 : Float).isFinite = true by decide +kernel⟩ .nil
  have hname : "AgendaSet" = (library.catalog.methodAt ⟨18⟩).name := by rw [hagenda]
  rintro t (_ | ⟨_, ht⟩)
  · rw [hname]
    refine .embedding ⟨by decide +kernel, ?_, ?_, ?_⟩ (by rw [hagenda]) ?_
    · rw [hagenda]; exact .cons (by decide +kernel) .nil
    · rw [hagenda]; exact .nil
    · rw [hagenda]; exact .nil
    · rintro t (_ | ⟨_, ht⟩)
      · exact hinner
      · cases ht
  · cases ht

theorem rebinds_storedTask : library.Built ∧ library.catalog.HasIdentifiers ∧
    ∃ q, ControlFile.bindText library.catalog "main" (storedTask.text library.catalog) = .ok q ∧
      (q == storedTask) = true :=
  ⟨built, hasIdentifiers,
    ((ControlFile.bindText_text_iff built hasIdentifiers).1 storedTask).mpr expressible_storedTask⟩

end Standard
end Runbook
