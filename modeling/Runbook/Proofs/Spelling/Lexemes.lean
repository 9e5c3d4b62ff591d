import Runbook.Proofs.Spelling.Joined
import Runbook.Proofs.Spelling.Tokens

/-!
# Lexemes and blanks

A control file is an alternation of blanks and lexemes, and its tokens are those of the lexemes.
Which lexemes a token has and what a blank is are said here without reference to the scan: every way
to write the tokens is scanned to them, and everything that is scanned is written in such a way.

* `Lexeme`: all spellings of a token. `Blank`, `FinalBlank`: what may stand between and after them.
* `Word`, `spread`: lexemes with the blanks before them, and the text they come to.
* `Word.Longest`: no longer name and no longer number begins where the word does.
* `scanFrom_spread`: a text of words is scanned to their tokens, each where its lexeme begins.
* `exists_words`: a text that is scanned is a text of words.
* `scan_alternation`: both.
-/

namespace Runbook

/-! ## Lexemes -/

/-- The spellings of tokens: marks, strings between quotes, names, and complete numbers. -/
inductive Lexeme : List Char → Token → Prop
  | mark (m : Mark) : Lexeme [m.char] (.mark m)
  | string {s : String} (h : Quotable s) : Lexeme ('"' :: s.toList ++ ['"']) (.string s)
  | name {s : String} (h : Identifier s) : Lexeme s.toList (.name s)
  | integer {n : NumberText} {i : Int64} (h : n.Complete) (hplain : n.isFractional = false)
    (hi : i.toInt = n.toInt) : Lexeme n.chars (.integer i)
  | number {n : NumberText} (h : n.Complete) (hfractional : n.isFractional = true)
    (hfinite : n.toFloat.isFinite = true) : Lexeme n.chars (.number n.toFloat)

theorem Lexeme.readsOff {cs rest : List Char} {t : Token} (h : Lexeme cs t) (hb : Breaks rest) :
    ReadsOff cs rest t := by
  cases h with
  | mark m => exact readsOff_mark m rest
  | string h => exact readsOff_string h rest
  | name h => exact readsOff_name h hb
  | @integer n i h hplain hi =>
    refine readsOff_number h ?_ hb
    rw [NumberText.token_of_complete h, if_neg (by simp [hplain]), ← hi,
      if_pos ⟨i.minValue_le_toInt, i.toInt_le⟩, Int64.ofInt_toInt]
  | @number n h hfractional hfinite =>
    refine readsOff_number h ?_ hb
    rw [NumberText.token_of_complete h, if_pos hfractional, if_pos hfinite]

theorem Lexeme.ne_nil {cs : List Char} {t : Token} (h : Lexeme cs t) : cs ≠ [] := by
  have hbreaks : Breaks [] := nofun
  obtain ⟨c, ds, rfl, -⟩ := h.readsOff hbreaks
  exact List.cons_ne_nil c ds

namespace NumberText

theorem lexeme_of_token {n : NumberText} {t : Token} (hn : n.Complete) (h : n.token = .ok t) :
    Lexeme n.chars t := by
  rw [token_of_complete hn] at h
  by_cases hfractional : n.isFractional = true
  · rw [if_pos hfractional] at h
    by_cases hfinite : n.toFloat.isFinite = true
    · rw [if_pos hfinite] at h
      cases h
      exact .number hn hfractional hfinite
    · rw [if_neg hfinite] at h
      cases h
  · rw [if_neg hfractional] at h
    by_cases hrange : Int64.minValue.toInt ≤ n.toInt ∧ n.toInt ≤ Int64.maxValue.toInt
    · rw [if_pos hrange] at h
      cases h
      exact .integer hn (by simpa using hfractional)
        (Int64.toInt_ofInt_of_le hrange.1 (Int.lt_of_le_of_lt hrange.2 (by decide)))
    · rw [if_neg hrange] at h
      cases h

end NumberText

/-- No longer name and no longer number begins where the lexeme does, if `rest` follows. -/
structure Longest (lexeme rest : List Char) : Prop where
  name : ∀ s, Identifier s → s.toList <+: lexeme ++ rest → s.toList <+: lexeme
  number : ∀ n : NumberText, n.Complete → n.chars <+: lexeme ++ rest → n.chars <+: lexeme

theorem isNameStart_of_begins {s : String} {c : Char} {cs : List Char} (h : Identifier s)
    (hs : s.toList <+: c :: cs) : isNameStart c = true := by
  obtain ⟨d, hd, hstart, -⟩ := h
  obtain ⟨ds, hds⟩ := List.head?_eq_some_iff.mp hd
  rw [hds, List.cons_prefix_cons] at hs
  exact hs.1 ▸ hstart

theorem isNumberStart_of_begins {n : NumberText} {c : Char} {cs : List Char} (h : n.Complete)
    (hn : n.chars <+: c :: cs) : isNumberStart c = true := by
  obtain ⟨d, ds, hds, hstart⟩ := isNumberStart_of_complete h
  rw [hds, List.cons_prefix_cons] at hn
  exact hn.1 ▸ hstart

theorem isNamePart_of_isNameStart {c : Char} (h : isNameStart c = true) : isNamePart c = true := by
  simp only [isNameStart, Bool.or_eq_true] at h
  simp only [isNamePart, Char.isAlphanum, Bool.or_eq_true]
  tauto

theorem toNat_of_isNamePart {c : Char} (h : isNamePart c = true) :
    33 ≤ c.toNat ∧ c.toNat ≤ 122 := by
  have hsplit : isNameStart c = true ∨ isNumberStart c = true := by
    simp only [isNamePart, Char.isAlphanum, Bool.or_eq_true] at h
    simp only [isNameStart, isNumberStart, Bool.or_eq_true]
    tauto
  rcases hsplit with h | h
  · have := toNat_of_isNameStart h
    omega
  · have := toNat_of_isNumberStart h
    omega

/-- Where neither a name nor a number begins, there is no longer one. -/
theorem longest_of_head {c : Char} {cs rest : List Char} (hname : isNameStart c = false)
    (hnumber : isNumberStart c = false) : Longest (c :: cs) rest := by
  refine ⟨fun s hs hbegins => ?_, fun n hn hbegins => ?_⟩
  · rw [isNameStart_of_begins hs hbegins] at hname
    cases hname
  · rw [isNumberStart_of_begins hn hbegins] at hnumber
    cases hnumber

theorem identifier_takeWhile {c : Char} (cs : List Char) (hc : isNameStart c = true) :
    Identifier (String.ofList ((c :: cs).takeWhile isNamePart)) := by
  have hpart : isNamePart c = true := isNamePart_of_isNameStart hc
  refine ⟨c, ?_, hc, fun d hd => ?_⟩
  · simp [hpart]
  · rw [String.toList_ofList] at hd
    exact List.all_eq_true.mp List.all_takeWhile d hd

/-- The number at the head of a text is the longest one there, and no name begins where it does. -/
theorem longest_number {c : Char} {cs : List Char} (hnumber : isNumberStart c = true) :
    Longest (NumberText.take (c :: cs)).1.chars (NumberText.take (c :: cs)).2 := by
  have hrest := NumberText.append_rest (c :: cs)
  refine ⟨fun s hs hbegins => ?_, fun n hn hbegins => ?_⟩
  · rw [hrest] at hbegins
    have hname := isNumberStart_eq_false (isNameStart_of_begins hs hbegins)
    rw [hnumber] at hname
    cases hname
  · rw [hrest] at hbegins
    obtain ⟨more, hmore⟩ := hbegins
    rw [← hmore]
    exact NumberText.chars_prefix_take hn more

/-- The name at the head of a text goes as far as a name can. -/
theorem longest_name {c : Char} {cs : List Char} (hnumber : isNumberStart c = false) :
    Longest ((c :: cs).takeWhile isNamePart) ((c :: cs).dropWhile isNamePart) := by
  have hrest := List.takeWhile_append_dropWhile (p := isNamePart) (l := c :: cs)
  refine ⟨fun s hs hbegins => ?_, fun n hn hbegins => ?_⟩
  · rw [hrest] at hbegins
    obtain ⟨more, hmore⟩ := hbegins
    obtain ⟨-, -, -, hparts⟩ := hs
    rw [← hmore, List.takeWhile_append_of_pos hparts]
    exact List.prefix_append _ _
  · rw [hrest] at hbegins
    rw [isNumberStart_of_begins hn hbegins] at hnumber
    cases hnumber

theorem Mark.char_of_ofChar? {c : Char} {m : Mark} (h : ofChar? c = some m) : m.char = c := by
  unfold ofChar? at h
  split at h <;> cases h <;> rfl

/-- What is read off is a lexeme, and the longest one. -/
theorem lexeme_of_readLexeme {c : Char} {cs : List Char} {t : Token} {k : Nat}
    (h : readLexeme c cs = .ok (t, k)) :
    ∃ lexeme rest, c :: cs = lexeme ++ rest ∧ lexeme.length = k ∧ Lexeme lexeme t ∧
      Longest lexeme rest := by
  unfold readLexeme at h
  by_cases hquote : c = '"'
  · rw [if_pos hquote] at h
    obtain ⟨content, rest, rfl, hcontent, hr⟩ := readString_eq_ok_iff.mp h
    cases hr
    refine ⟨'"' :: content ++ ['"'], rest, by simp [hquote], by simp, ?_,
      longest_of_head (by decide) (by decide)⟩
    have hplain : Quotable (String.ofList content) := by
      intro d hd
      simpa using hcontent d (by simpa using hd)
    simpa using Lexeme.string hplain
  · rw [if_neg hquote] at h
    by_cases hnumber : isNumberStart c = true
    · rw [if_pos hnumber] at h
      dsimp only at h
      split at h
      case h_2 => cases h
      case h_1 token htoken =>
        cases h
        have hcomplete := NumberText.complete_of_token htoken
        exact ⟨_, _, (NumberText.append_rest (c :: cs)).symm, rfl,
          NumberText.lexeme_of_token hcomplete htoken, longest_number hnumber⟩
    · rw [if_neg hnumber] at h
      replace hnumber : isNumberStart c = false := by simpa using hnumber
      by_cases hname : isNameStart c = true
      · rw [if_pos hname] at h
        cases h
        refine ⟨_, _, List.takeWhile_append_dropWhile.symm, rfl, ?_, longest_name hnumber⟩
        simpa using Lexeme.name (identifier_takeWhile cs hname)
      · rw [if_neg hname] at h
        split at h
        case h_2 => cases h
        case h_1 m hm =>
          cases h
          obtain rfl := Mark.char_of_ofChar? hm
          exact ⟨[m.char], cs, rfl, rfl, .mark m,
            longest_of_head (by simpa using hname) hnumber⟩

/-! ## Blanks -/

/-- White space and comments, each with the line feed that ends it. -/
inductive Blank : List Char → Prop
  | nil : Blank []
  | space {c : Char} {cs : List Char} (hc : Text.isBlank c = true) (h : Blank cs) : Blank (c :: cs)
  | comment {text cs : List Char} (htext : '\n' ∉ text) (h : Blank cs) :
    Blank ('#' :: text ++ '\n' :: cs)

/-- The same at the end of a text, which may cut the last comment off. -/
inductive FinalBlank : List Char → Prop
  | whole {cs : List Char} (h : Blank cs) : FinalBlank cs
  | cut {cs text : List Char} (h : Blank cs) (htext : '\n' ∉ text) : FinalBlank (cs ++ '#' :: text)

theorem Blank.append {as bs : List Char} (ha : Blank as) (hb : Blank bs) : Blank (as ++ bs) := by
  induction ha with
  | nil => exact hb
  | space hc _ ih => exact .space hc ih
  | @comment text cs htext _ ih =>
    rw [List.append_assoc, List.cons_append]
    exact .comment htext ih

theorem FinalBlank.prepend {as bs : List Char} (ha : Blank as) (hb : FinalBlank bs) :
    FinalBlank (as ++ bs) := by
  cases hb with
  | whole hb => exact .whole (ha.append hb)
  | @cut cs text hb htext =>
    rw [← List.append_assoc]
    exact .cut (ha.append hb) htext

theorem breaks_of_isBlank {c : Char} (cs : List Char) (hc : Text.isBlank c = true) :
    Breaks (c :: cs) := by
  refine breaks_cons ⟨?_, ?_⟩
  · by_contra hpart
    rw [isBlank_eq_false (toNat_of_isNamePart (Bool.eq_true_of_not_eq_false hpart))] at hc
    cases hc
  · rintro rfl
    revert hc
    decide

theorem Blank.breaks {cs : List Char} (h : Blank cs) (hne : cs ≠ []) (rest : List Char) :
    Breaks (cs ++ rest) := by
  cases h with
  | nil => exact absurd rfl hne
  | space hc h => exact breaks_of_isBlank _ hc
  | comment htext h => exact breaks_cons (by decide)

theorem FinalBlank.breaks {cs : List Char} (h : FinalBlank cs) : Breaks cs := by
  cases h with
  | whole h =>
    by_cases hne : cs = []
    · rw [hne]
      nofun
    · simpa using h.breaks hne []
  | @cut cs text h htext =>
    by_cases hne : cs = []
    · rw [hne]
      exact breaks_cons (by decide)
    · exact h.breaks hne _

theorem takeWhile_ne_append {text : List Char} (h : '\n' ∉ text) (rest : List Char) :
    (text ++ '\n' :: rest).takeWhile (· != '\n') = text := by
  rw [takeWhile_append_stop (by decide), List.takeWhile_eq_self_iff]
  intro c hc
  simpa using fun heq : c = '\n' => h (heq ▸ hc)

/-- A blank is passed over. -/
theorem scanFrom_blank {cs : List Char} (h : Blank cs) (p : Position) (rest : List Char) :
    scanFrom 0 p (cs ++ rest) = scanFrom 0 (p.after cs) rest := by
  induction h generalizing p with
  | nil => rfl
  | space hc h ih =>
    rw [List.cons_append, scanFrom]
    simp only [hc, if_true]
    exact ih _
  | @comment text cs htext h ih =>
    have hhash : Text.isBlank '#' = false := by decide
    have hfeed : Text.isBlank '\n' = true := by decide
    rw [List.append_assoc, List.cons_append, List.cons_append, List.cons_append, scanFrom]
    simp only [hhash, Bool.false_eq_true, if_false, if_true]
    rw [takeWhile_ne_append htext, scanFrom_pending, scanFrom]
    simp only [hfeed, if_true]
    rw [ih, Position.after_cons, Position.after_append, Position.after_cons]

/-- Nothing stands in a blank. -/
theorem scanFrom_finalBlank {cs : List Char} (h : FinalBlank cs) (p : Position) :
    scanFrom 0 p cs = .ok [] := by
  cases h with
  | whole h => simpa [scanFrom] using scanFrom_blank h p []
  | @cut cs text h htext =>
    have hhash : Text.isBlank '#' = false := by decide
    have htake : text.takeWhile (· != '\n') = text := by
      rw [List.takeWhile_eq_self_iff]
      intro c hc
      simpa using fun heq : c = '\n' => htext (heq ▸ hc)
    rw [scanFrom_blank h, scanFrom]
    simp only [hhash, Bool.false_eq_true, if_false, if_true, htake]
    simpa [scanFrom] using scanFrom_pending ((p.after cs).next '#') text []

/-- A text is a blank, or it begins with one and goes on with something else. -/
theorem exists_blank (cs : List Char) :
    FinalBlank cs ∨ ∃ blank c rest, cs = blank ++ c :: rest ∧ Blank blank ∧
      Text.isBlank c = false ∧ c ≠ '#' := by
  induction hlen : cs.length using Nat.strong_induction_on generalizing cs with
  | _ n ih =>
    have step (as bs : List Char) (ha : Blank as) (hlt : bs.length < n) :
        FinalBlank (as ++ bs) ∨ ∃ blank c rest, as ++ bs = blank ++ c :: rest ∧ Blank blank ∧
          Text.isBlank c = false ∧ c ≠ '#' := by
      rcases ih bs.length hlt bs rfl with hb | ⟨blank, c, rest, rfl, hb, hc⟩
      · exact .inl (.prepend ha hb)
      · exact .inr ⟨as ++ blank, c, rest, by simp, ha.append hb, hc⟩
    cases cs with
    | nil => exact .inl (.whole .nil)
    | cons c cs =>
      rw [List.length_cons] at hlen
      by_cases hblank : Text.isBlank c = true
      · exact step [c] cs (.space hblank .nil) (by omega)
      · by_cases hhash : c = '#'
        · subst hhash
          by_cases hfeed : '\n' ∈ cs
          · obtain ⟨text, rest, rfl, htext⟩ := List.eq_append_cons_of_mem hfeed
            have := step ('#' :: text ++ ['\n']) rest (.comment htext .nil) (by simp at hlen; omega)
            simpa using this
          · exact .inl (.cut .nil hfeed)
        · exact .inr ⟨[], c, cs, rfl, .nil, by simpa using hblank, hhash⟩

/-! ## Words -/

/-- A lexeme with the blank before it and its token. -/
structure Word where
  blank : List Char
  lexeme : List Char
  token : Token
  isBlank : Blank blank
  isLexeme : Lexeme lexeme token

/-- The text of some words, with what follows the last one. -/
def spread : List Word → List Char → List Char
  | [], final => final
  | w :: ws, final => w.blank ++ (w.lexeme ++ spread ws final)

/-- The tokens of some words, each where its lexeme begins. -/
def places (p : Position) : List Word → List Placed
  | [] => []
  | w :: ws => ⟨w.token, p.after w.blank⟩ :: places ((p.after w.blank).after w.lexeme) ws

theorem places_token (p : Position) (words : List Word) :
    (places p words).map Placed.token = words.map Word.token := by
  induction words generalizing p with
  | nil => rfl
  | cons w ws ih => rw [places, List.map_cons, List.map_cons, ih]

/-- Whether something stands between any two words. -/
def Spaced (words : List Word) : Prop :=
  ∀ w ∈ words.tail, w.blank ≠ []

/-- **A text of words is scanned to their tokens**, each where its lexeme begins. -/
theorem scanFrom_spread {words : List Word} {final : List Char} (hwords : Spaced words)
    (hfinal : FinalBlank final) (p : Position) :
    scanFrom 0 p (spread words final) = .ok (places p words) := by
  induction words generalizing p with
  | nil => exact scanFrom_finalBlank hfinal p
  | cons w ws ih =>
    have hbreaks : Breaks (spread ws final) := by
      cases ws with
      | nil => exact hfinal.breaks
      | cons v vs => exact v.isBlank.breaks (hwords v List.mem_cons_self) _
    rw [spread, scanFrom_blank w.isBlank, (w.isLexeme.readsOff hbreaks).scanFrom,
      ih fun v hv => hwords v (List.mem_of_mem_tail hv)]
    rfl

/-- **A text that is scanned is a text of words**, and those are as long as can be. -/
theorem exists_words {p : Position} {cs : List Char} {placed : List Placed}
    (h : scanFrom 0 p cs = .ok placed) :
    ∃ words final, FinalBlank final ∧ cs = spread words final ∧ placed = places p words ∧
      ∀ before w after, words = before ++ w :: after → Longest w.lexeme (spread after final) := by
  induction hlen : cs.length using Nat.strong_induction_on generalizing cs p placed with
  | _ n ih =>
    rcases exists_blank cs with hfinal | ⟨blank, c, rest, rfl, hblank, hc, hhash⟩
    · rw [scanFrom_finalBlank hfinal] at h
      cases h
      exact ⟨[], cs, hfinal, rfl, rfl, by simp⟩
    · rw [scanFrom_blank hblank] at h
      cases hread : readLexeme c rest with
      | error e =>
        rw [scanFrom] at h
        simp only [hc, Bool.false_eq_true, if_false, hhash, hread] at h
        cases h
      | ok r =>
        obtain ⟨t, k⟩ := r
        obtain ⟨lexeme, rest', heq, rfl, hlexeme, hlongest⟩ := lexeme_of_readLexeme hread
        obtain ⟨ds, rfl⟩ : ∃ ds, lexeme = c :: ds := by
          obtain ⟨d, ds, rfl⟩ := List.exists_cons_of_ne_nil hlexeme.ne_nil
          exact ⟨ds, by rw [(List.cons.inj heq).1]⟩
        obtain rfl : rest = ds ++ rest' := (List.cons.inj heq).2
        have hreads : ReadsOff (c :: ds) rest' t := ⟨c, ds, rfl, hc, hhash, hread⟩
        rw [heq, hreads.scanFrom] at h
        obtain ⟨us, hus, rfl⟩ := map_eq_ok.mp h
        obtain ⟨words, final, hfinal, rfl, rfl, hwords⟩ :=
          ih rest'.length (by simp at hlen; omega) hus rfl
        refine ⟨⟨blank, c :: ds, t, hblank, hlexeme⟩ :: words, final, hfinal, rfl, rfl, ?_⟩
        intro before w after hsplit
        cases before with
        | nil =>
          cases hsplit
          exact hlongest
        | cons v before =>
          cases hsplit
          exact hwords before w after rfl

/-- **Scanning undoes spelling.** Words with something between them and a blank at the end are
scanned to the tokens of the words. Conversely, every text that is scanned is a text of words with
these tokens and a blank at the end, where each name and each number goes on as far as it can. -/
theorem scan_alternation :
    (∀ words final, Spaced words → FinalBlank final →
      ∃ placed, scan (String.ofList (spread words final)) = .ok placed ∧
        placed.map Placed.token = words.map Word.token) ∧
    (∀ source placed, scan source = .ok placed →
      ∃ words final, FinalBlank final ∧ source.toList = spread words final ∧
        placed.map Placed.token = words.map Word.token ∧
        ∀ before w after, words = before ++ w :: after →
          Longest w.lexeme (spread after final)) := by
  constructor
  · intro words final hwords hfinal
    refine ⟨places .start words, ?_, places_token .start words⟩
    rw [scan_eq_ok_iff, String.toList_ofList]
    exact scanFrom_spread hwords hfinal .start
  · intro source placed h
    obtain ⟨words, final, hfinal, hsource, rfl, hlongest⟩ := exists_words (scan_eq_ok_iff.mp h)
    exact ⟨words, final, hfinal, hsource, places_token .start words, hlongest⟩

/-- A leading zero after a comment with a quote in it, and a number that begins with its point. -/
def spacedWords : List Word :=
  let half : NumberText := ⟨none, [], some ['5'], some ⟨'E', some '+', ['0']⟩⟩
  [⟨['#', '"', '\n'], ['-', '0', '7'], .integer (-7), @Blank.comment ['"'] [] (by decide) .nil,
      .integer (n := ⟨some '-', ['0', '7'], none, none⟩) (by decide) rfl (by decide)⟩,
    ⟨[' '], half.chars, .number half.toFloat, .space (by decide) .nil,
      .number (by decide) rfl (by decide +kernel)⟩]

/-- Spaced words before a comment that is cut off, and words that touch each other. -/
theorem scan_alternation_touching :
    (∃ placed, scan "#\"\n-07 .5E+0#" = .ok placed ∧
      placed.map Placed.token = spacedWords.map Word.token) ∧
    ∃ placed, scan "a\x7b1.5.5\"#\"-2b" = .ok placed ∧
      ∃ words final, FinalBlank final ∧ "a\x7b1.5.5\"#\"-2b".toList = spread words final ∧
        placed.map Placed.token = words.map Word.token ∧
        ∀ before w after, words = before ++ w :: after →
          Longest w.lexeme (spread after final) := by
  constructor
  · have hspaced : Spaced spacedWords := by simp [Spaced, spacedWords]
    exact scan_alternation.1 spacedWords ['#'] hspaced (.cut .nil (by decide))
  · have hscans : (scan "a\x7b1.5.5\"#\"-2b").toOption.isSome = true := by decide +kernel
    cases hscan : scan "a\x7b1.5.5\"#\"-2b" with
    | error e =>
      rw [hscan] at hscans
      cases hscans
    | ok placed => exact ⟨placed, rfl, scan_alternation.2 _ placed hscan⟩

end Runbook
