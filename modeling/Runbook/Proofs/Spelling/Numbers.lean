import Runbook.Proofs.Decimal.ReadBack
import Runbook.Proofs.Spelling.Digits

/-!
# Number texts read back

What is written for an integer or a finite double is one number lexeme, and the lexeme is the token
of that integer or double.

* `Complete`: the number texts that have a value, in every form.
* `take_chars`: a complete number is taken off whole from a text that goes on with something else.
  `chars_prefix_take`: whatever follows, no complete number is longer than what is taken off.
* `readDouble?_chars`, `readInt64?_chars`: what its characters are read as. `token_of_complete`: the
  token that it is.
* `Regular`: those that are written. `Reads`: a text is a regular number with a given token.
* `reads_integer`, `reads_number`: what is written for an integer, and for a finite double.
-/

namespace Runbook

theorem takeFraction_append_of_ne {cs : List Char} (h : ∀ c ∈ cs.head?, c ≠ '.') :
    takeFraction cs = (none, cs) := by
  unfold takeFraction
  split
  case h_1 => exact absurd rfl (h '.' rfl)
  case h_2 => rfl

theorem takeExponent_append_of_ne {cs : List Char} (h : ∀ c ∈ cs.head?, c ≠ 'e' ∧ c ≠ 'E') :
    takeExponent cs = (none, cs) := by
  unfold takeExponent
  split
  case h_1 c cs =>
    obtain ⟨h1, h2⟩ := h c rfl
    rw [if_neg (by simp [h1, h2])]
  case h_2 => rfl

/-- A text that does not go on with a number. -/
def EndsNumber (rest : List Char) : Prop :=
  ∀ c ∈ rest.head?, c.isDigit = false ∧ c ≠ '.' ∧ c ≠ 'e' ∧ c ≠ 'E'

/-! ## Complete numbers -/

/-- An exponent part with digits. -/
structure ExponentText.Complete (e : ExponentText) : Prop where
  mark : e.mark = 'e' ∨ e.mark = 'E'
  sign : Sign e.sign
  digits : Digits e.digits
  digits_ne_nil : e.digits ≠ []

instance (e : ExponentText) : Decidable e.Complete :=
  decidable_of_iff ((e.mark = 'e' ∨ e.mark = 'E') ∧ Sign e.sign ∧ Digits e.digits ∧ e.digits ≠ [])
    ⟨fun ⟨hm, hs, hd, hne⟩ => ⟨hm, hs, hd, hne⟩, fun ⟨hm, hs, hd, hne⟩ => ⟨hm, hs, hd, hne⟩⟩

/-- A number with a digit before or after the point, and digits in its exponent part. -/
structure NumberText.Complete (n : NumberText) : Prop where
  sign : Sign n.sign
  whole : Digits n.whole
  fraction : ∀ ds ∈ n.fraction, Digits ds
  mantissa_ne_nil : n.mantissa ≠ []
  exponent : ∀ e ∈ n.exponent, e.Complete

instance (n : NumberText) : Decidable n.Complete :=
  letI : Decidable (∀ ds ∈ n.fraction, Digits ds) := Option.decidableForallMem n.fraction
  letI : Decidable (∀ e ∈ n.exponent, e.Complete) := Option.decidableForallMem n.exponent
  decidable_of_iff
    (Sign n.sign ∧ Digits n.whole ∧ (∀ ds ∈ n.fraction, Digits ds) ∧ n.mantissa ≠ [] ∧
      ∀ e ∈ n.exponent, e.Complete)
    ⟨fun ⟨hs, hw, hf, hm, he⟩ => ⟨hs, hw, hf, hm, he⟩,
      fun ⟨hs, hw, hf, hm, he⟩ => ⟨hs, hw, hf, hm, he⟩⟩

namespace NumberText

/-- Digits after the exponent part belong to it. -/
theorem takeExponent_chars {e : ExponentText} (he : e.Complete) (rest : List Char) :
    takeExponent (e.chars ++ rest) =
      (some { e with digits := e.digits ++ (takeDigits rest).1 }, (takeDigits rest).2) := by
  have hhead : ∀ c ∈ (e.digits ++ rest).head?, c ≠ '+' ∧ c ≠ '-' := by
    obtain ⟨d, ds, hds⟩ := List.exists_cons_of_ne_nil he.digits_ne_nil
    intro c hc
    obtain rfl : d = c := by simpa [hds] using hc
    exact ne_sign_of_isDigit (he.digits d (hds ▸ List.mem_cons_self))
  simp only [ExponentText.chars, List.cons_append, List.append_assoc, takeExponent, if_pos he.mark,
    takeSign_append_of_sign he.sign hhead, takeDigits_append_of_digits he.digits]

/-- What stands after the whole part of the number, if `rest` follows. -/
def afterWhole (n : NumberText) (rest : List Char) : List Char :=
  (n.fraction.map ('.' :: ·)).getD [] ++ ((n.exponent.map ExponentText.chars).getD [] ++ rest)

theorem chars_append (n : NumberText) (rest : List Char) :
    n.chars ++ rest = n.sign.toList ++ (n.whole ++ n.afterWhole rest) := by
  simp [chars, afterWhole]

/-- After its sign, a complete number goes on with a digit or a point. -/
theorem head?_whole {n : NumberText} (hn : n.Complete) (rest : List Char) :
    ∃ c cs, n.whole ++ n.afterWhole rest = c :: cs ∧ (c.isDigit = true ∨ c = '.') := by
  rcases hwhole : n.whole with _ | ⟨d, ds⟩
  · rcases hfraction : n.fraction with _ | ds
    · exact absurd (by simp [mantissa, hwhole, hfraction]) hn.mantissa_ne_nil
    · exact ⟨'.', _, by rw [afterWhole, hfraction]; rfl, .inr rfl⟩
  · exact ⟨d, _, rfl, .inl (hn.whole d (hwhole ▸ List.mem_cons_self))⟩

/-- A complete number begins with a sign, a digit or a point. -/
theorem chars_eq_cons {n : NumberText} (hn : n.Complete) :
    ∃ c cs, n.chars = c :: cs ∧ (c = '+' ∨ c = '-' ∨ c.isDigit = true ∨ c = '.') := by
  obtain ⟨c, cs, hcs, hc⟩ := head?_whole hn []
  have hchars := chars_append n []
  rw [List.append_nil, hcs] at hchars
  rcases hsign : n.sign with _ | s
  · exact ⟨c, cs, by rw [hchars, hsign]; rfl, .inr (.inr hc)⟩
  · refine ⟨s, c :: cs, by rw [hchars, hsign]; rfl, ?_⟩
    obtain rfl | rfl := hn.sign s hsign
    · exact .inl rfl
    · exact .inr (.inl rfl)

theorem takeSign_chars {n : NumberText} (hn : n.Complete) (rest : List Char) :
    takeSign (n.chars ++ rest) = (n.sign, n.whole ++ n.afterWhole rest) := by
  rw [chars_append]
  refine takeSign_append_of_sign hn.sign fun c hc => ?_
  obtain ⟨d, ds, hds, hd⟩ := head?_whole hn rest
  rw [hds] at hc
  obtain rfl : d = c := by simpa using hc
  rcases hd with hd | rfl
  · exact ne_sign_of_isDigit hd
  · decide

/-- What is taken off where `rest` follows the number: its last part goes on as far as it can. -/
def grown (n : NumberText) (rest : List Char) : NumberText × List Char :=
  let (digits, afterDigits) := takeDigits rest
  match n.fraction, n.exponent with
  | _, some e => ({ n with exponent := some { e with digits := e.digits ++ digits } }, afterDigits)
  | some ds, none =>
    let (exponent, rest) := takeExponent afterDigits
    ({ n with fraction := some (ds ++ digits), exponent }, rest)
  | none, none =>
    let (fraction, afterMantissa) := takeFraction afterDigits
    let (exponent, rest) := takeExponent afterMantissa
    ({ n with whole := n.whole ++ digits, fraction, exponent }, rest)

theorem takeDigits_append_point {ds : List Char} (hd : Digits ds) (rest : List Char) :
    takeDigits (ds ++ '.' :: rest) = (ds, '.' :: rest) :=
  takeDigits_append_of_stop hd fun c hc => by
    obtain rfl : '.' = c := by simpa using hc
    decide

/-- **A complete number is taken off**, with what continues its last part. -/
theorem take_append {n : NumberText} (hn : n.Complete) (rest : List Char) :
    take (n.chars ++ rest) = n.grown rest := by
  rw [take, takeSign_chars hn]
  obtain ⟨sign, whole, fraction, exponent⟩ := n
  obtain ⟨-, hw, hf, hne, he⟩ := hn
  simp only [mantissa] at hw hf hne he
  cases exponent with
  | some e =>
    have hmark : ∀ c ∈ (e.chars ++ rest).head?, c.isDigit = false ∧ c ≠ '.' := by
      intro c hc
      obtain rfl : e.mark = c := by simpa [ExponentText.chars] using hc
      rcases (he e rfl).mark with h | h <;> rw [h] <;> decide
    have hstop : ∀ c ∈ (e.chars ++ rest).head?, c.isDigit = false := fun c hc => (hmark c hc).1
    cases fraction with
    | none =>
      have hdigit : (whole.isEmpty && ([] : List Char).isEmpty) = false := by simpa using hne
      simp only [afterWhole, Option.map_none, Option.getD_none, List.nil_append, Option.map_some,
        Option.getD_some, takeDigits_append_of_stop hw hstop,
        takeFraction_append_of_ne fun c hc => (hmark c hc).2, hdigit, Bool.false_eq_true, if_false,
        takeExponent_chars (he e rfl), grown]
    | some ds =>
      have hdigit : (whole.isEmpty && ds.isEmpty) = false := by simpa using hne
      simp only [afterWhole, Option.map_some, Option.getD_some, List.cons_append,
        takeDigits_append_point hw, takeFraction, takeDigits_append_of_stop (hf ds rfl) hstop,
        hdigit, Bool.false_eq_true, if_false, takeExponent_chars (he e rfl), grown]
  | none =>
    cases fraction with
    | none =>
      have hdigit : (whole ++ (takeDigits rest).1).isEmpty = false := by
        rw [List.isEmpty_eq_false_iff]
        exact List.append_ne_nil_of_left_ne_nil (by simpa using hne) _
      simp only [afterWhole, Option.map_none, Option.getD_none, List.nil_append,
        takeDigits_append_of_digits hw, hdigit, Bool.false_and, Bool.false_eq_true, if_false, grown]
    | some ds =>
      have hdigit : (whole.isEmpty && (ds ++ (takeDigits rest).1).isEmpty) = false := by
        rw [Bool.and_eq_false_iff, List.isEmpty_eq_false_iff, List.isEmpty_eq_false_iff]
        by_contra! hnil
        exact hne (by simp [hnil.1, (List.append_eq_nil_iff.mp hnil.2).1])
      simp only [afterWhole, Option.map_none, Option.map_some, Option.getD_none, Option.getD_some,
        List.nil_append, List.cons_append, takeDigits_append_point hw, takeFraction,
        takeDigits_append_of_digits (hf ds rfl), hdigit, Bool.false_eq_true, if_false, grown]

/-- **A complete number is taken off whole** if what follows does not continue it. -/
theorem take_chars {n : NumberText} {rest : List Char} (hn : n.Complete) (hr : EndsNumber rest) :
    take (n.chars ++ rest) = (n, rest) := by
  have hdigits : takeDigits rest = ([], rest) := takeDigits_eq_nil fun c hc => (hr c hc).1
  have hfraction : takeFraction rest = (none, rest) :=
    takeFraction_append_of_ne fun c hc => (hr c hc).2.1
  have hexponent : takeExponent rest = (none, rest) :=
    takeExponent_append_of_ne fun c hc => (hr c hc).2.2
  rw [take_append hn]
  obtain ⟨sign, whole, fraction, exponent⟩ := n
  cases exponent with
  | some e => simp [grown, hdigits]
  | none => cases fraction <;> simp [grown, hdigits, hfraction, hexponent]

/-- **No complete number at the head of a text is longer than what is taken off.** -/
theorem chars_prefix_take {n : NumberText} (hn : n.Complete) (rest : List Char) :
    n.chars <+: (take (n.chars ++ rest)).1.chars := by
  rw [take_append hn]
  obtain ⟨sign, whole, fraction, exponent⟩ := n
  cases exponent with
  | some e =>
    refine ⟨(takeDigits rest).1, ?_⟩
    simp [grown, chars, ExponentText.chars]
  | none =>
    cases fraction with
    | none =>
      simp only [grown, chars, List.append_assoc]
      simp
    | some ds =>
      simp only [grown, chars, List.append_assoc]
      simp

/-! ## The value of a complete number -/

theorem digits_mantissa {n : NumberText} (hn : n.Complete) : Digits n.mantissa := by
  intro c hc
  rw [mantissa, List.mem_append] at hc
  rcases hc with hc | hc
  · exact hn.whole c hc
  · rcases hfraction : n.fraction with _ | ds
    · rw [hfraction] at hc
      cases hc
    · rw [hfraction] at hc
      exact hn.fraction ds hfraction c hc

/-- The mantissa and its point stand before the exponent part. -/
theorem cutAt_mark {n : NumberText} (hn : n.Complete) :
    cutAt (fun c => c == 'e' || c == 'E') (n.whole ++ n.afterWhole []) =
      (n.whole ++ (n.fraction.map ('.' :: ·)).getD [],
        n.exponent.map fun e => e.sign.toList ++ e.digits) := by
  have hdigit : ∀ c : Char, c.isDigit = true → (c == 'e' || c == 'E') = false := by
    intro c hc
    have he : c ≠ 'e' := by rintro rfl; revert hc; decide
    have hE : c ≠ 'E' := by rintro rfl; revert hc; decide
    simp [he, hE]
  have hmantissa : ∀ c ∈ n.whole ++ (n.fraction.map ('.' :: ·)).getD [],
      (c == 'e' || c == 'E') = false := by
    intro c hc
    rcases List.mem_append.mp hc with hc | hc
    · exact hdigit c (hn.whole c hc)
    · rcases hfraction : n.fraction with _ | ds
      · rw [hfraction] at hc
        cases hc
      · rw [hfraction] at hc
        rcases List.mem_cons.mp hc with rfl | hc
        · decide
        · exact hdigit c (hn.fraction ds hfraction c hc)
  rw [afterWhole, List.append_nil, ← List.append_assoc]
  rcases hexponent : n.exponent with _ | e
  · simpa using cutAt_of_ne hmantissa
  · refine cutAt_append_cons hmantissa ?_ _
    rcases (hn.exponent e hexponent).mark with h | h <;> rw [h] <;> rfl

/-- The whole part stands before the point. -/
theorem cutAt_point {n : NumberText} (hn : n.Complete) :
    cutAt (· == '.') (n.whole ++ (n.fraction.map ('.' :: ·)).getD []) = (n.whole, n.fraction) := by
  have hwhole : ∀ c ∈ n.whole, (c == '.') = false := by
    intro c hc
    have hdigit := hn.whole c hc
    have hne : c ≠ '.' := by rintro rfl; revert hdigit; decide
    simp [hne]
  rcases n.fraction with _ | ds
  · simpa using cutAt_of_ne hwhole
  · exact cutAt_append_cons hwhole rfl ds

theorem readInt?_exponent {n : NumberText} (hn : n.Complete) :
    (n.exponent.map fun e => e.sign.toList ++ e.digits).elim (some 0) readInt? =
      some ((n.exponent.map ExponentText.value).getD 0) := by
  rcases hexponent : n.exponent with _ | e
  · rfl
  · obtain ⟨-, hs, hd, hne⟩ := hn.exponent e hexponent
    exact readInt?_of_digits hs hd hne

/-- Without its sign, a complete number does not spell a word. -/
theorem toLower_head_whole {n : NumberText} (hn : n.Complete) :
    ∃ c cs, (n.whole ++ n.afterWhole []).map Char.toLower = c :: cs ∧ c ≠ 'i' ∧ c ≠ 'n' := by
  obtain ⟨c, cs, hcs, hc⟩ := head?_whole hn []
  have hlower : c.toLower = c := by
    refine Char.toLower_eq_of_not_isUpper ?_
    rcases hc with hc | rfl
    · simp only [Char.isDigit, Char.isUpper, Bool.and_eq_true, decide_eq_true_eq] at hc ⊢
      rintro ⟨hlow, -⟩
      exact absurd (UInt32.le_trans hlow hc.2) (by decide)
    · decide
  refine ⟨c, cs.map Char.toLower, by rw [hcs, List.map_cons, hlower], ?_⟩
  rcases hc with hc | rfl
  · constructor <;> rintro rfl <;> revert hc <;> decide
  · decide

/-- **Read as one text, a complete number is the double that its parts say.** -/
theorem readDouble?_chars {n : NumberText} (hn : n.Complete) :
    readDouble? n.chars = some n.toFloat := by
  have hsign := takeSign_chars hn []
  rw [List.append_nil] at hsign
  obtain ⟨c, cs, hword, hi, hn'⟩ := toLower_head_whole hn
  have hdecimal : readDecimal? (n.whole ++ n.afterWhole []) =
      some ⟨digitsValue n.mantissa,
        (n.exponent.map ExponentText.value).getD 0 - (n.fraction.getD []).length⟩ := by
    rw [readDecimal?, cutAt_mark hn]
    simp only [cutAt_point hn, readInt?_exponent hn, Option.map_some]
    rw [← mantissa, readNat?_of_digits (digits_mantissa hn) hn.mantissa_ne_nil]
    rfl
  rw [readDouble?, hsign]
  simp only [hword, hdecimal, Option.map_some, List.cons.injEq, hi, hn', false_and, or_self,
    if_false]
  rfl

/-- And without point and exponent it is the integer, within 64 bits. -/
theorem readInt64?_chars {n : NumberText} (hn : n.Complete) (hplain : n.isFractional = false) :
    readInt64? n.chars =
      if Int64.minValue.toInt ≤ n.toInt ∧ n.toInt ≤ Int64.maxValue.toInt then
        some (Int64.ofInt n.toInt)
      else none := by
  obtain ⟨sign, whole, fraction, exponent⟩ := n
  obtain ⟨hs, hw, -, hne, -⟩ := hn
  obtain ⟨rfl, rfl⟩ : fraction = none ∧ exponent = none := by simpa [isFractional] using hplain
  have hchars : chars ⟨sign, whole, none, none⟩ = sign.toList ++ whole := by simp [chars]
  have hvalue : readInt? (chars ⟨sign, whole, none, none⟩) =
      some (toInt ⟨sign, whole, none, none⟩) := by
    rw [hchars, readInt?_of_digits hs hw (by simpa [mantissa] using hne), toInt, isNegative]
    simp only [beq_iff_eq]
  rw [readInt64?, hvalue]
  rfl

/-- A complete number has a token, unless its value is out of range. -/
theorem token_of_complete {n : NumberText} (hn : n.Complete) :
    n.token =
      if n.isFractional then
        if n.toFloat.isFinite then .ok (.number n.toFloat)
        else .error (.numberRange (String.ofList n.chars))
      else if Int64.minValue.toInt ≤ n.toInt ∧ n.toInt ≤ Int64.maxValue.toInt then
        .ok (.integer (Int64.ofInt n.toInt))
      else .error (.integerRange (String.ofList n.chars)) := by
  have hexp : (n.exponent.any fun e => e.digits.isEmpty) = false := by
    rcases h : n.exponent with _ | e
    · rfl
    · simpa using (hn.exponent e h).digits_ne_nil
  have hmantissa : n.mantissa.isEmpty = false :=
    List.isEmpty_eq_false_iff.mpr hn.mantissa_ne_nil
  rw [token, hmantissa, hexp, readDouble?_chars hn]
  simp only [Bool.false_eq_true, if_false]
  by_cases hfractional : n.isFractional = true
  · rw [if_pos hfractional, if_pos hfractional]
  · rw [if_neg hfractional, if_neg hfractional, readInt64?_chars hn (by simpa using hfractional)]
    by_cases hrange : Int64.minValue.toInt ≤ n.toInt ∧ n.toInt ≤ Int64.maxValue.toInt
    · rw [if_pos hrange, if_pos hrange]
    · rw [if_neg hrange, if_neg hrange]

/-! What is taken off consists of signs and digits. -/

theorem sign_takeSign (cs : List Char) : Sign (takeSign cs).1 := by
  unfold takeSign
  split
  case h_1 => rintro _ ⟨⟩; exact .inl rfl
  case h_2 => rintro _ ⟨⟩; exact .inr rfl
  case h_3 => nofun

theorem digits_takeDigits (cs : List Char) : Digits (takeDigits cs).1 :=
  List.all_eq_true.mp List.all_takeWhile

theorem digits_takeFraction (cs : List Char) : ∀ ds ∈ (takeFraction cs).1, Digits ds := by
  unfold takeFraction
  split
  case h_1 cs => rintro _ ⟨⟩; exact digits_takeDigits cs
  case h_2 => nofun

theorem complete_takeExponent (cs : List Char) :
    ∀ e ∈ (takeExponent cs).1, e.digits ≠ [] → e.Complete := by
  unfold takeExponent
  split
  case h_1 c cs =>
    by_cases hc : c = 'e' ∨ c = 'E'
    · rw [if_pos hc]
      rintro _ ⟨⟩ hne
      exact ⟨hc, sign_takeSign cs, digits_takeDigits _, hne⟩
    · rw [if_neg hc]
      nofun
  case h_2 => nofun

/-- What is taken off lacks at most a digit of its mantissa or its exponent part. -/
theorem complete_take {cs : List Char} (hmantissa : (take cs).1.mantissa ≠ [])
    (hexponent : ∀ e ∈ (take cs).1.exponent, e.digits ≠ []) : (take cs).1.Complete := by
  refine ⟨?_, ?_, ?_, hmantissa, fun e he => ?_⟩
  · unfold take
    dsimp only
    split <;> exact sign_takeSign cs
  · unfold take
    dsimp only
    split <;> exact digits_takeDigits _
  · unfold take
    dsimp only
    split <;> exact digits_takeFraction _
  · have hne := hexponent e he
    unfold take at he
    dsimp only at he
    split at he
    case isTrue => cases he
    case isFalse => exact complete_takeExponent _ e he hne

/-- What is taken off is complete if it has a token. -/
theorem complete_of_token {cs : List Char} {t : Token} (h : (take cs).1.token = .ok t) :
    (take cs).1.Complete := by
  unfold token at h
  split at h
  case isTrue => cases h
  case isFalse hmantissa =>
    split at h
    case isTrue => cases h
    case isFalse hexponent =>
      refine complete_take (by simpa using hmantissa) fun e he => ?_
      rw [Option.mem_def] at he
      simpa [he] using hexponent

end NumberText

/-! ## What is written -/

/-- The minus sign of a negative number, as it is written. -/
def minus? (negative : Bool) : Option Char :=
  if negative then some '-' else none

theorem sign_minus (negative : Bool) : Sign (minus? negative) := by
  cases negative with
  | true => rintro _ ⟨⟩; exact .inr rfl
  | false => nofun

/-- An exponent part with digits, as it is written. -/
structure ExponentText.Regular (e : ExponentText) : Prop where
  mark : e.mark = 'e'
  sign : ∃ negative, e.sign = minus? negative
  digits : Digits e.digits
  digits_ne_nil : e.digits ≠ []

/-- A number with digits before the point, as it is written. -/
structure NumberText.Regular (n : NumberText) : Prop where
  sign : ∃ negative, n.sign = minus? negative
  whole : Digits n.whole
  whole_ne_nil : n.whole ≠ []
  fraction : ∀ ds ∈ n.fraction, Digits ds
  exponent : ∀ e ∈ n.exponent, e.Regular

theorem ExponentText.Regular.complete {e : ExponentText} (he : e.Regular) : e.Complete := by
  obtain ⟨negative, hsign⟩ := he.sign
  exact ⟨.inl he.mark, hsign ▸ sign_minus negative, he.digits, he.digits_ne_nil⟩

namespace NumberText

theorem Regular.complete {n : NumberText} (hn : n.Regular) : n.Complete := by
  obtain ⟨negative, hsign⟩ := hn.sign
  exact ⟨hsign ▸ sign_minus negative, hn.whole, hn.fraction,
    List.append_ne_nil_of_left_ne_nil hn.whole_ne_nil _, fun e he => (hn.exponent e he).complete⟩

/-- `cs` is a regular number, and `t` is its token. -/
def Reads (cs : List Char) (t : Token) : Prop :=
  ∃ n : NumberText, n.Regular ∧ n.chars = cs ∧ n.token = .ok t

theorem token_of_toFloat {n : NumberText} {x : Float} (hn : n.Regular)
    (hf : n.isFractional = true) (h : n.toFloat = x) (hx : x.isFinite = true) :
    n.token = .ok (.number x) := by
  rw [token_of_complete hn.complete, if_pos hf, h, if_pos hx]

theorem isNegative_minus {negative : Bool} {whole : List Char} {fraction : Option (List Char)}
    {exponent : Option ExponentText} :
    (⟨minus? negative, whole, fraction, exponent⟩ : NumberText).isNegative = negative := by
  cases negative <;> rfl

/-- An integer as it is written: its sign and the digits of its magnitude. -/
theorem toList_toString_int (i : Int) :
    (toString i).toList = (minus? (decide (i < 0))).toList ++ Nat.toDigits 10 i.natAbs := by
  cases i with
  | ofNat n => simp [Int.repr, minus?, Nat.toList_repr]
  | negSucc n => simp [Int.repr, minus?, Nat.toList_repr, Int.negSucc_lt_zero]

/-- **An integer reads back.** -/
theorem reads_integer (i : Int64) : Reads (toString i.toInt).toList (.integer i) := by
  let n : NumberText := ⟨minus? (decide (i.toInt < 0)), Nat.toDigits 10 i.toInt.natAbs, none, none⟩
  have hn : n.Regular :=
    ⟨⟨_, rfl⟩, digits_toDigits _, Nat.toDigits_ne_nil, by simp [n], by simp [n]⟩
  have hvalue : n.toInt = i.toInt := by
    rw [toInt, isNegative_minus, digitsValue_toDigits]
    by_cases h : i.toInt < 0
    · rw [if_pos (by simpa using h)]; omega
    · rw [if_neg (by simpa using h)]; omega
  have hchars : n.chars = (toString i.toInt).toList := by
    rw [toList_toString_int]
    simp [n, chars]
  refine ⟨n, hn, hchars, ?_⟩
  rw [token_of_complete hn.complete, hvalue, if_neg (by simp [n, isFractional]),
    if_pos ⟨i.minValue_le_toInt, i.toInt_le⟩, Int64.ofInt_toInt]

theorem toList_signed (negative : Bool) (magnitude : String) :
    (Double.signed negative magnitude).toList =
      (minus? negative).toList ++ magnitude.toList := by
  cases negative with
  | true => simp [Double.signed, minus?]
  | false => simp [Double.signed, minus?]

section

variable {negative : Bool} {x : Float} (hx : x.isFinite = true)

include hx

/-- An integer with one decimal. -/
theorem reads_one_decimal {n : Nat} (h : Decimal.nearest negative ⟨10 * n, -1⟩ = x) :
    Reads (Double.signed negative (Decimal.digits n ++ ".0")).toList (.number x) := by
  let t : NumberText := ⟨minus? negative, Nat.toDigits 10 n, some ['0'], none⟩
  have ht : t.Regular :=
    ⟨⟨_, rfl⟩, digits_toDigits _, Nat.toDigits_ne_nil, by simp [t, Digits], by simp [t]⟩
  refine ⟨t, ht, by simp [t, chars, toList_signed, Decimal.digits], token_of_toFloat ht rfl ?_ hx⟩
  rw [toFloat, isNegative_minus]
  simp only [t, mantissa, Option.getD_some, digitsValue_toDigits_append_zero]
  exact h

/-- One digit, the others after the point, and the exponent. -/
theorem reads_scientific {d : Decimal} (h : Decimal.nearest negative d = x) :
    Reads (Double.signed negative d.scientific).toList (.number x) := by
  obtain ⟨c, cs, hdigits⟩ := List.exists_cons_of_ne_nil
    (Nat.toDigits_ne_nil (n := d.coefficient) (b := 10))
  have hall : Digits (c :: cs) := hdigits ▸ digits_toDigits _
  let power : Int := d.exponent + cs.length
  let t : NumberText := ⟨minus? negative, [c], if cs.isEmpty then none else some cs,
    some ⟨'e', minus? (decide (power < 0)), Nat.toDigits 10 power.natAbs⟩⟩
  have hfraction : t.fraction.getD [] = cs := by cases cs <;> rfl
  have ht : t.Regular := by
    refine ⟨⟨_, rfl⟩, ?_, by simp [t], ?_, ?_⟩
    · intro d hd
      obtain rfl : d = c := by simpa [t] using hd
      exact hall d (by simp)
    · intro ds hds d hd
      have : ds = cs := by rw [← hfraction, hds]; rfl
      exact hall d (by simp [← this, hd])
    · rintro _ ⟨⟩
      exact ⟨rfl, ⟨_, rfl⟩, digits_toDigits _, Nat.toDigits_ne_nil⟩
  have hpower : (t.exponent.map ExponentText.value).getD 0 = power := by
    simp only [t, Option.map_some, Option.getD_some, ExponentText.value, minus?,
      digitsValue_toDigits]
    by_cases hneg : power < 0
    · rw [if_pos (by simp [hneg])]; omega
    · rw [if_neg (by simp [hneg])]; omega
  have hmantissa : t.mantissa = Nat.toDigits 10 d.coefficient := by
    rw [mantissa, hfraction, hdigits]; rfl
  refine ⟨t, ht, ?_, token_of_toFloat ht (by simp [t, isFractional]) ?_ hx⟩
  · rw [toList_signed, Decimal.scientific, hdigits]
    cases cs <;> simp [t, chars, ExponentText.chars, ← toList_toString_int, power]
  · rw [toFloat, isNegative_minus, hpower, hmantissa, digitsValue_toDigits, hfraction,
      show power - cs.length = d.exponent by omega]
    exact h

/-- Positional notation with a fraction: zeros before the digits change nothing. -/
theorem reads_positional {d : Decimal} (hd : d.exponent < 0)
    (h : Decimal.nearest negative d = x) :
    Reads (Double.signed negative d.positional).toList (.number x) := by
  let places : Nat := (-d.exponent).toNat
  let zeros : Nat := places + 1 - (Nat.toDigits 10 d.coefficient).length
  let padded : List Char := List.replicate zeros '0' ++ Nat.toDigits 10 d.coefficient
  let whole : Nat := padded.length - places
  have hlen : places + 1 ≤ padded.length := by
    simp only [padded, List.length_append, List.length_replicate]; omega
  have hall : Digits padded := by
    intro c hc
    rw [List.mem_append, List.mem_replicate] at hc
    rcases hc with ⟨-, rfl⟩ | hc
    · decide
    · exact digits_toDigits _ c hc
  let t : NumberText := ⟨minus? negative, padded.take whole, some (padded.drop whole), none⟩
  have ht : t.Regular := by
    refine ⟨⟨_, rfl⟩, fun c hc => hall c (List.mem_of_mem_take hc), ?_, ?_, by simp [t]⟩
    · rw [ne_eq, ← List.length_eq_zero_iff, List.length_take]; omega
    · rintro _ ⟨⟩ c hc
      exact hall c (List.mem_of_mem_drop hc)
  refine ⟨t, ht, ?_, token_of_toFloat ht rfl ?_ hx⟩
  · rw [toList_signed, Decimal.positional]
    simp only
    rw [if_neg (by omega), String.toList_ofList]
    simp [t, chars, whole, padded, zeros, places]
  · rw [toFloat, isNegative_minus]
    simp only [t, mantissa, Option.getD_some, Option.map_none, Option.getD_none,
      List.take_append_drop, padded, digitsValue_replicate_append]
    rw [show (0 : Int) - (List.drop whole padded).length = d.exponent by
      rw [List.length_drop]; omega]
    exact h

/-- **A finite double reads back.** -/
theorem reads_number : Reads (Double.valueText x).toList (.number x) := by
  obtain ⟨negative, m, e, hparts⟩ := Double.isFinite_iff_parts.mp hx
  have hc := Double.canonical_of_parts hparts
  have hback := Double.withSign_of_parts hparts
  have hshortest := (Decimal.nearest_shortest hc negative).trans hback
  unfold Double.valueText Double.integral?
  simp only [hparts]
  by_cases hint : m * (powerRatio 2 e).1 % (powerRatio 2 e).2 = 0
  · simp only [hint, if_true]
    split
    · exact reads_one_decimal hx ((Decimal.nearest_integer hc hint negative).trans hback)
    · exact reads_scientific hx hshortest
  · simp only [hint, if_false, Double.plainText, hparts]
    exact reads_positional hx (Decimal.shortest_exponent_neg hc hint) hshortest

end

end NumberText
end Runbook
