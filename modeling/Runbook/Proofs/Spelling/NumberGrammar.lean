import Runbook.Proofs.Decimal.Correct
import Runbook.Proofs.Spelling.Tokens

/-!
# The grammar of numbers

Where a sign, a digit or a point stands, a number is read: as many of its parts as there are, each as
far as it goes. Which parts these are is said here by rules, without the functions that take them
off; what becomes of them is said by the digits that they have, their value in decimal and the
correctly rounded double.

* `NumberAt`: the number at the head of a text. `numberAt_iff`: it is what is taken off.
* `Decides`: which answer a number gets, one equivalence for each answer.
* `decides_token`: the token or fault of a number is that answer.
* `scanFrom_number`: the scan goes on behind the number, or ends there with its fault.
* `number_decided`: all of this where a number begins.
-/

namespace Runbook

/-! ## The parts of a number -/

/-- A sign, if there is one. -/
inductive SignAt : List Char → Option Char → List Char → Prop
  | sign {c : Char} {cs : List Char} (h : c = '+' ∨ c = '-') : SignAt (c :: cs) (some c) cs
  | none {cs : List Char} (h : ∀ c ∈ cs.head?, c ≠ '+' ∧ c ≠ '-') : SignAt cs none cs

/-- All the digits that there are. -/
structure DigitsAt (cs ds rest : List Char) : Prop where
  append : cs = ds ++ rest
  digits : Digits ds
  stop : ∀ c ∈ rest.head?, c.isDigit = false

/-- A point with the digits after it, if there is one. -/
inductive FractionAt : List Char → Option (List Char) → List Char → Prop
  | point {cs ds rest : List Char} (h : DigitsAt cs ds rest) : FractionAt ('.' :: cs) (some ds) rest
  | none {cs : List Char} (h : ∀ c ∈ cs.head?, c ≠ '.') : FractionAt cs none cs

/-- A mark with a sign, if there is one, and digits; if there is a mark. -/
inductive ExponentAt : List Char → Option ExponentText → List Char → Prop
  | mark {c : Char} {cs afterSign ds rest : List Char} {sign : Option Char}
    (hc : c = 'e' ∨ c = 'E') (hs : SignAt cs sign afterSign) (hd : DigitsAt afterSign ds rest) :
    ExponentAt (c :: cs) (some ⟨c, sign, ds⟩) rest
  | none {cs : List Char} (h : ∀ c ∈ cs.head?, c ≠ 'e' ∧ c ≠ 'E') : ExponentAt cs none cs

/-- The number at the head of a text, and the rest. An exponent part belongs to it only if it has a
digit before that. -/
inductive NumberAt : List Char → NumberText → List Char → Prop
  | digitless {cs afterSign whole afterWhole rest : List Char} {sign : Option Char}
    {fraction : Option (List Char)} (hs : SignAt cs sign afterSign)
    (hw : DigitsAt afterSign whole afterWhole) (hf : FractionAt afterWhole fraction rest)
    (hnone : whole ++ fraction.getD [] = []) : NumberAt cs ⟨sign, whole, fraction, none⟩ rest
  | digits {cs afterSign whole afterWhole afterMantissa rest : List Char} {sign : Option Char}
    {fraction : Option (List Char)} {exponent : Option ExponentText} (hs : SignAt cs sign afterSign)
    (hw : DigitsAt afterSign whole afterWhole) (hf : FractionAt afterWhole fraction afterMantissa)
    (hsome : whole ++ fraction.getD [] ≠ []) (he : ExponentAt afterMantissa exponent rest) :
    NumberAt cs ⟨sign, whole, fraction, exponent⟩ rest

theorem signAt_iff {cs rest : List Char} {sign : Option Char} :
    SignAt cs sign rest ↔ takeSign cs = (sign, rest) := by
  constructor
  · rintro (⟨rfl | rfl⟩ | h)
    · rfl
    · rfl
    · exact takeSign_append_of_ne h
  · unfold takeSign
    split
    case h_1 => rintro ⟨⟩; exact .sign (.inl rfl)
    case h_2 => rintro ⟨⟩; exact .sign (.inr rfl)
    case h_3 hplus hminus =>
      rintro ⟨⟩
      refine .none fun c hc => ?_
      obtain ⟨ds, rfl⟩ := List.head?_eq_some_iff.mp hc
      exact ⟨fun h => hplus ds (by rw [h]), fun h => hminus ds (by rw [h])⟩

theorem digitsAt_iff {cs ds rest : List Char} :
    DigitsAt cs ds rest ↔ takeDigits cs = (ds, rest) := by
  constructor
  · rintro ⟨rfl, hd, h⟩
    exact takeDigits_append_of_stop hd h
  · rintro ⟨⟩
    refine ⟨(NumberText.takeDigits_append cs).symm, NumberText.digits_takeDigits cs, fun c hc => ?_⟩
    have hstop := List.head?_dropWhile_not Char.isDigit cs
    rw [show (cs.dropWhile Char.isDigit).head? = some c from hc] at hstop
    exact hstop

theorem fractionAt_iff {cs rest : List Char} {fraction : Option (List Char)} :
    FractionAt cs fraction rest ↔ takeFraction cs = (fraction, rest) := by
  constructor
  · rintro (h | h)
    · rw [takeFraction, digitsAt_iff.mp h]
    · exact takeFraction_append_of_ne h
  · unfold takeFraction
    split
    case h_1 cs => rintro ⟨⟩; exact .point (digitsAt_iff.mpr rfl)
    case h_2 hpoint =>
      rintro ⟨⟩
      refine .none fun c hc => ?_
      obtain ⟨ds, rfl⟩ := List.head?_eq_some_iff.mp hc
      exact fun h => hpoint ds (by rw [h])

theorem exponentAt_iff {cs rest : List Char} {exponent : Option ExponentText} :
    ExponentAt cs exponent rest ↔ takeExponent cs = (exponent, rest) := by
  constructor
  · rintro (⟨hc, hs, hd⟩ | h)
    · rw [takeExponent, if_pos hc]
      simp only [signAt_iff.mp hs, digitsAt_iff.mp hd]
    · exact takeExponent_append_of_ne h
  · unfold takeExponent
    split
    case h_1 c cs =>
      by_cases hc : c = 'e' ∨ c = 'E'
      · rw [if_pos hc]
        rintro ⟨⟩
        exact .mark hc (signAt_iff.mpr rfl) (digitsAt_iff.mpr rfl)
      · rw [if_neg hc]
        rintro ⟨⟩
        refine .none ?_
        rintro d hd
        obtain rfl : c = d := by simpa using hd
        exact not_or.mp hc
    case h_2 =>
      rintro ⟨⟩
      exact .none (by simp)

/-- **What is taken off a text is the number at its head.** -/
theorem numberAt_iff {cs rest : List Char} {n : NumberText} :
    NumberAt cs n rest ↔ NumberText.take cs = (n, rest) := by
  constructor
  · rintro (⟨hs, hw, hf, hnone⟩ | ⟨hs, hw, hf, hsome, he⟩)
    · simp only [NumberText.take, signAt_iff.mp hs, digitsAt_iff.mp hw, fractionAt_iff.mp hf]
      rw [if_pos (by simpa using hnone)]
    · simp only [NumberText.take, signAt_iff.mp hs, digitsAt_iff.mp hw, fractionAt_iff.mp hf,
        exponentAt_iff.mp he]
      rw [if_neg (by simpa using hsome)]
  · unfold NumberText.take
    dsimp only
    split
    case isTrue hnone =>
      rintro ⟨⟩
      exact .digitless (signAt_iff.mpr rfl) (digitsAt_iff.mpr rfl) (fractionAt_iff.mpr rfl)
        (by simpa using hnone)
    case isFalse hsome =>
      rintro ⟨⟩
      exact .digits (signAt_iff.mpr rfl) (digitsAt_iff.mpr rfl) (fractionAt_iff.mpr rfl)
        (by simpa using hsome) (exponentAt_iff.mpr rfl)

theorem NumberAt.chars_append {cs rest : List Char} {n : NumberText} (h : NumberAt cs n rest) :
    n.chars ++ rest = cs := by
  have := NumberText.append_rest cs
  rwa [numberAt_iff.mp h] at this

/-- Where a number may begin, something is taken off. -/
theorem NumberAt.chars_ne_nil {c : Char} {cs rest : List Char} {n : NumberText}
    (hc : isNumberStart c = true) (h : NumberAt (c :: cs) n rest) : n.chars ≠ [] := by
  intro hnil
  obtain ⟨sign, whole, fraction, exponent⟩ := n
  simp only [NumberText.chars, List.append_eq_nil_iff, Option.toList_eq_nil_iff] at hnil
  obtain ⟨⟨⟨rfl, rfl⟩, hpoint⟩, -⟩ := hnil
  obtain rfl : fraction = none := by
    cases fraction with
    | none => rfl
    | some ds => cases hpoint
  obtain ⟨afterSign, afterWhole, afterMantissa, hs, hw, hf⟩ : ∃ afterSign afterWhole afterMantissa,
      SignAt (c :: cs) none afterSign ∧ DigitsAt afterSign [] afterWhole ∧
        FractionAt afterWhole none afterMantissa := by
    cases h with
    | digitless hs hw hf => exact ⟨_, _, _, hs, hw, hf⟩
    | digits hs hw hf => exact ⟨_, _, _, hs, hw, hf⟩
  obtain - | hsign := hs
  obtain ⟨rfl, -, hdigit⟩ := hw
  obtain - | hpoint := hf
  have hplus := (hsign c rfl).1
  have hminus := (hsign c rfl).2
  simp [isNumberStart, hplus, hminus, hdigit c rfl, hpoint c rfl] at hc

/-! ## What becomes of a number -/

namespace NumberText

/-- The decimal that a number stands for, without its sign. -/
def decimal (n : NumberText) : Decimal :=
  ⟨digitsValue n.mantissa,
    (n.exponent.map ExponentText.value).getD 0 - (n.fraction.getD []).length⟩

/-- A digit in the mantissa, and one in the exponent part if there is one. -/
def HasDigits (n : NumberText) : Prop :=
  n.mantissa ≠ [] ∧ ∀ e ∈ n.exponent, e.digits ≠ []

/-- The answer is the one that the number is to get: which of the faults, or which token. -/
structure Decides (n : NumberText) (answer : Except ScanFault Token) : Prop where
  missingDigit : answer = .error .missingDigit ↔ n.mantissa = []
  incompleteExponent :
    answer = .error .incompleteExponent ↔ n.mantissa ≠ [] ∧ ∃ e ∈ n.exponent, e.digits = []
  integer (i : Int64) : answer = .ok (.integer i) ↔
    n.HasDigits ∧ n.isFractional = false ∧ n.toInt = i.toInt
  integerRange (lexeme : String) : answer = .error (.integerRange lexeme) ↔
    n.HasDigits ∧ n.isFractional = false ∧ ¬(-2 ^ 63 ≤ n.toInt ∧ n.toInt < 2 ^ 63) ∧
      lexeme = String.ofList n.chars
  number (x : Float) : answer = .ok (.number x) ↔
    n.HasDigits ∧ n.isFractional = true ∧ Double.Correct n.isNegative n.decimal.value x ∧
      x.isFinite = true
  numberRange (lexeme : String) : answer = .error (.numberRange lexeme) ↔
    n.HasDigits ∧ n.isFractional = true ∧
      (∃ x, Double.Correct n.isNegative n.decimal.value x ∧ x.isFinite = false) ∧
      lexeme = String.ofList n.chars
  malformedNumber (lexeme : String) : answer ≠ .error (.malformedNumber lexeme)

variable {n : NumberText}

theorem Complete.hasDigits (hn : n.Complete) : n.HasDigits :=
  ⟨hn.mantissa_ne_nil, fun e he => (hn.exponent e he).digits_ne_nil⟩

theorem HasDigits.not_incomplete (h : n.HasDigits) :
    ¬(n.mantissa ≠ [] ∧ ∃ e ∈ n.exponent, e.digits = []) :=
  fun ⟨_, e, he, hnone⟩ => h.2 e he hnone

theorem correct_iff {x : Float} :
    Double.Correct n.isNegative n.decimal.value x ↔ x = n.toFloat := by
  have htoFloat : Double.Correct n.isNegative n.decimal.value n.toFloat :=
    Decimal.correct_nearest n.isNegative n.decimal
  constructor
  · exact fun h => h.unique htoFloat
  · rintro rfl
    exact htoFloat

theorem decides_of_missing (h : n.mantissa = []) : n.Decides n.token := by
  have htoken : n.token = .error .missingDigit := by rw [token, h]; rfl
  rw [htoken]
  constructor <;> simp [HasDigits, h]

theorem decides_of_incomplete (h : n.mantissa ≠ []) {e : ExponentText} (he : e ∈ n.exponent)
    (hnone : e.digits = []) : n.Decides n.token := by
  rw [Option.mem_def] at he
  have htoken : n.token = .error .incompleteExponent := by
    rw [token, List.isEmpty_eq_false_iff.mpr h, he]
    simp [hnone]
  rw [htoken]
  constructor <;> simp [HasDigits, h, he, hnone]

/-- A number with point or exponent is its correctly rounded double, unless that is an infinity. -/
theorem decides_of_fractional (hn : n.Complete) (hfractional : n.isFractional = true) :
    n.Decides n.token := by
  have hdigits := hn.hasDigits
  rw [token_of_complete hn, if_pos hfractional]
  by_cases hfinite : n.toFloat.isFinite = true
  · rw [if_pos hfinite]
    constructor
    case incompleteExponent => exact iff_of_false nofun hdigits.not_incomplete
    case number =>
      intro x
      simp only [Except.ok.injEq, Token.number.injEq, correct_iff]
      constructor
      · rintro rfl
        exact ⟨hdigits, hfractional, rfl, hfinite⟩
      · rintro ⟨-, -, rfl, -⟩
        rfl
    all_goals simp [hdigits.1, hfractional, hfinite, correct_iff]
  · rw [if_neg hfinite]
    constructor
    case incompleteExponent => exact iff_of_false nofun hdigits.not_incomplete
    case number =>
      simp only [correct_iff]
      refine fun x => iff_of_false nofun ?_
      rintro ⟨-, -, rfl, hx⟩
      exact hfinite hx
    case numberRange =>
      intro lexeme
      simp only [Except.error.injEq, ScanFault.numberRange.injEq, correct_iff]
      constructor
      · rintro rfl
        exact ⟨hdigits, hfractional, ⟨_, rfl, by simpa using hfinite⟩, rfl⟩
      · rintro ⟨-, -, -, rfl⟩
        rfl
    all_goals simp [hdigits.1, hfractional]

/-- A number without them is its integer, unless that has more than 64 bits. -/
theorem decides_of_plain (hn : n.Complete) (hplain : n.isFractional = false) :
    n.Decides n.token := by
  have hdigits := hn.hasDigits
  have hmin : Int64.minValue.toInt = -2 ^ 63 := rfl
  have hmax : Int64.maxValue.toInt = 2 ^ 63 - 1 := rfl
  rw [token_of_complete hn, if_neg (by simp [hplain])]
  by_cases hrange : Int64.minValue.toInt ≤ n.toInt ∧ n.toInt ≤ Int64.maxValue.toInt
  · have hvalue : (Int64.ofInt n.toInt).toInt = n.toInt :=
      Int64.toInt_ofInt_of_le hrange.1 (Int.lt_of_le_of_lt hrange.2 (by decide))
    rw [if_pos hrange]
    rw [hmin, hmax] at hrange
    constructor
    case incompleteExponent => exact iff_of_false nofun hdigits.not_incomplete
    case integer =>
      intro i
      simp only [Except.ok.injEq, Token.integer.injEq, ← Int64.toInt_inj, hvalue]
      exact ⟨fun h => ⟨hdigits, hplain, h⟩, fun h => h.2.2⟩
    case integerRange =>
      refine fun lexeme => iff_of_false nofun fun ⟨_, _, hout, _⟩ => ?_
      omega
    all_goals simp [hdigits.1, hplain]
  · rw [if_neg hrange]
    rw [hmin, hmax] at hrange
    constructor
    case incompleteExponent => exact iff_of_false nofun hdigits.not_incomplete
    case integer =>
      refine fun i => iff_of_false nofun fun ⟨_, _, hi⟩ => ?_
      have hlow := i.minValue_le_toInt
      have hhigh := i.toInt_le
      omega
    case integerRange =>
      intro lexeme
      have hout : ¬(-2 ^ 63 ≤ n.toInt ∧ n.toInt < 2 ^ 63) := by omega
      simp only [Except.error.injEq, ScanFault.integerRange.injEq]
      exact ⟨fun h => ⟨hdigits, hplain, hout, h.symm⟩, fun h => h.2.2.2.symm⟩
    all_goals simp [hdigits.1, hplain]

/-- **The answer that a number gets.** -/
theorem decides_token {cs rest : List Char} (h : NumberAt cs n rest) : n.Decides n.token := by
  have htake := numberAt_iff.mp h
  obtain rfl : (take cs).1 = n := by rw [htake]
  by_cases hmantissa : (take cs).1.mantissa = []
  · exact decides_of_missing hmantissa
  · by_cases hexponent : ∃ e ∈ (take cs).1.exponent, e.digits = []
    · obtain ⟨e, he, hnone⟩ := hexponent
      exact decides_of_incomplete hmantissa he hnone
    · push Not at hexponent
      have hcomplete := complete_take hmantissa hexponent
      cases hfractional : (take cs).1.isFractional with
      | true => exact decides_of_fractional hcomplete hfractional
      | false => exact decides_of_plain hcomplete hfractional

end NumberText

/-! ## The scan -/

/-- **Where a number begins, the scan passes it or ends behind it.** -/
theorem scanFrom_number {c : Char} {cs rest : List Char} {n : NumberText}
    (hc : isNumberStart c = true) (h : NumberAt (c :: cs) n rest) (p : Position) :
    scanFrom 0 p (c :: cs) =
      match n.token with
      | .ok t => (⟨t, p⟩ :: ·) <$> scanFrom 0 (p.after n.chars) rest
      | .error fault => .error (fault, p.after n.chars) := by
  have hcode := toNat_of_isNumberStart hc
  obtain ⟨hblank, hhash, hquote⟩ := not_blank_of_toNat (c := c) (by omega)
  have htake := numberAt_iff.mp h
  have hchars := h.chars_append
  cases htoken : n.token with
  | ok t =>
    obtain ⟨d, ds, hds⟩ := List.exists_cons_of_ne_nil (h.chars_ne_nil hc)
    rw [hds, List.cons_append, List.cons.injEq] at hchars
    obtain ⟨rfl, rfl⟩ := hchars
    have hread : ReadsOff n.chars rest t := by
      refine ⟨d, ds, hds, hblank, hhash, ?_⟩
      simp only [readLexeme, hquote, if_false, hc, if_true, htake, htoken]
    rw [← List.cons_append, ← hds, hread.scanFrom]
  | error fault =>
    have hread : readLexeme c cs = .error (fault, n.chars.length) := by
      simp only [readLexeme, hquote, if_false, hc, if_true, htake, htoken]
    rw [scanFrom]
    simp only [hblank, Bool.false_eq_true, if_false, hhash, hread]
    rw [← hchars, List.take_left]

/-- **The scan decides exactly the numbers of the grammar.** Where a sign, a digit or a point stands,
the text begins with one number, which is passed over whole; and its parts settle the token that it
is, or the fault that the scan ends with. -/
theorem number_decided {c : Char} (hc : isNumberStart c = true) (cs : List Char) :
    ∃ n rest answer, (∀ m more, NumberAt (c :: cs) m more ↔ m = n ∧ more = rest) ∧
      c :: cs = n.chars ++ rest ∧ n.Decides answer ∧
      ∀ p, scanFrom 0 p (c :: cs) =
        match answer with
        | .ok t => (⟨t, p⟩ :: ·) <$> scanFrom 0 (p.after n.chars) rest
        | .error fault => .error (fault, p.after n.chars) := by
  rcases htake : NumberText.take (c :: cs) with ⟨n, rest⟩
  have hn : NumberAt (c :: cs) n rest := numberAt_iff.mpr htake
  refine ⟨n, rest, n.token, fun m more => ?_, hn.chars_append.symm, NumberText.decides_token hn,
    scanFrom_number hc hn⟩
  rw [numberAt_iff, htake, Prod.mk.injEq]
  exact ⟨fun h => ⟨h.1.symm, h.2.symm⟩, fun h => ⟨h.1.symm, h.2.symm⟩⟩

/-- An exponent part without a digit, after a mantissa that begins with its point. -/
theorem number_decided_incomplete :
    isNumberStart '.' = true ∧
      scanFrom 0 .start ".5E+ x".toList = .error (.incompleteExponent, ⟨1, 5, 4⟩) := by
  have hc : isNumberStart '.' = true := by decide
  refine ⟨hc, ?_⟩
  obtain ⟨n, rest, answer, hnumber, -, hdecides, hscan⟩ := number_decided hc "5E+ x".toList
  obtain ⟨rfl, rfl⟩ := (hnumber ⟨none, [], some ['5'], some ⟨'E', some '+', []⟩⟩ " x".toList).mp
    (numberAt_iff.mpr rfl)
  obtain rfl := hdecides.incompleteExponent.mpr ⟨by decide, _, rfl, rfl⟩
  exact hscan .start

end Runbook
