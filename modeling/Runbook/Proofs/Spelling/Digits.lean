import Mathlib
import Runbook.Token.Number

/-!
# Digits and signs

How rows of digits with signs before them are taken off a text, and what they are read as.

* `Digits`, `Sign`: the two of them. `takeDigits_append_of_stop`, `takeSign_append_of_sign`: they are
  taken off whole.
* `readInt?_of_digits`: an integer is read as its value.
* `cutAt_of_ne`, `cutAt_append_cons`: where a text is cut.
-/

namespace Runbook

/-! ## Taking off -/

/-- A text of nothing but digits. -/
def Digits (cs : List Char) : Prop :=
  ∀ c ∈ cs, c.isDigit = true

-- Given by name, since search may find an instance that goes through all characters there are.
instance (cs : List Char) : Decidable (Digits cs) :=
  (List.decidableBAll (fun c => c.isDigit = true) cs : Decidable (∀ c ∈ cs, c.isDigit = true))

theorem digits_toDigits (n : Nat) : Digits (Nat.toDigits 10 n) :=
  fun _ hc => Nat.isDigit_of_mem_toDigits (by decide) (by decide) hc

theorem digitsValue_toDigits (n : Nat) : digitsValue (Nat.toDigits 10 n) = n :=
  Nat.ofDigitChars_ten_toDigits

theorem digitsValue_toDigits_append_zero (n : Nat) :
    digitsValue (Nat.toDigits 10 n ++ ['0']) = 10 * n := by
  change Nat.ofDigitChars 10 (Nat.toDigits 10 n ++ ['0']) 0 = 10 * n
  rw [Nat.ofDigitChars_append, Nat.ofDigitChars_ten_toDigits]
  rfl

theorem digitsValue_replicate_append (k n : Nat) :
    digitsValue (List.replicate k '0' ++ Nat.toDigits 10 n) = n := by
  change Nat.ofDigitChars 10 (List.replicate k '0' ++ Nat.toDigits 10 n) 0 = n
  rw [Nat.ofDigitChars_append, Nat.ofDigitChars_replicate_zero, Nat.mul_zero,
    Nat.ofDigitChars_ten_toDigits]

theorem takeDigits_append_of_digits {ds : List Char} (hd : Digits ds) (rest : List Char) :
    takeDigits (ds ++ rest) = (ds ++ (takeDigits rest).1, (takeDigits rest).2) := by
  unfold takeDigits
  rw [List.takeWhile_append_of_pos hd, List.dropWhile_append_of_pos hd]

theorem takeDigits_eq_nil {rest : List Char} (hr : ∀ c ∈ rest.head?, c.isDigit = false) :
    takeDigits rest = ([], rest) := by
  unfold takeDigits
  cases rest with
  | nil => rfl
  | cons c rest => simp [hr c rfl]

theorem takeDigits_append_of_stop {ds rest : List Char} (hd : Digits ds)
    (hr : ∀ c ∈ rest.head?, c.isDigit = false) : takeDigits (ds ++ rest) = (ds, rest) := by
  rw [takeDigits_append_of_digits hd, takeDigits_eq_nil hr, List.append_nil]

theorem takeSign_append_of_ne {cs : List Char} (h : ∀ c ∈ cs.head?, c ≠ '+' ∧ c ≠ '-') :
    takeSign cs = (none, cs) := by
  unfold takeSign
  split
  case h_1 => exact absurd rfl (h '+' rfl).1
  case h_2 => exact absurd rfl (h '-' rfl).2
  case h_3 => rfl

theorem ne_sign_of_isDigit {c : Char} (h : c.isDigit = true) : c ≠ '+' ∧ c ≠ '-' := by
  constructor <;> rintro rfl <;> revert h <;> decide

/-- An optional sign. -/
def Sign (sign : Option Char) : Prop :=
  ∀ c ∈ sign, c = '+' ∨ c = '-'

instance (sign : Option Char) : Decidable (Sign sign) :=
  (Option.decidableForallMem sign : Decidable (∀ c ∈ sign, c = '+' ∨ c = '-'))

theorem takeSign_append_of_sign {sign : Option Char} {rest : List Char} (hs : Sign sign)
    (hr : ∀ c ∈ rest.head?, c ≠ '+' ∧ c ≠ '-') :
    takeSign (sign.toList ++ rest) = (sign, rest) := by
  cases sign with
  | none => exact takeSign_append_of_ne hr
  | some c =>
    obtain rfl | rfl := hs c rfl
    · rfl
    · rfl

/-! ## Reading -/

theorem readNat?_of_digits {ds : List Char} (hd : Digits ds) (hne : ds ≠ []) :
    readNat? ds = some (digitsValue ds) := by
  have hall : ds.all Char.isDigit = true := List.all_eq_true.mpr hd
  have hempty : ds.isEmpty = false := List.isEmpty_eq_false_iff.mpr hne
  rw [readNat?, hall, hempty]
  rfl

/-- Digits are read as their value, with the sign before them. -/
theorem readInt?_of_digits {sign : Option Char} {ds : List Char} (hs : Sign sign) (hd : Digits ds)
    (hne : ds ≠ []) :
    readInt? (sign.toList ++ ds) =
      some (if sign = some '-' then -(digitsValue ds : Int) else digitsValue ds) := by
  have hhead : ∀ c ∈ ds.head?, c ≠ '+' ∧ c ≠ '-' := fun c hc =>
    ne_sign_of_isDigit (hd c (List.mem_of_mem_head? hc))
  rw [readInt?, takeSign_append_of_sign hs hhead]
  simp only [readNat?_of_digits hd hne, Option.map_some]

variable {p : Char → Bool} {before : List Char}

/-- A text is not cut where there is nothing to cut it at. -/
theorem cutAt_of_ne (h : ∀ c ∈ before, p c = false) : cutAt p before = (before, none) := by
  have hstay : ∀ c ∈ before, (!p c) = true := fun c hc => by rw [h c hc]; rfl
  rw [cutAt, List.takeWhile_eq_self_iff.mpr hstay, List.dropWhile_eq_nil_iff.mpr hstay]
  rfl

/-- It is cut at the first place there is. -/
theorem cutAt_append_cons (h : ∀ c ∈ before, p c = false) {c : Char} (hc : p c = true)
    (after : List Char) : cutAt p (before ++ c :: after) = (before, some after) := by
  have hstay : ∀ c ∈ before, (!p c) = true := fun c hc => by rw [h c hc]; rfl
  rw [cutAt, List.takeWhile_append_of_pos hstay, List.dropWhile_append_of_pos hstay]
  simp [hc]

end Runbook
