import Runbook.Proofs.Registry.WellFormed
import Runbook.Proofs.Spelling.Numbers
import Runbook.Token.Scan

/-!
# Texts joined by a line feed

A line feed ends every word and every comment. So if a text can be scanned, what is written on the
lines below it is scanned as if it stood alone, and only lies further down; and the other way round
no word or comment of the text above goes on there.

* `Position.below`: where a place lies if a text is put above it.
* `scanFrom_down`: the characters are scanned alike everywhere.
* `readLexeme_append`, `scanFrom_append`: a line feed ends what is before it.
* `scan_joined`: the scan of a joined text.
-/

namespace Runbook

/-! ## Places -/

namespace Position

/-- The place `p` with a text of so many lines and characters put above it. -/
def down (lines chars : Nat) (p : Position) : Position :=
  ⟨p.line + lines, p.column, p.offset + chars⟩

/-- The place `p` with the text `cs` and a line feed put above it. -/
def below (cs : List Char) : Position → Position :=
  down (cs.count '\n' + 1) (cs.length + 1)

theorem next_down (lines chars : Nat) (p : Position) (c : Char) :
    (p.down lines chars).next c = (p.next c).down lines chars := by
  by_cases hc : c = '\n'
  · simp [next, down, hc, Nat.add_right_comm]
  · simp [next, down, hc, Nat.add_right_comm]

theorem after_down (lines chars : Nat) (p : Position) (cs : List Char) :
    (p.down lines chars).after cs = (p.after cs).down lines chars := by
  induction cs generalizing p with
  | nil => rfl
  | cons c cs ih => rw [after_cons, after_cons, next_down, ih]

theorem line_after (p : Position) (cs : List Char) :
    (p.after cs).line = p.line + cs.count '\n' := by
  induction cs generalizing p with
  | nil => rfl
  | cons c cs ih =>
    rw [after_cons, ih]
    by_cases hc : c = '\n'
    · simp [next, hc, Nat.add_comm, Nat.add_left_comm]
    · simp [next, hc]

/-- A text begins again below another one. -/
theorem after_start (cs : List Char) : start.after (cs ++ ['\n']) = start.below cs := by
  rw [after_append, after_cons, after_nil, next, if_pos rfl, line_after, offset_after]
  simp [below, down, start, Nat.add_assoc]

end Position

/-- The token at another place. -/
def Placed.move (f : Position → Position) (t : Placed) : Placed :=
  { t with position := f t.position }

/-- The characters are scanned alike everywhere. -/
theorem scanFrom_down (lines chars pending : Nat) (p : Position) (cs : List Char) :
    scanFrom pending (p.down lines chars) cs =
      ((scanFrom pending p cs).map (List.map (Placed.move (Position.down lines chars)))).mapError
        (Prod.map id (Position.down lines chars)) := by
  induction cs generalizing pending p with
  | nil => rfl
  | cons c cs ih =>
    cases pending with
    | succ k => rw [scanFrom, scanFrom, Position.next_down, ih]
    | zero =>
      rw [scanFrom, scanFrom, Position.next_down]
      by_cases hblank : Text.isBlank c = true
      · rw [if_pos hblank, if_pos hblank, ih]
      · rw [if_neg hblank, if_neg hblank]
        by_cases hhash : c = '#'
        · rw [if_pos hhash, if_pos hhash, ih]
        · rw [if_neg hhash, if_neg hhash]
          cases readLexeme c cs with
          | error e =>
            dsimp only
            rw [Position.after_down]
            rfl
          | ok r =>
            dsimp only
            rw [ih]
            cases scanFrom (r.2 - 1) (p.next c) cs with
            | error e => rfl
            | ok ts => rfl

/-! ## What a line feed ends -/

theorem takeWhile_append_stop {α : Type} {f : α → Bool} {x : α} (hx : f x = false)
    (xs ys : List α) : (xs ++ x :: ys).takeWhile f = xs.takeWhile f := by
  induction xs with
  | nil => simp [hx]
  | cons y xs ih => simp [List.takeWhile_cons, ih]

theorem dropWhile_append_stop {α : Type} {f : α → Bool} {x : α} (hx : f x = false)
    (xs ys : List α) : (xs ++ x :: ys).dropWhile f = xs.dropWhile f ++ x :: ys := by
  induction xs with
  | nil => simp [hx]
  | cons y xs ih =>
    by_cases hy : f y = true
    · simp [hy, ih]
    · simp [hy]

section

variable (cs ds : List Char)

theorem takeSign_append_feed :
    takeSign (cs ++ '\n' :: ds) = ((takeSign cs).1, (takeSign cs).2 ++ '\n' :: ds) := by
  cases cs with
  | nil => rfl
  | cons c cs =>
    by_cases hc : c ≠ '+' ∧ c ≠ '-'
    · rw [takeSign_append_of_ne (by simpa using hc), takeSign_append_of_ne (by simpa using hc)]
    · obtain rfl | rfl : c = '+' ∨ c = '-' := by tauto
      · rfl
      · rfl

theorem takeDigits_append_feed :
    takeDigits (cs ++ '\n' :: ds) = ((takeDigits cs).1, (takeDigits cs).2 ++ '\n' :: ds) := by
  unfold takeDigits
  rw [takeWhile_append_stop (by decide), dropWhile_append_stop (by decide)]

theorem takeFraction_append_feed :
    takeFraction (cs ++ '\n' :: ds) = ((takeFraction cs).1, (takeFraction cs).2 ++ '\n' :: ds) := by
  cases cs with
  | nil => rfl
  | cons c cs =>
    by_cases hc : c = '.'
    · subst hc
      simp [takeFraction, takeDigits_append_feed]
    · rw [takeFraction_append_of_ne (by simpa using hc),
        takeFraction_append_of_ne (by simpa using hc)]

theorem takeExponent_append_feed :
    takeExponent (cs ++ '\n' :: ds) = ((takeExponent cs).1, (takeExponent cs).2 ++ '\n' :: ds) := by
  cases cs with
  | nil => rfl
  | cons c cs =>
    rw [List.cons_append, takeExponent, takeExponent]
    by_cases hc : c = 'e' ∨ c = 'E'
    · rw [if_pos hc, if_pos hc, takeSign_append_feed]
      dsimp only
      rw [takeDigits_append_feed]
    · rw [if_neg hc, if_neg hc]
      rfl

/-- A number ends at a line feed. -/
theorem NumberText.take_append_feed :
    take (cs ++ '\n' :: ds) = ((take cs).1, (take cs).2 ++ '\n' :: ds) := by
  unfold take
  rw [takeSign_append_feed]
  dsimp only
  rw [takeDigits_append_feed]
  dsimp only
  rw [takeFraction_append_feed]
  dsimp only
  rw [takeExponent_append_feed]
  split
  · rfl
  · rfl

end

/-- A string ends at the first quote, which stands in the same line. -/
theorem readString_eq_ok_iff {cs : List Char} {r : Token × Nat} :
    readString cs = .ok r ↔ ∃ content rest, cs = content ++ '"' :: rest ∧
      (∀ c ∈ content, (c != '"' && c != '\n') = true) ∧
        r = (.string (String.ofList content), content.length + 2) := by
  unfold readString
  dsimp only
  constructor
  · intro h
    split at h
    case h_1 rest hdrop =>
      cases h
      refine ⟨_, rest, ?_, List.all_eq_true.mp List.all_takeWhile, rfl⟩
      rw [← hdrop, List.prefix_iff_eq_append.mp (List.takeWhile_prefix _)]
    case h_2 => cases h
    case h_3 => cases h
  · rintro ⟨content, rest, rfl, hcontent, rfl⟩
    rw [List.takeWhile_append_of_pos hcontent]
    simp

/-- A token that is read stays the same if a line feed follows what it was read from. -/
theorem readLexeme_append {c : Char} {cs : List Char} {r : Token × Nat}
    (h : readLexeme c cs = .ok r) (ds : List Char) :
    readLexeme c (cs ++ '\n' :: ds) = .ok r := by
  unfold readLexeme at h ⊢
  by_cases hquote : c = '"'
  · rw [if_pos hquote] at h ⊢
    obtain ⟨content, rest, rfl, hcontent, hr⟩ := readString_eq_ok_iff.mp h
    exact readString_eq_ok_iff.mpr ⟨content, rest ++ '\n' :: ds, by simp, hcontent, hr⟩
  · rw [if_neg hquote] at h ⊢
    rw [← List.cons_append, NumberText.take_append_feed, takeWhile_append_stop (by decide)]
    exact h

/-- A token has no more characters than there are. -/
theorem length_of_readLexeme {c : Char} {cs : List Char} {t : Token} {n : Nat}
    (h : readLexeme c cs = .ok (t, n)) : n ≤ cs.length + 1 := by
  unfold readLexeme at h
  split at h
  case isTrue =>
    obtain ⟨content, rest, rfl, -, hr⟩ := readString_eq_ok_iff.mp h
    cases hr
    simp
  case isFalse =>
    split at h
    case isTrue =>
      have hchars := congrArg List.length (NumberText.append_rest (c :: cs))
      rw [List.length_append, List.length_cons] at hchars
      dsimp only at h
      split at h
      case h_1 =>
        cases h
        omega
      case h_2 => cases h
    case isFalse =>
      split at h
      case isTrue =>
        cases h
        exact (List.takeWhile_prefix isNamePart).length_le
      case isFalse =>
        split at h
        case h_1 =>
          cases h
          omega
        case h_2 => cases h

/-- **What is scanned stays the same if a line feed follows it**, and then the next line begins. -/
theorem scanFrom_append {pending : Nat} {p : Position} {cs : List Char} {ts : List Placed}
    (hpending : pending ≤ cs.length) (h : scanFrom pending p cs = .ok ts) (ds : List Char) :
    scanFrom pending p (cs ++ '\n' :: ds) =
      (ts ++ ·) <$> scanFrom 0 (p.after (cs ++ ['\n'])) ds := by
  induction cs generalizing pending p ts with
  | nil =>
    obtain rfl := Nat.le_zero.mp hpending
    cases h
    have hfeed : Text.isBlank '\n' = true := by decide
    rw [List.nil_append, scanFrom, if_pos hfeed]
    exact (id_map (scanFrom 0 (p.next '\n') ds)).symm
  | cons c cs ih =>
    rw [List.cons_append, List.cons_append, Position.after_cons]
    cases pending with
    | succ k =>
      rw [scanFrom] at h ⊢
      exact ih (Nat.le_of_succ_le_succ hpending) h
    | zero =>
      rw [scanFrom] at h ⊢
      by_cases hblank : Text.isBlank c = true
      · rw [if_pos hblank] at h ⊢
        exact ih (Nat.zero_le _) h
      · rw [if_neg hblank] at h ⊢
        by_cases hhash : c = '#'
        · rw [if_pos hhash] at h ⊢
          -- the comment ends at the line feed, if not before
          rw [takeWhile_append_stop (by decide)]
          exact ih (List.takeWhile_prefix _).length_le h
        · rw [if_neg hhash] at h ⊢
          cases hread : readLexeme c cs with
          | error e =>
            rw [hread] at h
            cases h
          | ok r =>
            obtain ⟨t, n⟩ := r
            rw [hread] at h
            rw [readLexeme_append hread]
            obtain ⟨us, hus, rfl⟩ := map_eq_ok.mp h
            have hlen := length_of_readLexeme hread
            dsimp only
            rw [ih (by omega) hus]
            cases scanFrom 0 ((p.next c).after (cs ++ ['\n'])) ds with
            | error e => rfl
            | ok vs => rfl

/-! ## Lines -/

/-- The lines of a text are the last ones of a text that it is put below. -/
theorem Text.lines_append (cs ds : List Char) :
    ∃ above, lines (cs ++ '\n' :: ds) = above ++ lines ds ∧
      above.length = cs.count '\n' + 1 := by
  fun_induction lines cs with
  | case1 => exact ⟨[[]], rfl, rfl⟩
  | case2 cs ih =>
    obtain ⟨above, heq, hlen⟩ := ih
    exact ⟨[] :: above, by simp [lines, heq], by simp [hlen]⟩
  | case3 cs ih =>
    obtain ⟨above, heq, hlen⟩ := ih
    exact ⟨[] :: above, by simp [lines, heq], by simp [hlen]⟩
  | case4 c cs hfeed hreturn hlines ih | case5 c cs hfeed hreturn l ls hlines ih =>
    obtain ⟨above, heq, hlen⟩ := ih
    obtain ⟨a, above, rfl⟩ := List.exists_cons_of_length_eq_add_one hlen
    by_cases halone : c = '\r' ∧ cs = []
    · -- the line feed takes the carriage return at the end of the text along
      obtain ⟨rfl, rfl⟩ := halone
      exact ⟨[[]], by simp [lines], rfl⟩
    · have hreturn' : ∀ cs', c = '\r' → cs ++ '\n' :: ds = '\n' :: cs' → False := by
        intro cs' hc hcs
        cases cs with
        | nil => exact halone ⟨hc, rfl⟩
        | cons d cs => exact hreturn cs hc (by rw [(List.cons.inj hcs).1])
      refine ⟨(c :: a) :: above, ?_, ?_⟩
      · rw [List.cons_append, lines, heq]
        · rfl
        · exact hfeed
        · exact hreturn'
      · rw [List.count_cons_of_ne hfeed]
        exact hlen

theorem Text.line_append (s t : String) {n : Nat} (hn : 1 ≤ n) :
    line (s ++ "\n" ++ t) (n + (s.toList.count '\n' + 1)) = line t n := by
  obtain ⟨above, heq, hlen⟩ := lines_append s.toList t.toList
  have htext : (s ++ "\n" ++ t).toList = s.toList ++ '\n' :: t.toList := by simp
  rw [line, line, htext, heq, List.getElem?_append_right (by omega), hlen]
  congr 3
  omega

/-! ## Joined texts -/

/-- A fault lies after some of the characters. -/
theorem exists_passed_of_scanFrom {pending : Nat} {p q : Position} {cs : List Char}
    {fault : ScanFault} (h : scanFrom pending p cs = .error (fault, q)) :
    ∃ passed rest, cs = passed ++ rest ∧ q = p.after passed := by
  induction cs generalizing pending p with
  | nil => cases h
  | cons c cs ih =>
    have step {k : Nat} (h : scanFrom k (p.next c) cs = .error (fault, q)) :
        ∃ passed rest, c :: cs = passed ++ rest ∧ q = p.after passed := by
      obtain ⟨passed, rest, rfl, rfl⟩ := ih h
      exact ⟨c :: passed, rest, rfl, rfl⟩
    cases pending with
    | succ k => exact step h
    | zero =>
      rw [scanFrom] at h
      split at h
      case isTrue => exact step h
      case isFalse =>
        split at h
        case isTrue => exact step h
        case isFalse =>
          split at h
          case h_1 passed _ =>
            cases h
            exact ⟨_, _, (List.take_append_drop passed (c :: cs)).symm, rfl⟩
          case h_2 t n hread =>
            cases hrest : scanFrom (n - 1) (p.next c) cs with
            | error e =>
              rw [hrest] at h
              cases h
              exact step hrest
            | ok ts =>
              rw [hrest] at h
              cases h

/-- No fault lies above the line where the scan begins. -/
theorem le_line_of_scanFrom {pending : Nat} {p q : Position} {cs : List Char} {fault : ScanFault}
    (h : scanFrom pending p cs = .error (fault, q)) : p.line ≤ q.line := by
  obtain ⟨passed, -, -, rfl⟩ := exists_passed_of_scanFrom h
  rw [Position.line_after]
  omega

/-- The fault at another place; the line it stands in is the same. -/
def ScanError.move (f : Position → Position) (e : ScanError) : ScanError :=
  { e with position := f e.position }

/-- **What is put below a text that can be scanned is scanned as if it stood alone**, and only lies
further down. -/
theorem scan_joined {s : String} {ts : List Placed} (h : scan s = .ok ts) (t : String) :
    scan (s ++ "\n" ++ t) =
      ((scan t).map fun us => ts ++ us.map (Placed.move (Position.below s.toList))).mapError
        (ScanError.move (Position.below s.toList)) := by
  have htext : (s ++ "\n" ++ t).toList = s.toList ++ '\n' :: t.toList := by simp
  have hts : scanFrom 0 .start s.toList = .ok ts := scan_eq_ok_iff.mp h
  unfold scan
  rw [htext, scanFrom_append (Nat.zero_le _) hts, Position.after_start, Position.below,
    scanFrom_down]
  cases ht : scanFrom 0 .start t.toList with
  | ok us => rfl
  | error e =>
    obtain ⟨fault, q⟩ := e
    have hq : 1 ≤ q.line := le_line_of_scanFrom ht
    exact congrArg (fun l => Except.error (ScanError.mk fault (q.below s.toList) l))
      (Text.line_append s t hq)

end Runbook
