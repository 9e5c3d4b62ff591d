import Runbook.Proofs.Spelling.Numbers
import Runbook.Token.Scan

/-!
# Spellings of tokens

Which characters spell which tokens, and what the tokens of a text look like.

* `Scans`: the characters are scanned to the tokens, wherever they stand.
* `Spells`: so they are, and what follows is scanned as if it stood alone. `SpellsWord` is the same
  for names and numbers, which only end where something else begins.
* `ReadsOff`: the characters are read off whole as one token, where something given follows.
* `spells_mark`, `spells_blank`, `spells_string`, `spellsWord_name`, `spellsWord_number`: the
  spellings of the single tokens.
* `clean_of_scan`: scanned numbers are finite, and scanned strings can stand between quotes.
-/

namespace Runbook

/-- Whether `s` can stand between quotes as it is. -/
def Quotable (s : String) : Prop :=
  ∀ c ∈ s.toList, c ≠ '"' ∧ c ≠ '\n'

instance (s : String) : Decidable (Quotable s) :=
  List.decidableBAll (fun c => c ≠ '"' ∧ c ≠ '\n') s.toList

/-- Whether `s` is a name: a letter or an underscore, then letters, digits and underscores. -/
def Identifier (s : String) : Prop :=
  ∃ c ∈ s.toList.head?, isNameStart c = true ∧ ∀ d ∈ s.toList, isNamePart d = true

-- Given by name, since search may find an instance that goes through all characters there are.
instance (s : String) : Decidable (Identifier s) :=
  letI := List.decidableBAll (fun d => isNamePart d = true) s.toList
  Option.decidableExistsMem s.toList.head?

/-- The characters are scanned to the tokens. -/
def Scans (cs : List Char) (ts : List Token) : Prop :=
  ∀ p, ∃ placed, scanFrom 0 p cs = .ok placed ∧ placed.map Placed.token = ts

/-- The characters spell the tokens whatever follows. -/
def Spells (cs : List Char) (ts : List Token) : Prop :=
  ∀ rest us, Scans rest us → Scans (cs ++ rest) (ts ++ us)

/-- A text that goes on neither with a name nor with a number. -/
def Breaks (cs : List Char) : Prop :=
  ∀ c ∈ cs.head?, isNamePart c = false ∧ c ≠ '.'

/-- The characters spell the tokens if nothing follows that continues their last word. -/
def SpellsWord (cs : List Char) (ts : List Token) : Prop :=
  ∀ rest us, Breaks rest → Scans rest us → Scans (cs ++ rest) (ts ++ us)

theorem scans_nil : Scans [] [] :=
  fun _ => ⟨[], rfl, rfl⟩

theorem breaks_cons {c : Char} {cs : List Char} (h : isNamePart c = false ∧ c ≠ '.') :
    Breaks (c :: cs) := by
  rintro d hd
  obtain rfl : c = d := by simpa using hd
  exact h

theorem Breaks.endsNumber {cs : List Char} (h : Breaks cs) : EndsNumber cs := by
  intro c hc
  obtain ⟨hpart, hpoint⟩ := h c hc
  refine ⟨?_, hpoint, ?_, ?_⟩
  · by_contra hdigit
    rw [Bool.not_eq_false] at hdigit
    simp [isNamePart, Char.isAlphanum, hdigit] at hpart
  all_goals rintro rfl; revert hpart; decide

/-! ## Putting spellings together -/

theorem Spells.word {cs : List Char} {ts : List Token} (h : Spells cs ts) : SpellsWord cs ts :=
  fun rest us _ hs => h rest us hs

theorem spells_nil : Spells [] [] :=
  fun _ _ hs => hs

theorem Spells.append {cs ds : List Char} {ts us : List Token} (hc : Spells cs ts)
    (hd : Spells ds us) : Spells (cs ++ ds) (ts ++ us) := by
  intro rest vs hs
  rw [List.append_assoc, List.append_assoc]
  exact hc _ _ (hd _ _ hs)

theorem SpellsWord.append {cs ds : List Char} {c : Char} {ts us : List Token}
    (hc : SpellsWord cs ts) (hb : isNamePart c = false ∧ c ≠ '.') (hd : Spells (c :: ds) us) :
    Spells (cs ++ c :: ds) (ts ++ us) := by
  intro rest vs hs
  rw [List.append_assoc, List.append_assoc]
  exact hc _ _ (breaks_cons hb) (hd _ _ hs)

/-! ## Single tokens -/

theorem scans_blank {c : Char} {cs : List Char} {ts : List Token} (hc : Text.isBlank c = true)
    (hs : Scans cs ts) : Scans (c :: cs) ts := by
  intro p
  simpa [scanFrom, hc] using hs (p.next c)

theorem spells_blank {c : Char} (hc : Text.isBlank c = true) : Spells [c] [] :=
  fun _ _ hs => scans_blank hc hs

/-- The characters are read off whole as the token, where `rest` follows. -/
def ReadsOff (cs rest : List Char) (t : Token) : Prop :=
  ∃ c ds, cs = c :: ds ∧ Text.isBlank c = false ∧ c ≠ '#' ∧
    readLexeme c (ds ++ rest) = .ok (t, cs.length)

theorem ReadsOff.scanFrom {cs rest : List Char} {t : Token} (h : ReadsOff cs rest t)
    (p : Position) :
    scanFrom 0 p (cs ++ rest) = (⟨t, p⟩ :: ·) <$> scanFrom 0 (p.after cs) rest := by
  obtain ⟨c, ds, rfl, hblank, hhash, hread⟩ := h
  rw [List.cons_append, Runbook.scanFrom]
  simp only [hblank, Bool.false_eq_true, if_false, hhash, hread, List.length_cons,
    Nat.add_sub_cancel]
  rw [scanFrom_pending]
  rfl

/-- A lexeme that is read off whole is scanned to its token. -/
theorem ReadsOff.scans {cs rest : List Char} {t : Token} {us : List Token}
    (h : ReadsOff cs rest t) (hs : Scans rest us) : Scans (cs ++ rest) (t :: us) := by
  intro p
  obtain ⟨placed, hplaced, hus⟩ := hs (p.after cs)
  exact ⟨⟨t, p⟩ :: placed, by rw [h.scanFrom, hplaced]; rfl, by rw [List.map_cons, hus]⟩

theorem readsOff_mark (m : Mark) (rest : List Char) : ReadsOff [m.char] rest (.mark m) := by
  refine ⟨m.char, [], rfl, ?_, ?_, ?_⟩
  · cases m <;> decide
  · cases m <;> decide
  · cases m <;> rfl

theorem spells_mark (m : Mark) : Spells [m.char] [.mark m] :=
  fun rest _ hs => (readsOff_mark m rest).scans hs

theorem readsOff_string {s : String} (h : Quotable s) (rest : List Char) :
    ReadsOff ('"' :: s.toList ++ ['"']) rest (.string s) := by
  have hplain : ∀ c ∈ s.toList, (c != '"' && c != '\n') = true := by
    intro c hc
    simpa using h c hc
  have hread : readString (s.toList ++ '"' :: rest) = .ok (.string s, s.toList.length + 2) := by
    unfold readString
    rw [List.takeWhile_append_of_pos hplain]
    simp
  refine ⟨'"', s.toList ++ ['"'], rfl, by decide, by decide, ?_⟩
  rw [readLexeme, if_pos rfl, List.append_assoc, List.singleton_append, hread, List.length_append]
  rfl

theorem spells_string {s : String} (h : Quotable s) :
    Spells ('"' :: s.toList ++ ['"']) [.string s] :=
  fun rest _ hs => (readsOff_string h rest).scans hs

/-- The code points of the letters and the underscore. -/
theorem toNat_of_isNameStart {c : Char} (h : isNameStart c = true) :
    65 ≤ c.toNat ∧ c.toNat ≤ 122 := by
  simp only [isNameStart, Char.isAlpha, Char.isUpper, Char.isLower, Bool.or_eq_true, beq_iff_eq,
    Bool.and_eq_true, decide_eq_true_eq, UInt32.le_iff_toNat_le, ge_iff_le] at h
  change ((65 ≤ c.toNat ∧ c.toNat ≤ 90) ∨ (97 ≤ c.toNat ∧ c.toNat ≤ 122)) ∨ c = '_' at h
  rcases h with h | rfl
  · omega
  · decide

/-- The code points of the characters that a number begins with. -/
theorem toNat_of_isNumberStart {c : Char} (h : isNumberStart c = true) :
    43 ≤ c.toNat ∧ c.toNat ≤ 57 := by
  simp only [isNumberStart, Char.isDigit, Bool.or_eq_true, beq_iff_eq, Bool.and_eq_true,
    decide_eq_true_eq, UInt32.le_iff_toNat_le, ge_iff_le] at h
  change (((48 ≤ c.toNat ∧ c.toNat ≤ 57) ∨ c = '+') ∨ c = '-') ∨ c = '.' at h
  rcases h with ((h | rfl) | rfl) | rfl
  · omega
  all_goals decide

theorem isBlank_eq_false {c : Char} (h : 33 ≤ c.toNat ∧ c.toNat ≤ 122) :
    Text.isBlank c = false := by
  simp only [Text.isBlank, Text.inRanges, Text.blankRanges, List.any_eq_false, List.mem_cons,
    List.not_mem_nil, or_false, Bool.and_eq_true, decide_eq_true_eq]
  rintro r (rfl | rfl | rfl | rfl | rfl | rfl | rfl | rfl | rfl | rfl) <;> simp only <;> omega

/-- The head of a word is neither blank nor a hash. -/
theorem not_blank_of_toNat {c : Char} (h : 43 ≤ c.toNat ∧ c.toNat ≤ 122) :
    Text.isBlank c = false ∧ c ≠ '#' ∧ c ≠ '"' := by
  refine ⟨isBlank_eq_false ⟨by omega, h.2⟩, ?_, ?_⟩ <;> rintro rfl <;> revert h <;> decide

theorem isNumberStart_eq_false {c : Char} (h : isNameStart c = true) :
    isNumberStart c = false := by
  have hcode := toNat_of_isNameStart h
  by_contra hnumber
  have := toNat_of_isNumberStart (Bool.eq_true_of_not_eq_false hnumber)
  omega

theorem readsOff_name {s : String} {rest : List Char} (h : Identifier s) (hb : Breaks rest) :
    ReadsOff s.toList rest (.name s) := by
  obtain ⟨c, hc, hstart, hparts⟩ := h
  obtain ⟨cs, hcs⟩ : ∃ cs, s.toList = c :: cs := List.head?_eq_some_iff.mp hc
  have hstop : rest.takeWhile isNamePart = [] := by
    cases rest with
    | nil => rfl
    | cons d rest => simp [(hb d rfl).1]
  have hname : (c :: (cs ++ rest)).takeWhile isNamePart = s.toList := by
    rw [← List.cons_append, ← hcs, List.takeWhile_append_of_pos hparts, hstop, List.append_nil]
  have hcode := toNat_of_isNameStart hstart
  obtain ⟨hblank, hhash, hquote⟩ := not_blank_of_toNat (c := c) (by omega)
  refine ⟨c, cs, hcs, hblank, hhash, ?_⟩
  simp only [readLexeme, hquote, if_false, isNumberStart_eq_false hstart, Bool.false_eq_true,
    hstart, if_true, hname, String.ofList_toList]

theorem spellsWord_name {s : String} (h : Identifier s) : SpellsWord s.toList [.name s] :=
  fun _ _ hb hs => (readsOff_name h hb).scans hs

theorem isNumberStart_of_complete {n : NumberText} (hn : n.Complete) :
    ∃ c cs, n.chars = c :: cs ∧ isNumberStart c = true := by
  obtain ⟨c, cs, hcs, hc⟩ := NumberText.chars_eq_cons hn
  refine ⟨c, cs, hcs, ?_⟩
  simpa [isNumberStart, or_comm, or_assoc, or_left_comm] using hc

theorem readsOff_number {n : NumberText} {t : Token} {rest : List Char} (hn : n.Complete)
    (ht : n.token = .ok t) (hb : Breaks rest) : ReadsOff n.chars rest t := by
  obtain ⟨c, cs, hcs, hstart⟩ := isNumberStart_of_complete hn
  have hcode := toNat_of_isNumberStart hstart
  obtain ⟨hblank, hhash, hquote⟩ := not_blank_of_toNat (c := c) (by omega)
  have htake : (NumberText.take (c :: (cs ++ rest))).1 = n := by
    rw [← List.cons_append, ← hcs, NumberText.take_chars hn hb.endsNumber]
  refine ⟨c, cs, hcs, hblank, hhash, ?_⟩
  simp only [readLexeme, hquote, if_false, hstart, if_true, htake, ht]

theorem spellsWord_number {cs : List Char} {t : Token} (h : NumberText.Reads cs t) :
    SpellsWord cs [t] := by
  intro rest us hb hs
  obtain ⟨n, hn, rfl, ht⟩ := h
  exact (readsOff_number hn.complete ht hb).scans hs

/-! ## Scanned tokens -/

/-- A token that can be written again. -/
def Token.Clean : Token → Prop
  | .number x => x.isFinite = true
  | .string s => Quotable s
  | _ => True

theorem NumberText.clean_of_token {n : NumberText} {t : Token} (h : n.token = .ok t) :
    t.Clean := by
  unfold token at h
  split at h
  case isTrue => cases h
  case isFalse =>
    split at h
    case isTrue => cases h
    case isFalse =>
      split at h
      case isTrue =>
        split at h
        case h_1 =>
          split at h
          case isTrue hfinite => cases h; exact hfinite
          case isFalse => cases h
        case h_2 => cases h
      case isFalse =>
        split at h
        case h_1 => cases h; trivial
        case h_2 => cases h

theorem clean_of_readString {cs : List Char} {t : Token} {n : Nat}
    (h : readString cs = .ok (t, n)) : t.Clean := by
  unfold readString at h
  simp only at h
  split at h
  case h_1 =>
    cases h
    intro c hc
    rw [String.toList_ofList] at hc
    simpa using List.all_eq_true.mp List.all_takeWhile c hc
  case h_2 => cases h
  case h_3 => cases h

theorem clean_of_readLexeme {c : Char} {cs : List Char} {t : Token} {n : Nat}
    (h : readLexeme c cs = .ok (t, n)) : t.Clean := by
  unfold readLexeme at h
  split at h
  case isTrue => exact clean_of_readString h
  case isFalse =>
    split at h
    case isTrue =>
      simp only at h
      split at h
      case h_1 htoken => cases h; exact NumberText.clean_of_token htoken
      case h_2 => cases h
    case isFalse =>
      split at h
      case isTrue => cases h; trivial
      case isFalse =>
        split at h
        case h_1 => cases h; trivial
        case h_2 => cases h

theorem clean_of_scanFrom {pending : Nat} {p : Position} {cs : List Char} {placed : List Placed}
    (h : scanFrom pending p cs = .ok placed) : ∀ t ∈ placed, t.token.Clean := by
  induction cs generalizing pending p placed with
  | nil => cases h; simp
  | cons c cs ih =>
    cases pending with
    | succ k => exact ih h
    | zero =>
      rw [scanFrom] at h
      split at h
      case isTrue => exact ih h
      case isFalse =>
        split at h
        case isTrue => exact ih h
        case isFalse =>
          split at h
          case h_1 => cases h
          case h_2 t n hread =>
            cases hrest : scanFrom (n - 1) (p.next c) cs with
            | error e => rw [hrest] at h; cases h
            | ok rest =>
              rw [hrest] at h
              cases h
              rintro t' (_ | ⟨_, ht'⟩)
              · exact clean_of_readLexeme hread
              · exact ih hrest t' ht'

/-- **Every scanned token can be written again.** -/
theorem clean_of_scan {source : String} {placed : List Placed} (h : scan source = .ok placed) :
    ∀ t ∈ placed, t.token.Clean :=
  clean_of_scanFrom (scan_eq_ok_iff.mp h)

/-- **A text that spells tokens is scanned to them.** -/
theorem scan_of_spells {s : String} {ts : List Token} (h : Spells s.toList ts) :
    ∃ placed, scan s = .ok placed ∧ placed.map Placed.token = ts := by
  obtain ⟨placed, hscan, hts⟩ := h [] [] scans_nil .start
  rw [List.append_nil] at hscan hts
  exact ⟨placed, scan_eq_ok_iff.mpr hscan, hts⟩

end Runbook
