import Runbook.ControlFile.Binding

/-!
# Literals and their tokens

Every literal has one spelling in tokens, and reading a literal is undoing it. The reader keeps the
lists that are still open on a stack; the tokens read so far are those of the stack.

* `Literal.tokens`: the tokens of a literal.
* `openTokens`: the tokens of the lists that are open.
* `readLiteral_sound`: a literal that is read was spelled by the tokens that were passed.
* `readLiteral_complete`: the tokens of a literal are read as that literal.
-/

namespace Runbook

namespace Literal

mutual

/-- The tokens of the literal. -/
def tokens : Literal → List Token
  | integer i => [.integer i]
  | number x => [.number x]
  | string s => [.string s]
  | list items => .mark .leftBracket :: (itemTokens items ++ [.mark .rightBracket])

/-- The tokens of the items of a list. -/
def itemTokens : List Literal → List Token
  | [] => []
  | l :: ls => tokens l ++ laterTokens ls

/-- The tokens of the items after the first one. -/
def laterTokens : List Literal → List Token
  | [] => []
  | l :: ls => .mark .comma :: (tokens l ++ laterTokens ls)

end

theorem laterTokens_append (ls ms : List Literal) :
    laterTokens (ls ++ ms) = laterTokens ls ++ laterTokens ms := by
  induction ls with
  | nil => rfl
  | cons l ls ih => simp [laterTokens, ih]

theorem itemTokens_append_singleton {ls : List Literal} (h : ls ≠ []) (l : Literal) :
    itemTokens (ls ++ [l]) = itemTokens ls ++ .mark .comma :: l.tokens := by
  cases ls with
  | nil => exact absurd rfl h
  | cons m ls => simp [itemTokens, laterTokens_append, laterTokens]

end Literal

namespace ControlFile

open Literal

/-- The tokens of an open list up to its next item; `items` has the latest one first. -/
def openItems : List Literal → List Token
  | [] => []
  | l :: items => openItems items ++ (l.tokens ++ [.mark .comma])

/-- The tokens of the open lists, the innermost first. -/
def openTokens : List (List Literal) → List Token
  | [] => []
  | items :: outer => openTokens outer ++ .mark .leftBracket :: openItems items

/-- With one literal more, the items of an open list could be all of it. -/
theorem openItems_append_tokens (items : List Literal) (l : Literal) :
    openItems items ++ l.tokens = itemTokens (l :: items).reverse := by
  induction items generalizing l with
  | nil => simp [openItems, itemTokens, laterTokens]
  | cons m items ih =>
    rw [List.reverse_cons, itemTokens_append_singleton (by simp), ← ih m, openItems]
    simp

variable {last : Option Position}

/-- What was passed, together with the lists that were open, spells the literal that is read. -/
theorem readValue_sound {tokens rest : List Placed} {l : Literal} :
    (∀ {opened}, readValue last opened tokens = .ok (l, rest) →
      ∃ passed, tokens = passed ++ rest ∧
        openTokens opened ++ passed.map Placed.token = l.tokens) ∧
    (∀ {opened x}, afterValue last opened x tokens = .ok (l, rest) →
      ∃ passed, tokens = passed ++ rest ∧
        openTokens opened ++ x.tokens ++ passed.map Placed.token = l.tokens) := by
  induction tokens with
  | nil =>
    refine ⟨fun h => ?_, fun {opened x} h => ?_⟩
    · rw [readValue] at h; cases h
    · cases opened with
      | nil => rw [afterValue] at h; cases h; exact ⟨[], rfl, by simp [openTokens]⟩
      | cons items outer => rw [afterValue] at h; cases h
  | cons t ts ih =>
    obtain ⟨ihread, ihafter⟩ := ih
    obtain ⟨t, p⟩ := t
    refine ⟨fun {opened} h => ?_, fun {opened x} h => ?_⟩
    · unfold readValue at h
      split at h
      case h_1 i =>
        obtain ⟨passed, rfl, htokens⟩ := ihafter h
        exact ⟨⟨.integer i, p⟩ :: passed, rfl, by simpa [Literal.tokens] using htokens⟩
      case h_2 x =>
        obtain ⟨passed, rfl, htokens⟩ := ihafter h
        exact ⟨⟨.number x, p⟩ :: passed, rfl, by simpa [Literal.tokens] using htokens⟩
      case h_3 s =>
        obtain ⟨passed, rfl, htokens⟩ := ihafter h
        exact ⟨⟨.string s, p⟩ :: passed, rfl, by simpa [Literal.tokens] using htokens⟩
      case h_4 =>
        obtain ⟨passed, rfl, htokens⟩ := ihread h
        exact ⟨⟨.mark .leftBracket, p⟩ :: passed, rfl,
          by simpa [openTokens, openItems] using htokens⟩
      case h_5 outer =>
        obtain ⟨passed, rfl, htokens⟩ := ihafter h
        exact ⟨⟨.mark .rightBracket, p⟩ :: passed, rfl,
          by simpa [openTokens, openItems, Literal.tokens, itemTokens] using htokens⟩
      case h_6 => cases h
    · cases opened with
      | nil => rw [afterValue] at h; cases h; exact ⟨[], rfl, by simp [openTokens]⟩
      | cons items outer =>
        unfold afterValue at h
        split at h
        case h_1 heq => cases heq
        case h_2 heq =>
          cases heq
          obtain ⟨passed, rfl, htokens⟩ := ihread h
          exact ⟨⟨.mark .comma, p⟩ :: passed, rfl, by simpa [openTokens, openItems] using htokens⟩
        case h_3 heq =>
          cases heq
          obtain ⟨passed, rfl, htokens⟩ := ihafter h
          refine ⟨⟨.mark .rightBracket, p⟩ :: passed, rfl, ?_⟩
          rw [← htokens, Literal.tokens, ← openItems_append_tokens]
          simp [openTokens]
        case h_4 => cases h

/-- **A literal that is read was spelled by the tokens that were passed.** -/
theorem readLiteral_sound {tokens rest : List Placed} {l : Literal}
    (h : readLiteral last tokens = .ok (l, rest)) :
    ∃ passed, tokens = passed ++ rest ∧ passed.map Placed.token = l.tokens :=
  readValue_sound.1 h

/-- A list of placed tokens that spells two texts falls into two parts. -/
theorem exists_append_of_map_eq {placed : List Placed} {ts us : List Token}
    (h : placed.map Placed.token = ts ++ us) :
    ∃ a b, placed = a ++ b ∧ a.map Placed.token = ts ∧ b.map Placed.token = us :=
  List.map_eq_append_iff.mp h

/-- A list of placed tokens that begins with a given one. -/
theorem exists_cons_of_map_eq {placed : List Placed} {t : Token} {ts : List Token}
    (h : placed.map Placed.token = t :: ts) :
    ∃ p b, placed = ⟨t, p⟩ :: b ∧ b.map Placed.token = ts := by
  obtain ⟨⟨t', p⟩, b, rfl, rfl, rfl⟩ := List.map_eq_cons_iff.mp h
  exact ⟨p, b, rfl, rfl⟩

mutual

/-- The tokens of a literal are read as that literal, whatever lists are open. -/
theorem readValue_tokens (l : Literal) {opened : List (List Literal)} {placed rest : List Placed}
    (h : placed.map Placed.token = l.tokens) :
    readValue last opened (placed ++ rest) = afterValue last opened l rest := by
  cases l with
  | integer i =>
    obtain ⟨p, b, rfl, hb⟩ := exists_cons_of_map_eq h
    obtain rfl := List.map_eq_nil_iff.mp hb
    rfl
  | number x =>
    obtain ⟨p, b, rfl, hb⟩ := exists_cons_of_map_eq h
    obtain rfl := List.map_eq_nil_iff.mp hb
    rfl
  | string s =>
    obtain ⟨p, b, rfl, hb⟩ := exists_cons_of_map_eq h
    obtain rfl := List.map_eq_nil_iff.mp hb
    rfl
  | list items =>
    rw [tokens] at h
    obtain ⟨p, b, rfl, hb⟩ := exists_cons_of_map_eq h
    rw [List.cons_append, readValue]
    cases items with
    | nil =>
      obtain ⟨q, c, rfl, hc⟩ := exists_cons_of_map_eq hb
      obtain rfl := List.map_eq_nil_iff.mp hc
      rw [List.cons_append, readValue]
      rfl
    | cons l ls =>
      rw [itemTokens, List.append_assoc] at hb
      obtain ⟨first, later, rfl, hfirst, hlater⟩ := exists_append_of_map_eq hb
      rw [List.append_assoc, readValue_tokens l hfirst, afterValue_laterTokens ls hlater]
      rfl

/-- After an item, the tokens of the later ones and the closing bracket end the list. -/
theorem afterValue_laterTokens (ls : List Literal) {opened : List (List Literal)}
    {items : List Literal} {x : Literal} {placed rest : List Placed}
    (h : placed.map Placed.token = laterTokens ls ++ [.mark .rightBracket]) :
    afterValue last (items :: opened) x (placed ++ rest) =
      afterValue last opened (.list ((x :: items).reverse ++ ls)) rest := by
  cases ls with
  | nil =>
    obtain ⟨p, b, rfl, hb⟩ := exists_cons_of_map_eq h
    obtain rfl := List.map_eq_nil_iff.mp hb
    rw [List.cons_append, afterValue, List.append_nil]
    rfl
  | cons l ls =>
    rw [laterTokens, List.cons_append, List.append_assoc] at h
    obtain ⟨p, b, rfl, hb⟩ := exists_cons_of_map_eq h
    obtain ⟨first, later, rfl, hfirst, hlater⟩ := exists_append_of_map_eq hb
    rw [List.cons_append, afterValue, List.append_assoc, readValue_tokens l hfirst,
      afterValue_laterTokens ls hlater]
    simp

end

/-- **The tokens of a literal are read as that literal.** -/
theorem readLiteral_complete (last : Option Position) (rest : List Placed) {l : Literal}
    {placed : List Placed} (h : placed.map Placed.token = l.tokens) :
    readLiteral last (placed ++ rest) = .ok (l, rest) := by
  rw [readLiteral, readValue_tokens l h, afterValue]

end ControlFile
end Runbook
