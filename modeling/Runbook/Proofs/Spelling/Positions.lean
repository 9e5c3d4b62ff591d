import Runbook.Proofs.Spelling.Lexemes

/-!
# Where tokens and faults stand

The scan counts lines, columns and characters as it goes along. What it has counted can be seen from
the text: the line from the line feeds before the place, and the column from what stands after the
last of them.

* `Position.Locates`: the line and the column are those of the place in the text.
* `Position.locates_after`: so they are wherever the scan has come.
* `Placed.Stands`: a token stands where its lexeme begins.
* `tokensStand_of_scan`: all tokens of a text, one after the other.
* `locates_of_scan_error`: the fault of a text.
-/

namespace Runbook

/-! ## Lines and columns -/

namespace Position

/-- The place is one of `cs`, or its end. Lines are counted by the line feeds before it, columns from
the last of these or from the start. -/
structure Locates (p : Position) (cs : List Char) : Prop where
  offset_le : p.offset ≤ cs.length
  line_eq : p.line = 1 + (cs.take p.offset).count '\n'
  column_eq : p.column = 1 + ((cs.take p.offset).reverse.takeWhile (· != '\n')).length

theorem column_after_start (cs : List Char) :
    (start.after cs).column = 1 + (cs.reverse.takeWhile (· != '\n')).length := by
  induction cs using List.reverseRecOn with
  | nil => rfl
  | append_singleton cs c ih =>
    rw [after_append, after_cons, after_nil, next, List.reverse_append, List.reverse_singleton,
      List.singleton_append, List.takeWhile_cons]
    by_cases hc : c = '\n'
    · simp [hc]
    · simp [hc, ih, Nat.add_assoc]

/-- What has been counted along a text is so in every text that it begins. -/
theorem locates_after (cs rest : List Char) : (start.after cs).Locates (cs ++ rest) := by
  have hoffset : (start.after cs).offset = cs.length := by
    rw [offset_after]
    exact Nat.zero_add _
  have htake : (cs ++ rest).take (start.after cs).offset = cs := by
    rw [hoffset, List.take_left]
  refine ⟨?_, ?_, ?_⟩
  · rw [hoffset, List.length_append]
    exact Nat.le_add_right _ _
  · rw [htake]
    exact line_after start cs
  · rw [htake]
    exact column_after_start cs

end Position

/-! ## Tokens -/

theorem spread_append_final (words : List Word) (final rest : List Char) :
    spread words (final ++ rest) = spread words final ++ rest := by
  induction words with
  | nil => rfl
  | cons w ws ih => simp [spread, ih]

theorem spread_append (words more : List Word) (final : List Char) :
    spread (words ++ more) final = spread words (spread more final) := by
  induction words with
  | nil => rfl
  | cons w ws ih => rw [List.cons_append, spread, spread, ih]

/-- The token of a word stands after the words and the blank before it. -/
theorem getElem?_places (p : Position) (before : List Word) (w : Word) (after : List Word) :
    (places p (before ++ w :: after))[before.length]? =
      some ⟨w.token, p.after (spread before w.blank)⟩ := by
  induction before generalizing p with
  | nil => rfl
  | cons v before ih =>
    rw [List.cons_append, places, List.length_cons, List.getElem?_cons_succ, ih, spread,
      Position.after_append, Position.after_append]

theorem le_offset_of_mem_places {p : Position} {words : List Word} {t : Placed}
    (h : t ∈ places p words) : p.offset ≤ t.position.offset := by
  induction words generalizing p with
  | nil => cases h
  | cons w ws ih =>
    rw [places, List.mem_cons] at h
    rcases h with rfl | h
    · rw [Position.offset_after]
      exact Nat.le_add_right _ _
    · have hrest := ih h
      rw [Position.offset_after, Position.offset_after] at hrest
      omega

/-- Each token begins before the next one. -/
theorem pairwise_offset_places (p : Position) (words : List Word) :
    (places p words).Pairwise fun t u => t.position.offset < u.position.offset := by
  induction words generalizing p with
  | nil => exact .nil
  | cons w ws ih =>
    rw [places, List.pairwise_cons]
    refine ⟨fun u hu => ?_, ih _⟩
    have hrest := le_offset_of_mem_places hu
    have hlexeme := List.length_pos_of_ne_nil w.isLexeme.ne_nil
    rw [Position.offset_after] at hrest
    dsimp only
    omega

/-- In `cs` the characters `above` stand before the lexeme of `w`, and `t` is the token of it. -/
structure Placed.Stands (t : Placed) (w : Word) (above cs : List Char) : Prop where
  token_eq : t.token = w.token
  offset_eq : t.position.offset = above.length
  head_eq : cs[t.position.offset]? = w.lexeme.head?
  located : t.position.Locates cs

theorem stands_after (w : Word) (above rest : List Char) :
    Placed.Stands ⟨w.token, Position.start.after above⟩ w above (above ++ (w.lexeme ++ rest)) where
  token_eq := rfl
  offset_eq := by
    rw [Position.offset_after]
    exact Nat.zero_add _
  head_eq := by
    obtain ⟨c, ds, hlexeme⟩ := List.exists_cons_of_ne_nil w.isLexeme.ne_nil
    rw [Position.offset_after, hlexeme]
    simp [Position.start]
  located := Position.locates_after above _

/-- `cs` is a text of these words, and there is one token for each of them, in order and at growing
offsets, which stands where the lexeme begins. -/
structure TokensStand (placed : List Placed) (words : List Word) (final cs : List Char) : Prop where
  text_eq : cs = spread words final
  isFinal : FinalBlank final
  length_eq : placed.length = words.length
  increasing : placed.Pairwise fun t u => t.position.offset < u.position.offset
  longest : ∀ before w after, words = before ++ w :: after → Longest w.lexeme (spread after final)
  stands : ∀ before w after, words = before ++ w :: after →
    ∃ t, placed[before.length]? = some t ∧ t.Stands w (spread before w.blank) cs

/-- **The tokens of a text stand where its lexemes begin.** -/
theorem tokensStand_of_scan {source : String} {placed : List Placed}
    (h : scan source = .ok placed) :
    ∃ words final, TokensStand placed words final source.toList := by
  obtain ⟨words, final, hfinal, hsource, rfl, hlongest⟩ := exists_words (scan_eq_ok_iff.mp h)
  have hlength : (places .start words).length = words.length := by
    simpa using congrArg List.length (places_token .start words)
  refine ⟨words, final, hsource, hfinal, hlength, pairwise_offset_places .start words, hlongest, ?_⟩
  rintro before w after rfl
  refine ⟨_, getElem?_places .start before w after, ?_⟩
  rw [hsource, spread_append, spread, spread_append_final]
  exact stands_after w _ _

/-! ## Faults -/

/-- **The fault of a text stands in it**, or at its end. -/
theorem locates_of_scan_error {source : String} {e : ScanError} (h : scan source = .error e) :
    e.position.Locates source.toList := by
  unfold scan at h
  cases hscan : scanFrom 0 .start source.toList with
  | ok placed =>
    rw [hscan] at h
    cases h
  | error x =>
    obtain ⟨fault, q⟩ := x
    rw [hscan] at h
    cases h
    obtain ⟨passed, rest, heq, rfl⟩ := exists_passed_of_scanFrom hscan
    rw [heq]
    exact Position.locates_after passed rest

end Runbook
