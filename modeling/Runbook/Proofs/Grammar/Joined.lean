import Runbook.Proofs.Grammar.Files
import Runbook.Proofs.Grammar.Places
import Runbook.Proofs.Registry.Standard

/-!
# Joined control files

Control files may be written one below the other, with a line feed in between. Above it the tasks
end where the file ends, and below it they begin anew, so nothing is bound otherwise than it would
be alone; only the places of faults lie further down. Several files are thus one long file.

* `readTasks_append`: the tasks of a file are read before what follows it.
* `bindText_joined`: two texts.
* `bindText_intercalate`: any number of texts.
* `binding_compositional`: both, and what several files denote.
-/

namespace Runbook

namespace ControlFile

variable {c : Catalog}

/-! ## Two texts -/

/-- Tasks are read before what follows them, and enough fuel is left for that. -/
theorem readTasks_append (last : Option Position) (rest : List Placed) {fuel : Nat}
    {placed : List Placed} {ts : List Task} (h : DenotesTasks c (placed.map Placed.token) ts)
    (hlen : (placed ++ rest).length ≤ fuel) :
    ∃ fuel', rest.length ≤ fuel' ∧
      readTasks c last fuel (placed ++ rest) = (ts ++ ·) <$> readTasks c last fuel' rest := by
  induction fuel generalizing placed ts with
  | zero =>
    have hnil := List.length_eq_zero_iff.mp (Nat.le_zero.mp hlen)
    obtain ⟨rfl, rfl⟩ := List.append_eq_nil_iff.mp hnil
    obtain rfl := denotesTasks_of_nil h
    exact ⟨0, Nat.le_refl 0, rfl⟩
  | succ fuel ih =>
    generalize hts : placed.map Placed.token = us at h
    cases h with
    | nil =>
      obtain rfl := List.map_eq_nil_iff.mp hts
      exact ⟨fuel + 1, hlen, (id_map _).symm⟩
    | @cons ts us t tasks ht htasks =>
      obtain ⟨first, later, rfl, rfl, rfl⟩ := exists_append_of_map_eq hts
      have hmin := length_of_denotesTask ht
      rw [List.length_map] at hmin
      rw [List.append_assoc] at hlen ⊢
      rw [List.length_append] at hlen
      have hread := readTask_complete last (later ++ rest) ht
        (show first.length ≤ fuel + 1 by omega)
      obtain ⟨fuel', hfuel, hrest⟩ := ih htasks (by omega)
      refine ⟨fuel', hfuel, ?_⟩
      obtain ⟨u, first, rfl⟩ : ∃ u us, first = u :: us :=
        List.exists_cons_of_ne_nil (by rintro rfl; simp at hmin)
      rw [List.cons_append] at hread ⊢
      rw [readTasks, hread]
      · dsimp only [bind, Except.bind]
        rw [hrest]
        cases readTasks c last fuel' rest with
        | error e => rfl
        | ok vs => rfl
      · simp

/-- Tokens below others denote what they denote alone. -/
theorem bindTokens_append (f : Position → Position) {name : String} {ts : List Placed}
    {p : Pipeline} (h : bindTokens c name ts = .ok p) (us : List Placed) :
    bindTokens c name (ts ++ moveAll f us) = carry f none p.append (bindTokens c name us) := by
  obtain ⟨rfl, hts⟩ := bindTokens_iff.mp h
  -- without tokens below, the last token is another one; but then none is missing
  by_cases hus : us = []
  · subst hus
    have hnil : moveAll f [] = [] := rfl
    have hempty : ∀ q : Pipeline, q = q.append ⟨q.name, []⟩ := by
      rintro ⟨own, tasks⟩
      simp [Pipeline.append]
    rw [hnil, List.append_nil, h]
    exact congrArg Except.ok (hempty p)
  · have hlast : (ts ++ moveAll f us).getLast?.map Placed.position =
        relocate f none (us.getLast?.map Placed.position) := by
      have hmoved : moveAll f us ≠ [] := by simpa using hus
      rw [List.getLast?_append_of_ne_nil _ hmoved, List.getLast?_map, relocate, Option.or_none,
        Option.map_map, Option.map_map]
      rfl
    obtain ⟨fuel, hfuel, hread⟩ := readTasks_append
      (relocate f none (us.getLast?.map Placed.position)) (moveAll f us) hts (Nat.le_refl _)
    rw [List.length_map] at hfuel
    rw [bindTokens, bindTokens, hlast, hread,
      readTasks_move f none (us.getLast?.map Placed.position) c (Nat.le_refl _) hfuel]
    cases readTasks c (us.getLast?.map Placed.position) us.length us with
    | error e => rfl
    | ok vs => rfl

/-- **Below a text that binds, a text binds as it does alone**, and its faults lie further down. -/
theorem bindText_joined {name s : String} {p : Pipeline} (h : bindText c name s = .ok p)
    (t : String) :
    bindText c name (s ++ "\n" ++ t) =
      carry (Position.below s.toList) none p.append (bindText c name t) := by
  unfold bindText at h ⊢
  cases hs : scan s with
  | error e =>
    rw [hs] at h
    cases h
  | ok ts =>
    rw [hs] at h
    rw [scan_joined hs]
    cases scan t with
    | error e => rfl
    | ok us => exact bindTokens_append (Position.below s.toList) h us

/-! ## Several texts -/

/-- The name that a text is bound under is that of the pipeline, and no more. -/
theorem bindText_name (name name' source : String) :
    bindText c name source = (·.rename name) <$> bindText c name' source := by
  unfold bindText
  cases scan source with
  | error e => rfl
  | ok ts =>
    dsimp only [bindTokens]
    cases readTasks c (ts.getLast?.map Placed.position) ts.length ts with
    | error e => rfl
    | ok us => rfl

/-- **Texts that bind, one below the other, denote the tasks of each in order.** -/
theorem bindText_intercalate (name : String) {sources : List String} {parts : List Pipeline}
    (h : List.Forall₂ (fun source part => ∃ own, bindText c own source = .ok part) sources parts) :
    bindText c name ("\n".intercalate sources) = .ok ⟨name, parts.flatMap Pipeline.tasks⟩ := by
  induction h with
  | nil =>
    rw [String.intercalate_nil]
    rfl
  | @cons source part sources parts hfirst hrest ih =>
    obtain ⟨own, hown⟩ := hfirst
    have hpart : bindText c name source = .ok (part.rename name) := by
      rw [bindText_name name own, hown]
      rfl
    cases sources with
    | nil =>
      cases hrest
      rw [String.intercalate_singleton, hpart]
      simp [Pipeline.rename]
    | cons next sources =>
      rw [String.intercalate_cons_cons, bindText_joined hpart, ih]
      rfl

/-- What is bound could be read, and was bound as a text. -/
theorem exists_sources {files : List (String × Contents)} {parts : List Pipeline}
    (h : BindsEach c files parts) :
    ∃ sources : List String, files.map Prod.snd = sources.map .ok ∧
      List.Forall₂ (fun source part => ∃ own, bindText c own source = .ok part) sources parts := by
  unfold BindsEach at h
  induction h with
  | nil => exact ⟨[], rfl, .nil⟩
  | @cons file part files parts hfile hfiles ih =>
    obtain ⟨sources, hsources, hbound⟩ := ih
    obtain ⟨own, contents⟩ := file
    cases contents with
    | error reason => cases hfile
    | ok source =>
      refine ⟨source :: sources, by simp [hsources], .cons ⟨own, ?_⟩ hbound⟩
      rw [bindFile] at hfile
      cases hbind : bindText c own source with
      | error e =>
        rw [hbind] at hfile
        cases hfile
      | ok p =>
        rw [hbind] at hfile
        cases hfile
        rfl

theorem file_of_bindFile {file : String} {contents : Contents} {e : BindError}
    (h : bindFile c file contents = .error e) : e.file = some file := by
  cases contents with
  | error reason =>
    cases h
    rfl
  | ok source =>
    rw [bindFile] at h
    cases hbind : bindText c file source with
    | error e' =>
      rw [hbind] at h
      cases h
      rfl
    | ok p =>
      rw [hbind] at h
      cases h

/-- **Binding is compositional in the text.** Below a text that binds, and a line feed, a text binds
iff it binds alone. Its tasks then follow those of the text above; otherwise the fault is the same,
but lies as many lines and characters further down as there are above, in the same column. So
several files that all bind denote the same pipeline as their texts in one, with a line feed after
each but the last; and otherwise the error is that of the first file that cannot be read or bound,
and names it. -/
theorem binding_compositional (c : Catalog) :
    (∀ name s p, bindText c name s = .ok p → ∀ t,
      (∀ q, bindText c name t = .ok q →
        bindText c name (s ++ "\n" ++ t) = .ok (p.append q)) ∧
      ∀ e, bindText c name t = .error e →
        ∃ x e', e.position = some x ∧ bindText c name (s ++ "\n" ++ t) = .error e' ∧
          e'.fault.kind = e.fault.kind ∧ e'.file = e.file ∧ e'.position = some
            ⟨x.line + (s.toList.count '\n' + 1), x.column, x.offset + (s.length + 1)⟩) ∧
    ∀ files : List (String × Contents),
      (∃ sources parts, files.map Prod.snd = sources.map .ok ∧ BindsEach c files parts ∧
        bindFiles c files = .ok (join parts) ∧
        bindText c mainName ("\n".intercalate sources) = .ok (join parts)) ∨
      ∃ before file contents after e, files = before ++ (file, contents) :: after ∧
        (∀ f ∈ before, ∃ p, bindFile c f.1 f.2 = .ok p) ∧ bindFile c file contents = .error e ∧
        bindFiles c files = .error e ∧ e.file = some file := by
  constructor
  · intro name s p hs t
    have hjoined := bindText_joined hs t
    constructor
    · intro q ht
      rw [hjoined, ht]
      rfl
    · intro e ht
      obtain ⟨x, hx⟩ := exists_position ht
      have hplace : relocate (Position.below s.toList) none e.position =
          some (x.below s.toList) := by
        simp [relocate, hx]
      rw [hjoined, ht]
      exact ⟨x, _, hx, rfl, e.fault.kind_move _, rfl, hplace⟩
  · intro files
    cases hfiles : bindFiles c files with
    | ok main =>
      obtain ⟨parts, hparts, rfl⟩ := bindFiles_eq_ok_iff.mp hfiles
      obtain ⟨sources, hsources, hbound⟩ := exists_sources hparts
      exact .inl ⟨sources, parts, hsources, hparts, rfl, bindText_intercalate mainName hbound⟩
    | error e =>
      obtain ⟨before, ⟨file, contents⟩, after, heq, hbefore, hfile⟩ :=
        bindFiles_eq_error_iff.mp hfiles
      exact .inr ⟨before, file, contents, after, e, heq, hbefore, hfile, rfl,
        file_of_bindFile hfile⟩

end ControlFile

namespace Standard

open ControlFile

/-- A control file that ends within a comment. -/
def endsInComment : String :=
  "NumericSet(numeric_1) \x7b value = 0.5 \x7d # no line feed"

/-- A control file that stands below it. -/
def touchesKnown : String :=
  "Touch(numeric_1) \x7b\x7d"

/-- Another one, with a name that no variable has. -/
def touchesUnknown : String :=
  "Touch(nothing) \x7b\x7d"

/-- The comment ends where the other file begins, which is bound or refused as it is alone. -/
theorem endsInComment_joined :
    ∃ p, bindText library.catalog "main" endsInComment = .ok p ∧
      (∃ q, bindText library.catalog "main" touchesKnown = .ok q ∧
        bindText library.catalog "main" (endsInComment ++ "\n" ++ touchesKnown) =
          .ok (p.append q)) ∧
      ∃ e x e', bindText library.catalog "main" touchesUnknown = .error e ∧
        e.position = some x ∧
        bindText library.catalog "main" (endsInComment ++ "\n" ++ touchesUnknown) = .error e' ∧
        e'.fault.kind = e.fault.kind ∧ e'.file = e.file ∧
        e'.position = some ⟨x.line + 1, x.column, x.offset + 53⟩ := by
  have hends : (bindText library.catalog "main" endsInComment).toOption.isSome = true := by
    decide +kernel
  have hknown : (bindText library.catalog "main" touchesKnown).toOption.isSome = true := by
    decide +kernel
  have hunknown : (bindText library.catalog "main" touchesUnknown).toOption.isSome = false := by
    decide +kernel
  cases hp : bindText library.catalog "main" endsInComment with
  | error e =>
    rw [hp] at hends
    cases hends
  | ok p =>
    have hjoined := (binding_compositional library.catalog).1 "main" endsInComment p hp
    refine ⟨p, rfl, ?_, ?_⟩
    · cases hq : bindText library.catalog "main" touchesKnown with
      | error e =>
        rw [hq] at hknown
        cases hknown
      | ok q => exact ⟨q, rfl, (hjoined touchesKnown).1 q hq⟩
    · cases he : bindText library.catalog "main" touchesUnknown with
      | error e =>
        obtain ⟨x, e', hx, he', hkind, hfile, hposition⟩ := (hjoined touchesUnknown).2 e he
        exact ⟨e, x, e', rfl, hx, he', hkind, hfile, hposition⟩
      | ok q =>
        rw [he] at hunknown
        cases hunknown

end Standard
end Runbook
