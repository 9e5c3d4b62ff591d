import Mathlib.Data.List.Forall2
import Runbook.ControlFile.Binding

/-!
# Several files

Control files are bound one at a time, in order. They make up one pipeline if each of them can be
read and bound, and otherwise the first that cannot decides what is wrong.

* `bindFiles_eq_ok_iff`: the pipeline of several files has the tasks of each, in order.
* `bindFiles_eq_error_iff`: the error of several files is that of the first faulty one.
-/

namespace Runbook.ControlFile

variable {c : Catalog}

/-- The pipelines are those of the files, one for each. -/
def BindsEach (c : Catalog) (files : List (String × Contents)) (parts : List Pipeline) : Prop :=
  List.Forall₂ (fun file part => bindFile c file.1 file.2 = .ok part) files parts

theorem bindEach_eq_none_iff {files : List (String × Contents)} {parts : List Pipeline} :
    bindEach c files = (parts, none) ↔ BindsEach c files parts := by
  induction files generalizing parts with
  | nil =>
    rw [BindsEach, List.forall₂_nil_left_iff]
    exact ⟨fun h => (Prod.mk.inj h).1.symm, fun h => h ▸ rfl⟩
  | cons file files ih =>
    rw [bindEach, BindsEach, List.forall₂_cons_left_iff]
    constructor
    · intro h
      split at h
      case h_1 => cases h
      case h_2 p hp =>
        obtain ⟨rfl, hnone⟩ := Prod.mk.inj h
        exact ⟨p, (bindEach c files).1, hp, ih.mp (Prod.ext rfl hnone), rfl⟩
    · rintro ⟨p, parts, hp, hparts, rfl⟩
      rw [hp, ih.mpr hparts]

/-- The fault is that of a file before which all others bind. -/
theorem bindEach_eq_some_iff {files : List (String × Contents)} {e : BindError} :
    (bindEach c files).2 = some e ↔
      ∃ before file after, files = before ++ file :: after ∧
        (∀ f ∈ before, ∃ p, bindFile c f.1 f.2 = .ok p) ∧ bindFile c file.1 file.2 = .error e := by
  induction files with
  | nil => simp [bindEach]
  | cons file files ih =>
    rw [bindEach]
    cases hfile : bindFile c file.1 file.2 with
    | error e' =>
      constructor
      · intro h
        cases h
        exact ⟨[], file, files, rfl, nofun, hfile⟩
      · rintro ⟨before, bad, after, heq, hbefore, hbad⟩
        cases before with
        | nil =>
          cases heq
          rw [hfile] at hbad
          cases hbad
          rfl
        | cons f before =>
          cases heq
          obtain ⟨p, hp⟩ := hbefore file List.mem_cons_self
          rw [hfile] at hp
          cases hp
    | ok p =>
      refine ih.trans ⟨?_, ?_⟩
      · rintro ⟨before, bad, after, rfl, hbefore, hbad⟩
        exact ⟨file :: before, bad, after, rfl,
          List.forall_mem_cons.mpr ⟨⟨p, hfile⟩, hbefore⟩, hbad⟩
      · rintro ⟨before, bad, after, heq, hbefore, hbad⟩
        cases before with
        | nil =>
          cases heq
          rw [hfile] at hbad
          cases hbad
        | cons f before =>
          cases heq
          exact ⟨before, bad, after, rfl, (List.forall_mem_cons.mp hbefore).2, hbad⟩

/-- **Several files make up a pipeline iff each of them binds**, and its tasks are theirs. -/
theorem bindFiles_eq_ok_iff {files : List (String × Contents)} {main : Pipeline} :
    bindFiles c files = .ok main ↔ ∃ parts, BindsEach c files parts ∧ main = join parts := by
  unfold bindFiles
  constructor
  · intro h
    split at h
    case h_1 parts hparts =>
      cases h
      exact ⟨parts, bindEach_eq_none_iff.mp hparts, rfl⟩
    case h_2 => cases h
  · rintro ⟨parts, hparts, rfl⟩
    rw [bindEach_eq_none_iff.mpr hparts]

/-- **The error of several files is that of the first one that cannot be read or bound.** -/
theorem bindFiles_eq_error_iff {files : List (String × Contents)} {e : BindError} :
    bindFiles c files = .error e ↔
      ∃ before file after, files = before ++ file :: after ∧
        (∀ f ∈ before, ∃ p, bindFile c f.1 f.2 = .ok p) ∧ bindFile c file.1 file.2 = .error e := by
  rw [← bindEach_eq_some_iff]
  unfold bindFiles
  rcases bindEach c files with ⟨parts, _ | e'⟩
  · simp
  · simp

end Runbook.ControlFile
