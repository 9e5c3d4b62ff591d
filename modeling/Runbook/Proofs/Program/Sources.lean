import Runbook.Proofs.Program.Elsewhere

/-!
# What a run reads and what it writes

A run writes nothing but its report. It begins the report before it reads the control files, so what
it binds is what the user wrote wherever the report is not among them; a control file at the place
of the report is lost, and the head of the report is bound in its stead. Only a control file whose
path ends like the path of a report can be at that place.

* `Wrote`: the trees that a program which writes one file only comes to, kept step by step.
* `runFiles_binds_what_is_written`: what each control file is read as, what becomes of it, and when
  one of them has the path of the report.
* `onTree_spares_sources`: the whole program leaves every file alone that is not called like a
  report.
-/

namespace Runbook

/-! ## Programs that write one file -/

namespace FileTree

/-- The tree is `t`, but that the file at the path may have been written. -/
def Wrote (path : Option String) (t t' : FileTree) : Prop :=
  t' = t ∨ ∃ p l, path = some p ∧ t.locate p = .ok l ∧ SameBut l t t'

variable {t t' t'' : FileTree} {path : Option String}

theorem Wrote.refl : Wrote path t t :=
  .inl rfl

theorem Wrote.trans (h : Wrote path t t') (h' : Wrote path t' t'') : Wrote path t t'' := by
  rcases h with rfl | ⟨p, l, rfl, hl, hsame⟩
  · exact h'
  · rcases h' with rfl | ⟨p', l', hp', hl', hsame'⟩
    · exact .inr ⟨p, l, rfl, hl, hsame⟩
    · cases hp'
      cases hl.symm.trans (hsame.locate_eq_ok_iff.mp hl')
      exact .inr ⟨p, l, rfl, hl, hsame.trans hsame'⟩

/-- What can be read at other places is the same in both trees. -/
theorem Wrote.contents_eq_ok_iff (h : Wrote path t t') {f text : String}
    (hf : ∀ p, path = some p → t.locate f ≠ t.locate p) :
    t'.contents f = .ok text ↔ t.contents f = .ok text := by
  rcases h with rfl | ⟨p, l, rfl, hl, hsame⟩
  · rfl
  · exact hsame.contents_eq_ok_iff (hl ▸ hf p rfl)

theorem wrote_create {p : String} {b : ByteArray} (h : t.create p b = .ok t') :
    Wrote (some p) t t' := by
  obtain ⟨l, hl, -⟩ := create_eq_ok_iff.mp h
  exact .inr ⟨p, l, rfl, hl, sameBut_create h hl⟩

theorem wrote_append (p : String) (b : ByteArray) : Wrote (some p) t (t.append p b) := by
  cases hl : t.locate p with
  | error e => exact .inl (by rw [append, hl])
  | ok l => exact .inr ⟨p, l, rfl, hl, sameBut_append hl⟩

end FileTree

namespace Program

open FileTree

variable {α β : Type} {path : Option String} {today now : String}

/-- The program writes no file but the one at the path. -/
def WritesOnly (path : Option String) (x : StateM Desk α) : Prop :=
  ∀ desk, Wrote path desk.tree (x.run desk).2.tree

theorem WritesOnly.pure (a : α) : WritesOnly path (pure a : StateM Desk α) :=
  fun _ => .refl

theorem WritesOnly.bind {x : StateM Desk α} {f : α → StateM Desk β} (hx : WritesOnly path x)
    (hf : ∀ a, WritesOnly path (f a)) : WritesOnly path (x >>= f) := by
  intro desk
  exact (hx desk).trans (hf _ _)

theorem writesOnly_modify {f : Desk → Desk} (h : ∀ desk, Wrote path desk.tree (f desk).tree) :
    WritesOnly path (modify f) :=
  h

theorem writesOnly_err (text : String) : WritesOnly path ((Desk.host today now).err text) :=
  writesOnly_modify fun _ => .refl

theorem writesOnly_fail (chain : Chain) : WritesOnly path (fail (Desk.host today now) chain) :=
  (writesOnly_err _).bind fun _ => .pure 1

theorem writesOnly_ite {c : Prop} [Decidable c] {x y : StateM Desk α} (hx : WritesOnly path x)
    (hy : WritesOnly path y) : WritesOnly path (if c then x else y) := by
  split
  · exact hx
  · exact hy

theorem writesOnly_fileRecord (file : Level) (r : Record) :
    WritesOnly path (fileRecord (Desk.host today now) file path r) := by
  cases path with
  | none => exact .pure ()
  | some p =>
    refine writesOnly_ite (.bind (.pure now) fun _ => ?_) (.pure _)
    exact writesOnly_modify fun desk => wrote_append p _

theorem writesOnly_reportEvent (screen : Filter) (file : Level) (e : Event) :
    WritesOnly path (reportEvent (Desk.host today now) screen file path e) :=
  writesOnly_ite ((writesOnly_err _).bind fun _ => writesOnly_fileRecord file _)
    (writesOnly_fileRecord file _)

theorem writesOnly_forM {f : α → StateM Desk Unit} (h : ∀ a, WritesOnly path (f a)) (l : List α) :
    WritesOnly path (l.forM f) := by
  induction l with
  | nil => exact .pure ()
  | cons a l ih => exact (h a).bind fun _ => ih

/-- Once the report is begun, nothing else is written. -/
theorem writesOnly_conclude (lib : Library) (i : Invocation) (trace : Option String)
    (settings : Settings) (files : List (String × ControlFile.Contents)) :
    WritesOnly settings.reportPath (conclude (Desk.host today now) lib i trace settings files) := by
  unfold conclude
  refine (writesOnly_forM (writesOnly_reportEvent _ _) _).bind fun _ => ?_
  split
  · exact .pure 0
  · exact (writesOnly_reportEvent _ _ _).bind fun _ => writesOnly_fail _

/-! ## Beginning, reading, concluding -/

section

variable {lib : Library} {i : Invocation} {trace : Option String} {settings : Settings}
  {desk : Desk} {p : String} {tree : FileTree}

/-- Reading control files writes nothing. -/
theorem run_readFiles (paths : List String) :
    (readFiles (Desk.host today now) paths).run desk =
      (paths.map fun f => (f, desk.tree.contents f), desk) := by
  induction paths with
  | nil => rfl
  | cons f paths ih =>
    change ((f, desk.tree.contents f) :: ((readFiles (Desk.host today now) paths).run desk).1,
      ((readFiles (Desk.host today now) paths).run desk).2) = _
    rw [ih]
    rfl

theorem run_runFiles_none (hpath : settings.reportPath = none) :
    (runFiles (Desk.host today now) lib i trace settings).run desk =
      (conclude (Desk.host today now) lib i trace settings
        (i.controlFiles.map fun f => (f, desk.tree.contents f))).run desk := by
  rw [runFiles, hpath]
  simp only [beginReport, pure_bind, StateT.run_bind, run_readFiles]
  rfl

theorem run_beginReport :
    (beginReport (Desk.host today now) (some p)).run desk =
      match desk.tree.create p (reportHead today).toUTF8 with
      | .ok tree => (.ok (), { desk with tree })
      | .error e => (.error [s!"Cannot create report file '{p}'", e.message], desk) := by
  have hcreate : ((Desk.host today now).create p (reportHead today)).run desk =
      match desk.tree.create p (reportHead today).toUTF8 with
      | .ok tree => (.ok (), { desk with tree })
      | .error e => (.error e.message, desk) := by
    simp only [Desk.host, StateT.run_bind, StateT.run_get, pure_bind]
    cases desk.tree.create p (reportHead today).toUTF8 <;> rfl
  change (((Desk.host today now).create p (reportHead today)) >>= fun r =>
    pure (r.mapError _)).run desk = _
  rw [StateT.run_bind, hcreate]
  cases desk.tree.create p (reportHead today).toUTF8 <;> rfl

theorem run_runFiles_ok (hpath : settings.reportPath = some p)
    (hbegin : desk.tree.create p (reportHead today).toUTF8 = .ok tree) :
    (runFiles (Desk.host today now) lib i trace settings).run desk =
      (conclude (Desk.host today now) lib i trace settings
        (i.controlFiles.map fun f => (f, tree.contents f))).run { desk with tree } := by
  rw [runFiles, hpath, StateT.run_bind, run_beginReport, hbegin]
  change (readFiles (Desk.host today now) i.controlFiles >>=
    conclude (Desk.host today now) lib i trace settings).run { desk with tree } = _
  rw [StateT.run_bind, run_readFiles]
  rfl

/-- Without its report a run ends at once. -/
theorem run_runFiles_error (hpath : settings.reportPath = some p) {e : FileFault}
    (hbegin : desk.tree.create p (reportHead today).toUTF8 = .error e) :
    (runFiles (Desk.host today now) lib i trace settings).run desk =
      (fail (Desk.host today now) [s!"Cannot create report file '{p}'", e.message]).run desk := by
  rw [runFiles, hpath, StateT.run_bind, run_beginReport, hbegin]
  rfl

theorem writesOnly_runFiles :
    WritesOnly settings.reportPath (runFiles (Desk.host today now) lib i trace settings) := by
  intro desk
  cases hpath : settings.reportPath with
  | none =>
    rw [run_runFiles_none hpath, ← hpath]
    exact writesOnly_conclude _ _ _ _ _ desk
  | some p =>
    cases hbegin : desk.tree.create p (reportHead today).toUTF8 with
    | error e =>
      rw [run_runFiles_error hpath hbegin]
      exact writesOnly_fail _ desk
    | ok tree =>
      rw [run_runFiles_ok hpath hbegin, ← hpath]
      exact (hpath ▸ wrote_create hbegin).trans (writesOnly_conclude _ _ _ _ _ { desk with tree })

/-- Where the report is begun there is no directory, so that paths to it end alike. -/
theorem suffix_of_locate_report (hpath : settings.reportPath = some p)
    (hbegin : desk.tree.create p (reportHead today).toUTF8 = .ok tree) {f : String}
    (hf : desk.tree.locate f = desk.tree.locate p) :
    Settings.reportExtension.toList <:+ f.toList := by
  obtain ⟨l, hl, hplace, -, -⟩ := create_eq_ok_iff.mp hbegin
  exact suffix_of_locate_eq hl (hf.trans hl) hplace (by decide)
    (Settings.suffix_of_reportPath_eq hpath)

/-- A run binds its control files as they are once the report is begun. A control file at any other
place is then, and still is at the end, as the user wrote it. At the place of the report it is the
head of the report, and then its path ends like the path of a report. With the settings of the
invocation, one of the control files has the very path of the report if and only if it is called so
by the base name, or by the first control file. -/
theorem runFiles_binds_what_is_written (hpath : settings.reportPath = some p)
    (hbegin : desk.tree.create p (reportHead today).toUTF8 = .ok tree) :
    (runFiles (Desk.host today now) lib i trace settings).run desk =
        (conclude (Desk.host today now) lib i trace settings
          (i.controlFiles.map fun f => (f, tree.contents f))).run { desk with tree } ∧
      (∀ f text, desk.tree.locate f ≠ desk.tree.locate p →
        (tree.contents f = .ok text ↔ desk.tree.contents f = .ok text) ∧
        (((runFiles (Desk.host today now) lib i trace settings).run desk).2.tree.contents f =
            .ok text ↔ desk.tree.contents f = .ok text)) ∧
      (∀ f, desk.tree.locate f = desk.tree.locate p →
        tree.contents f = .ok (reportHead today) ∧
          Settings.reportExtension.toList <:+ f.toList) ∧
      ∀ levels basename config,
        Settings.resolve levels basename config i.controlFiles = .ok settings →
        (p ∈ i.controlFiles ↔
          Settings.CalledLikeReport (basename <|> config.basename) i.controlFiles) := by
  refine ⟨run_runFiles_ok hpath hbegin, fun f text hf => ⟨?_, ?_⟩, fun f hf => ⟨?_, ?_⟩,
    fun levels basename config hsettings => ?_⟩
  · exact (wrote_create hbegin).contents_eq_ok_iff (by rintro _ ⟨⟩; exact hf)
  · exact (writesOnly_runFiles desk).contents_eq_ok_iff fun q hq => by
      cases hpath.symm.trans hq
      exact hf
  · obtain ⟨l, hl, -⟩ := create_eq_ok_iff.mp hbegin
    have hplace := (sameBut_create hbegin hl).locate_eq_ok_iff.mpr (hf.trans hl)
    exact contents_eq_ok_iff.mpr ⟨l, _, hplace, file?_create hbegin hl, fromUTF8?_toUTF8 _⟩
  · exact suffix_of_locate_report hpath hbegin hf
  · rw [← Settings.reportPath_mem_iff hsettings]
    simp [hpath]

end

/-- A tree with one file. -/
def soleFile (name text : String) : FileTree :=
  ⟨[(⟨0, [name]⟩, text.toUTF8)]⟩

/-- A control file with one task. -/
def oneTask : String := "IndexSet(index_1) \x7b 2 \x7d\n"

theorem runFiles_binds_what_is_written_job :
    ∃ settings tree, Settings.resolve none none .empty ["job.pxc"] = .ok settings ∧
      settings.reportPath = some "job.rep" ∧
      (soleFile "job.pxc" oneTask).create "job.rep" (reportHead "today").toUTF8 = .ok tree ∧
      ((runFiles (Desk.host "today" "now") Standard.library ⟨["job.pxc"], none, none, none, none,
        none, none, false⟩ none settings).run ⟨soleFile "job.pxc" oneTask, "", ""⟩).2.tree.contents
          "job.pxc" = .ok oneTask := by
  refine ⟨_, _, rfl, by decide +kernel, rfl, ?_⟩
  refine ((runFiles_binds_what_is_written (p := "job.rep") (by decide +kernel) rfl).2.1
    "job.pxc" oneTask ?_).2.mpr ?_
  · decide +kernel
  · decide +kernel

/-- A control file that is called like its own report is lost before it is read; called otherwise,
it is bound and run. -/
theorem report_written_over_source :
    (Settings.resolve none none .empty ["job.rep"]).toOption.bind Settings.reportPath =
        some "job.rep" ∧
      (soleFile "job.rep" oneTask).contents "job.rep" = .ok oneTask ∧
      (∃ tree,
        (soleFile "job.rep" oneTask).create "job.rep" (reportHead "today").toUTF8 = .ok tree ∧
          tree.contents "job.rep" = .ok (reportHead "today")) ∧
      (onTree "today" "now" (soleFile "job.rep" oneTask) ["job.rep"] none).1 = 1 ∧
      (onTree "today" "now" (soleFile "job.pxc" oneTask) ["job.pxc"] none).1 = 0 := by
  refine ⟨?_, ?_, ⟨_, rfl, ?_⟩, ?_, ?_⟩ <;> decide +kernel

/-! ## The whole program -/

/-- The program leaves every readable file as it is whose path does not end like that of a
report. -/
def Spares (x : StateM Desk α) : Prop :=
  ∀ desk f text, ¬ Settings.reportExtension.toList <:+ f.toList →
    desk.tree.contents f = .ok text → (x.run desk).2.tree.contents f = .ok text

theorem WritesOnly.spares {x : StateM Desk α} (h : WritesOnly none x) : Spares x :=
  fun desk _ _ _ hread => ((h desk).contents_eq_ok_iff (by rintro _ ⟨⟩)).mpr hread

theorem Spares.bind {x : StateM Desk α} {f : α → StateM Desk β} (hx : Spares x)
    (hf : ∀ a, Spares (f a)) : Spares (x >>= f) :=
  fun desk path text hpath hread => hf _ _ path text hpath (hx desk path text hpath hread)

variable (lib : Library) (trace : Option String)

theorem spares_runFiles (i : Invocation) (settings : Settings) :
    Spares (runFiles (Desk.host today now) lib i trace settings) := by
  intro desk f text hf hread
  cases hpath : settings.reportPath with
  | none => exact (hpath ▸ writesOnly_runFiles).spares desk f text hf hread
  | some p =>
    cases hbegin : desk.tree.create p (reportHead today).toUTF8 with
    | error e =>
      rw [run_runFiles_error hpath hbegin]
      exact (writesOnly_fail _).spares desk f text hf hread
    | ok tree =>
      refine ((writesOnly_runFiles desk).contents_eq_ok_iff fun q hq hplace => ?_).mpr hread
      cases hpath.symm.trans hq
      exact hf (suffix_of_locate_report hpath hbegin hplace)

theorem writesOnly_loadConfig (file : Option String) :
    WritesOnly path (loadConfig (Desk.host today now) file) := by
  cases file with
  | none => exact .pure _
  | some file =>
    have hread : WritesOnly path ((Desk.host today now).read file) := fun _ => .refl
    refine hread.bind fun r => ?_
    split
    · exact .pure _
    · split <;> exact .pure _

theorem spares_runInvocation (i : Invocation) :
    Spares (runInvocation (Desk.host today now) lib i trace) := by
  unfold runInvocation
  split
  · exact ((writesOnly_modify fun _ => .refl).bind fun _ => .pure 0).spares
  · exact (writesOnly_fail _).spares
  · refine (writesOnly_loadConfig _).spares.bind fun r => ?_
    split
    · exact (writesOnly_fail _).spares
    · split
      · exact (writesOnly_fail _).spares
      · exact spares_runFiles lib trace i _

/-- A run of the whole program leaves every file that can be read as it is, unless its path ends
like that of a report. -/
theorem onTree_spares_sources (words : List String) {tree : FileTree} {f text : String}
    (hf : ¬ Settings.reportExtension.toList <:+ f.toList) (hread : tree.contents f = .ok text) :
    (onTree today now tree words trace).2.tree.contents f = .ok text := by
  have hspares : Spares (run (Desk.host today now) Standard.library words trace) := by
    unfold run
    split
    · exact ((writesOnly_err _).bind fun _ => .pure 2).spares
    · exact ((writesOnly_modify fun _ => .refl).bind fun _ => .pure 0).spares
    · exact ((writesOnly_modify fun _ => .refl).bind fun _ => .pure 0).spares
    · exact spares_runInvocation _ trace _
  exact hspares ⟨tree, "", ""⟩ f text hf hread

end Program
end Runbook
