import Runbook.Proofs.Registry.WellFormed
import Runbook.Settings

/-!
# The path of the report

Without a base name the report is called like the first control file, and its path is that file's
own path if the file has the extension of reports already. With a base name, or for another control
file, the two paths are the same if the control file is called so. There is no further way.

* `dropExtension_append_iff`: a path is got back by exchanging its extension for `extension` if and
  only if it ends in a file name with this extension.
* `Settings.CalledLikeReport`: a control file is called like the report, in one of these ways.
* `Settings.reportPath_mem_iff`: then, and only then, the report has the path of a control file.
-/

namespace Runbook

namespace Path

/-! ## File names -/

/-- What may go before a file name: nothing, or something that ends in a slash. -/
def Leads (before : List Char) : Prop :=
  before = [] ∨ ∃ up, before = up ++ ['/']

theorem Leads.nil : Leads [] :=
  .inl rfl

theorem exists_leads_append (path : List Char) :
    ∃ before name, path = before ++ name ∧ Leads before ∧ '/' ∉ name := by
  induction path with
  | nil => exact ⟨[], [], rfl, .nil, by simp⟩
  | cons c cs ih =>
    obtain ⟨before, name, rfl, hbefore | ⟨up, rfl⟩, hname⟩ := ih
    · subst hbefore
      by_cases hc : c = '/'
      · exact ⟨['/'], name, by simp [hc], .inr ⟨[], rfl⟩, hname⟩
      · exact ⟨[], c :: name, rfl, .nil, by simp [hname, Ne.symm hc]⟩
    · exact ⟨c :: up ++ ['/'], name, by simp, .inr ⟨c :: up, rfl⟩, hname⟩

/-- What a path ends in without a slash is in its file name. -/
theorem Leads.suffix_of_suffix {before name ending : List Char} (hbefore : Leads before)
    (hslash : '/' ∉ ending) (h : ending <:+ before ++ name) : ending <:+ name := by
  rcases List.suffix_or_suffix_of_suffix h (List.suffix_append before name) with hname | hname
  · exact hname
  · obtain ⟨extra, rfl⟩ := hname
    obtain ⟨front, hfront⟩ := h
    rw [← List.append_assoc, List.append_left_inj] at hfront
    rcases hbefore with rfl | ⟨up, rfl⟩
    · simp [(List.append_eq_nil_iff.mp hfront).2]
    · rcases List.eq_nil_or_concat' extra with rfl | ⟨extra, c, rfl⟩
      · simp
      · rw [← List.append_assoc] at hfront
        simp [(List.append_inj' hfront rfl).2] at hslash

theorem takeWhile_reverse_append {c : Char} {name : List Char} (h : c ∉ name) (r : List Char) :
    (name.reverse ++ r).takeWhile (· != c) = name.reverse ++ r.takeWhile (· != c) :=
  List.takeWhile_append_of_pos (by simpa using fun a ha => ne_of_mem_of_not_mem ha h)

/-- A name that is more than a dot ends a path. -/
theorem dropTail_reverse_append {name : List Char} (hslash : '/' ∉ name) (hnil : name ≠ [])
    (hdot : name ≠ ['.']) (r : List Char) : dropTail (name.reverse ++ r) = name.reverse ++ r := by
  match h : name.reverse with
  | [] => exact absurd (List.reverse_eq_nil_iff.mp h) hnil
  | c :: cs =>
    have hc : '/' ∉ c :: cs := by rw [← h]; simpa using hslash
    match cs, hc with
    | [], hc =>
      have hcdot : c ≠ '.' := by
        rintro rfl
        exact hdot (by simpa using congrArg List.reverse h)
      unfold dropTail
      split <;> simp_all
    | d :: ds, hc =>
      unfold dropTail
      split <;> simp_all

/-- The file name at the end of a path is found. -/
theorem splitName?_append {before name : List Char} (hbefore : Leads before) (hslash : '/' ∉ name)
    (hnil : name ≠ []) (hdot : name ≠ ['.']) (hdots : name ≠ ['.', '.']) :
    splitName? (before ++ name) = some (before, name) := by
  have htail : dropTail (before ++ name).reverse = name.reverse ++ before.reverse := by
    rw [List.reverse_append, dropTail_reverse_append hslash hnil hdot]
  have hname : (name.reverse ++ before.reverse).takeWhile (· != '/') = name.reverse := by
    rw [takeWhile_reverse_append hslash]
    rcases hbefore with rfl | ⟨up, rfl⟩ <;> simp
  simp only [splitName?, htail, hname]
  simp [hnil, hdot, hdots]

/-! ## Extensions -/

theorem splitExtension_append {stem extension : List Char} (hstem : stem ≠ [])
    (hdot : '.' ∉ extension) :
    splitExtension (stem ++ '.' :: extension) = (stem, some extension) := by
  have h : (stem ++ '.' :: extension).reverse.takeWhile (· != '.') = extension.reverse := by
    rw [List.reverse_append, List.reverse_cons, List.append_assoc, takeWhile_reverse_append hdot]
    simp
  simp only [splitExtension, h]
  simp [hstem]

theorem splitExtension_dot_cons {extension : List Char} (hdot : '.' ∉ extension) :
    splitExtension ('.' :: extension) = ('.' :: extension, none) := by
  have h : ('.' :: extension).reverse.takeWhile (· != '.') = extension.reverse := by
    rw [List.reverse_cons, takeWhile_reverse_append hdot]
    simp
  simp only [splitExtension, h]
  simp

/-- The path ends in a file name with this extension. The stem of the name is more than a dot. -/
def EndsIn (extension path : List Char) : Prop :=
  ∃ before stem, path = before ++ (stem ++ '.' :: extension) ∧ Leads before ∧
    '/' ∉ stem ∧ stem ≠ [] ∧ stem ≠ ['.']

section

variable {extension before stem : List Char}

theorem dotted_ne_dot (hnil : stem ≠ []) : stem ++ '.' :: extension ≠ ['.'] := by
  simp [List.append_eq_cons_iff, hnil]

theorem dotted_ne_dots (hnil : stem ≠ []) (hlone : stem ≠ ['.']) :
    stem ++ '.' :: extension ≠ ['.', '.'] := by
  match stem with
  | [] => exact absurd rfl hnil
  | [c] => simpa using fun h => absurd h (by simpa using hlone)
  | c :: d :: cs => simp

/-- The dot is still there when the stem is looked for, with nothing behind it. -/
theorem dropExtension_eq_upToStem (hslash : '/' ∉ extension) (hdot : '.' ∉ extension)
    (hbefore : Leads before) (hstem : '/' ∉ stem) (hnil : stem ≠ [])
    (hdots : stem ++ '.' :: extension ≠ ['.', '.']) :
    dropExtension (before ++ (stem ++ '.' :: extension)) =
      upToStem (before ++ (stem ++ ['.'])) := by
  have hname : splitName? (before ++ (stem ++ '.' :: extension)) =
      some (before, stem ++ '.' :: extension) :=
    splitName?_append hbefore (by simp [hstem, hslash]) (by simp) (dotted_ne_dot hnil) hdots
  have hpath : before ++ (stem ++ '.' :: extension) = before ++ (stem ++ ['.']) ++ extension := by
    simp
  simp only [dropExtension, hname, splitExtension_append hnil hdot, Option.map_some,
    Option.getD_some]
  rw [hpath, List.length_append, Nat.add_sub_cancel, List.take_left]

theorem dropExtension_append (hslash : '/' ∉ extension) (hdot : '.' ∉ extension)
    (hbefore : Leads before) (hstem : '/' ∉ stem) (hnil : stem ≠ []) (hlone : stem ≠ ['.']) :
    dropExtension (before ++ (stem ++ '.' :: extension)) = before ++ stem := by
  have hname : splitName? (before ++ (stem ++ ['.'])) = some (before, stem ++ ['.']) :=
    splitName?_append hbefore (by simp [hstem]) (by simp) (dotted_ne_dot hnil)
      (dotted_ne_dots hnil hlone)
  rw [dropExtension_eq_upToStem hslash hdot hbefore hstem hnil (dotted_ne_dots hnil hlone)]
  simp only [upToStem, hname, splitExtension_append hnil List.not_mem_nil]

/-- A name that begins with its only dot has no extension. -/
theorem dropExtension_append_dot (hslash : '/' ∉ extension) (hdot : '.' ∉ extension)
    (hnil : extension ≠ []) (hbefore : Leads before) :
    dropExtension (before ++ '.' :: extension) = before ++ '.' :: extension := by
  have hname : splitName? (before ++ '.' :: extension) = some (before, '.' :: extension) := by
    refine splitName?_append hbefore (by simp [hslash]) (by simp) (by simp [hnil]) ?_
    intro h
    exact hdot (by simp [(List.cons.inj h).2])
  simp only [dropExtension, hname, splitExtension_dot_cons hdot, Option.map_none, Option.getD_none,
    Nat.sub_zero, List.take_length, upToStem]

/-- Two dots, which are left when the extension is taken off, are no file name. -/
theorem dropExtension_append_dots (hslash : '/' ∉ extension) (hdot : '.' ∉ extension)
    (hnil : extension ≠ []) (hbefore : Leads before) :
    dropExtension (before ++ (['.'] ++ '.' :: extension)) = before ++ ['.', '.'] := by
  rw [dropExtension_eq_upToStem hslash hdot hbefore (by simp) (by simp) (by simp [hnil])]
  have hname : splitName? (before ++ ['.', '.']) = none := by
    have htail : dropTail (before ++ ['.', '.']).reverse =
        ['.', '.'].reverse ++ before.reverse := by
      rw [List.reverse_append, dropTail_reverse_append (by simp) (by simp) (by simp)]
    have hdots : (['.', '.'].reverse ++ before.reverse).takeWhile (· != '/') = ['.', '.'] := by
      rw [takeWhile_reverse_append (by simp)]
      rcases hbefore with rfl | ⟨up, rfl⟩ <;> simp
    simp only [splitName?, htail, hdots]
    simp
  simp [upToStem, hname]

/-- A path is got back by exchanging its extension if and only if it had this extension. -/
theorem dropExtension_append_iff {path : List Char} (hslash : '/' ∉ extension)
    (hdot : '.' ∉ extension) (hnil : extension ≠ []) :
    dropExtension path ++ '.' :: extension = path ↔ EndsIn extension path := by
  constructor
  · intro h
    obtain ⟨before, stem, hpath, hbefore, hstem⟩ := exists_leads_append (dropExtension path)
    rw [hpath, List.append_assoc] at h
    refine ⟨before, stem, h.symm, hbefore, hstem, ?_, ?_⟩
    · rintro rfl
      rw [← h, List.nil_append, dropExtension_append_dot hslash hdot hnil hbefore] at hpath
      simp at hpath
    · rintro rfl
      rw [← h, dropExtension_append_dots hslash hdot hnil hbefore] at hpath
      simp at hpath
  · rintro ⟨before, stem, rfl, hbefore, hstem, hne, hlone⟩
    rw [dropExtension_append hslash hdot hbefore hstem hne hlone, List.append_assoc]

end

end Path

namespace Settings

variable {s : Settings} {levels : Option ReportLevels} {basename : Option String} {config : Config}
  {files : List String}

theorem reportPath_of_resolve (h : resolve levels basename config files = .ok s) :
    s.reportPath = (basename <|> config.basename <|> files.head?.map Path.withoutExtension).map
      (· ++ reportExtension) := by
  cases levels with
  | some levels =>
    cases h
    rfl
  | none =>
    cases hraw : config.reporting with
    | none =>
      simp only [resolve, hraw] at h
      cases h
      rfl
    | some raw =>
      simp only [resolve, hraw] at h
      obtain ⟨levels, _, h⟩ := bind_eq_ok.mp h
      cases h
      rfl

theorem suffix_of_reportPath_eq {path : String} (h : s.reportPath = some path) :
    reportExtension.toList <:+ path.toList := by
  obtain ⟨base, _, rfl⟩ := Option.map_eq_some_iff.mp h
  exact ⟨base.toList, by simp⟩

/-- A control file is its own report if and only if it is called like one. -/
theorem withoutExtension_append_iff (path : String) :
    Path.withoutExtension path ++ reportExtension = path ↔
      Path.EndsIn ['r', 'e', 'p'] path.toList := by
  rw [← Path.dropExtension_append_iff (by decide) (by decide) (by decide), ← String.toList_inj]
  simp [Path.withoutExtension, reportExtension]

/-- A control file is called like the report. -/
inductive CalledLikeReport : Option String → List String → Prop
  /-- It has the base name that is given and the extension of reports. -/
  | named {base : String} {files : List String} :
      base ++ reportExtension ∈ files → CalledLikeReport (some base) files
  /-- No base name is given, and the first control file has the extension of reports. -/
  | first {path : String} {others : List String} :
      Path.EndsIn ['r', 'e', 'p'] path.toList → CalledLikeReport none (path :: others)
  /-- No base name is given, and a further control file is called like the first one, but with the
  extension of reports. -/
  | further {path : String} {others : List String} :
      Path.withoutExtension path ++ reportExtension ∈ others →
        CalledLikeReport none (path :: others)

theorem calledLikeReport_some_iff {base : String} :
    CalledLikeReport (some base) files ↔ base ++ reportExtension ∈ files :=
  ⟨fun | .named h => h, .named⟩

theorem calledLikeReport_none_iff :
    CalledLikeReport none files ↔
      ∃ path ∈ files.head?, Path.withoutExtension path ++ reportExtension ∈ files := by
  constructor
  · rintro (_ | hpath | hpath)
    · exact ⟨_, rfl, List.mem_cons.mpr (.inl ((withoutExtension_append_iff _).mpr hpath))⟩
    · exact ⟨_, rfl, List.mem_cons_of_mem _ hpath⟩
  · rintro ⟨path, hhead, hpath⟩
    obtain ⟨others, rfl⟩ := List.head?_eq_some_iff.mp hhead
    rcases List.mem_cons.mp hpath with hpath | hpath
    · exact .first ((withoutExtension_append_iff path).mp hpath)
    · exact .further hpath

/-- The report has the path of a control file if and only if one of them is called like it. -/
theorem reportPath_mem_iff (h : resolve levels basename config files = .ok s) :
    (∃ path ∈ files, s.reportPath = some path) ↔
      CalledLikeReport (basename <|> config.basename) files := by
  rw [reportPath_of_resolve h]
  simp only [Option.orElse_eq_orElse, Option.orElse_eq_or, ← Option.or_assoc]
  cases basename.or config.basename with
  | some base => simp [calledLikeReport_some_iff]
  | none => cases files <;> simp [calledLikeReport_none_iff, eq_comm]

end Settings
end Runbook
