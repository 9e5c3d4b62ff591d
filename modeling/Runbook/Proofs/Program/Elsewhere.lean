import Runbook.Program.FileTree
import Runbook.Proofs.Settings.ReportPath

/-!
# Writing in a file tree

A file that is begun or added to changes nothing at other places: paths lead where they led, and
the files there read as they did. The places of the tree are told apart by where they are, not by
the paths that lead there; still, paths to one file agree in their last segment.

* `SameBut`: two trees that differ at one place at most, kept by `create` and `append`.
* `SameBut.contents_eq_ok_iff`: the texts that are found at other places.
* `suffix_of_locate_eq`: paths to one file end alike.
-/

namespace Runbook.FileTree

variable {t t' t'' : FileTree} {k l m : Location} {b : ByteArray} {path : String}

/-! ## Directories -/

/-- The place `l` lies under the place `k`. -/
def Under (k l : Location) : Prop :=
  l.above = k.above ∧ k.names <+: l.names ∧ l.names ≠ k.names

theorem isDirectory_iff :
    t.isDirectory k = true ↔ k.names = [] ∨ ∃ f ∈ t.files, Under k f.1 := by
  simp [isDirectory, Under, and_assoc]

/-- All directories on the way to `l` are there. -/
def Rooted (t : FileTree) (l : Location) : Prop :=
  ∀ k, Under k l → t.isDirectory k = true

theorem rooted_of_file? (h : t.file? l = some b) : t.Rooted l := by
  intro k hk
  obtain ⟨before, after, heq, -⟩ := List.lookup_eq_some_iff.mp h
  exact isDirectory_iff.mpr (.inr ⟨(l, b), by simp [heq], hk⟩)

theorem rooted_of_isDirectory (h : t.isDirectory ⟨l.above, l.names.dropLast⟩ = true) :
    t.Rooted l := by
  rintro k ⟨habove, hnames, hne⟩
  have hparent : k.names <+: l.names.dropLast := by
    rcases List.eq_nil_or_concat' l.names with hnil | ⟨front, name, hlast⟩
    · rw [hnil] at hnames hne
      exact absurd (List.prefix_nil.mp hnames).symm hne
    · rw [hlast, List.prefix_concat_iff] at hnames
      rw [hlast, List.dropLast_concat]
      exact hnames.resolve_left fun heq => hne (hlast.trans heq.symm)
  rcases isDirectory_iff.mp h with hnil | ⟨f, hf, hfabove, hfnames, hfne⟩
  · exact isDirectory_iff.mpr (.inl (List.prefix_nil.mp (hnil ▸ hparent)))
  · refine isDirectory_iff.mpr (.inr ⟨f, hf, hfabove.trans habove, hparent.trans hfnames, ?_⟩)
    intro heq
    exact hfne ((hfnames.eq_of_length_le (heq ▸ hparent.length_le)).symm)

/-! ## One file written -/

theorem file?_replace_self : (t.replace l b).file? l = some b := by
  simp [replace, file?]

theorem file?_replace_of_ne (h : k ≠ l) : (t.replace l b).file? k = t.file? k := by
  have hfilter : ∀ files : List (Location × ByteArray),
      (files.filter fun f => f.1 != l).lookup k = files.lookup k := by
    intro files
    induction files with
    | nil => rfl
    | cons f files ih =>
      obtain ⟨place, bytes⟩ := f
      by_cases hplace : place = l
      · simp [List.lookup_cons, hplace, ih, beq_false_of_ne h]
      · simp [List.lookup_cons, hplace, ih]
  rw [replace, file?, file?, List.lookup_cons, beq_false_of_ne h, hfilter]

theorem isDirectory_replace (h : t.Rooted l) (k : Location) :
    (t.replace l b).isDirectory k = t.isDirectory k := by
  rw [Bool.eq_iff_iff]
  constructor
  · intro hk
    rcases isDirectory_iff.mp hk with hnil | ⟨f, hf, hunder⟩
    · exact isDirectory_iff.mpr (.inl hnil)
    · rcases List.mem_cons.mp hf with rfl | hf
      · exact h k hunder
      · exact isDirectory_iff.mpr (.inr ⟨f, (List.mem_filter.mp hf).1, hunder⟩)
  · intro hk
    rcases isDirectory_iff.mp hk with hnil | ⟨f, hf, hunder⟩
    · exact isDirectory_iff.mpr (.inl hnil)
    · by_cases hfl : f.1 = l
      · exact isDirectory_iff.mpr (.inr ⟨(l, b), List.mem_cons_self, hfl ▸ hunder⟩)
      · exact isDirectory_iff.mpr
          (.inr ⟨f, List.mem_cons_of_mem _ (List.mem_filter.mpr ⟨hf, by simpa using hfl⟩), hunder⟩)

/-! ## Trees that differ at one place -/

/-- A path may go on from `k`: a directory is there and no file. -/
def Open (t : FileTree) (k : Location) : Prop :=
  t.file? k = none ∧ t.isDirectory k = true

/-- The trees differ at `l` at most. Whether a file or nothing is there, no path goes on from it in
either tree. -/
structure SameBut (l : Location) (t t' : FileTree) : Prop where
  file? : ∀ k, k ≠ l → t'.file? k = t.file? k
  isDirectory : ∀ k, t'.isDirectory k = t.isDirectory k
  open_iff : t'.Open l ↔ t.Open l

theorem SameBut.refl : SameBut l t t :=
  ⟨fun _ _ => rfl, fun _ => rfl, .rfl⟩

theorem SameBut.trans (h : SameBut l t t') (h' : SameBut l t' t'') : SameBut l t t'' :=
  ⟨fun k hk => (h'.file? k hk).trans (h.file? k hk),
    fun k => (h'.isDirectory k).trans (h.isDirectory k), h'.open_iff.trans h.open_iff⟩

theorem SameBut.open_iff' (h : SameBut l t t') (k : Location) : t'.Open k ↔ t.Open k := by
  by_cases hk : k = l
  · exact hk ▸ h.open_iff
  · rw [Open, Open, h.file? k hk, h.isDirectory k]

theorem sameBut_replace (hroot : t.Rooted l) (hclosed : ¬ t.Open l) :
    SameBut l t (t.replace l b) where
  file? _ := file?_replace_of_ne
  isDirectory := isDirectory_replace hroot
  open_iff := iff_of_false (by simp [Open, file?_replace_self]) hclosed

/-! ## Paths -/

/-- Where a segment leads from a directory. -/
def next (l : Location) (segment : String) : Location :=
  if segment = "" ∨ segment = "." then l
  else if segment = ".." then
    if l.names.isEmpty then ⟨l.above + 1, []⟩ else ⟨l.above, l.names.dropLast⟩
  else ⟨l.above, l.names ++ [segment]⟩

theorem walk_cons (segment : String) (segments : List String) :
    t.walk l (segment :: segments) =
      if (t.file? l).isSome then .error .notDirectory
      else if !t.isDirectory l then .error .notFound
      else if longestName < segment.utf8ByteSize then .error .nameTooLong
      else t.walk (next l segment) segments := by
  rw [walk]
  unfold next
  split_ifs <;> rfl

theorem walk_cons_eq_ok {segment : String} {segments : List String} :
    t.walk l (segment :: segments) = .ok m ↔
      t.Open l ∧ segment.utf8ByteSize ≤ longestName ∧ t.walk (next l segment) segments = .ok m := by
  rw [walk_cons, Open]
  cases t.file? l with
  | some bytes => simp
  | none =>
    cases t.isDirectory l with
    | false => simp
    | true =>
      by_cases hlong : longestName < segment.utf8ByteSize
      · simp [hlong, Nat.not_le.mpr hlong]
      · simp [hlong, Nat.not_lt.mp hlong]

/-- What the last segment does is done after all others. -/
theorem walk_append_eq_ok {segment : String} {segments : List String} :
    t.walk l (segments ++ [segment]) = .ok m ↔
      ∃ k, t.walk l segments = .ok k ∧ t.Open k ∧ segment.utf8ByteSize ≤ longestName ∧
        next k segment = m := by
  induction segments generalizing l with
  | nil =>
    rw [List.nil_append, walk_cons_eq_ok]
    simp only [walk, Except.ok.injEq, exists_eq_left']
  | cons first segments ih =>
    rw [List.cons_append, walk_cons_eq_ok, ih]
    constructor
    · rintro ⟨hopen, hlong, k, hwalk, hk⟩
      exact ⟨k, walk_cons_eq_ok.mpr ⟨hopen, hlong, hwalk⟩, hk⟩
    · rintro ⟨k, hwalk, hk⟩
      obtain ⟨hopen, hlong, hwalk⟩ := walk_cons_eq_ok.mp hwalk
      exact ⟨hopen, hlong, k, hwalk, hk⟩

theorem SameBut.walk_eq_ok_iff (h : SameBut l t t') {segments : List String} :
    t'.walk k segments = .ok m ↔ t.walk k segments = .ok m := by
  induction segments generalizing k with
  | nil => simp [walk]
  | cons segment segments ih => rw [walk_cons_eq_ok, walk_cons_eq_ok, h.open_iff', ih]

/-- The faults of a path need not be the same in both trees: a path over a file that is begun does
not end in nothing any more, but at the file. -/
theorem SameBut.locate_eq_ok_iff (h : SameBut l t t') :
    t'.locate path = .ok m ↔ t.locate path = .ok m := by
  unfold locate
  split_ifs
  · rfl
  · rfl
  · rfl
  · rfl
  · exact h.walk_eq_ok_iff

/-- The last segment of a path leads to the path's place from some other place. -/
theorem exists_next_of_locate (h : t.locate path = .ok m) :
    ∃ before name k, path.toList = before ++ name ∧ Path.Leads before ∧ '/' ∉ name ∧
      t.Open k ∧ next k (String.ofList name) = m := by
  obtain ⟨before, name, hpath, hbefore, hname⟩ := Path.exists_leads_append path.toList
  have hwalk : t.walk ⟨0, []⟩ (segments path) = .ok m := by
    unfold locate at h
    split_ifs at h
    exact h
  -- The segments of what goes before the name end where the name begins.
  obtain ⟨front, hsegments⟩ : ∃ front, segments path = front ++ [String.ofList name] := by
    have hlast : name.splitOn '/' = [name] := List.splitOn_eq_singleton hname
    rcases hbefore with rfl | ⟨up, rfl⟩
    · exact ⟨[], by simp [segments, hpath, hlast]⟩
    · refine ⟨(up.splitOn '/').map String.ofList, ?_⟩
      rw [segments, hpath, List.append_assoc, List.singleton_append, List.splitOn,
        List.splitOnP_append_cons up name (by simp), List.map_append]
      exact congrArg _ (congrArg _ hlast)
  rw [hsegments] at hwalk
  obtain ⟨k, -, hopen, -, hk⟩ := walk_append_eq_ok.mp hwalk
  exact ⟨before, name, k, hpath, hbefore, hname, hopen, hk⟩

/-- Upwards of a directory are directories. -/
theorem isDirectory_dropLast (h : t.isDirectory k = true) :
    t.isDirectory ⟨k.above, k.names.dropLast⟩ = true := by
  rcases isDirectory_iff.mp h with hnil | ⟨f, hf, habove, hnames, hne⟩
  · simp [isDirectory, hnil]
  · refine isDirectory_iff.mpr
      (.inr ⟨f, hf, habove, (List.dropLast_prefix k.names).trans hnames, ?_⟩)
    intro heq
    have hlength := heq ▸ hnames.length_le
    exact hne (hnames.eq_of_length_le (by simp [heq])).symm

/-- Where no directory is, the last segment of the path is the last name of the place. -/
theorem names_next {segment : String} (hopen : t.Open k)
    (h : t.isDirectory (next k segment) = false) :
    (next k segment).names = k.names ++ [segment] := by
  unfold next at h ⊢
  split_ifs at h ⊢ with hstay hup htop
  · exact absurd hopen.2 (by simp [h])
  · simp [isDirectory] at h
  · rw [isDirectory_dropLast hopen.2] at h
    cases h
  · rfl

/-- Paths to one place where no directory is end in the same name, and with it in everything that a
name may end in. -/
theorem suffix_of_locate_eq {other : String} {ending : List Char}
    (hpath : t.locate path = .ok m) (hother : t.locate other = .ok m)
    (hplace : t.isDirectory m = false) (hslash : '/' ∉ ending) (hend : ending <:+ path.toList) :
    ending <:+ other.toList := by
  obtain ⟨before, name, k, hpath', hbefore, -, hk, hnext⟩ := exists_next_of_locate hpath
  obtain ⟨before', name', k', hother', -, -, hk', hnext'⟩ := exists_next_of_locate hother
  have hnames := names_next hk (hnext ▸ hplace)
  have hnames' := names_next hk' (hnext' ▸ hplace)
  rw [hnext] at hnames
  rw [hnext', hnames] at hnames'
  obtain rfl : name = name' := by
    simpa using congrArg String.toList (List.cons.inj (List.append_inj' hnames' rfl).2).1
  rw [hpath'] at hend
  rw [hother']
  exact (hbefore.suffix_of_suffix hslash hend).trans (List.suffix_append before' name)

/-! ## Texts -/

theorem bytes_eq_ok_iff :
    t.bytes path = .ok b ↔ ∃ k, t.locate path = .ok k ∧ t.file? k = some b := by
  rw [bytes, bind_eq_ok]
  refine exists_congr fun k => and_congr_right fun _ => ?_
  cases t.file? k <;> simp

theorem text_eq_ok_iff {text : String} :
    t.text path = .ok text ↔ ∃ b, t.bytes path = .ok b ∧ String.fromUTF8? b = some text := by
  rw [FileTree.text, bind_eq_ok]
  refine exists_congr fun b => and_congr_right fun _ => ?_
  cases String.fromUTF8? b <;> simp

theorem contents_eq_ok_iff {text : String} :
    t.contents path = .ok text ↔
      ∃ k b, t.locate path = .ok k ∧ t.file? k = some b ∧ String.fromUTF8? b = some text := by
  have h : t.contents path = .ok text ↔ t.text path = .ok text := by
    unfold contents
    cases t.text path with
    | error e => exact ⟨nofun, nofun⟩
    | ok s =>
      constructor
      · rintro ⟨⟩
        rfl
      · rintro ⟨⟩
        rfl
  rw [h, text_eq_ok_iff]
  simp only [bytes_eq_ok_iff]
  constructor
  · rintro ⟨b, ⟨k, hk, hb⟩, htext⟩
    exact ⟨k, b, hk, hb, htext⟩
  · rintro ⟨k, b, hk, hb, htext⟩
    exact ⟨b, ⟨k, hk, hb⟩, htext⟩

theorem SameBut.contents_eq_ok_iff (h : SameBut l t t') (hpath : t.locate path ≠ .ok l)
    {text : String} : t'.contents path = .ok text ↔ t.contents path = .ok text := by
  rw [FileTree.contents_eq_ok_iff, FileTree.contents_eq_ok_iff]
  refine exists_congr fun k => exists_congr fun b => ?_
  rw [h.locate_eq_ok_iff]
  refine and_congr_right fun hk => ?_
  rw [h.file? k (by rintro rfl; exact hpath hk)]

theorem fromUTF8?_toUTF8 (text : String) : String.fromUTF8? text.toUTF8 = some text := by
  simp [String.fromUTF8?, String.fromUTF8, String.toUTF8, text.isValidUTF8]

/-! ## Beginning a file and adding to it -/

theorem create_eq_ok_iff :
    t.create path b = .ok t' ↔
      ∃ l, t.locate path = .ok l ∧ t.isDirectory l = false ∧
        t.isDirectory ⟨l.above, l.names.dropLast⟩ = true ∧ t.replace l b = t' := by
  rw [create, bind_eq_ok]
  refine exists_congr fun l => and_congr_right fun _ => ?_
  cases t.isDirectory l <;> cases t.isDirectory ⟨l.above, l.names.dropLast⟩ <;> simp

/-- A file that is begun has the bytes it is begun with. -/
theorem file?_create (h : t.create path b = .ok t') (hl : t.locate path = .ok l) :
    t'.file? l = some b := by
  obtain ⟨k, hk, -, -, rfl⟩ := create_eq_ok_iff.mp h
  cases hl.symm.trans hk
  exact file?_replace_self

theorem sameBut_create (h : t.create path b = .ok t') (hl : t.locate path = .ok l) :
    SameBut l t t' := by
  obtain ⟨k, hk, hplace, hparent, rfl⟩ := create_eq_ok_iff.mp h
  cases hl.symm.trans hk
  exact sameBut_replace (rooted_of_isDirectory hparent) (by simp [Open, hplace])

theorem sameBut_append (hl : t.locate path = .ok l) : SameBut l t (t.append path b) := by
  unfold append
  rw [hl]
  cases hbytes : t.bytes path with
  | error e => exact .refl
  | ok before =>
    obtain ⟨k, hk, hfile⟩ := bytes_eq_ok_iff.mp hbytes
    cases hl.symm.trans hk
    exact sameBut_replace (rooted_of_file? hfile) (by simp [Open, hfile])

end Runbook.FileTree
