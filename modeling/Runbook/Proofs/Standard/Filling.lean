import Runbook.Proofs.Matrix.Entries
import Runbook.Proofs.Standard.Storing

/-!
# Matrices from lists of values

A task can fill a matrix row by row from a list of values and a number of columns. If the columns
divide the values, it stores the matrix whose rows, one after the other, are the list; as every
matrix, it is stored row by row.

* `filled`: the matrix that is stored.
* `setMatrix_eq`: what the method does.
* `matrices_are_row_major`: what is read from matrices, however they are made and changed, and what
  is stored by such a task.
-/

namespace Runbook.Standard

/-- The name of the method. -/
def fillingName : String := "MatrixSet"

/-- What the catalog says about the slots of the method. -/
theorem hasSlots_of_fillingName {m : MethodId}
    (h : (library.catalog.methodAt m).name = fillingName) :
    HasSlots (library.catalog.methodAt m) .matrix [.vector, .index] := by
  have hall : ∀ d ∈ library.catalog.methods, d.name = fillingName →
      HasSlots d .matrix [.vector, .index] := by decide +kernel
  exact methodAt_of_name (by decide) hall h

/-- The task stores a matrix of the values `xs`, `ncols` to a row, in `v`. -/
def Fills (t : Task) (xs : List Float) (ncols : Int64) (v : VariableId) : Prop :=
  Stores fillingName [.vector xs, .index ncols] .matrix t v

/-- Whatever is bound to the method is such a task. -/
theorem fills_of_expressible {t : Task} (ht : t.Expressible library.catalog)
    (hname : (library.catalog.methodAt t.method).name = fillingName) :
    ∃ xs ncols v, Fills t xs ncols v := by
  obtain ⟨v, hstores, hvalues⟩ :=
    exists_of_expressible ht (by decide) (hasSlots_of_fillingName hname)
  obtain ⟨x, _, ⟨hx, -⟩, hindex, hkeys⟩ := List.forall₂_cons_left_iff.mp hvalues
  obtain ⟨y, _, ⟨hy, -⟩, hrest, rfl⟩ := List.forall₂_cons_left_iff.mp hindex
  cases hrest
  cases x <;> cases hx
  cases y <;> cases hy
  exact ⟨_, _, v, hname, hkeys, hstores.outputs_eq, hstores.inputs_eq, hstores.index_lt,
    hstores.group_eq⟩

/-- The values, `cols` to a row. -/
def filled (xs : List Float) {cols : Nat} (h : cols ∣ xs.length) : Matrix :=
  ⟨xs.length / cols, cols, xs, (Nat.div_mul_cancel h).symm⟩

theorem ofEntries_filled {xs : List Float} {cols : Nat} (h : cols ∣ xs.length) :
    Matrix.ofEntries (xs.length / cols) cols xs = .ok (filled xs h) :=
  dif_pos (Nat.div_mul_cancel h).symm

section

variable {t : Task} {xs : List Float} {ncols : Int64} {v : VariableId}
  (ht : Fills t xs ncols v) (hpos : 0 < ncols.toInt) (hdvd : ncols.toNatClampNeg ∣ xs.length)
include ht hpos hdvd

/-- What the method does: it stores its matrix, and that is all. -/
theorem setMatrix_eq (depth : Nat) (silent : Bool) :
    library.native t.method ⟨library.catalog, t, depth, silent⟩ =
      .set v (.matrix (filled xs hdvd)) := by
  let call : Call := ⟨library.catalog, t, depth, silent⟩
  have hnative : library.native t.method = setMatrix :=
    native_of_name (i := 6) (by decide) ht.name_eq
  have hvalues : (call.keyword 0).andThen (fun x => Action.contents x.asVector) = .done xs := by
    simp [call, Call.keyword, ht.keywords_eq, Action.andThen, Value.asVector, Action.contents]
  have hncols : call.indexKeyword 1 = .done ncols := by
    simp [call, Call.indexKeyword, Call.keyword, ht.keywords_eq, Action.andThen, Value.asIndex,
      Action.contents]
  have hsome : ¬ ncols ≤ 0 := fun h => Int.not_lt.mpr (Int64.le_iff_toInt_le.mp h) hpos
  have hset : setMatrix call = call.output 0 (.matrix (filled xs hdvd)) := by
    rw [setMatrix]
    simp only [Action.bind_eq]
    rw [← Action.andThen_assoc, hvalues]
    simp only [Action.andThen, hncols]
    rw [if_neg hsome, if_neg (by simpa using Nat.mod_eq_zero_of_dvd hdvd), ofEntries_filled hdvd]
  rw [hnative, hset]
  exact ht.output_eq (hasSlots_of_fillingName ht.name_eq) depth silent rfl

end

/-- **Matrices are stored row by row.** Of whatever a matrix is made and whatever calls set entries
of it, its places are exactly those within its shape, each with an entry of its own; its rows are the
lists of their entries and make it again; a call that sets an entry changes one place or nothing;
and after any sequence of calls the last one for a place tells what is read there. A matrix of zeros
has no other entries. A list of entries makes a matrix exactly if it fits the shape, and rows do
exactly if they are equally long; both are read where they belong.

Nothing is bound to the method that fills a matrix but tasks with a list of values and a number of
columns. If that is positive and divides the number of values, such a task succeeds at every level,
silent or not and whatever the run has come to, and it does nothing but store the matrix whose rows,
one after the other, are the list. -/
theorem matrices_are_row_major :
    (∀ m : Matrix, m.rows * m.cols < 2 ^ 64 → ∀ calls : List Matrix.Assignment,
      let n := m.assignAll calls
      n.RowMajor ∧ n.rows = m.rows ∧ n.cols = m.cols ∧
        ∀ r c, r < m.rows → c < m.cols →
          n.get? r c = (Matrix.lastValue? r c calls).or (m.get? r c)) ∧
    (∀ rows cols : Nat, rows * cols < 2 ^ 64 →
      ((Matrix.zeros rows cols).rows = rows ∧ (Matrix.zeros rows cols).cols = cols ∧
        ∀ r c, r < rows → c < cols → (Matrix.zeros rows cols).get? r c = some 0) ∧
      ∀ xs : List Float,
        ((∃ m, Matrix.ofEntries rows cols xs = .ok m) ↔ xs.length = rows * cols) ∧
        ∀ m, Matrix.ofEntries rows cols xs = .ok m → m.rows = rows ∧ m.cols = cols ∧
          ∀ r c, r < rows → c < cols → m.get? r c = xs[r * cols + c]?) ∧
    (∀ rows : List (List Float),
      ((∃ m, Matrix.ofRows rows = .ok m) ↔ ∀ a ∈ rows, ∀ b ∈ rows, a.length = b.length) ∧
      ∀ m, Matrix.ofRows rows = .ok m → m.rows = rows.length ∧
        (∀ row ∈ rows, row.length = m.cols) ∧ ∀ r c, m.get? r c = rows[r]?.bind (·[c]?)) ∧
    (∀ t, t.Expressible library.catalog → (library.catalog.methodAt t.method).name = fillingName →
      ∃ xs ncols v, Fills t xs ncols v) ∧
    ∀ (xs : List Float) (ncols : Int64), 0 < ncols.toInt → ncols.toInt ∣ xs.length →
      ∃ m : Matrix, m.cols = ncols.toInt ∧ m.toRows.flatten = xs ∧
        ∀ t v, Fills t xs ncols v →
          ∀ (below : Runner) (depth : Nat) (silent : Bool) (i : Nat) (s : State),
            let r := runTask library below depth silent i t s
            r = (.ok (), (s.report (.announced fillingName depth silent)).update fun w =>
              (w.write v (.matrix m)).markAll [v]) ∧
            (s.workspace.size = library.catalog.vars.length →
              r.2.workspace.value v = .matrix m) := by
  refine ⟨fun m hsize calls => ?_, fun rows cols _ => ⟨⟨rfl, rfl, fun r c hr hc => ?_⟩,
    fun xs => ⟨Matrix.exists_ofEntries_iff, fun m hm => ?_⟩⟩,
    fun rows => ⟨Matrix.exists_ofRows_iff, fun m hm => ?_⟩,
    fun t ht hname => fills_of_expressible ht hname, fun xs ncols hpos hdvd => ?_⟩
  · obtain ⟨hrows, hcols, hentries⟩ := m.of_assignAll calls
    exact ⟨Matrix.rowMajor (by rwa [hrows, hcols]), hrows, hcols, hentries⟩
  · exact Matrix.get?_zeros hr hc
  · exact (Matrix.ofEntries_eq_ok_iff.mp hm).2
  · have hrows := Matrix.hasRows_of_ofRows hm
    exact ⟨hrows.rows_eq, hrows.length_row, Matrix.get?_of_ofRows hm⟩
  · have hcols : (ncols.toNatClampNeg : Int) = ncols.toInt := Int.toNat_of_nonneg hpos.le
    have hdvd' : ncols.toNatClampNeg ∣ xs.length := by
      rwa [← hcols, Int.natCast_dvd_natCast] at hdvd
    refine ⟨filled xs hdvd', hcols, Matrix.flatten_toRows _, fun t v ht below depth silent i s =>
      ⟨?_, ?_⟩⟩
    · exact ht.runTask_eq (hasSlots_of_fillingName ht.name_eq) depth silent
        (setMatrix_eq ht hpos hdvd' depth silent) below i s
    · exact ht.value_eq (hasSlots_of_fillingName ht.name_eq) depth silent
        (setMatrix_eq ht hpos hdvd' depth silent) below i

/-- A matrix of the standard library. -/
def jacobian : VariableId := ⟨15⟩

/-- The task that fills it. -/
def fillingTask (xs : List Float) (ncols : Int64) : Task :=
  ⟨⟨6⟩, [.vector xs, .index ncols], [jacobian], [], none⟩

theorem fills_fillingTask (xs : List Float) (ncols : Int64) :
    Fills (fillingTask xs ncols) xs ncols jacobian := by
  have hname : (library.catalog.methodAt ⟨6⟩).name = fillingName := by decide +kernel
  exact ⟨hname, rfl, rfl, rfl, by decide +kernel, by decide +kernel⟩

/-- Six values, three to a row; of two calls that set an entry of the matrix, the second is out of
range. -/
theorem fillingTask_stores :
    ∃ m after, runTask library (execute library 64 64) 0 false 0
        (fillingTask [1, 2, 3, 4, 5, 6] 3) ⟨Workspace.fresh library.catalog, #[]⟩ = (.ok (), after) ∧
      after.workspace.value jacobian = .matrix m ∧ m.cols = 3 ∧
      m.toRows.flatten = [1, 2, 3, 4, 5, 6] ∧
      (m.assignAll [⟨1, 2, 7⟩, ⟨2, 0, 8⟩]).get? 1 2 = some 7 := by
  obtain ⟨hmatrix, -, -, -, hfills⟩ := matrices_are_row_major
  obtain ⟨m, hcols, hflatten, hstores⟩ :=
    hfills [1, 2, 3, 4, 5, 6] 3 (by decide) (by decide)
  obtain ⟨hrun, hvalue⟩ := hstores _ _ (fills_fillingTask _ 3) (execute library 64 64) 0 false 0
    ⟨Workspace.fresh library.catalog, #[]⟩
  rw [hrun] at hvalue
  replace hcols : m.cols = 3 := Int.ofNat.inj hcols
  have hlength := m.length_eq
  rw [← m.flatten_toRows, hflatten, hcols] at hlength
  have hrows : m.rows = 2 := Nat.eq_of_mul_eq_mul_right three_pos hlength.symm
  obtain ⟨-, -, -, hentries⟩ := hmatrix m (by rw [hrows, hcols]; decide)
    [⟨1, 2, 7⟩, ⟨2, 0, 8⟩]
  exact ⟨m, _, hrun, hvalue Workspace.size_fresh, hcols, hflatten,
    hentries 1 2 (by rw [hrows]; decide) (by rw [hcols]; decide)⟩

end Runbook.Standard
