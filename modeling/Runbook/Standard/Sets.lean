import Runbook.Library
import Runbook.Standard.Assignment
import Runbook.Standard.Grid
import Runbook.Standard.Arithmetic
import Runbook.Standard.Agenda
import Runbook.Standard.Printing

/-!
# The standard library

Five sets: the built-in variables, and four of methods.

* `library?_eq`: the sets fit together, so `library` is the library of all of them.
-/

namespace Runbook.Standard

/-- A method without slots, to be filled in. -/
def spec (name : String) (native : Native) (description : String) : MethodSpec :=
  ⟨name, description, [], [], [], [], [], false, native⟩

/-- The built-in variables: scratch variables of each group, and the grids, measurement quantities
and agendas that methods refer to. -/
def vars : List Variable :=
  [⟨"index_1", .index, "Scratch index."⟩,
   ⟨"index_2", .index, "Scratch index."⟩,
   ⟨"numeric_1", .numeric, "Scratch numeric."⟩,
   ⟨"numeric_2", .numeric, "Scratch numeric."⟩,
   ⟨"string_1", .string, "Scratch string."⟩,
   ⟨"vector_1", .vector, "Scratch vector."⟩,
   ⟨"vector_2", .vector, "Scratch vector."⟩,
   ⟨"array_of_index_1", .indexArray, "Scratch index array."⟩,
   ⟨"array_of_string_1", .stringArray, "Scratch string array."⟩,
   ⟨"matrix_1", .matrix, "Scratch matrix."⟩,
   ⟨"agenda_1", .pipeline, "Scratch agenda."⟩,
   ⟨"f_grid", .vector, "The frequency grid [Hz]."⟩,
   ⟨"p_grid", .vector, "The pressure grid [Pa], decreasing."⟩,
   ⟨"stokes_dim", .index, "Number of Stokes components to consider (1-4)."⟩,
   ⟨"y", .vector, "The measurement vector."⟩,
   ⟨"jacobian", .matrix, "The Jacobian of the measurement vector."⟩,
   ⟨"forloop_index", .index, "Current index of ForLoop."⟩,
   ⟨"forloop_agenda", .pipeline, "Agenda executed once per ForLoop iteration."⟩,
   ⟨"main_agenda", .pipeline, "The top-level agenda of a control file."⟩,
   ⟨"jacobian_agenda", .pipeline, "Agenda computing the Jacobian."⟩]

/-- A method that sets a variable of group `g` from its only keyword. -/
def setter (name : String) (g : Group) (keyword : String) : MethodSpec :=
  { spec name setKeyword s!"Sets a {g} variable to the given value." with
    genericOutputs := [g], keywords := [⟨keyword, g⟩] }

/-- Setters, grid generators, copying and touching. -/
def basicMethods : List MethodSpec :=
  [setter "IndexSet" .index "value",
   setter "NumericSet" .numeric "value",
   setter "StringSet" .string "text",
   setter "VectorSet" .vector "values",
   setter "ArrayOfIndexSet" .indexArray "values",
   setter "ArrayOfStringSet" .stringArray "values",
   { spec "MatrixSet" setMatrix "Fills a matrix row by row from a flat vector." with
     genericOutputs := [.matrix], keywords := [⟨"values", .vector⟩, ⟨"ncols", .index⟩] },
   { spec "VectorLinSpace" linearSpace "Creates a linearly spaced vector with a given step." with
     genericOutputs := [.vector],
     keywords := [⟨"start", .numeric⟩, ⟨"stop", .numeric⟩, ⟨"step", .numeric⟩] },
   { spec "VectorNLinSpace" countedSpace
       "Creates a linearly spaced vector with a given length." with
     genericOutputs := [.vector],
     keywords := [⟨"nelem", .index⟩, ⟨"start", .numeric⟩, ⟨"stop", .numeric⟩] },
   { spec "Copy" copy "Copies a variable to another of the same group." with
     genericOutputs := [.any], genericInputs := [.any] },
   { spec "Touch" touch "Marks a variable as set without changing it." with
     genericOutputs := [.any] }]

/-- Arithmetic on scalars and vectors. -/
def mathMethods : List MethodSpec :=
  [{ spec "IndexAdd" addToIndex "Adds a constant to an index." with
     genericOutputs := [.index], genericInputs := [.index], keywords := [⟨"value", .index⟩] },
   { spec "NumericAdd" (onNumeric (· + ·)) "Adds a constant to a numeric." with
     genericOutputs := [.numeric], genericInputs := [.numeric],
     keywords := [⟨"value", .numeric⟩] },
   { spec "NumericScale" (onNumeric (· * ·)) "Multiplies a numeric by a constant." with
     genericOutputs := [.numeric], genericInputs := [.numeric],
     keywords := [⟨"value", .numeric⟩] },
   { spec "VectorScale" (onVector (· * ·))
       "Multiplies every element of a vector by a constant." with
     genericOutputs := [.vector], genericInputs := [.vector],
     keywords := [⟨"value", .numeric⟩] },
   { spec "VectorAddScalar" (onVector (· + ·))
       "Adds a constant to every element of a vector." with
     genericOutputs := [.vector], genericInputs := [.vector],
     keywords := [⟨"value", .numeric⟩] },
   { spec "VectorSum" sumVector "Sum of all elements of a vector." with
     genericOutputs := [.numeric], genericInputs := [.vector] },
   { spec "VectorExtend" extendVector "Appends a numeric to a vector." with
     genericOutputs := [.vector], genericInputs := [.vector, .numeric] }]

/-- Agendas and flow of control. -/
def controlMethods : List MethodSpec :=
  [{ spec "AgendaSet" setAgenda "Stores the enclosed methods as an agenda." with
     genericOutputs := [.pipeline], embeds := true },
   { spec "AgendaAppend" appendAgenda "Appends the enclosed methods to an agenda." with
     genericOutputs := [.pipeline], genericInputs := [.pipeline], embeds := true },
   { spec "AgendaExecute" executeAgenda "Executes an agenda on the workspace." with
     genericInputs := [.pipeline] },
   { spec "AgendaExecuteExclusive" executeAgendaExclusive
       ("Executes an agenda on a private copy of the workspace, " ++
        "keeping only the listed variables.") with
     genericInputs := [.pipeline], keywords := [⟨"keep", .stringArray⟩] },
   { spec "ForLoop" forLoop "Executes forloop_agenda once for each index from start to stop." with
     outputs := ["forloop_index"], inputs := ["forloop_agenda"],
     keywords := [⟨"start", .index⟩, ⟨"stop", .index⟩, ⟨"step", .index⟩] },
   { spec "Error" raise "Aborts the run with the given message." with
     keywords := [⟨"message", .string⟩] }]

/-- Reporting. -/
def reportingMethods : List MethodSpec :=
  [{ spec "Print" print
       "Prints a workspace variable to the report at the given verbosity level." with
     genericInputs := [.any], keywords := [⟨"level", .index⟩] }]

/-- A named set of registrations. -/
structure StandardSet where
  name : String
  description : String
  members : List Registration

/-- The set as one registration. -/
def StandardSet.registration (s : StandardSet) : Registration :=
  .ofSet s.name s.description s.members

/-- The five sets, in order of registration. -/
def sets : List StandardSet :=
  [⟨"variables", "Built-in workspace variables", vars.map .ofVariable⟩,
   ⟨"basic", "Setters, grid generators, Copy and Touch", basicMethods.map .ofMethod⟩,
   ⟨"math", "Scalar and vector arithmetic", mathMethods.map .ofMethod⟩,
   ⟨"control", "Agenda handling and flow control", controlMethods.map .ofMethod⟩,
   ⟨"io", "Reporting of workspace values", reportingMethods.map .ofMethod⟩]

/-- All sets as registrations. -/
def registrations : List Registration :=
  sets.map StandardSet.registration

/-- What building a library from the standard sets alone comes to. -/
def library? : Except LibraryFault Library :=
  Builder.library registrations

/-- The standard library. What it consists of is known from `library?_eq`; it is not to be built
again in the middle of a proof. -/
@[irreducible] def library : Library :=
  library?.toOption.getD ⟨⟨[], .empty, [], .empty⟩, [], rfl⟩

theorem library?_eq : library? = .ok library := by
  have : library?.toOption.isSome = true := by decide +kernel
  unfold library
  cases h : library? with
  | ok l => rfl
  | error e => rw [h] at this; cases this

end Runbook.Standard
