import Runbook.Run.Execution

/-!
# Building libraries

A library is put together from variables, methods and named sets of both. A method declares its
fixed slots by name; the names are looked up when everything has been registered, so the order of
registration does not matter to them.

A set stops at its first fault, and what it registered before stays.
-/

namespace Runbook

/-- Why a registration or the whole library is refused. -/
inductive LibraryFault where
  | abstractVariable (name : String)
  | variableTaken (name : String)
  | methodTaken (name : String)
  | pipelineKeyword (method keyword : String)
  | unknownVariable (method name : String)
  | inSet (set : String) (fault : LibraryFault)
  deriving Repr, DecidableEq

/-- The fault in words. -/
def LibraryFault.message : LibraryFault → String
  | abstractVariable name => s!"Variable '{name}' must have a concrete group, not Any"
  | variableTaken name => s!"Variable '{name}' is already registered"
  | methodTaken name => s!"Method '{name}' is already registered"
  | pipelineKeyword method keyword =>
    s!"Method '{method}': keyword '{keyword}' cannot be a Pipeline, embed the pipeline instead"
  | unknownVariable method name => s!"Method '{method}' refers to unknown variable '{name}'"
  | inSet set fault => s!"Failed to register method set '{set}': {fault.message}"

/-- A method with its implementation. Its fixed slots are names. -/
structure MethodSpec where
  name : String
  description : String
  outputs : List String
  inputs : List String
  genericOutputs : List Group
  genericInputs : List Group
  keywords : List Keyword
  embeds : Bool
  native : Native

/-- What can be registered. -/
inductive Registration where
  | ofVariable (v : Variable)
  | ofMethod (m : MethodSpec)
  | ofSet (name description : String) (members : List Registration)

/-- What has been registered, in order, and what the names stand for. -/
structure Builder where
  vars : List Variable
  variableIndex : NameIndex VariableId
  methods : List MethodSpec
  methodIndex : NameIndex MethodId

namespace Builder

/-- Nothing has been registered. -/
def empty : Builder := ⟨[], .empty, [], .empty⟩

/-- The variable called `name`. -/
def findVariable? (b : Builder) (name : String) : Option VariableId :=
  b.variableIndex.find? name

/-- The method called `name`. -/
def findMethod? (b : Builder) (name : String) : Option MethodId :=
  b.methodIndex.find? name

/-- Registers a variable: of a concrete group, under a new name. -/
def addVariable (b : Builder) (v : Variable) : Except LibraryFault (VariableId × Builder) :=
  if v.group = .any then .error (.abstractVariable v.name)
  else if b.variableIndex.contains v.name then .error (.variableTaken v.name)
  else
    let id : VariableId := ⟨b.vars.length⟩
    .ok (id, { b with
      vars := b.vars ++ [v]
      variableIndex := b.variableIndex.insert v.name id })

/-- Registers a method: under a new name, with no keyword that holds a pipeline. -/
def addMethod (b : Builder) (m : MethodSpec) : Except LibraryFault (MethodId × Builder) :=
  if b.methodIndex.contains m.name then .error (.methodTaken m.name)
  else
    match m.keywords.find? fun k => k.group = .pipeline with
    | some k => .error (.pipelineKeyword m.name k.name)
    | none =>
      let id : MethodId := ⟨b.methods.length⟩
      .ok (id, { b with
        methods := b.methods ++ [m]
        methodIndex := b.methodIndex.insert m.name id })

mutual

/-- Registers `r`. What a faulty set registered before its fault stays. -/
def register (b : Builder) : Registration → Except LibraryFault Unit × Builder
  | .ofVariable v =>
    match b.addVariable v with
    | .ok (_, b) => (.ok (), b)
    | .error e => (.error e, b)
  | .ofMethod m =>
    match b.addMethod m with
    | .ok (_, b) => (.ok (), b)
    | .error e => (.error e, b)
  | .ofSet name _ members =>
    match b.registerAll members with
    | (.ok (), b) => (.ok (), b)
    | (.error e, b) => (.error (.inSet name e), b)

/-- Registers each in turn, up to the first fault. -/
def registerAll (b : Builder) : List Registration → Except LibraryFault Unit × Builder
  | [] => (.ok (), b)
  | r :: rs =>
    match b.register r with
    | (.ok (), b) => b.registerAll rs
    | (.error e, b) => (.error e, b)

end

/-- The variables called so, for the fixed slots of the method `method`. -/
def resolve (b : Builder) (method : String) :
    List String → Except LibraryFault (List VariableId)
  | [] => .ok []
  | name :: names =>
    match b.findVariable? name with
    | some v => (v :: ·) <$> b.resolve method names
    | none => .error (.unknownVariable method name)

/-- The declaration of a method, its outputs looked up before its inputs. -/
def declare (b : Builder) (m : MethodSpec) : Except LibraryFault Method := do
  let outputs ← b.resolve m.name m.outputs
  let inputs ← b.resolve m.name m.inputs
  return ⟨m.name, m.description, outputs, inputs, m.genericOutputs, m.genericInputs, m.keywords,
    m.embeds⟩

/-- The declarations of several methods, up to the first fault. -/
def declareAll (b : Builder) : List MethodSpec → Except LibraryFault (List Method)
  | [] => .ok []
  | m :: ms => do
    let declared ← b.declare m
    let rest ← b.declareAll ms
    return declared :: rest

theorem length_declareAll {b : Builder} {ms : List MethodSpec} {ds : List Method}
    (h : b.declareAll ms = .ok ds) : ds.length = ms.length := by
  induction ms generalizing ds with
  | nil => cases h; rfl
  | cons m ms ih =>
    rw [declareAll] at h
    cases hd : b.declare m with
    | error e => rw [hd] at h; cases h
    | ok d =>
      cases hr : b.declareAll ms with
      | error e => rw [hd, hr] at h; cases h
      | ok rest => rw [hd, hr] at h; cases h; simp [ih hr]

/-- The library of everything registered, if every fixed slot names a registered variable. -/
def build (b : Builder) : Except LibraryFault Library :=
  match h : b.declareAll b.methods with
  | .error e => .error e
  | .ok methods =>
    .ok ⟨⟨b.vars, b.variableIndex, methods, b.methodIndex⟩, b.methods.map MethodSpec.native,
      by rw [List.length_map, length_declareAll h]⟩

/-- Registers everything and builds. -/
def library (rs : List Registration) : Except LibraryFault Library :=
  match empty.registerAll rs with
  | (.ok (), b) => b.build
  | (.error e, _) => .error e

end Builder
end Runbook
