import Runbook.ControlFile.Literal
import Runbook.ControlFile.Error
import Runbook.Pipeline

/-!
# Binding

A control file as a pipeline over a catalog. Names are looked up, every generic variable and every
literal is checked against the group of its slot, and the first fault ends the work; so a bound
pipeline needs no further check before it runs.

```text
pipeline := task*
task     := NAME [ '(' NAME (',' NAME)* ')' ] '{' keyword* task* '}'
keyword  := [ NAME '=' ] literal
literal  := STRING | INTEGER | NUMBER | '[' [ literal (',' literal)* ] ']'
```

Each reader takes the tokens ahead and answers with the rest. A fault at the end of the input is
placed at `last`, where the last token of the whole file begins.
-/

namespace Runbook.ControlFile

/-- A fault at a place, in a file not yet known. -/
def fail {α : Type} (fault : BindFault) (position : Option Position) : Except BindError α :=
  .error ⟨fault, position, none⟩

/-- Where the next token begins; at the end, where the last one began. -/
def placeOf (last : Option Position) : List Placed → Option Position
  | t :: _ => some t.position
  | [] => last

/-- Passes the mark `m`. -/
def readMark (last : Option Position) (m : Mark) : List Placed → Except BindError (List Placed)
  | [] => fail (.endOfInput (.mark m)) last
  | ⟨.mark m', p⟩ :: ts =>
    if m' = m then .ok ts else fail (.unexpected (.mark m) m'.text) (some p)
  | ⟨t, p⟩ :: _ => fail (.unexpected (.mark m) t.text) (some p)

/-- Reads the name of a method. -/
def readMethodName (last : Option Position) :
    List Placed → Except BindError ((String × Position) × List Placed)
  | [] => fail (.endOfInput .methodName) last
  | ⟨.name s, p⟩ :: ts => .ok ((s, p), ts)
  | ⟨t, p⟩ :: _ => fail (.unexpected .methodName t.text) (some p)

/-! ## Literals -/

mutual

/-- Reads a literal. `opened` holds the items read so far of each list that is still open, the
innermost list and the latest item first; a list may close at once while it has no items. -/
def readValue (last : Option Position) (opened : List (List Literal)) :
    List Placed → Except BindError (Literal × List Placed)
  | [] => fail (.endOfInput .value) last
  | ⟨t, p⟩ :: ts =>
    match t, opened with
    | .integer i, _ => afterValue last opened (.integer i) ts
    | .number x, _ => afterValue last opened (.number x) ts
    | .string s, _ => afterValue last opened (.string s) ts
    | .mark .leftBracket, _ => readValue last ([] :: opened) ts
    | .mark .rightBracket, [] :: outer => afterValue last outer (.list []) ts
    | t, _ => fail (.unexpected .value t.text) (some p)

/-- Goes on after the literal `l`: with the list it is an item of, or not at all. -/
def afterValue (last : Option Position) (opened : List (List Literal)) (l : Literal)
    (tokens : List Placed) : Except BindError (Literal × List Placed) :=
  match opened with
  | [] => .ok (l, tokens)
  | items :: outer =>
    match tokens with
    | [] => fail (.endOfInput (.mark .rightBracket)) last
    | ⟨.mark .comma, _⟩ :: ts => readValue last ((l :: items) :: outer) ts
    | ⟨.mark .rightBracket, _⟩ :: ts => afterValue last outer (.list (l :: items).reverse) ts
    | ⟨t, p⟩ :: _ => fail (.unexpected (.commaOr .rightBracket) t.text) (some p)

end

/-- Reads a literal that is no item of a list. -/
def readLiteral (last : Option Position) (tokens : List Placed) :
    Except BindError (Literal × List Placed) :=
  readValue last [] tokens

/-! ## Generic variables -/

/-- Reads names up to the closing parenthesis. -/
def readNames (last : Option Position) :
    List Placed → Except BindError (List (String × Position) × List Placed)
  | [] => fail (.endOfInput .variableName) last
  | ⟨.name _, _⟩ :: [] => fail (.endOfInput (.mark .rightParen)) last
  | ⟨.name s, p⟩ :: ⟨.mark .comma, _⟩ :: ts => do
    let (names, rest) ← readNames last ts
    .ok ((s, p) :: names, rest)
  | ⟨.name s, p⟩ :: ⟨.mark .rightParen, _⟩ :: ts => .ok ([(s, p)], ts)
  | ⟨.name _, _⟩ :: ⟨t, q⟩ :: _ => fail (.unexpected (.commaOr .rightParen) t.text) (some q)
  | ⟨t, p⟩ :: _ => fail (.unexpected .variableName t.text) (some p)

/-- The variables called so, each checked against the group of its slot. -/
def resolveNames (c : Catalog) (m : Method) :
    List (String × Position) → List Group → Except BindError (List VariableId)
  | (name, p) :: names, wanted :: groups =>
    match c.findVariable? name with
    | none => fail (.unknownVariable name) (some p)
    | some v =>
      let group := (c.variableAt v).group
      if wanted.accepts group then (v :: ·) <$> resolveNames c m names groups
      else fail (.variableGroup name group m.name wanted) (some p)
  | _, _ => .ok []

/-- Reads the variables for the generic slots of `m`. They are counted before they are looked up. -/
def readGenerics (c : Catalog) (last : Option Position) (m : Method) (tokens : List Placed) :
    Except BindError (List VariableId × List Placed) := do
  let (names, rest) ←
    match tokens with
    | ⟨.mark .leftParen, _⟩ :: ts => readNames last ts
    | ts => .ok ([], ts)
  if names.length ≠ m.generics.length then
    fail (.genericCount m.name m.generics.length names.length) (placeOf last tokens)
  else
    let ids ← resolveNames c m names m.generics
    .ok (ids, rest)

/-! ## Keywords -/

/-- Whether a literal may begin with the token. -/
def startsLiteral : Token → Bool
  | .integer _ | .number _ | .string _ | .mark .leftBracket => true
  | _ => false

/-- Passes the name of keyword `k` and the sign after it. The name may be left out where the method
has one keyword only. -/
def readKeywordName (last : Option Position) (m : Method) (k : Keyword) :
    List Placed → Except BindError (List Placed)
  | [] => fail (.endOfInput (.keyword k.name)) last
  | ⟨.name given, p⟩ :: ⟨.mark .equals, _⟩ :: ts =>
    if given = k.name then .ok ts
    else if (m.findKeyword? given).isSome then fail (.keywordOrder given m.name k.name) (some p)
    else fail (.noSuchKeyword m.name given) (some p)
  | ⟨.name _, p⟩ :: _ => fail (.missingKeyword m.name k.name) (some p)
  | ⟨.mark .rightBrace, p⟩ :: _ => fail (.missingKeyword m.name k.name) (some p)
  | ⟨t, p⟩ :: ts =>
    if m.keywords.length = 1 ∧ startsLiteral t then .ok (⟨t, p⟩ :: ts)
    else fail (.unexpected (.keyword k.name) t.text) (some p)

/-- Reads a value for each of the keywords of `m` from here on. -/
def readKeywords (last : Option Position) (m : Method) :
    List Keyword → List Placed → Except BindError (List Value × List Placed)
  | [], ts => .ok ([], ts)
  | k :: ks, ts => do
    let start ← readKeywordName last m k ts
    let (l, rest) ← readLiteral last start
    match l.coerce? k.group with
    | none => fail (.literalGroup k.name m.name k.group l.kindText) (placeOf last start)
    | some v =>
      let (vs, rest) ← readKeywords last m ks rest
      .ok (v :: vs, rest)

/-! ## Tasks -/

mutual

/-- Reads a task. Every call takes one from `fuel`; as many as there are tokens are enough. -/
def readTask (c : Catalog) (last : Option Position) :
    Nat → List Placed → Except BindError (Task × List Placed)
  | 0, ts => fail (.endOfInput .methodName) (placeOf last ts)
  | fuel + 1, ts => do
    let ((name, p), ts) ← readMethodName last ts
    match c.findMethod? name with
    | none => fail (.unknownMethod name) (some p)
    | some id =>
      let m := c.methodAt id
      let (generics, ts) ← readGenerics c last m ts
      let ts ← readMark last .leftBrace ts
      let (keywords, ts) ← readKeywords last m m.keywords ts
      let (body, ts) ← readBody c last m fuel ts
      let ts ← readMark last .rightBrace ts
      let outputs := m.genericOutputs.length
      .ok (⟨id, keywords, generics.take outputs, generics.drop outputs,
        if m.embeds then some ⟨m.name, body⟩ else none⟩, ts)

/-- Reads the tasks in the body of an invocation of `m`, up to what is no task. -/
def readBody (c : Catalog) (last : Option Position) (m : Method) :
    Nat → List Placed → Except BindError (List Task × List Placed)
  | fuel, ⟨.name s, p⟩ :: ts =>
    if m.embeds then
      match fuel with
      | 0 => fail (.endOfInput (.mark .rightBrace)) (some p)
      | fuel + 1 => do
        let (t, rest) ← readTask c last fuel (⟨.name s, p⟩ :: ts)
        let (body, rest) ← readBody c last m fuel rest
        .ok (t :: body, rest)
    else
      match ts with
      | ⟨.mark .equals, _⟩ :: _ => fail (.surplusKeyword m.name) (some p)
      | _ => fail (.embedsNothing m.name) (some p)
  | _, ts => .ok ([], ts)

end

/-- Reads tasks up to the end. Every task takes one from `fuel`; as many as there are tokens are
enough. -/
def readTasks (c : Catalog) (last : Option Position) :
    Nat → List Placed → Except BindError (List Task)
  | _, [] => .ok []
  | 0, ts => fail (.endOfInput .methodName) (placeOf last ts)
  | fuel + 1, ts => do
    let (t, rest) ← readTask c last (fuel + 1) ts
    (t :: ·) <$> readTasks c last fuel rest

/-! ## Control files -/

/-- The pipeline called `name` that the tokens denote. -/
def bindTokens (c : Catalog) (name : String) (ts : List Placed) : Except BindError Pipeline :=
  (Pipeline.mk name) <$> readTasks c (ts.getLast?.map Placed.position) ts.length ts

/-- The pipeline called `name` that a text denotes. -/
def bindText (c : Catalog) (name source : String) : Except BindError Pipeline :=
  match scan source with
  | .error e => fail (.scan e) (some e.position)
  | .ok ts => bindTokens c name ts

/-- What could be read of a file: its text, or why there is none. -/
abbrev Contents := Except String String

/-- The pipeline that a file denotes, called like the file. -/
def bindFile (c : Catalog) (file : String) (contents : Contents) : Except BindError Pipeline :=
  match contents with
  | .error reason => .error ⟨.unreadable reason, none, some file⟩
  | .ok source => (bindText c file source).mapError fun e => { e with file := some file }

/-- The pipelines of the files before the first faulty one, and the fault in that. -/
def bindEach (c : Catalog) : List (String × Contents) → List Pipeline × Option BindError
  | [] => ([], none)
  | (file, contents) :: files =>
    match bindFile c file contents with
    | .error e => ([], some e)
    | .ok p => (p :: (bindEach c files).1, (bindEach c files).2)

/-- The name of the pipeline that several files make up. -/
def mainName : String := "main"

/-- One pipeline with the tasks of all pipelines, in order. -/
def join (parts : List Pipeline) : Pipeline :=
  ⟨mainName, parts.flatMap Pipeline.tasks⟩

/-- One pipeline from several files, in order; the first fault counts. -/
def bindFiles (c : Catalog) (files : List (String × Contents)) : Except BindError Pipeline :=
  match bindEach c files with
  | (parts, none) => .ok (join parts)
  | (_, some e) => .error e

end Runbook.ControlFile
