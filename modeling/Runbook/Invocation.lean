import Runbook.Report.Digits

/-!
# Invocations

The command line: control files, options with a value, and switches. An option's value follows it
or is joined to it; a word that begins with a dash is never the value of the option before it.
Options come in any order, each once, and two dashes end them. Asking for the version or for help
settles the matter at once.
-/

namespace Runbook

/-- An option with a value. -/
inductive Setting where
  | reporting
  | basename
  | describe
  | methodsOf
  | variablesOf
  | config
  deriving Repr, DecidableEq

namespace Setting

/-- The option that a letter after one dash stands for. -/
def ofLetter? : Char → Option Setting
  | 'r' => some reporting
  | 'b' => some basename
  | 'd' => some describe
  | 'm' => some methodsOf
  | 'w' => some variablesOf
  | _ => none

/-- The option that a word after two dashes stands for. -/
def ofWord? : String → Option Setting
  | "reporting" => some reporting
  | "basename" => some basename
  | "describe" => some describe
  | "methods" => some methodsOf
  | "workspacevariables" => some variablesOf
  | "config" => some config
  | _ => none

/-- Whether the value is a path, which must not be empty. -/
def isPath : Setting → Bool
  | basename | config => true
  | _ => false

end Setting

/-- What the user asks for. -/
structure Invocation where
  controlFiles : List String
  levels : Option ReportLevels
  basename : Option String
  describe : Option String
  methodsOf : Option String
  variablesOf : Option String
  config : Option String
  checkOnly : Bool
  deriving Repr, DecidableEq

/-- Why a command line makes no sense. -/
inductive UsageFault where
  | unknownOption (word : String)
  | missingValue (option : Setting)
  | unexpectedValue (word : String)
  | repeatedOption (word : String)
  | emptyPath
  | invalidLevels (e : ReportLevels.Invalid)
  | noControlFiles
  deriving Repr, DecidableEq

/-- The fault in words. -/
def UsageFault.message : UsageFault → String
  | unknownOption word => s!"unexpected argument '{word}'"
  | missingValue _ => "an option needs a value"
  | unexpectedValue word => s!"unexpected value for '{word}'"
  | repeatedOption word => s!"'{word}' cannot be used multiple times"
  | emptyPath => "a path must not be empty"
  | invalidLevels e => e.message
  | noControlFiles => "no control files"

/-- What a command line comes to. -/
inductive Request where
  | work (i : Invocation)
  | version
  | help
  deriving Repr, DecidableEq

namespace Invocation

/-- Nothing is asked for. -/
def empty : Invocation := ⟨[], none, none, none, none, none, none, false⟩

/-- Adds a control file. -/
def addFile (i : Invocation) (path : String) : Except UsageFault Invocation :=
  if path.isEmpty then .error .emptyPath
  else .ok { i with controlFiles := i.controlFiles ++ [path] }

/-- Adds several control files. -/
def addFiles (i : Invocation) : List String → Except UsageFault Invocation
  | [] => .ok i
  | path :: paths => do
    let i ← i.addFile path
    i.addFiles paths

/-- The value of an option so far. -/
def isSet (i : Invocation) : Setting → Bool
  | .reporting => i.levels.isSome
  | .basename => i.basename.isSome
  | .describe => i.describe.isSome
  | .methodsOf => i.methodsOf.isSome
  | .variablesOf => i.variablesOf.isSome
  | .config => i.config.isSome

/-- Gives an option its value, which it must not have yet. -/
def give (i : Invocation) (s : Setting) (value : String) : Except UsageFault Invocation :=
  if i.isSet s then .error (.repeatedOption value)
  else if s.isPath && value.isEmpty then .error .emptyPath
  else
    match s with
    | .reporting =>
      match ReportLevels.parse value with
      | .ok levels => .ok { i with levels := some levels }
      | .error e => .error (.invalidLevels e)
    | .basename => .ok { i with basename := some value }
    | .describe => .ok { i with describe := some value }
    | .methodsOf => .ok { i with methodsOf := some value }
    | .variablesOf => .ok { i with variablesOf := some value }
    | .config => .ok { i with config := some value }

/-- What a single word does to an invocation. -/
inductive Effect where
  | done (i : Invocation)
  /-- The next word is the value of an option. -/
  | awaits (i : Invocation) (s : Setting)
  | settled (r : Request)

/-- A word with two dashes: a name, and possibly a value after an equals sign. -/
def longOption (i : Invocation) (word : List Char) : Except UsageFault Effect :=
  let name := String.ofList (word.takeWhile (· != '='))
  let value := (word.dropWhile (· != '=')).tail?.map String.ofList
  match Setting.ofWord? name, value with
  | some s, some value => .done <$> i.give s value
  | some s, none => .ok (.awaits i s)
  | none, some _ =>
    if ["check", "version", "help"].contains name then .error (.unexpectedValue name)
    else .error (.unknownOption name)
  | none, none =>
    match name with
    | "check" =>
      if i.checkOnly then .error (.repeatedOption name)
      else .ok (.done { i with checkOnly := true })
    | "version" => .ok (.settled .version)
    | "help" => .ok (.settled .help)
    | _ => .error (.unknownOption name)

/-- A word with one dash: the first letter decides, and what follows it is its value, with or
without an equals sign between. -/
def shortOption (i : Invocation) : List Char → Except UsageFault Effect
  | [] => .error (.unknownOption "-")
  | c :: rest =>
    match Setting.ofLetter? c, rest with
    | some s, [] => .ok (.awaits i s)
    | some s, '=' :: value => .done <$> i.give s (String.ofList value)
    | some s, value => .done <$> i.give s (String.ofList value)
    | none, _ =>
      match c with
      | 'V' => .ok (.settled .version)
      | 'h' => .ok (.settled .help)
      | _ => .error (.unknownOption (String.ofList ['-', c]))

/-- Whether there is something to do: a listing to print or a control file to run. -/
def complete (i : Invocation) : Except UsageFault Request :=
  if i.controlFiles.isEmpty && i.describe.isNone && i.methodsOf.isNone && i.variablesOf.isNone then
    .error .noControlFiles
  else .ok (.work i)

/-- Reads the words ahead; `pending` is the option that still needs a value. -/
def readWords (i : Invocation) (pending : Option Setting) :
    List String → Except UsageFault Request
  | [] =>
    match pending with
    | some s => .error (.missingValue s)
    | none => i.complete
  | word :: words => do
    match word.toList, pending with
    | ['-', '-'], none =>
      let i ← i.addFiles words
      i.complete
    | '-' :: _ :: _, some s => .error (.missingValue s)
    | '-' :: c :: rest, none =>
      let effect ← if c = '-' then i.longOption rest else i.shortOption (c :: rest)
      match effect with
      | .done i => i.readWords none words
      | .awaits i s => i.readWords (some s) words
      | .settled r => .ok r
    | _, some s =>
      let i ← i.give s word
      i.readWords none words
    | _, none =>
      let i ← i.addFile word
      i.readWords none words

/-- What the words of a command line ask for. -/
def parse (words : List String) : Except UsageFault Request :=
  empty.readWords none words

end Invocation
end Runbook
