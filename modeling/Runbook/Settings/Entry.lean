import Runbook.Text.Hexadecimal

/-!
# Entries of config files

A config file is a list of entries, each a key with a string, an integer or a truth value, on a line
of its own, in TOML. The rest of TOML's grammar is left out: no setting has another form, so it is
refused like any other fault.

Readers take the characters ahead and answer with the rest. A place in the text is given by the
number of characters from there to its end.
-/

namespace Runbook

/-- A part of a text, by the number of characters from where it starts and from where it stops to
the end of the text. -/
structure Stretch where
  ahead : Nat
  past : Nat
  deriving Repr, DecidableEq

/-- The part between two rests of a text. -/
def Stretch.between (cs rest : List Char) : Stretch := ⟨cs.length, rest.length⟩

/-- The four forms of strings: one quote or three on either side, escapes or not. -/
structure StringForm where
  long : Bool
  escapes : Bool
  deriving Repr, DecidableEq

/-- What an entry sets its key to. -/
inductive EntryValue where
  | text (s : String)
  | integer (i : Int)
  | truth (b : Bool)
  deriving Repr, DecidableEq

/-- Why a config file does not set anything. -/
inductive ConfigFault where
  /-- A control character in a string. -/
  | badCharacter (form : StringForm)
  | unclosed (form : StringForm)
  | badEscape
  | badComment
  | noKey
  | noEquals
  /-- A value that is no string, integer or truth value. -/
  | badValue
  /-- Something after the value. -/
  | noLineEnd
  | repeatedKey
  | unknownKey (name : String)
  /-- A text where a number is wanted, or the other way round. -/
  | wrongType (found : EntryValue) (wanted : String)
  | negative (i : Int)
  deriving Repr, DecidableEq

/-- A fault and the part of the text that it is about. -/
structure ConfigError where
  fault : ConfigFault
  place : Stretch
  deriving Repr, DecidableEq

/-- A fault at the rest `cs` of a text, about its first `width` characters. -/
def ConfigError.at (fault : ConfigFault) (cs : List Char) (width : Nat) : ConfigError :=
  ⟨fault, .between cs (cs.drop width)⟩

/-- What has been read and the rest, or what is wrong. -/
abbrev Reading (α : Type) := Except ConfigError (α × List Char)

/-- A key with its value, and where they stand. -/
structure Entry where
  key : String
  keyPlace : Stretch
  value : EntryValue
  valuePlace : Stretch
  deriving Repr, DecidableEq

namespace Entry

/-! ## Blanks and comments -/

/-- Space and tab. -/
def isGap (c : Char) : Bool := c == ' ' || c == '\t'

/-- Control characters other than the tab; they may stand nowhere. -/
def isForbidden (c : Char) : Bool :=
  c != '\t' && (c.toNat < 0x20 || c.toNat == 0x7f)

/-- Passes the end of a line, which may hold a comment; `comment` says that one has begun. -/
def endLine (comment : Bool) : List Char → Except ConfigError (List Char)
  | [] => .ok []
  | '\n' :: cs => .ok cs
  | '\r' :: '\n' :: cs => .ok cs
  | c :: cs =>
    if comment then
      if isForbidden c then .error (.at .badComment (c :: cs) 1) else endLine true cs
    else if c = '#' then endLine true cs
    else if isGap c then endLine false cs
    else .error (.at .noLineEnd (c :: cs) 1)

/-- Passes gaps, empty lines and lines that hold a comment only. -/
def skipLines (comment : Bool) : List Char → Except ConfigError (List Char)
  | [] => .ok []
  | '\n' :: cs => skipLines false cs
  | '\r' :: '\n' :: cs => skipLines false cs
  | c :: cs =>
    if comment then
      if isForbidden c then .error (.at .badComment (c :: cs) 1) else skipLines true cs
    else if c = '#' then skipLines true cs
    else if isGap c then skipLines false cs
    else .ok (c :: cs)

/-! ## Strings -/

/-- Where a string in double quotes has got to. -/
inductive Quoting where
  | plain
  /-- After a backslash. -/
  | escape
  /-- Inside an escape by code point, with digits still to come. -/
  | codePoint (digits value : Nat)
  /-- Between a backslash at the end of a line and the line feed. -/
  | beforeBreak
  /-- After that line feed, before the next character that is no blank. -/
  | afterBreak
  deriving DecidableEq

/-- The character that a letter after the backslash stands for. -/
def escaped? : Char → Option Char
  | 'b' => some '\x08'
  | 't' => some '\t'
  | 'n' => some '\n'
  | 'f' => some '\x0c'
  | 'r' => some '\r'
  | 'e' => some '\x1b'
  | '"' => some '"'
  | '\\' => some '\\'
  | _ => none

/-- How many digits follow a letter that begins an escape by code point. -/
def codePointDigits? : Char → Option Nat
  | 'x' => some 2
  | 'u' => some 4
  | 'U' => some 8
  | _ => none

/-- A character before those that a reader has read. -/
def also (c : Char) (r : Reading (List Char)) : Reading (List Char) :=
  r.map fun (s, rest) => (c :: s, rest)

/-- What is wrong where a string of one line or of several holds a character that it may not hold:
a line feed leaves it unclosed, and control characters are faulted as far as they reach. -/
def badCharacter (form : StringForm) (cs : List Char) : ConfigError :=
  if cs.head? = some '\n' then .at (.unclosed form) cs 0
  else .at (.badCharacter form) cs (cs.takeWhile fun c => isForbidden c && c != '\n').length

/-- Reads a string in double quotes after the opening ones; `long` says that there are three, so
that it may run over lines. A line break inside is kept as it is written. -/
def readQuoted (long : Bool) (state : Quoting) : List Char → Reading (List Char)
  | [] => .error (.at (.unclosed ⟨long, true⟩) [] 0)
  | c :: cs =>
    let state :=
      if state = .afterBreak && !(isGap c || c == '\n' || c == '\r') then .plain else state
    match state with
    | .plain =>
      if c = '"' then
        if !long then .ok ([], cs)
        else
          match cs with
          | '"' :: '"' :: '"' :: '"' :: rest => .ok (['"', '"'], rest)
          | '"' :: '"' :: '"' :: rest => .ok (['"'], rest)
          | '"' :: '"' :: rest => .ok ([], rest)
          | cs => also '"' (readQuoted long .plain cs)
      else if c = '\\' then readQuoted long .escape cs
      else if long && (c == '\n' || (c == '\r' && cs.head? == some '\n')) then
        also c (readQuoted long .plain cs)
      else if isForbidden c then .error (badCharacter ⟨long, true⟩ (c :: cs))
      else also c (readQuoted long .plain cs)
    | .escape =>
      match escaped? c, codePointDigits? c with
      | some d, _ => also d (readQuoted long .plain cs)
      | none, some n => readQuoted long (.codePoint n 0) cs
      | none, none =>
        if !long then .error (.at .badEscape (c :: cs) 1)
        else if isGap c then readQuoted long .beforeBreak cs
        else if c = '\n' then readQuoted long .afterBreak cs
        else if c = '\r' && cs.head? == some '\n' then readQuoted long .beforeBreak cs
        else .error (.at .badEscape (c :: cs) 1)
    | .codePoint n value =>
      match Text.hexDigit? c with
      | none => .error (.at .badEscape (c :: cs) 1)
      | some d =>
        let value := 16 * value + d
        if 1 < n then readQuoted long (.codePoint (n - 1) value) cs
        else if value.isValidChar then also (Char.ofNat value) (readQuoted long .plain cs)
        else .error (.at .badEscape (c :: cs) 1)
    | .beforeBreak =>
      if isGap c then readQuoted long .beforeBreak cs
      else if c = '\n' then readQuoted long .afterBreak cs
      else if c = '\r' && cs.head? == some '\n' then readQuoted long .beforeBreak cs
      else .error (.at .badEscape (c :: cs) 1)
    | .afterBreak =>
      if c = '\r' && cs.head? != some '\n' then .error (badCharacter ⟨long, true⟩ (c :: cs))
      else readQuoted long .afterBreak cs

/-- Reads a string in single quotes after the opening ones. Nothing is escaped in it. -/
def readLiteral (long : Bool) : List Char → Reading (List Char)
  | [] => .error (.at (.unclosed ⟨long, false⟩) [] 0)
  | c :: cs =>
    if c = '\'' then
      if !long then .ok ([], cs)
      else
        match cs with
        | '\'' :: '\'' :: '\'' :: '\'' :: rest => .ok (['\'', '\''], rest)
        | '\'' :: '\'' :: '\'' :: rest => .ok (['\''], rest)
        | '\'' :: '\'' :: rest => .ok ([], rest)
        | cs => also '\'' (readLiteral long cs)
    else if long && (c == '\n' || (c == '\r' && cs.head? == some '\n')) then
      also c (readLiteral long cs)
    else if isForbidden c then .error (badCharacter ⟨long, false⟩ (c :: cs))
    else also c (readLiteral long cs)

/-- A line break right after the opening of a long string does not count. -/
def skipFirstBreak : List Char → List Char
  | '\n' :: cs => cs
  | '\r' :: '\n' :: cs => cs
  | cs => cs

/-- Reads a string of any of the four forms, if one begins here. -/
def readString? : List Char → Option (Reading (List Char))
  | '"' :: '"' :: '"' :: cs => some (readQuoted true .plain (skipFirstBreak cs))
  | '"' :: cs => some (readQuoted false .plain cs)
  | '\'' :: '\'' :: '\'' :: cs => some (readLiteral true (skipFirstBreak cs))
  | '\'' :: cs => some (readLiteral false cs)
  | _ => none

/-! ## Integers -/

/-- The number that digits of a base spell. Single underscores may stand between digits;
`afterDigit` says that one may come now. -/
def digitsValue? (base : Nat) (afterDigit : Bool) (value : Nat) : List Char → Option Nat
  | [] => if afterDigit then some value else none
  | '_' :: cs => if afterDigit then digitsValue? base false value cs else none
  | c :: cs =>
    match Text.hexDigit? c with
    | some d => if d < base then digitsValue? base true (base * value + d) cs else none
    | none => none

/-- A number without sign in base ten; it has no zeros in front. -/
def decimal? : List Char → Option Nat
  | ['0'] => some 0
  | '0' :: _ => none
  | cs => digitsValue? 10 false 0 cs

/-- An integer; one in another base than ten has no sign. -/
def integer? : List Char → Option Int
  | '0' :: 'x' :: cs => (digitsValue? 16 false 0 cs).map Int.ofNat
  | '0' :: 'o' :: cs => (digitsValue? 8 false 0 cs).map Int.ofNat
  | '0' :: 'b' :: cs => (digitsValue? 2 false 0 cs).map Int.ofNat
  | '+' :: cs => (decimal? cs).map Int.ofNat
  | '-' :: cs => (decimal? cs).map fun n => -Int.ofNat n
  | cs => (decimal? cs).map Int.ofNat

/-- The integers that have a place in a machine word, with or without sign. -/
def inWord (i : Int) : Bool :=
  Int64.minValue.toInt ≤ i && i < UInt64.size

/-! ## Keys and values -/

/-- Whether `c` may be part of a number or of a bare key. -/
def isWordChar (c : Char) : Bool :=
  c.isAlphanum || c == '_' || c == '-' || c == '+' || c == '.' || c == ':'

/-- Reads a key. -/
def readKey (cs : List Char) : Reading String :=
  match cs with
  | '"' :: rest => (readQuoted false .plain rest).map fun (s, rest) => (String.ofList s, rest)
  | '\'' :: rest => (readLiteral false rest).map fun (s, rest) => (String.ofList s, rest)
  | cs =>
    let key := cs.takeWhile isWordChar
    if key.isEmpty then .error (.at .noKey cs 1) else .ok (String.ofList key, cs.drop key.length)

/-- Reads a value. -/
def readValue (cs : List Char) : Reading EntryValue :=
  match readString? cs with
  | some reading => reading.map fun (s, rest) => (.text (String.ofList s), rest)
  | none =>
    let word := cs.takeWhile isWordChar
    let rest := cs.drop word.length
    if word = "true".toList then .ok (.truth true, rest)
    else if word = "false".toList then .ok (.truth false, rest)
    else
      match integer? word with
      | some i => if inWord i then .ok (.integer i, rest) else .error (.at .badValue cs word.length)
      | none => .error (.at .badValue cs word.length)

/-- Reads a key, the sign of equality and a value. -/
def read (cs : List Char) : Except ConfigError (Entry × List Char) := do
  let (key, afterKey) ← readKey cs
  match afterKey.dropWhile isGap with
  | '=' :: afterSign =>
    let ahead := afterSign.dropWhile isGap
    let (value, rest) ← readValue ahead
    return (⟨key, .between cs afterKey, value, .between ahead rest⟩, rest)
  | other => .error (.at .noEquals other 1)

/-- Reads entries up to the end, after those of `before`. No key may come twice. Every entry takes
one from `fuel`; as many as there are characters are enough. -/
def readAll (before : List Entry) : Nat → List Char → Except ConfigError (List Entry)
  | fuel, cs => do
    match ← skipLines false cs with
    | [] => return before
    | cs =>
      match fuel with
      | 0 => .error (.at .noKey cs 1)
      | fuel + 1 =>
        let (entry, rest) ← read cs
        if before.any fun e => e.key == entry.key then .error ⟨.repeatedKey, entry.keyPlace⟩
        else readAll (before ++ [entry]) fuel (← endLine false rest)

end Entry
end Runbook
