import Runbook.Text.Blank
import Runbook.Text.Combining
import Runbook.Text.Unassigned

/-!
# Quoted and shielded text

Two ways to put any text on a report line. A quoted text stands in double quotes, with the
characters that one could not read as themselves written as escapes. A shielded text keeps its line
breaks and only loses the characters that steer a terminal.
-/

namespace Runbook.Text

/-- The lower-case hexadecimal digits of a character's code point. -/
def hexadecimal (c : Char) : String :=
  String.ofList (Nat.toDigits 16 c.toNat)

/-- An escape by code point. -/
def codePointEscape (c : Char) : String :=
  "\\u\x7b" ++ hexadecimal c ++ "\x7d"

/-- Control characters. -/
def controlRanges : CodeRanges := [(0x00, 0x1f), (0x7f, 0x9f)]

/-- Characters without a shape of their own: the Unicode property `Default_Ignorable_Code_Point` and
the general categories of format and private use. -/
def shapelessRanges : CodeRanges :=
  [(0xad, 0xad), (0x34f, 0x34f), (0x600, 0x605), (0x61c, 0x61c), (0x6dd, 0x6dd), (0x70f, 0x70f),
   (0x890, 0x891), (0x8e2, 0x8e2), (0x115f, 0x1160), (0x17b4, 0x17b5), (0x180b, 0x180f),
   (0x200b, 0x200f), (0x202a, 0x202e), (0x2060, 0x206f), (0x3164, 0x3164), (0xe000, 0xf8ff),
   (0xfe00, 0xfe0f), (0xfeff, 0xfeff), (0xffa0, 0xffa0), (0xfff0, 0xfffb), (0x110bd, 0x110bd),
   (0x110cd, 0x110cd), (0x13430, 0x1343f), (0x1bca0, 0x1bca3), (0x1d173, 0x1d17a),
   (0xe0000, 0xe0fff), (0xf0000, 0xffffd), (0x100000, 0x10fffd)]

/-- Whether `c` can be read as itself. Of the blanks only the space can. -/
def isPrintable (c : Char) : Bool :=
  c == ' ' ||
    !(isBlank c || inRanges controlRanges c || inRanges shapelessRanges c ||
      inRanges combiningRanges c || inRanges unassignedRanges c)

/-- A character inside quotes. -/
def quoteChar (c : Char) : String :=
  match c with
  | '"' => "\\\""
  | '\\' => "\\\\"
  | '\n' => "\\n"
  | '\r' => "\\r"
  | '\t' => "\\t"
  | '\x00' => "\\0"
  | c => if isPrintable c then c.toString else codePointEscape c

/-- `s` in double quotes. -/
def quote (s : String) : String :=
  "\"" ++ String.join (s.toList.map quoteChar) ++ "\""

/-- A character of a shielded text. -/
def shieldChar (c : Char) : String :=
  match c with
  | '\x1b' => "\\x1b"
  | '\x07' => "\\x07"
  | '\x08' => "\\x08"
  | '\x0c' => "\\x0c"
  | '\x7f' => "\\x7f"
  | c => if 0x80 ≤ c.toNat ∧ c.toNat ≤ 0x9f then codePointEscape c else c.toString

/-- `s` without the characters that steer a terminal. -/
def shield (s : String) : String :=
  String.join (s.toList.map shieldChar)

end Runbook.Text
