import Runbook.Text.Ranges

/-!
# Blank characters and lines

Which characters separate words, what is left of a text without the blanks around it, and how a
text falls into lines.
-/

namespace Runbook.Text

/-- The code points of the Unicode property `White_Space`. -/
def blankRanges : CodeRanges :=
  [(0x09, 0x0d), (0x20, 0x20), (0x85, 0x85), (0xa0, 0xa0), (0x1680, 0x1680), (0x2000, 0x200a),
   (0x2028, 0x2029), (0x202f, 0x202f), (0x205f, 0x205f), (0x3000, 0x3000)]

/-- Whether `c` separates words. -/
def isBlank (c : Char) : Bool :=
  inRanges blankRanges c

/-- `cs` without the blanks at its end. -/
def trimEnd (cs : List Char) : List Char :=
  (cs.reverse.dropWhile isBlank).reverse

/-- `cs` without the blanks at its ends. -/
def trimBlanks (cs : List Char) : List Char :=
  trimEnd (cs.dropWhile isBlank)

/-- `s` without the blanks at its ends. -/
def trim (s : String) : String :=
  String.ofList (trimBlanks s.toList)

/-- The lines of a text. A line feed ends a line and takes one carriage return before it along; a
text that ends with a line feed has no further, empty line. -/
def lines : List Char → List (List Char)
  | [] => []
  | '\n' :: cs => [] :: lines cs
  | '\r' :: '\n' :: cs => [] :: lines cs
  | c :: cs =>
    match lines cs with
    | [] => [[c]]
    | l :: ls => (c :: l) :: ls

/-- Line number `n` of `s`, counted from 1; empty past the last line. -/
def line (s : String) (n : Nat) : String :=
  String.ofList ((lines s.toList)[n - 1]?.getD [])

/-- Each text of `ls` on a line of its own. -/
def unlines (ls : List String) : String :=
  String.join (ls.map (· ++ "\n"))

end Runbook.Text
