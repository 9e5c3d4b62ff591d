/-!
# File names

The path of a file without its extension. The extension is what follows the last dot of the file
name; a name has none if its only dot comes first. Slashes behind the name are dropped with the
extension, as are the segments that only say "here".
-/

namespace Runbook.Path

/-- The reverse of a path, without the slashes and "here" segments at the path's end. -/
def dropTail : List Char → List Char
  | '/' :: r => dropTail r
  | '.' :: '/' :: r => dropTail r
  | r => r

/-- What stands before the file name, and the file name; none if the path names no file. -/
def splitName? (path : List Char) : Option (List Char × List Char) :=
  let r := dropTail path.reverse
  let name := (r.takeWhile (· != '/')).reverse
  if name = [] ∨ name = ['.'] ∨ name = ['.', '.'] then none
  else some ((r.drop name.length).reverse, name)

/-- A file name's stem, and what follows its last dot. -/
def splitExtension (name : List Char) : List Char × Option (List Char) :=
  let extension := (name.reverse.takeWhile (· != '.')).reverse
  let stem := name.take (name.length - (extension.length + 1))
  if stem = [] then (name, none) else (stem, some extension)

/-- A path up to the stem of its file name. -/
def upToStem (path : List Char) : List Char :=
  match splitName? path with
  | none => path
  | some (before, name) => before ++ (splitExtension name).1

/-- As many characters as the extension has are dropped at the end, then the dot and all behind the
stem. -/
def dropExtension (path : List Char) : List Char :=
  match splitName? path with
  | none => path
  | some (_, name) =>
    let dropped := ((splitExtension name).2.map List.length).getD 0
    upToStem (path.take (path.length - dropped))

/-- The path without its extension. -/
def withoutExtension (path : String) : String :=
  String.ofList (dropExtension path.toList)

end Runbook.Path
