import Runbook.Program

/-!
# File trees

A file tree in memory, with the working directory at its top, as a host for the program. A directory
is there as long as a file is in it; the top and what lies above it are always there.

A tree is less than a file system: there are no links in it, and no absolute path leads into it.
-/

namespace Runbook

/-- Why a file cannot be read or begun. -/
inductive FileFault where
  | notFound
  | notDirectory
  | isDirectory
  /-- The path or a name in it has too many bytes. -/
  | nameTooLong
  | nulInName
  | notText
  deriving Repr, DecidableEq

/-- The fault in words. -/
def FileFault.message : FileFault → String
  | notFound => "No such file or directory (os error 2)"
  | notDirectory => "Not a directory (os error 20)"
  | isDirectory => "Is a directory (os error 21)"
  | nameTooLong => "File name too long (os error 36)"
  | nulInName => "file name contained an unexpected NUL byte"
  | notText => "stream did not contain valid UTF-8"

/-- A place in a tree: levels above the top, then names downwards. -/
structure Location where
  above : Nat
  names : List String
  deriving Repr, DecidableEq

/-- Files with their bytes, each place at most once. Links are left out: every path that a place has
leads to it by names, `.` and `..` alone. -/
structure FileTree where
  files : List (Location × ByteArray)

namespace FileTree

/-- The bytes of the file there. -/
def file? (t : FileTree) (l : Location) : Option ByteArray :=
  t.files.lookup l

/-- Whether a directory is there. -/
def isDirectory (t : FileTree) (l : Location) : Bool :=
  l.names.isEmpty || t.files.any fun f =>
    f.1.above == l.above && l.names.isPrefixOf f.1.names && f.1.names != l.names

/-- The most bytes that a path may have. -/
def longestPath : Nat := 4095

/-- The most bytes that a name in a path may have. -/
def longestName : Nat := 255

/-- Whether a segment of a path leads nowhere else by name: it is empty, or one or two points. -/
def isStep (segment : String) : Bool :=
  segment == "" || segment == "." || segment == ".."

/-- The place that the segments of a path lead to from `l`. Every segment needs a directory to
start from. -/
def walk (t : FileTree) (l : Location) : List String → Except FileFault Location
  | [] => .ok l
  | segment :: segments =>
    if (t.file? l).isSome then .error .notDirectory
    else if !t.isDirectory l then .error .notFound
    else if longestName < segment.utf8ByteSize then .error .nameTooLong
    else if segment = "" ∨ segment = "." then t.walk l segments
    else if segment = ".." then
      t.walk (if l.names.isEmpty then ⟨l.above + 1, []⟩ else ⟨l.above, l.names.dropLast⟩) segments
    else t.walk ⟨l.above, l.names ++ [segment]⟩ segments

/-- What is wrong with an absolute path. No file at one can be read or begun: the tree has no place
for what is reached from the root, and of this nothing but the root is known. -/
def absoluteFault (segments : List String) : FileFault :=
  match segments.find? fun s => !isStep s with
  | none => .isDirectory
  | some name => if longestName < name.utf8ByteSize then .nameTooLong else .notFound

/-- The segments of a path, which slashes part. -/
def segments (path : String) : List String :=
  (path.toList.splitOn '/').map String.ofList

/-- The place of a path. -/
def locate (t : FileTree) (path : String) : Except FileFault Location :=
  if path.toList.contains '\x00' then .error .nulInName
  else if longestPath < path.utf8ByteSize then .error .nameTooLong
  else if path.isEmpty then .error .notFound
  else if path.toList.head? = some '/' then .error (absoluteFault (segments path))
  else t.walk ⟨0, []⟩ (segments path)

/-- The bytes of the file at a path. -/
def bytes (t : FileTree) (path : String) : Except FileFault ByteArray := do
  let l ← t.locate path
  match t.file? l with
  | some bytes => .ok bytes
  | none => .error (if t.isDirectory l then .isDirectory else .notFound)

/-- The text of the file at a path. -/
def text (t : FileTree) (path : String) : Except FileFault String := do
  match String.fromUTF8? (← t.bytes path) with
  | some s => .ok s
  | none => .error .notText

/-- The text, or the reason in words. -/
def contents (t : FileTree) (path : String) : Except String String :=
  (t.text path).mapError FileFault.message

/-- The tree with other bytes at `l`. -/
def replace (t : FileTree) (l : Location) (bytes : ByteArray) : FileTree :=
  ⟨(l, bytes) :: t.files.filter fun f => f.1 != l⟩

/-- Begins the file at a path anew. Its directory must be there. -/
def create (t : FileTree) (path : String) (bytes : ByteArray) : Except FileFault FileTree := do
  let l ← t.locate path
  if t.isDirectory l then .error .isDirectory
  else if t.isDirectory ⟨l.above, l.names.dropLast⟩ then .ok (t.replace l bytes)
  else .error .notFound

/-- Adds bytes to the file at a path, if it is there. -/
def append (t : FileTree) (path : String) (bytes : ByteArray) : FileTree :=
  match t.locate path, t.bytes path with
  | .ok l, .ok before => t.replace l (before ++ bytes)
  | _, _ => t

end FileTree

namespace Program

/-- A file tree and what has been written on the screen. -/
structure Desk where
  tree : FileTree
  out : String
  err : String

/-- The file tree as a host. The clock stands still. -/
def Desk.host (today now : String) : Host (StateM Desk) where
  read path := do return (← get).tree.contents path
  create path text := do
    let desk ← get
    match desk.tree.create path text.toUTF8 with
    | .ok tree =>
      set { desk with tree }
      return .ok ()
    | .error e => return .error e.message
  append path text := modify fun desk => { desk with tree := desk.tree.append path text.toUTF8 }
  out text := modify fun desk => { desk with out := desk.out ++ text }
  err text := modify fun desk => { desk with err := desk.err ++ text }
  today := return today
  now := return now

/-- Runs the program on a file tree. -/
def onTree (today now : String) (tree : FileTree) (words : List String) (trace : Option String) :
    UInt32 × Desk :=
  (run (Desk.host today now) Standard.library words trace).run ⟨tree, "", ""⟩

end Program
end Runbook
