import Transposition.Config.Text

/-!
# Paths and the files they lead to

A path is followed name by name through a tree of directories. It leads to a file with its bytes, or
there is a reason why it cannot be read: it holds a character that no path has, it or one of its
names is too long, a name is not there, a name is asked for in what is no directory, it ends at a
directory, or what is there gives no bytes. The first of these that is met on the way is the reason.
-/

namespace Transposition

/-- Why a path cannot be read. -/
inductive PathFault
  /-- The path holds the character that would end it. -/
  | endInside
  /-- A name is not there. -/
  | notFound
  /-- The path goes on after what is no directory. -/
  | notDirectory
  /-- The path ends at a directory. -/
  | isDirectory
  /-- The path or one of its names is too long. -/
  | nameTooLong
  /-- The device that the path leads to is not there. -/
  | noDevice
  /-- What the path leads to gives no bytes. -/
  | noInput
  deriving DecidableEq, Repr

/-- The wording of a fault of a path. -/
def PathFault.message : PathFault → String
  | endInside => "file name contained an unexpected NUL byte"
  | notFound => "No such file or directory (os error 2)"
  | notDirectory => "Not a directory (os error 20)"
  | isDirectory => "Is a directory (os error 21)"
  | nameTooLong => "File name too long (os error 36)"
  | noDevice => "No such device or address (os error 6)"
  | noInput => "Input/output error (os error 5)"

/-- The bytes that the name of a file may have. -/
def maxNameBytes : Nat := 255

/-- The bytes that a path may have, its end mark included. -/
def maxPathBytes : Nat := 4096

/-- A file with its bytes or the reason why they cannot be read, or a directory with what it holds
under each name. -/
inductive FileTree
  | file (contents : Except PathFault ByteArray)
  | directory (entries : List (String × FileTree))

namespace FileTree

/-- Follows names from the head of a trail. The places that lead to the head come after it; the last
of them is the top of the tree, which is its own parent. -/
def follow : List FileTree → List String → Except PathFault FileTree
  | [], _ => .error .notFound
  | here :: _, [] => .ok here
  | file _ :: _, _ :: _ => .error .notDirectory
  | directory entries :: above, name :: names =>
    if name = "" ∨ name = "." then follow (directory entries :: above) names
    else if name = ".." then
      follow (if above.isEmpty then [directory entries] else above) names
    else if maxNameBytes < name.utf8ByteSize then .error .nameTooLong
    else
      match entries.lookup name with
      | some place => follow (place :: directory entries :: above) names
      | none => .error .notFound

/-- Reads a path. One that does not start at the top of the tree starts in an empty directory, two
levels below the top. -/
def read (root : FileTree) (path : String) : Except PathFault ByteArray :=
  if path.toList.contains '\x00' then .error .endInside
  else if path = "" then .error .notFound
  else if maxPathBytes ≤ path.utf8ByteSize then .error .nameTooLong
  else
    let start :=
      if path.toList.head? = some '/' then [root] else [directory [], directory [], root]
    match follow start (path.splitOn "/") with
    | .ok (file contents) => contents
    | .ok (directory _) => .error .isDirectory
    | .error fault => .error fault

end FileTree

/-- What comes of reading a path in a tree. -/
def FileRead.ofPath (root : FileTree) (path : String) : FileRead :=
  (root.read path).mapError PathFault.message

end Transposition
