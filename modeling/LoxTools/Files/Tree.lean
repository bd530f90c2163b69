import LoxTools.Files.Basic

/-!
# Directory trees

A directory tree given by a list of files and directories, and the file system that a
run sees which works in its root. A path is walked component by component: an empty component
and `.` stay in a directory, `..` goes up, and any other name must stand in the
directory reached so far. Above the root nothing is known but that it is a directory, so no
name is found there. An absolute path starts at the top of the machine, where only the null
device `/dev/null` is known. A path can be no longer than `maxPathBytes`.
-/

namespace LoxTools

/-- One member of a tree: the names from the root to it, and its content, or none for a
directory. -/
structure TreeMember where
  /-- the names from the root down -/
  path : List String
  /-- the bytes of a file -/
  content : Option ByteArray

/-- A directory tree. The directories on the way to a member exist without being listed. -/
structure FileTree where
  /-- the members, where a later one replaces an earlier one at the same path -/
  members : List TreeMember

namespace FileTree

/-- The components of a path. -/
def components (path : String) : List String :=
  path.splitOn "/"

/-- The names that a relative path steps through, without empty components and dots. -/
def names (path : String) : List String :=
  (components path).filter fun name => name != "" && name != "."

/-- What stands behind the given names, from the root down. -/
def entryAt (tree : FileTree) (path : List String) : FileEntry :=
  match tree.members.reverse.find? fun member => member.path == path with
  | some ⟨_, some content⟩ => .file content
  | some ⟨_, none⟩ => .directory
  | none =>
    if path.isEmpty || tree.members.any fun member => path.isPrefixOf member.path then .directory
    else .missing

/-- How far a walk has come. -/
inductive Place where
  /-- at the entry with these names, innermost first -/
  | inside (names : List String)
  /-- in a directory above the root -/
  | above
  /-- at the entry with these names, innermost first, below the top of the machine -/
  | machine (names : List String)
  /-- at no entry -/
  | nowhere

/-- What stands below the top of a machine, as far as it is known: the null device, which is
empty, and the directories on the way to it. -/
def machineEntry : List String → FileEntry
  | [] => .directory
  | ["dev"] => .directory
  | ["dev", "null"] => .device ByteArray.empty
  | _ => .missing

/-- The entry at a place. -/
def entryOf (tree : FileTree) : Place → FileEntry
  | .inside names => tree.entryAt names.reverse
  | .above => .directory
  | .machine names => machineEntry names.reverse
  | .nowhere => .missing

/-- The place one component further, which only a directory leads to. -/
def walk (tree : FileTree) (place : Place) (name : String) : Place :=
  match tree.entryOf place with
  | .directory =>
    if name = "" ∨ name = "." then place
    else match place with
      | .inside [] => if name = ".." then .above else .inside [name]
      | .inside (last :: rest) => if name = ".." then .inside rest else .inside (name :: last :: rest)
      | .above => if name = ".." then .above else .nowhere
      | .machine names => if name = ".." then .machine names.tail else .machine (name :: names)
      | .nowhere => .nowhere
  | _ => .nowhere

/-- How many bytes of UTF-8 a path can have: with the NUL that ends it they fill 4096. -/
def maxPathBytes : Nat := 4095

/-- **What stands at a path.** An absolute path starts at the top of the machine; the empty path
and a path that is too long lead nowhere. -/
def lookup (tree : FileTree) (path : String) : FileEntry :=
  if path = "" ∨ maxPathBytes < path.utf8ByteSize then .missing
  else
    let origin := if path.startsWith "/" then Place.machine [] else Place.inside []
    tree.entryOf ((components path).foldl tree.walk origin)

/-- The file system seen from the root of a tree. -/
def fileSystem (tree : FileTree) : FileSystem :=
  ⟨tree.lookup⟩

end FileTree

end LoxTools
