/-!
# Files

What a program meets at a path: nothing it can look at, something it can look at but not read, or a
file with its bytes. A directory in memory answers for paths below it.
-/

namespace Abacus.Command

/-- What stands at a path. -/
inductive Access
  /-- The path leads nowhere. -/
  | unreachable (reason : String)
  /-- The path leads to something with a size that cannot be read. -/
  | unreadable (size : Nat) (reason : String)
  /-- The path leads to a file. -/
  | file (bytes : ByteArray)

/-- A directory without subdirectories: its files by name. -/
abbrev Directory := List (String × ByteArray)

namespace Directory

/-- The parts of a path between slashes. -/
def components (path : String) : List String :=
  let close := fun (parts : List String × List Char) =>
    String.ofList parts.2.reverse :: parts.1
  (close (path.toList.foldl
    (fun parts c => if c = '/' then (close parts, []) else (parts.1, c :: parts.2))
    ([], []))).reverse

/-- What is said about a path to nothing. -/
def missing : Access := .unreachable "No such file or directory (os error 2)"

/-- A directory can be looked at but not read. -/
def itself : Access := .unreadable 4096 "Is a directory (os error 21)"

/-- What the parts of a path lead to outside the directory: nothing is known there but the
directories above. -/
def outside (parts : List String) : Access :=
  if parts.all fun part => part = "" || part = "." || part = ".." then itself else missing

/-- What the parts of a path lead to. A single dot, or nothing between two slashes, stays in the
directory. -/
def resolve (d : Directory) : List String → Access
  | [] => itself
  | name :: rest =>
    if name = "" ∨ name = "." then d.resolve rest
    else if name = ".." then outside rest
    else match d.lookup name with
      | none => missing
      | some bytes =>
        if rest.isEmpty then .file bytes else .unreachable "Not a directory (os error 20)"

/-- What stands at a path. A path from the root leads out of the directory. -/
def access (d : Directory) (path : String) : Access :=
  match components path with
  | "" :: next :: rest => outside (next :: rest)
  | parts => d.resolve parts

end Directory
end Abacus.Command
