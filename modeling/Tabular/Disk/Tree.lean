import Tabular.Disk
import Tabular.Disk.Path

/-! # A disk in memory

Files and directories as a value, for running a database without a real disk
and for stating what an operation changes. Paths are followed part by part from
the root or from the current directory: every part but the last has to lead to
a directory, empty parts and `.` stay where they are, and `..` goes up.

It is an ideal disk. Everything may be read and written, there is always room, what is written is
written as a whole or not at all, and nobody else changes a file meanwhile. So an access fails only
for its path, for what is found there, and for an offset that no file can have.
-/

namespace Tabular

/-- What is at a place. -/
inductive FileNode
  | file (content : Bytes)
  | directory

/-- The names that lead to a place from the root, the last one first. -/
abbrev FilePlace := List String

/-- A tree of directories with files in them. -/
structure FileTree where
  node? : FilePlace → Option FileNode
  /-- Where relative paths start. -/
  current : FilePlace

namespace FileTree

def maxNameBytes : Nat := 255

def maxPathBytes : Nat := 4095

/-- The size that every directory has, in bytes. -/
def directorySize : Nat := 4096

/-- A tree that holds the directories down to the current one and nothing else. -/
def empty (current : FilePlace) : FileTree where
  node? place := if place.isSuffixOf current then some .directory else none
  current := current

def put (tree : FileTree) (place : FilePlace) (node : FileNode) : FileTree :=
  { tree with node? := fun other => if other = place then some node else tree.node? other }

def checkPath (path : String) : Except DiskFault Unit :=
  if path.toList.contains '\x00' then .error .badName
  else if maxPathBytes < path.utf8ByteSize then .error .nameTooLong
  else .ok ()

def start (tree : FileTree) (path : String) : FilePlace :=
  if path.toList.head? = some '/' then [] else tree.current

/-- The place that a part of a path leads to from a directory. -/
def step (place : FilePlace) (part : String) : Except DiskFault FilePlace :=
  if Path.stays part then .ok place
  else if part = ".." then .ok place.tail
  else if maxNameBytes < part.utf8ByteSize then .error .nameTooLong
  else .ok (part :: place)

def enter (tree : FileTree) (place : FilePlace) (part : String) : Except DiskFault FilePlace :=
  match tree.node? place with
  | some .directory => step place part
  | some (.file _) => .error .notDirectory
  | none => .error .notFound

/-- The place that a path leads to. There need not be anything there. -/
def resolve (tree : FileTree) (path : String) : Except DiskFault FilePlace := do
  checkPath path
  if path = "" then .error .notFound
  else (Path.parts path).foldlM tree.enter (tree.start path)

def find (tree : FileTree) (path : String) : Except DiskFault FileNode := do
  match tree.node? (← tree.resolve path) with
  | some node => .ok node
  | none => .error .notFound

/-- Bytes of a file from an offset on, none behind its end. An offset is refused only if it is not
a signed number of 64 bits; a file system with a lower limit on the size of a file refuses more. -/
def read (tree : FileTree) (path : String) (offset limit : Nat) : Except DiskFault Bytes := do
  match ← tree.find path with
  | .directory => .error .isDirectory
  | .file content =>
    if 0x8000000000000000 ≤ offset then .error .badOffset else .ok ((content.drop offset).take limit)

def size (tree : FileTree) (path : String) : Except DiskFault Nat := do
  match ← tree.find path with
  | .directory => .ok directorySize
  | .file content => .ok content.length

/-- The tree with a directory at a place, unless a file is there. -/
def ensureDirectory (tree : FileTree) (place : FilePlace) (fault : DiskFault) :
    Except DiskFault FileTree :=
  match tree.node? place with
  | some .directory => .ok tree
  | some (.file _) => .error fault
  | none => .ok (tree.put place .directory)

/-- Follows a path from a place and makes the directories that are missing. The
tree keeps those that were made before a fault. -/
def makeFrom (tree : FileTree) (place : FilePlace) : List String → Except DiskFault Unit × FileTree
  | [] =>
    match tree.ensureDirectory place .alreadyExists with
    | .ok made => (.ok (), made)
    | .error fault => (.error fault, tree)
  | part :: rest =>
    match tree.ensureDirectory place .notDirectory with
    | .error fault => (.error fault, tree)
    | .ok made =>
      match step place part with
      | .error fault => (.error fault, made)
      | .ok next => makeFrom made next rest

def makeDirectories (tree : FileTree) (path : String) : Except DiskFault Unit × FileTree :=
  if path = "" then (.ok (), tree)
  else
    match checkPath path with
    | .error fault => (.error fault, tree)
    | .ok () => makeFrom tree (tree.start path) (Path.parts path)

/-- The tree with all of the bytes at the end of a file. There is no write of a part of them. -/
def append (tree : FileTree) (path : String) (bytes : Bytes) : Except DiskFault FileTree := do
  let place ← tree.resolve path
  match tree.node? place with
  | some .directory => .error .isDirectory
  | some (.file content) => .ok (tree.put place (.file (content ++ bytes)))
  | none => .ok (tree.put place (.file bytes))

def disk : Disk (StateM FileTree) where
  openFile path := return ((← get).find path).map fun _ => ()
  size path := return (← get).size path
  read path offset limit := return (← get).read path offset limit
  makeDirectories path := modifyGet fun tree => tree.makeDirectories path
  append path bytes := do
    match (← get).append path bytes with
    | .ok tree => set tree; return .ok ()
    | .error fault => return .error fault

end FileTree

end Tabular
