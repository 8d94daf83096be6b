import Tabular.Shell

/-! # The command line

The shell on the standard streams, with its tables in the files of the system.
Everything that is decided is decided by `Shell`; here lines are read, replies
are written, and files are accessed.
-/

namespace Tabular

namespace SystemDisk

def faultOf : IO.Error → DiskFault
  | .noFileOrDirectory .. => .notFound
  | .alreadyExists .. => .alreadyExists
  | .inappropriateType _ 20 _ => .notDirectory
  | .inappropriateType _ 21 _ => .isDirectory
  | .invalidArgument _ 36 _ => .nameTooLong
  | other => .other (toString other)

/-- Accesses a path. What goes wrong is the fault of the access. -/
def attempt {α : Type} (path : String) (access : IO α) : IO (Except DiskFault α) := do
  if path.toList.contains '\x00' then return .error .badName
  try
    return .ok (← access)
  catch problem =>
    return .error (faultOf problem)

/-- The bytes of a file from an offset on. A short piece at the start of a long
file is read without the rest of it. -/
def readBytes (path : String) (offset limit : Nat) : IO Bytes := do
  let handle ← IO.FS.Handle.mk path .read
  let bytes ←
    if offset = 0 ∧ limit ≤ maxChunkSize + 1 then handle.read limit.toUSize
    else handle.readBinToEnd
  return (bytes.toList.drop offset).take limit

def appendBytes (path : String) (bytes : Bytes) : IO Unit := do
  let handle ← IO.FS.Handle.mk path .append
  handle.write bytes.toByteArray
  handle.flush

def disk : Disk IO where
  openFile path := attempt path (discard (IO.FS.Handle.mk path .read))
  size path := attempt path do
    return (← (← IO.FS.realPath path).metadata).byteSize.toNat
  read path offset limit := attempt path (readBytes path offset limit)
  makeDirectories path :=
    if path = "" then return .ok () else attempt path (IO.FS.createDirAll path)
  append path bytes := attempt path (appendBytes path bytes)

end SystemDisk

namespace Shell

def write (passage : Passage) : IO Unit := do
  IO.print passage.out
  (← IO.getStdout).flush
  IO.eprint (String.join (passage.err.map Notice.text))

/-- A line of the input with the line feed that ends it, and nothing at the end of the input. -/
partial def readLine (input : IO.FS.Stream) (line : ByteArray) : IO ByteArray := do
  let next ← input.read 1
  if next.isEmpty then return line
  if next = ⟨#[0x0A]⟩ then return line ++ next
  readLine input (line ++ next)

/-- Answers lines as they come in, up to the one with which the run ends. -/
partial def interact (database : Database IO) (log : Log) : IO UInt32 := do
  write (.say prompt)
  let line ← readLine (← IO.getStdin) .empty
  if line.isEmpty then return 0
  let reply ← hear database log line.toList
  write reply
  match reply.exit with
  | some exitCode => return exitCode.toUInt32
  | none => interact database log

/-- The log is silent where its level is above that of warnings. Finer requests are not looked
at. -/
def logOf (level : Option String) : Log :=
  match level.map Text.lower with
  | some "off" => .off
  | some "error" => .off
  | _ => .all

def serve (arguments : List String) : IO UInt32 := do
  let log := logOf (← IO.getEnv "RUST_LOG")
  match ← start SystemDisk.disk arguments with
  | .finished passage =>
    write passage
    return (passage.exit.getD 0).toUInt32
  | .ready database =>
    write (.say (banner database))
    interact database log

end Shell

end Tabular

def main (arguments : List String) : IO UInt32 :=
  Tabular.Shell.serve arguments
