/-! # Faults of a disk

What an access to a file can fail with. Only a missing file is told apart from
the others by the errors of the library.
-/

namespace Tabular

/-- Why a file cannot be opened, read or written. -/
inductive DiskFault
  | notFound
  /-- A part of the path before the last is a file. -/
  | notDirectory
  | isDirectory
  /-- Something is there where a directory has to be made. -/
  | alreadyExists
  | nameTooLong
  | badName
  /-- The offset is beyond every file. -/
  | badOffset
  | notText
  | other (text : String)
  deriving DecidableEq

def DiskFault.message : DiskFault → String
  | notFound => "No such file or directory (os error 2)"
  | notDirectory => "Not a directory (os error 20)"
  | isDirectory => "Is a directory (os error 21)"
  | alreadyExists => "File exists (os error 17)"
  | nameTooLong => "File name too long (os error 36)"
  | badName => "file name contained an unexpected NUL byte"
  | badOffset => "Invalid argument (os error 22)"
  | notText => "stream did not contain valid UTF-8"
  | other text => text

end Tabular
