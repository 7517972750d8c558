/-!
# Why a file operation fails

Most faults are those that a kernel numbers; the rest are found before or after it is asked.
-/

namespace ImageStaging

inductive FileFault
  | notFound
  | inputOutput
  | notExecutableFormat
  | permissionDenied
  | busy
  | alreadyExists
  | notADirectory
  | isADirectory
  | invalidArgument
  | noSpace
  | nameTooLong
  | notEmpty
  | tooManyLinks
  /-- A path with a NUL byte names nothing. -/
  | nulInName
  /-- Bytes that were to be read as text are not UTF-8. -/
  | notText
  /-- Only a regular file can be copied. -/
  | notRegular
  deriving DecidableEq, Repr

namespace FileFault

/-- The number of the fault and its description, for the faults that have a number. -/
def numbered : FileFault → Option (Nat × String)
  | .notFound => some (2, "No such file or directory")
  | .inputOutput => some (5, "Input/output error")
  | .notExecutableFormat => some (8, "Exec format error")
  | .permissionDenied => some (13, "Permission denied")
  | .busy => some (16, "Device or resource busy")
  | .alreadyExists => some (17, "File exists")
  | .notADirectory => some (20, "Not a directory")
  | .isADirectory => some (21, "Is a directory")
  | .invalidArgument => some (22, "Invalid argument")
  | .noSpace => some (28, "No space left on device")
  | .nameTooLong => some (36, "File name too long")
  | .notEmpty => some (39, "Directory not empty")
  | .tooManyLinks => some (40, "Too many levels of symbolic links")
  | .nulInName | .notText | .notRegular => none

def message (fault : FileFault) : String :=
  match fault.numbered with
  | some (number, description) => s!"{description} (os error {number})"
  | none =>
    match fault with
    | .nulInName => "file name contained an unexpected NUL byte"
    | .notText => "stream did not contain valid UTF-8"
    | _ => "the source path is neither a regular file nor a symlink to a regular file"

end FileFault

end ImageStaging
