/-
  What an operating system answers when a path cannot be used.
-/

namespace CallSweep

/-- Why an operation on a path failed. -/
inductive OsError where
  | noEntry
  | noDevice
  | busy
  | notDirectory
  | isDirectory
  | nameTooLong
  | tooManyLinks
  /-- The path holds a NUL byte, with which no system call can be made. -/
  | nulInPath
  /-- Any other failure, in the system's words. -/
  | other (text : String)
  deriving DecidableEq, Repr

def OsError.message : OsError → String
  | .noEntry => "No such file or directory (os error 2)"
  | .noDevice => "No such device or address (os error 6)"
  | .busy => "Device or resource busy (os error 16)"
  | .notDirectory => "Not a directory (os error 20)"
  | .isDirectory => "Is a directory (os error 21)"
  | .nameTooLong => "File name too long (os error 36)"
  | .tooManyLinks => "Too many levels of symbolic links (os error 40)"
  | .nulInPath => "file name contained an unexpected NUL byte"
  | .other text => text

end CallSweep
