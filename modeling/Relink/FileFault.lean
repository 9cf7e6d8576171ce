import Relink.Path

/-!
# File faults

Why a file or a directory cannot be used.
-/

set_option autoImplicit false

namespace Relink

/-- Faults of a file tree. -/
inductive SystemFault where
  | missing | notExecutable | denied | busy | exists | notDirectory | isDirectory
  | invalidArgument | nameTooLong | notEmpty | tooManyLinks
  /-- What is to be copied is no regular file. -/
  | irregular
  /-- A path holds a NUL character, which no system takes. -/
  | nulInPath
  /-- The name of a program, or one of its arguments, holds a NUL character. -/
  | nulInArgument
deriving DecidableEq, Repr

namespace SystemFault

def number? : SystemFault → Option Nat
  | .missing => some 2
  | .notExecutable => some 8
  | .denied => some 13
  | .busy => some 16
  | .exists => some 17
  | .notDirectory => some 20
  | .isDirectory => some 21
  | .invalidArgument => some 22
  | .nameTooLong => some 36
  | .notEmpty => some 39
  | .tooManyLinks => some 40
  | .irregular | .nulInPath | .nulInArgument => none

def phrase : SystemFault → String
  | .missing => "No such file or directory"
  | .notExecutable => "Exec format error"
  | .denied => "Permission denied"
  | .busy => "Device or resource busy"
  | .exists => "File exists"
  | .notDirectory => "Not a directory"
  | .isDirectory => "Is a directory"
  | .invalidArgument => "Invalid argument"
  | .nameTooLong => "File name too long"
  | .notEmpty => "Directory not empty"
  | .tooManyLinks => "Too many levels of symbolic links"
  | .irregular => "the source path is neither a regular file nor a symlink to a regular file"
  | .nulInPath => "file name contained an unexpected NUL byte"
  | .nulInArgument => "nul byte found in provided data"

/-- A fault in messages, with its number if it has one. -/
def message (fault : SystemFault) : String :=
  match fault.number? with
  | some number => fault.phrase ++ " (os error " ++ toString number ++ ")"
  | none => fault.phrase

end SystemFault

/-- Why a file cannot be read or written. -/
inductive FileFault where
  | noSuchFile
  | readDenied
  | writeDenied
  /-- The bytes of the file are no UTF-8. -/
  | notText
  | system (fault : SystemFault)
deriving DecidableEq, Repr

def FileFault.message : FileFault → String
  | .noSuchFile => "no such file"
  | .readDenied => "read denied"
  | .writeDenied => "write denied"
  | .notText => "stream did not contain valid UTF-8"
  | .system fault => fault.message

end Relink
