/-!
# Faults of the operating system

The ways in which a file or a program cannot be used, with the words of the operating system.
-/

namespace ContainerNet

inductive IoFault
  | notFound
  | permissionDenied
  | notDirectory
  | isDirectory
  | invalidArgument
  | nameTooLong
  /-- A path holds a zero character. -/
  | zeroInPath
  /-- The environment of a program holds a zero character. -/
  | zeroInEnvironment
  /-- A file or a line is not encoded as text. -/
  | notText
deriving DecidableEq, Repr

def IoFault.message : IoFault → String
  | .notFound => "No such file or directory (os error 2)"
  | .permissionDenied => "Permission denied (os error 13)"
  | .notDirectory => "Not a directory (os error 20)"
  | .isDirectory => "Is a directory (os error 21)"
  | .invalidArgument => "Invalid argument (os error 22)"
  | .nameTooLong => "File name too long (os error 36)"
  | .zeroInPath => "file name contained an unexpected NUL byte"
  | .zeroInEnvironment => "nul byte found in provided data"
  | .notText => "stream did not contain valid UTF-8"

end ContainerNet
