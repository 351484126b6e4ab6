/-!
# The system's errors

## Main definitions

* `Files.Fault` : the errors, `Files.Fault.message` their wording.
-/

namespace ScriptHost.Files

/-- Why an operation on files fails. -/
inductive Fault where
  | notFound
  | permissionDenied
  | exists
  | notADirectory
  | isADirectory
  | busy
  | crossDevice
  | invalidArgument
  | noSpace
  | nameTooLong
  | notEmpty
  | zeroByte
  | notARegularFile
  | notUtf8
deriving DecidableEq

/-- The wording of a fault. -/
def Fault.message : Fault → String
  | notFound => "No such file or directory (os error 2)"
  | permissionDenied => "Permission denied (os error 13)"
  | .exists => "File exists (os error 17)"
  | notADirectory => "Not a directory (os error 20)"
  | isADirectory => "Is a directory (os error 21)"
  | busy => "Device or resource busy (os error 16)"
  | crossDevice => "Invalid cross-device link (os error 18)"
  | invalidArgument => "Invalid argument (os error 22)"
  | noSpace => "No space left on device (os error 28)"
  | nameTooLong => "File name too long (os error 36)"
  | notEmpty => "Directory not empty (os error 39)"
  | zeroByte => "file name contained an unexpected NUL byte"
  | notARegularFile => "the source path is neither a regular file nor a symlink to a regular file"
  | notUtf8 => "stream did not contain valid UTF-8"

end ScriptHost.Files
