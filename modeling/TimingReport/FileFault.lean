/-!
# Faults of files

Why a file cannot be read or written.
-/

namespace TimingReport

/-- Why an operation on a file fails. -/
inductive FileFault where
  | missing
  | busy
  | noDirectory
  | isDirectory
  | nameTooLong
  /-- A path with a NUL character names nothing. -/
  | nulInPath
  /-- The bytes of a file that must be a text are none. -/
  | noText
  /-- Any other failure, in the words of the system. -/
  | system (message : String)
deriving DecidableEq

namespace FileFault

/-- A failure with its number in the system's table. -/
def numbered (words : String) (number : Nat) : String :=
  words ++ " (os error " ++ toString number ++ ")"

/-- The wording of a failure. -/
def message : FileFault → String
  | missing => numbered "No such file or directory" 2
  | busy => numbered "Device or resource busy" 16
  | noDirectory => numbered "Not a directory" 20
  | isDirectory => numbered "Is a directory" 21
  | nameTooLong => numbered "File name too long" 36
  | nulInPath => "file name contained an unexpected NUL byte"
  | noText => "stream did not contain valid UTF-8"
  | system message => message

end FileFault

end TimingReport
