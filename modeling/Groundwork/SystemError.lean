/-!
Errors of the operating system by their number, and those that are found before the system is asked
or while its answer is read.
-/
namespace Groundwork

/-- The texts of the system's errors, by number from 1 on. -/
def systemErrorTexts : List String :=
  ["Operation not permitted", "No such file or directory", "No such process",
   "Interrupted system call", "Input/output error", "No such device or address",
   "Argument list too long", "Exec format error", "Bad file descriptor", "No child processes",
   "Resource temporarily unavailable", "Cannot allocate memory", "Permission denied",
   "Bad address", "Block device required", "Device or resource busy", "File exists",
   "Invalid cross-device link", "No such device", "Not a directory", "Is a directory",
   "Invalid argument", "Too many open files in system", "Too many open files",
   "Inappropriate ioctl for device", "Text file busy", "File too large",
   "No space left on device", "Illegal seek", "Read-only file system", "Too many links",
   "Broken pipe", "Numerical argument out of domain", "Numerical result out of range",
   "Resource deadlock avoided", "File name too long", "No locks available",
   "Function not implemented", "Directory not empty", "Too many levels of symbolic links"]

/-- Numbers above those of the list. -/
def laterSystemErrors : List (Nat × String) :=
  [(61, "No data available"), (62, "Timer expired"), (71, "Protocol error"),
   (75, "Value too large for defined data type"), (90, "Message too long"),
   (95, "Operation not supported"), (98, "Address already in use"),
   (104, "Connection reset by peer"), (105, "No buffer space available"),
   (110, "Connection timed out"), (111, "Connection refused"), (113, "No route to host"),
   (116, "Stale file handle"), (117, "Structure needs cleaning"), (121, "Remote I/O error"),
   (122, "Disk quota exceeded"), (123, "No medium found"), (125, "Operation canceled")]

/-- What kind of trouble an error is, whoever reports it. -/
inductive ErrorKind
  | notFound
  | isADirectory
  | notADirectory
  | alreadyExists
  | permissionDenied
  | invalidInput
  | invalidData
  | invalidFilename
  | filesystemLoop
  | other
  deriving DecidableEq, Repr

inductive SystemError
  /-- The system refused, with this error number. -/
  | refused (number : Nat)
  /-- A registry kept in memory has no such attribute. -/
  | noAttribute (path : String)
  | rebootDenied
  /-- An archive is not in its format, or cannot be written in it. -/
  | badArchive (reason : String)
  | notText
  /-- A path with a NUL byte is never passed to the system. -/
  | nulInPath
  /-- A scratch file could not be made in a directory. -/
  | noScratchFile (number : Nat) (directory : String)
  deriving DecidableEq, Repr

namespace SystemError

def systemText (number : Nat) : String :=
  let text := match number with
    | 0 => "Success"
    | n + 1 => systemErrorTexts.getD n ((laterSystemErrors.lookup number).getD
        s!"Unknown error {number}")
  s!"{text} (os error {number})"

def message : SystemError → String
  | refused n => systemText n
  | noAttribute path => s!"{path}: no such file or directory"
  | rebootDenied => "reboot denied"
  | badArchive reason => reason
  | notText => "stream did not contain valid UTF-8"
  | nulInPath => "file name contained an unexpected NUL byte"
  | noScratchFile n directory => systemText n ++ " at path \"" ++ directory ++ "\""

def kindOf (number : Nat) : ErrorKind :=
  match number with
  | 1 | 13 => .permissionDenied
  | 2 => .notFound
  | 17 => .alreadyExists
  | 20 => .notADirectory
  | 21 => .isADirectory
  | 22 => .invalidInput
  | 36 => .invalidFilename
  | 40 => .filesystemLoop
  | _ => .other

def kind : SystemError → ErrorKind
  | refused n => kindOf n
  | noAttribute _ => .notFound
  | rebootDenied => .permissionDenied
  | badArchive _ => .other
  | notText => .invalidData
  | nulInPath => .invalidInput
  | noScratchFile n _ => kindOf n

/-- No such file or directory. -/
def missing : SystemError := refused 2

/-- File exists. -/
def alreadyThere : SystemError := refused 17

/-- Not a directory. -/
def notDirectory : SystemError := refused 20

/-- Is a directory. -/
def directory : SystemError := refused 21

/-- Invalid argument. -/
def invalid : SystemError := refused 22

/-- File name too long. -/
def nameTooLong : SystemError := refused 36

/-- Too many levels of symbolic links. -/
def linkLoop : SystemError := refused 40

end SystemError

end Groundwork
