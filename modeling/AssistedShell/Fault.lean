/-! What can go wrong between the shell and the system, and the words for it. -/

namespace AssistedShell

/-- The refusals of the system that the shell can meet. -/
inductive Errno where
  | notPermitted | noEntry | inputOutput | tooLong | notAProgram | badDescriptor | noChild
  | again | denied
  | busy | exists | crossDevice | notDirectory | isDirectory | invalid | noSpace | brokenPipe
  | nameTooLong | notEmpty | linkLoop
  deriving DecidableEq, Repr, Inhabited

namespace Errno

def number : Errno → Nat
  | .notPermitted => 1
  | .noEntry => 2
  | .inputOutput => 5
  | .tooLong => 7
  | .notAProgram => 8
  | .badDescriptor => 9
  | .noChild => 10
  | .again => 11
  | .denied => 13
  | .busy => 16
  | .exists => 17
  | .crossDevice => 18
  | .notDirectory => 20
  | .isDirectory => 21
  | .invalid => 22
  | .noSpace => 28
  | .brokenPipe => 32
  | .nameTooLong => 36
  | .notEmpty => 39
  | .linkLoop => 40

def text : Errno → String
  | .notPermitted => "Operation not permitted"
  | .noEntry => "No such file or directory"
  | .inputOutput => "Input/output error"
  | .tooLong => "Argument list too long"
  | .notAProgram => "Exec format error"
  | .badDescriptor => "Bad file descriptor"
  | .noChild => "No child processes"
  | .again => "Resource temporarily unavailable"
  | .denied => "Permission denied"
  | .busy => "Device or resource busy"
  | .exists => "File exists"
  | .crossDevice => "Invalid cross-device link"
  | .notDirectory => "Not a directory"
  | .isDirectory => "Is a directory"
  | .invalid => "Invalid argument"
  | .noSpace => "No space left on device"
  | .brokenPipe => "Broken pipe"
  | .nameTooLong => "File name too long"
  | .notEmpty => "Directory not empty"
  | .linkLoop => "Too many levels of symbolic links"

end Errno

/-- The classes into which faults fall. -/
inductive FaultKind where
  | notFound | permissionDenied | alreadyExists | notADirectory | isADirectory
  | directoryNotEmpty | invalidInput | invalidData | invalidFilename | filesystemLoop
  | wouldBlock | storageFull | brokenPipe | crossesDevices | resourceBusy
  | argumentListTooLong | uncategorized
  deriving DecidableEq, Repr, Inhabited

/-- A failed operation. -/
inductive Fault where
  | system (errno : Errno)
  | notText
  | nulInPath
  | nulInArgument
  deriving DecidableEq, Repr, Inhabited

namespace Fault

def kind : Fault → FaultKind
  | .system e =>
    match e with
    | .noEntry => .notFound
    | .denied | .notPermitted => .permissionDenied
    | .exists => .alreadyExists
    | .notDirectory => .notADirectory
    | .isDirectory => .isADirectory
    | .notEmpty => .directoryNotEmpty
    | .invalid => .invalidInput
    | .nameTooLong => .invalidFilename
    | .linkLoop => .filesystemLoop
    | .again => .wouldBlock
    | .noSpace => .storageFull
    | .brokenPipe => .brokenPipe
    | .crossDevice => .crossesDevices
    | .busy => .resourceBusy
    | .tooLong => .argumentListTooLong
    | .inputOutput | .notAProgram | .badDescriptor | .noChild => .uncategorized
  | .notText => .invalidData
  | .nulInPath | .nulInArgument => .invalidInput

def message : Fault → String
  | .system e => e.text ++ " (os error " ++ toString e.number ++ ")"
  | .notText => "stream did not contain valid UTF-8"
  | .nulInPath => "file name contained an unexpected NUL byte"
  | .nulInArgument => "nul byte found in provided data"

end Fault

end AssistedShell
