/-!
# Errors

An `FsError` is the cause of a failed filesystem call.  Each cause carries what
its message names: a path, a handle, a limit.  `FsError.message` is the only
place where the wording lives, and `FsError.kind` groups the causes the way a
caller tells them apart.

One of them is not a cause that a call returns.  `FsError.fault` is the outcome of a
call that stops and never answers, so no caller sees its group or its message.

A `HostError` is a failure reported by the host operating system, a kind and a
text.  The two meet in both directions.  `FsError.ofHost` turns a host failure on
a path into the cause the stores report, and `FsError.toHost` is the host failure
that a caller of an ordinary file API sees.
-/

namespace MountFs

/-! ## Modes and handles as errors name them -/

/-- How a handle may use its file. -/
inductive OpenMode where
  /-- Read the content as it was at open. -/
  | read
  | write
  | append
deriving DecidableEq, Repr, Inhabited

namespace OpenMode

/-- The word for a mode in messages. -/
def text : OpenMode → String
  | .read => "read"
  | .write => "write"
  | .append => "append"

/-- Write and append handles commit at close. -/
def isWriter : OpenMode → Bool
  | .read => false
  | .write => true
  | .append => true

end OpenMode

/-- The number of a handle.  Numbers are given out once each, from `1`. -/
abbrev HandleId := Nat

/-- A handle number as messages print it. -/
def HandleId.text (id : HandleId) : String := "#" ++ toString id

/-- A use of a handle that its mode may forbid. -/
inductive HandleUse where
  | read
  | write
  | seek
deriving DecidableEq, Repr, Inhabited

/-- The word for a use in messages. -/
def HandleUse.text : HandleUse → String
  | .read => "read"
  | .write => "write"
  | .seek => "seek"

/-! ## Failures of the host -/

/-- The kinds of failure a host reports. -/
inductive HostErrorKind where
  | notFound
  | permissionDenied
  | connectionRefused
  | connectionReset
  | hostUnreachable
  | networkUnreachable
  | connectionAborted
  | notConnected
  | addrInUse
  | addrNotAvailable
  | networkDown
  | brokenPipe
  | alreadyExists
  | wouldBlock
  | notADirectory
  | isADirectory
  | directoryNotEmpty
  | readOnlyFilesystem
  | filesystemLoop
  | staleNetworkFileHandle
  | invalidInput
  | invalidData
  | timedOut
  | writeZero
  | storageFull
  | notSeekable
  | quotaExceeded
  | fileTooLarge
  | resourceBusy
  | executableFileBusy
  | deadlock
  | crossesDevices
  | tooManyLinks
  | invalidFilename
  | argumentListTooLong
  | interrupted
  | unsupported
  | unexpectedEof
  | outOfMemory
  | other
deriving DecidableEq, Repr, Inhabited

/-- A failure reported by the host. -/
structure HostError where
  /-- What kind of failure it is. -/
  kind : HostErrorKind
  text : String
deriving DecidableEq, Repr, Inhabited

namespace HostError

/-- A name on the way does not exist. -/
def notFound : HostError := ⟨.notFound, "No such file or directory (os error 2)"⟩

/-- The name is taken. -/
def taken : HostError := ⟨.alreadyExists, "File exists (os error 17)"⟩

/-- A name that is not a directory is used as one. -/
def notADirectory : HostError := ⟨.notADirectory, "Not a directory (os error 20)"⟩

/-- A directory is used as a file. -/
def isADirectory : HostError := ⟨.isADirectory, "Is a directory (os error 21)"⟩

/-- An argument makes no sense, such as moving a directory into itself. -/
def invalidArgument : HostError := ⟨.invalidInput, "Invalid argument (os error 22)"⟩

/-- A name or a whole path is longer than the host allows. -/
def nameTooLong : HostError := ⟨.invalidFilename, "File name too long (os error 36)"⟩

/-- The directory still has children. -/
def notEmpty : HostError := ⟨.directoryNotEmpty, "Directory not empty (os error 39)"⟩

/-- Following links did not come to an end. -/
def tooManyLinks : HostError :=
  ⟨.filesystemLoop, "Too many levels of symbolic links (os error 40)"⟩

/-- A path with a NUL character never reaches the host. -/
def nulInName : HostError := ⟨.invalidInput, "file name contained an unexpected NUL byte"⟩

/-- A file read as text is not UTF-8. -/
def notUtf8 : HostError := ⟨.invalidData, "stream did not contain valid UTF-8"⟩

end HostError

/-! ## Causes -/

/-- Why a filesystem call failed. -/
inductive FsError where
  | notFound (path : String)
  | alreadyExists (path : String)
  /-- The parent of the path is not an existing directory. -/
  | invalidParent (path : String)
  /-- A file stands where a directory is needed. -/
  | notADirectory (path : String)
  /-- A directory stands where a file is needed. -/
  | isADirectory (path : String)
  | directoryNotEmpty (path : String)
  /-- The text is not an absolute path, or names what cannot be acted on. -/
  | invalidPath (path : String)
  /-- A host path leads out of the root of its store. -/
  | pathEscapesRoot (detail : String)
  /-- No live handle has the number. -/
  | unknownHandle (handle : HandleId)
  /-- The mode of the handle forbids the use. -/
  | wrongMode (handle : HandleId) (mode : OpenMode) (use : HandleUse)
  /-- The entry the handle was opened on is gone. -/
  | staleHandle (handle : HandleId) (path : String)
  /-- Another handle is writing the entry. -/
  | busy (path : String)
  /-- The table of handles is full. -/
  | tooManyOpenHandles (limit : Nat)
  /-- The content would exceed the size limit. -/
  | fileTooLarge (path : String) (size limit : Nat)
  | readOnly
  /-- No mounted store is responsible for the path. -/
  | noMountPoint (path : String)
  /-- The configuration is unusable, for the reason given. -/
  | config (detail : String)
  /-- The configuration text is not a document of the expected shape. -/
  | malformedConfig
  /-- The host failed in a way the other causes do not name. -/
  | host (error : HostError)
  /-- The call stopped, because a buffer would have to be longer than a buffer can be. -/
  | fault
deriving DecidableEq, Repr, Inhabited

/-- The result of a call. -/
abbrev Outcome (α : Type) := Except FsError α

/-- A value comes out of two steps exactly if each of them gives one. -/
theorem Except.bind_eq_ok {ε α β : Type} {x : Except ε α} {f : α → Except ε β} {b : β} :
    (x >>= f) = .ok b ↔ ∃ a, x = .ok a ∧ f a = .ok b := by
  cases x with
  | error e => simp [bind, Except.bind]
  | ok a => simp [bind, Except.bind]

/-- The groups a caller tells causes apart by. -/
inductive ErrorKind where
  | notFound
  | alreadyExists
  | invalidParent
  | wrongKind
  | invalidHandleState
  | invalidPath
  | directoryNotEmpty
  | busy
  | limitExceeded
  | readOnly
  | noMountPoint
  | io
deriving DecidableEq, Repr, Inhabited

namespace FsError

/-- The group of a cause. -/
def kind : FsError → ErrorKind
  | .notFound _ => .notFound
  | .alreadyExists _ => .alreadyExists
  | .invalidParent _ => .invalidParent
  | .notADirectory _ => .wrongKind
  | .isADirectory _ => .wrongKind
  | .directoryNotEmpty _ => .directoryNotEmpty
  | .invalidPath _ => .invalidPath
  | .pathEscapesRoot _ => .invalidPath
  | .unknownHandle _ => .notFound
  | .wrongMode _ _ _ => .invalidHandleState
  | .staleHandle _ _ => .notFound
  | .busy _ => .busy
  | .tooManyOpenHandles _ => .limitExceeded
  | .fileTooLarge _ _ _ => .limitExceeded
  | .readOnly => .readOnly
  | .noMountPoint _ => .noMountPoint
  | .config _ => .io
  | .malformedConfig => .io
  | .host _ => .io
  | .fault => .limitExceeded

/-- The message of a cause. -/
def message : FsError → String
  | .notFound path => "not found: " ++ path
  | .alreadyExists path => "already exists: " ++ path
  | .invalidParent path => "invalid parent: " ++ path
  | .notADirectory path => "not a directory: " ++ path
  | .isADirectory path => "is a directory: " ++ path
  | .directoryNotEmpty path => "directory not empty: " ++ path
  | .invalidPath path => "invalid path: " ++ path
  | .pathEscapesRoot detail => "path escapes root: " ++ detail
  | .unknownHandle handle => "unknown handle: " ++ handle.text
  | .wrongMode handle mode use =>
      "handle " ++ handle.text ++ " is " ++ mode.text ++ "-only, cannot " ++ use.text
  | .staleHandle handle path => "stale handle " ++ handle.text ++ ": " ++ path ++ " no longer exists"
  | .busy path => "busy: " ++ path ++ " is open for writing"
  | .tooManyOpenHandles limit => "too many open handles (limit " ++ toString limit ++ ")"
  | .fileTooLarge path size limit =>
      "file too large: " ++ path ++ " (" ++ toString size ++ " > " ++ toString limit ++ " bytes)"
  | .readOnly => "filesystem is read-only"
  | .noMountPoint path => "no mount point for path: " ++ path
  | .config detail => "config error: " ++ detail
  | .malformedConfig => "config error: TOML parse error"
  | .host error => "I/O error: " ++ error.text
  | .fault => "capacity overflow"

/-- The cause for a host failure on `path`.  The kinds that have a cause of their
own name the path, all others pass through. -/
def ofHost (error : HostError) (path : String) : FsError :=
  match error.kind with
  | .notFound => .notFound path
  | .alreadyExists => .alreadyExists path
  | .notADirectory => .notADirectory path
  | .isADirectory => .isADirectory path
  | .directoryNotEmpty => .directoryNotEmpty path
  | _ => .host error

/-- The host failure that stands for a cause.  A cause about a path keeps only the
path as its text. -/
def toHost (error : FsError) : HostError :=
  match error with
  | .notFound path => ⟨.notFound, path⟩
  | .alreadyExists path => ⟨.alreadyExists, path⟩
  | .invalidParent path => ⟨.notFound, path⟩
  | .notADirectory path => ⟨.notADirectory, path⟩
  | .isADirectory path => ⟨.isADirectory, path⟩
  | .directoryNotEmpty path => ⟨.directoryNotEmpty, path⟩
  | .invalidPath path => ⟨.invalidInput, path⟩
  | .pathEscapesRoot detail => ⟨.permissionDenied, detail⟩
  | .unknownHandle _ => ⟨.notFound, error.message⟩
  | .wrongMode _ _ _ => ⟨.permissionDenied, error.message⟩
  | .staleHandle _ _ => ⟨.notFound, error.message⟩
  | .busy path => ⟨.resourceBusy, path⟩
  | .tooManyOpenHandles _ => ⟨.other, error.message⟩
  | .fileTooLarge _ _ _ => ⟨.fileTooLarge, error.message⟩
  | .readOnly => ⟨.readOnlyFilesystem, error.message⟩
  | .noMountPoint path => ⟨.notFound, path⟩
  | .config detail => ⟨.invalidData, detail⟩
  | .malformedConfig => ⟨.invalidData, "TOML parse error"⟩
  | .host error => error
  | .fault => ⟨.outOfMemory, error.message⟩

/-- The message with the causes behind it, each after a colon.  Only a host failure
has a cause behind it, and it repeats the host's words. -/
def chain : FsError → String
  | .host error => (FsError.host error).message ++ ": " ++ error.text
  | error => error.message

end FsError

end MountFs
