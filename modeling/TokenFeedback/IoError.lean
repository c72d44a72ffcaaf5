import TokenFeedback.Span

/-!
# Input and output errors

Why a read, a write or a connection attempt failed.

* `IoKind`: what sort of failure it was.
* `SystemCode.table`: the numbered errors of the operating system, with their sort and text.
* `IoError.text`: the error for people.
-/

namespace TokenFeedback

/-- What sort of failure an input or output error is. -/
inductive IoKind where
  | addrInUse
  | addrNotAvailable
  | alreadyExists
  | argumentListTooLong
  | brokenPipe
  | connectionAborted
  | connectionRefused
  | connectionReset
  | crossesDevices
  | deadlock
  | directoryNotEmpty
  | executableFileBusy
  | fileTooLarge
  | filesystemLoop
  | hostUnreachable
  | inProgress
  | inputOutputError
  | interrupted
  | invalidData
  | invalidFilename
  | invalidInput
  | isADirectory
  | networkDown
  | networkUnreachable
  | notADirectory
  | notConnected
  | notFound
  | notSeekable
  | other
  | outOfMemory
  | permissionDenied
  | quotaExceeded
  | readOnlyFilesystem
  | resourceBusy
  | staleNetworkFileHandle
  | storageFull
  | timedOut
  | tooManyLinks
  | uncategorized
  | unexpectedEof
  | unsupported
  | wouldBlock
  | writeZero
  deriving Repr, DecidableEq

namespace IoKind

/-- All sorts, with their names and descriptions. -/
def table : List (IoKind × String × String) :=
  [(.addrInUse, "AddrInUse", "address in use"),
   (.addrNotAvailable, "AddrNotAvailable", "address not available"),
   (.alreadyExists, "AlreadyExists", "entity already exists"),
   (.argumentListTooLong, "ArgumentListTooLong", "argument list too long"),
   (.brokenPipe, "BrokenPipe", "broken pipe"),
   (.connectionAborted, "ConnectionAborted", "connection aborted"),
   (.connectionRefused, "ConnectionRefused", "connection refused"),
   (.connectionReset, "ConnectionReset", "connection reset"),
   (.crossesDevices, "CrossesDevices", "cross-device link or rename"),
   (.deadlock, "Deadlock", "deadlock"),
   (.directoryNotEmpty, "DirectoryNotEmpty", "directory not empty"),
   (.executableFileBusy, "ExecutableFileBusy", "executable file busy"),
   (.fileTooLarge, "FileTooLarge", "file too large"),
   (.filesystemLoop, "FilesystemLoop", "filesystem loop or indirection limit (e.g. symlink loop)"),
   (.hostUnreachable, "HostUnreachable", "host unreachable"),
   (.inProgress, "InProgress", "in progress"),
   (.inputOutputError, "InputOutputError", "input/output error"),
   (.interrupted, "Interrupted", "operation interrupted"),
   (.invalidData, "InvalidData", "invalid data"),
   (.invalidFilename, "InvalidFilename", "invalid filename"),
   (.invalidInput, "InvalidInput", "invalid input parameter"),
   (.isADirectory, "IsADirectory", "is a directory"),
   (.networkDown, "NetworkDown", "network down"),
   (.networkUnreachable, "NetworkUnreachable", "network unreachable"),
   (.notADirectory, "NotADirectory", "not a directory"),
   (.notConnected, "NotConnected", "not connected"),
   (.notFound, "NotFound", "entity not found"),
   (.notSeekable, "NotSeekable", "seek on unseekable file"),
   (.other, "Other", "other error"),
   (.outOfMemory, "OutOfMemory", "out of memory"),
   (.permissionDenied, "PermissionDenied", "permission denied"),
   (.quotaExceeded, "QuotaExceeded", "quota exceeded"),
   (.readOnlyFilesystem, "ReadOnlyFilesystem", "read-only filesystem or storage medium"),
   (.resourceBusy, "ResourceBusy", "resource busy"),
   (.staleNetworkFileHandle, "StaleNetworkFileHandle", "stale network file handle"),
   (.storageFull, "StorageFull", "no storage space"),
   (.timedOut, "TimedOut", "timed out"),
   (.tooManyLinks, "TooManyLinks", "too many links"),
   (.uncategorized, "Uncategorized", "uncategorized error"),
   (.unexpectedEof, "UnexpectedEof", "unexpected end of file"),
   (.unsupported, "Unsupported", "unsupported"),
   (.wouldBlock, "WouldBlock", "operation would block"),
   (.writeZero, "WriteZero", "write zero")]

private def entry (k : IoKind) : String × String :=
  ((table.find? (·.1 == k)).map (·.2)).getD ("", "")

def name (k : IoKind) : String := k.entry.1

def description (k : IoKind) : String := k.entry.2

/-- The sort with the given name. -/
def ofName? (name : String) : Option IoKind :=
  (table.find? (·.2.1 == name)).map (·.1)

end IoKind

/-- One numbered error of the operating system. -/
structure SystemCode where
  code : Int
  kind : IoKind
  text : String

namespace SystemCode

def table : List SystemCode :=
  [⟨0, .uncategorized, "Success"⟩,
   ⟨1, .permissionDenied, "Operation not permitted"⟩,
   ⟨2, .notFound, "No such file or directory"⟩,
   ⟨3, .uncategorized, "No such process"⟩,
   ⟨4, .interrupted, "Interrupted system call"⟩,
   ⟨5, .inputOutputError, "Input/output error"⟩,
   ⟨6, .uncategorized, "No such device or address"⟩,
   ⟨7, .argumentListTooLong, "Argument list too long"⟩,
   ⟨8, .uncategorized, "Exec format error"⟩,
   ⟨9, .uncategorized, "Bad file descriptor"⟩,
   ⟨10, .uncategorized, "No child processes"⟩,
   ⟨11, .wouldBlock, "Resource temporarily unavailable"⟩,
   ⟨12, .outOfMemory, "Cannot allocate memory"⟩,
   ⟨13, .permissionDenied, "Permission denied"⟩,
   ⟨14, .uncategorized, "Bad address"⟩,
   ⟨15, .uncategorized, "Block device required"⟩,
   ⟨16, .resourceBusy, "Device or resource busy"⟩,
   ⟨17, .alreadyExists, "File exists"⟩,
   ⟨18, .crossesDevices, "Invalid cross-device link"⟩,
   ⟨19, .uncategorized, "No such device"⟩,
   ⟨20, .notADirectory, "Not a directory"⟩,
   ⟨21, .isADirectory, "Is a directory"⟩,
   ⟨22, .invalidInput, "Invalid argument"⟩,
   ⟨23, .uncategorized, "Too many open files in system"⟩,
   ⟨24, .uncategorized, "Too many open files"⟩,
   ⟨25, .uncategorized, "Inappropriate ioctl for device"⟩,
   ⟨26, .executableFileBusy, "Text file busy"⟩,
   ⟨27, .fileTooLarge, "File too large"⟩,
   ⟨28, .storageFull, "No space left on device"⟩,
   ⟨29, .notSeekable, "Illegal seek"⟩,
   ⟨30, .readOnlyFilesystem, "Read-only file system"⟩,
   ⟨31, .tooManyLinks, "Too many links"⟩,
   ⟨32, .brokenPipe, "Broken pipe"⟩,
   ⟨33, .uncategorized, "Numerical argument out of domain"⟩,
   ⟨34, .uncategorized, "Numerical result out of range"⟩,
   ⟨35, .deadlock, "Resource deadlock avoided"⟩,
   ⟨36, .invalidFilename, "File name too long"⟩,
   ⟨37, .uncategorized, "No locks available"⟩,
   ⟨38, .unsupported, "Function not implemented"⟩,
   ⟨39, .directoryNotEmpty, "Directory not empty"⟩,
   ⟨40, .filesystemLoop, "Too many levels of symbolic links"⟩,
   ⟨42, .uncategorized, "No message of desired type"⟩,
   ⟨43, .uncategorized, "Identifier removed"⟩,
   ⟨44, .uncategorized, "Channel number out of range"⟩,
   ⟨45, .uncategorized, "Level 2 not synchronized"⟩,
   ⟨46, .uncategorized, "Level 3 halted"⟩,
   ⟨47, .uncategorized, "Level 3 reset"⟩,
   ⟨48, .uncategorized, "Link number out of range"⟩,
   ⟨49, .uncategorized, "Protocol driver not attached"⟩,
   ⟨50, .uncategorized, "No CSI structure available"⟩,
   ⟨51, .uncategorized, "Level 2 halted"⟩,
   ⟨52, .uncategorized, "Invalid exchange"⟩,
   ⟨53, .uncategorized, "Invalid request descriptor"⟩,
   ⟨54, .uncategorized, "Exchange full"⟩,
   ⟨55, .uncategorized, "No anode"⟩,
   ⟨56, .uncategorized, "Invalid request code"⟩,
   ⟨57, .uncategorized, "Invalid slot"⟩,
   ⟨59, .uncategorized, "Bad font file format"⟩,
   ⟨60, .uncategorized, "Device not a stream"⟩,
   ⟨61, .uncategorized, "No data available"⟩,
   ⟨62, .uncategorized, "Timer expired"⟩,
   ⟨63, .uncategorized, "Out of streams resources"⟩,
   ⟨64, .uncategorized, "Machine is not on the network"⟩,
   ⟨65, .uncategorized, "Package not installed"⟩,
   ⟨66, .uncategorized, "Object is remote"⟩,
   ⟨67, .uncategorized, "Link has been severed"⟩,
   ⟨68, .uncategorized, "Advertise error"⟩,
   ⟨69, .uncategorized, "Srmount error"⟩,
   ⟨70, .uncategorized, "Communication error on send"⟩,
   ⟨71, .uncategorized, "Protocol error"⟩,
   ⟨72, .uncategorized, "Multihop attempted"⟩,
   ⟨73, .uncategorized, "RFS specific error"⟩,
   ⟨74, .uncategorized, "Bad message"⟩,
   ⟨75, .uncategorized, "Value too large for defined data type"⟩,
   ⟨76, .uncategorized, "Name not unique on network"⟩,
   ⟨77, .uncategorized, "File descriptor in bad state"⟩,
   ⟨78, .uncategorized, "Remote address changed"⟩,
   ⟨79, .uncategorized, "Can not access a needed shared library"⟩,
   ⟨80, .uncategorized, "Accessing a corrupted shared library"⟩,
   ⟨81, .uncategorized, ".lib section in a.out corrupted"⟩,
   ⟨82, .uncategorized, "Attempting to link in too many shared libraries"⟩,
   ⟨83, .uncategorized, "Cannot exec a shared library directly"⟩,
   ⟨84, .uncategorized, "Invalid or incomplete multibyte or wide character"⟩,
   ⟨85, .uncategorized, "Interrupted system call should be restarted"⟩,
   ⟨86, .uncategorized, "Streams pipe error"⟩,
   ⟨87, .uncategorized, "Too many users"⟩,
   ⟨88, .uncategorized, "Socket operation on non-socket"⟩,
   ⟨89, .uncategorized, "Destination address required"⟩,
   ⟨90, .uncategorized, "Message too long"⟩,
   ⟨91, .uncategorized, "Protocol wrong type for socket"⟩,
   ⟨92, .uncategorized, "Protocol not available"⟩,
   ⟨93, .uncategorized, "Protocol not supported"⟩,
   ⟨94, .uncategorized, "Socket type not supported"⟩,
   ⟨95, .unsupported, "Operation not supported"⟩,
   ⟨96, .uncategorized, "Protocol family not supported"⟩,
   ⟨97, .uncategorized, "Address family not supported by protocol"⟩,
   ⟨98, .addrInUse, "Address already in use"⟩,
   ⟨99, .addrNotAvailable, "Cannot assign requested address"⟩,
   ⟨100, .networkDown, "Network is down"⟩,
   ⟨101, .networkUnreachable, "Network is unreachable"⟩,
   ⟨102, .uncategorized, "Network dropped connection on reset"⟩,
   ⟨103, .connectionAborted, "Software caused connection abort"⟩,
   ⟨104, .connectionReset, "Connection reset by peer"⟩,
   ⟨105, .uncategorized, "No buffer space available"⟩,
   ⟨106, .uncategorized, "Transport endpoint is already connected"⟩,
   ⟨107, .notConnected, "Transport endpoint is not connected"⟩,
   ⟨108, .uncategorized, "Cannot send after transport endpoint shutdown"⟩,
   ⟨109, .uncategorized, "Too many references: cannot splice"⟩,
   ⟨110, .timedOut, "Connection timed out"⟩,
   ⟨111, .connectionRefused, "Connection refused"⟩,
   ⟨112, .uncategorized, "Host is down"⟩,
   ⟨113, .hostUnreachable, "No route to host"⟩,
   ⟨114, .uncategorized, "Operation already in progress"⟩,
   ⟨115, .inProgress, "Operation now in progress"⟩,
   ⟨116, .staleNetworkFileHandle, "Stale file handle"⟩,
   ⟨117, .uncategorized, "Structure needs cleaning"⟩,
   ⟨118, .uncategorized, "Not a XENIX named type file"⟩,
   ⟨119, .uncategorized, "No XENIX semaphores available"⟩,
   ⟨120, .uncategorized, "Is a named type file"⟩,
   ⟨121, .uncategorized, "Remote I/O error"⟩,
   ⟨122, .quotaExceeded, "Disk quota exceeded"⟩,
   ⟨123, .uncategorized, "No medium found"⟩,
   ⟨124, .uncategorized, "Wrong medium type"⟩,
   ⟨125, .uncategorized, "Operation canceled"⟩,
   ⟨126, .uncategorized, "Required key not available"⟩,
   ⟨127, .uncategorized, "Key has expired"⟩,
   ⟨128, .uncategorized, "Key has been revoked"⟩,
   ⟨129, .uncategorized, "Key was rejected by service"⟩,
   ⟨130, .uncategorized, "Owner died"⟩,
   ⟨131, .uncategorized, "State not recoverable"⟩,
   ⟨132, .uncategorized, "Operation not possible due to RF-kill"⟩,
   ⟨133, .uncategorized, "Memory page has hardware error"⟩]

def textOf (code : Int) : String :=
  match table.find? (·.code == code) with
  | some e => e.text
  | none => s!"Unknown error {code}"

def kindOf (code : Int) : IoKind :=
  match table.find? (·.code == code) with
  | some e => e.kind
  | none => .uncategorized

end SystemCode

/-- An input or output error. -/
inductive IoError where
  /-- A numbered error of the operating system. -/
  | system (code : Int)
  /-- An error known by its sort only. -/
  | plain (kind : IoKind)
  /-- An error with a message of its own. -/
  | custom (kind : IoKind) (message : String)
  /-- No data arrived for the given span. -/
  | idle (kind : IoKind) (after : Span)
  deriving Repr, DecidableEq

namespace IoError

/-- The sentence for a silence of the given length. -/
def silence (after : Span) : String := "no data received for " ++ after.text

def kind : IoError → IoKind
  | .system code => SystemCode.kindOf code
  | .plain k => k
  | .custom k _ => k
  | .idle k _ => k

def text : IoError → String
  | .system code => SystemCode.textOf code ++ s!" (os error {code})"
  | .plain k => k.description
  | .custom _ message => message
  | .idle _ after => silence after

/-- The silence that the error reports, if it reports one. -/
def silent? : IoError → Option Span
  | .idle _ after => some after
  | _ => none

/-- The error of a host that has no route to the address. -/
def networkUnreachable : IoError := .system 101

/-- What was named does not exist. -/
def missing : IoError := .system 2

/-- A step on the way leads through something that is no directory. -/
def notADirectory : IoError := .system 20

def nameTooLong : IoError := .system 36

/-- A directory to work in may not have this character in its name. -/
def nulInDirectory : IoError := .custom .invalidInput "nul byte found in provided data"

/-- A name that is passed on to the system may not have this character in it. -/
def nulInName : IoError := .custom .invalidInput "file name contained an unexpected NUL byte"

/-- The error of a host where nothing listens at the address. -/
def connectionRefused : IoError := .system 111

end IoError

end TokenFeedback
