import SmtpReceiver.Reply

/-!
# Failures

What a client gets wrong is answered by a reply, and the session goes on.  A
`Failure` ends the session.  Its cause is a failure of input or output, of TLS,
a command line above the limit, a faulty setting, a delivery that broke down,
or a state that no session should be in.

`Failure.message` gives the wording, and `Failure.reply` is the last reply of a
session that fails.  A failure `isDisconnect` if it says that the client went
away.
-/

namespace SmtpReceiver

/-! ## Input and output -/

/-- The kinds of failure that input and output report. -/
inductive IoKind where
  | notFound
  | permissionDenied
  | connectionRefused
  | connectionReset
  | hostUnreachable
  | networkUnreachable
  | connectionAborted
  | notConnected
  | addressInUse
  | addressNotAvailable
  | networkDown
  | brokenPipe
  | alreadyExists
  | wouldBlock
  | notADirectory
  | isADirectory
  | directoryNotEmpty
  | readOnlyFilesystem
  | staleNetworkFileHandle
  | invalidInput
  | invalidData
  | timedOut
  | writeZero
  | storageFull
  | notSeekable
  | quotaExceeded
  | fileTooLarge
  | resourceBusy
  | executableFileBusy
  | deadlock
  | crossesDevices
  | tooManyLinks
  | invalidFilename
  | argumentListTooLong
  | interrupted
  | unsupported
  | unexpectedEof
  | outOfMemory
  | other
deriving DecidableEq, Repr

namespace IoKind

/-- Each kind with its name. -/
def table : List (IoKind × String) :=
  [(notFound, "NotFound"), (permissionDenied, "PermissionDenied"),
    (connectionRefused, "ConnectionRefused"), (connectionReset, "ConnectionReset"),
    (hostUnreachable, "HostUnreachable"), (networkUnreachable, "NetworkUnreachable"),
    (connectionAborted, "ConnectionAborted"), (notConnected, "NotConnected"),
    (addressInUse, "AddrInUse"), (addressNotAvailable, "AddrNotAvailable"),
    (networkDown, "NetworkDown"), (brokenPipe, "BrokenPipe"), (alreadyExists, "AlreadyExists"),
    (wouldBlock, "WouldBlock"), (notADirectory, "NotADirectory"), (isADirectory, "IsADirectory"),
    (directoryNotEmpty, "DirectoryNotEmpty"), (readOnlyFilesystem, "ReadOnlyFilesystem"),
    (staleNetworkFileHandle, "StaleNetworkFileHandle"), (invalidInput, "InvalidInput"),
    (invalidData, "InvalidData"), (timedOut, "TimedOut"), (writeZero, "WriteZero"),
    (storageFull, "StorageFull"), (notSeekable, "NotSeekable"), (quotaExceeded, "QuotaExceeded"),
    (fileTooLarge, "FileTooLarge"), (resourceBusy, "ResourceBusy"),
    (executableFileBusy, "ExecutableFileBusy"), (deadlock, "Deadlock"),
    (crossesDevices, "CrossesDevices"), (tooManyLinks, "TooManyLinks"),
    (invalidFilename, "InvalidFilename"), (argumentListTooLong, "ArgumentListTooLong"),
    (interrupted, "Interrupted"), (unsupported, "Unsupported"), (unexpectedEof, "UnexpectedEof"),
    (outOfMemory, "OutOfMemory"), (other, "Other")]

def name (k : IoKind) : String := (table.lookup k).getD "Other"

/-- The kind of a name.  A name that is not in the table is any other failure. -/
def ofName (s : String) : IoKind := ((table.find? fun e => e.2 == s).map Prod.fst).getD other

/-- Whether the kind says that the client went away. -/
def isDisconnect : IoKind → Bool
  | unexpectedEof | connectionReset | connectionAborted | brokenPipe => true
  | _ => false

end IoKind

/-- A failure of input or output. -/
structure IoFailure where
  kind : IoKind
  /-- What it says. -/
  text : String
deriving DecidableEq, Repr

/-! ## Causes that end a session -/

/-- Why a session ended, or could not begin. -/
inductive Failure where
  /-- Input or output failed. -/
  | io (cause : IoFailure)
  /-- TLS failed. -/
  | tls (detail : String)
  /-- A command line of so many bytes was above the limit. -/
  | lineTooLong (length : Nat)
  /-- A setting is not usable. -/
  | config (detail : String)
  /-- A message could not be delivered, and not for a reason the client may hear. -/
  | delivery (detail : String)
  /-- The session was in a state that it should not be in. -/
  | protocol (detail : String)
deriving DecidableEq, Repr

namespace Failure

def message : Failure → String
  | io cause => "I/O error: " ++ cause.text
  | tls detail => "TLS error: " ++ detail
  | lineTooLong length => "Line is too long: " ++ toString length
  | config detail => "Invalid configuration: " ++ detail
  | delivery detail => "Delivery failed: " ++ detail
  | protocol detail => "Protocol error: " ++ detail

/-- The last reply of a session that fails.  Only a line above the limit is told to the client. -/
def reply : Failure → Reply
  | lineTooLong length => .line .badArguments (message (lineTooLong length))
  | _ => .line .failing "Problem attempting to execute commands. Please try again later."

/-- Whether the failure says that the client went away. -/
def isDisconnect : Failure → Bool
  | io cause => cause.kind.isDisconnect
  | _ => false

end Failure

end SmtpReceiver
