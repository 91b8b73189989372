import SmtpReceiver.Failure

/-!
# Settings

The settings of a receiver are fixed before its first session.
`Settings.validate` refuses a spill threshold that is no power of two above
one, a limit on command lines that allows none, and reads of no bytes, in this
order.

A `Charset` says how the bytes of a command line are read as text.  In Latin-1
every byte is the character of its own number, so no line is malformed.  In
UTF-8 what is no character is replaced.

A `SpillDirectory` is where spilled messages are kept.  How files go there is not
in the hands of the receiver, so the directory says it.  It may let no file be
made, and any write to a file may fail after some of its bytes got into the file.
-/

namespace SmtpReceiver

open Text (Bytes)

/-! ## Character sets -/

/-- How the bytes of a command line are read. -/
inductive Charset where
  /-- Every byte is the character of its own number. -/
  | latin1
  /-- UTF-8, with a replacement for what is no character. -/
  | utf8
deriving DecidableEq, Repr

/-- The text of the bytes of a command line. -/
def Charset.decode : Charset → Bytes → String
  | latin1, bs => String.ofList (bs.map fun b => Char.ofNat b.toNat)
  | utf8, bs => Text.decode bs

/-! ## Settings -/

/-- A failure of files.  Files know nothing of clients, so it never says that one went away. -/
structure FileFailure where
  cause : IoFailure
  noDisconnect : cause.kind.isDisconnect = false
deriving DecidableEq, Repr

/-- The failure to make a file in a directory that does not exist. -/
def noSpillFile : IoFailure := ⟨.notFound, "No such file or directory"⟩

/-- How a write to a file fails. -/
structure WriteFault where
  /-- How many bytes get into the file before. -/
  reaching : Nat
  failure : FileFailure
deriving DecidableEq, Repr

/-- Where spilled messages are kept, and how files go there. -/
structure SpillDirectory where
  /-- The operator has chosen it.  If not, it is the one that the system has for temporary files. -/
  chosen : Bool := false
  /-- Why no file can be made, if none can. -/
  denied? : Option FileFailure := none
  /-- How the writes to a file go, first to last.  Those behind the list succeed. -/
  writes : List (Option WriteFault) := []
deriving DecidableEq, Repr

namespace SpillDirectory

/-- The directory that the system has for temporary files. -/
def standard : SpillDirectory := {}

/-- A directory of the operator's choice that does not exist. -/
def missing : SpillDirectory := { chosen := true, denied? := some ⟨noSpillFile, rfl⟩ }

/-- How a write to a file fails before which so many were tried. -/
def fault? (d : SpillDirectory) (tries : Nat) : Option WriteFault := d.writes.getD tries none

/-- Whether files can be made and written. -/
def usable (d : SpillDirectory) : Bool := d.denied?.isNone && d.writes.all Option.isNone

end SpillDirectory

/-- The settings of a receiver. -/
structure Settings where
  /-- The name the receiver gives for its host. -/
  hostName : String := "localhost"
  /-- How many recipients one message may have, if there is a limit. -/
  maxRecipients : Option Nat := some 1000
  /-- How many connections may be open at once, if there is a limit. -/
  maxConnections : Option Nat := some 1000
  /-- How long a read may wait for the client, in milliseconds. -/
  idleLimit : Nat := 60000
  /-- How many bytes of a message are held in memory before it spills to a file. -/
  spillThreshold : Nat := 4194304
  /-- How many bytes a command line may have, without its CRLF. -/
  maxLine : Nat := 998
  /-- How command lines are read. -/
  charset : Charset := .latin1
  /-- How many connections may wait to be accepted. -/
  backlog : Nat := 5000
  /-- How many bytes one read takes at most. -/
  readSize : Nat := 8192
  /-- Where spilled messages are kept. -/
  spillDirectory : SpillDirectory := .standard
deriving DecidableEq, Repr

/-- Why settings are refused. -/
inductive SettingsFault where
  /-- The spill threshold is no power of two above one. -/
  | spillThreshold (given : Nat)
  /-- No command line would be short enough. -/
  | maxLine
  /-- No read would take a byte. -/
  | readSize
deriving DecidableEq, Repr

def SettingsFault.message : SettingsFault → String
  | spillThreshold given =>
    "data_deferred_size must be a power of two greater than 1, got " ++ toString given
  | maxLine => "max_line_length must be positive"
  | readSize => "read_buffer_size must be positive"

/-- Whether a number is a power of two. -/
def isPowerOfTwo (n : Nat) : Bool := n == 1 <<< n.log2

namespace Settings

/-- The first fault of the settings. -/
def fault? (s : Settings) : Option SettingsFault :=
  if s.spillThreshold ≤ 1 || !isPowerOfTwo s.spillThreshold then
    some (.spillThreshold s.spillThreshold)
  else if s.maxLine = 0 then some .maxLine
  else if s.readSize = 0 then some .readSize
  else none

/-- The settings, if they have no fault. -/
def validate (s : Settings) : Except Failure Settings :=
  match s.fault? with
  | some fault => .error (.config fault.message)
  | none => .ok s

/-- What the receiver calls itself. -/
def productName : String := "Mailgate"

/-- The name of the receiver with its version. -/
def productVersion : String := productName ++ " 0.1.0"

/-- The text that greets a client. -/
def greeting (s : Settings) : String := s.hostName ++ " ESMTP " ++ productName

end Settings

end SmtpReceiver
