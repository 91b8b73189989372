import SmtpReceiver.Text.Utf8

/-!
# Messages and their readers

A message is the content that followed `DATA`.  It is stored in memory, or was
spilled to a file, and then its length was recorded when the file was complete.
It is read through readers, and all of them read from the one place where the
content is stored.

A spill file has one cursor.  Whoever wrote the file left it behind the last
byte, and every read moves it on.  So a reader keeps a place of its own, and puts
the cursor there before it reads.  The file may hold more than belongs to the
message, and so a reader never goes beyond the length that came with the file.

`Readers` is a message with the readers opened on it so far, by number.
-/

namespace SmtpReceiver

open Text (Bytes)

/-! ## Where the content is stored -/

/-- An open file. -/
structure SpillFile where
  content : Bytes
  /-- Where the next read begins. -/
  cursor : Nat
deriving DecidableEq, Repr

namespace SpillFile

def seek (f : SpillFile) (position : Nat) : SpillFile := { f with cursor := position }

/-- Reads so many bytes, or as many as there are, and moves the cursor behind them. -/
def read (f : SpillFile) (n : Nat) : Bytes × SpillFile :=
  let bytes := (f.content.drop f.cursor).take n
  (bytes, { f with cursor := f.cursor + bytes.length })

end SpillFile

/-- Where the content of a message is stored. -/
inductive Storage where
  | memory (content : Bytes)
  /-- So many bytes at the start of a file belong to the message. -/
  | file (file : SpillFile) (length : Nat)
deriving DecidableEq, Repr

namespace Storage

/-- The content of the message. -/
def content : Storage → Bytes
  | memory content => content
  | file f length => f.content.take length

/-- How many bytes the message has by what was recorded. -/
def length : Storage → Nat
  | memory content => content.length
  | file _ length => length

def spilled : Storage → Bool
  | memory _ => false
  | file .. => true

end Storage

/-! ## Messages -/

/-- A message as it was received. -/
structure Message where
  /-- Where it is stored, without transparency dots and without the final dot. -/
  storage : Storage
deriving DecidableEq, Repr

namespace Message

/-- A message that is held in memory. -/
def held (content : Bytes) : Message := ⟨.memory content⟩

/-- A message with this content, all of it in memory or in a file.  The cursor of the file is behind
the last byte. -/
def ofContent (content : Bytes) (spilled : Bool) : Message :=
  if spilled then ⟨.file ⟨content, content.length⟩ content.length⟩ else held content

/-- What can be read of the message. -/
def content (m : Message) : Bytes := m.storage.content

/-- How many bytes the message has by what was recorded. -/
def size (m : Message) : Nat := m.storage.length

/-- Whether the content went to a file. -/
def spilled (m : Message) : Bool := m.storage.spilled

/-- Whether there are no bytes. -/
def isEmpty (m : Message) : Bool := m.size == 0

section ofContent

variable (bytes : Bytes) (inFile : Bool)

@[simp] theorem content_ofContent : (ofContent bytes inFile).content = bytes := by
  cases inFile with
  | true => exact List.take_length
  | false => rfl

@[simp] theorem size_ofContent : (ofContent bytes inFile).size = bytes.length := by
  cases inFile <;> rfl

@[simp] theorem spilled_ofContent : (ofContent bytes inFile).spilled = inFile := by
  cases inFile <;> rfl

end ofContent

end Message

/-! ## Readers -/

/-- The greatest number of bytes asked for at once by who reads to the end. -/
def readBatch : Nat := 8192

/-- A place in a message, and what the message is read from. -/
structure Reader where
  storage : Storage
  /-- How many bytes have been read. -/
  position : Nat := 0
deriving DecidableEq, Repr

namespace Reader

/-- Reads so many bytes, or as many as there are. -/
def read (r : Reader) (n : Nat) : Bytes × Reader :=
  match r.storage with
  | .memory content =>
    let bytes := (content.drop r.position).take n
    (bytes, { r with position := r.position + bytes.length })
  | .file file length =>
    if length ≤ r.position ∨ n = 0 then ([], r)
    else
      let t := (file.seek r.position).read (min n (length - r.position))
      (t.1, ⟨.file t.2 length, r.position + t.1.length⟩)

/-- Reads batches until one is empty, so many at most. -/
def readBatches : Nat → Reader → Bytes × Reader
  | 0, r => ([], r)
  | k + 1, r =>
    let t := r.read readBatch
    if t.1.isEmpty then t
    else
      let rest := t.2.readBatches k
      (t.1 ++ rest.1, rest.2)

/-- Reads to the end.  Each batch before the end has a byte at least. -/
def readAll (r : Reader) : Bytes × Reader := r.readBatches (r.storage.length - r.position + 1)

end Reader

/-- A reader at the start of the message. -/
def Storage.open (s : Storage) : Reader := { storage := s }

/-- A reader at the start of the message. -/
def Message.open (m : Message) : Reader := m.storage.open

/-! ## Several readers -/

/-- A message with the readers opened on it. -/
structure Readers where
  message : Message
  /-- What all of them read from. -/
  storage : Storage := message.storage
  /-- The places of the readers, in the order of opening. -/
  opened : List Nat := []
deriving DecidableEq, Repr

namespace Readers

/-- Opens one more reader and gives its number. -/
def add (rs : Readers) : Nat × Readers :=
  (rs.opened.length, { rs with opened := rs.opened ++ [rs.storage.open.position] })

/-- Runs a reading on the reader of a number.  It gets the storage as the others left it. -/
def run (rs : Readers) (i : Nat) (reading : Reader → Bytes × Reader) : Bytes × Readers :=
  match rs.opened[i]? with
  | some position =>
    let t := reading ⟨rs.storage, position⟩
    (t.1, { rs with storage := t.2.storage, opened := rs.opened.set i t.2.position })
  | none => ([], rs)

end Readers

end SmtpReceiver
