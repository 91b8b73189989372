import SmtpReceiver.Text.Ascii

/-!
# Envelope addresses

An address is a local part, an at sign and a domain.  The local part is a
*dot-atom*: atoms separated by single dots, each of them letters, digits and
the symbols that RFC 5322 allows in an atom.  The domain is made of labels
separated by single dots, each of them letters, digits and hyphens.  A domain
may be a single label, as on internal networks.  The name of the host itself is
a domain in whatever case it is written.  Letters and digits are those of ASCII.

`Address.parse?` is the only way from a text to an `Address`, so an address
carries the proof that it is well formed.
-/

namespace SmtpReceiver

/-! ## Cutting -/

/-- The characters before and after the last occurrence of a separator. -/
def splitLast? (sep : Char) : List Char → Option (List Char × List Char)
  | [] => none
  | c :: cs =>
    match splitLast? sep cs with
    | some p => some (c :: p.1, p.2)
    | none => if c = sep then some ([], cs) else none

/-- The parts between the occurrences of a separator. -/
def partsOf (sep : Char) : List Char → List (List Char)
  | [] => [[]]
  | c :: cs => if c = sep then [] :: partsOf sep cs else (partsOf sep cs).modifyHead (c :: ·)

/-! ## The grammar -/

/-- The symbols of an atom beside letters and digits. -/
def atomSymbols : List Char :=
  ['_', '!', '#', '$', '%', '&', '\'', '*', '+', '/', '=', '?', '\x60', '\x7b', '|', '\x7d', '~',
    '^', '-']

/-- Whether a character may stand in an atom. -/
def isAtomChar (c : Char) : Bool := c.isAlphanum || atomSymbols.contains c

/-- Whether a character may stand in a label of a domain. -/
def isLabelChar (c : Char) : Bool := c.isAlphanum || c == '-'

/-- Whether characters are non-empty parts of one class, separated by single dots. -/
def isDotted (member : Char → Bool) (cs : List Char) : Bool :=
  !cs.isEmpty && (partsOf '.' cs).all fun part => !part.isEmpty && part.all member

/-- The name by which a host calls itself. -/
def ownName : String := "localhost"

/-- Whether characters are the name of the host itself, or labels separated by single dots. -/
def isDomain (cs : List Char) : Bool :=
  Text.sameFold (String.ofList cs) ownName || isDotted isLabelChar cs

/-- Whether a text is a local part, an at sign and a domain. -/
def isAddress (s : String) : Bool :=
  match splitLast? '@' s.toList with
  | some (localPart, domain) => isDotted isAtomChar localPart && isDomain domain
  | none => false

/-! ## Addresses -/

/-- A well-formed envelope address. -/
structure Address where
  /-- The address as written. -/
  text : String
  /-- It has the form of an address. -/
  wellFormed : isAddress text = true

namespace Address

/-- The address a text is, if it has the form of one. -/
def parse? (s : String) : Option Address :=
  if h : isAddress s = true then some ⟨s, h⟩ else none

theorem text_of_parse? {s : String} {a : Address} (h : parse? s = some a) : a.text = s := by
  unfold parse? at h
  split at h
  · rw [← Option.some.inj h]
  · cases h

theorem parse?_text (a : Address) : parse? a.text = some a := by
  simp [parse?, a.wellFormed]

end Address

/-! ## Tests -/

example : isAddress "a.b+c@mail-host" = true := by decide +kernel

example : isAddress "a..b@c" = false := by decide +kernel

example : isAddress "a@b@c" = false := by decide +kernel

example : isAddress "a@b." = false := by decide +kernel

example : isAddress "a@LocalHost" = true := by decide +kernel

end SmtpReceiver
