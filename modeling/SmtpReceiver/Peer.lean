import SmtpReceiver.Text.Lookup

/-!
# The client as collaborators see it

Listeners and handlers of the application see the client through a `Peer`: its
address, the user it authenticated as, whether the session is secure, and
attributes that the application keeps with the session.
-/

namespace SmtpReceiver

open Text (Lookup)

/-- What collaborators may know of a client. -/
structure Peer where
  /-- The address of the client, if the transport has one. -/
  remote : Option String := none
  /-- The user the client authenticated as. -/
  user : Option String := none
  /-- The session runs over TLS. -/
  secure : Bool := false
  /-- What the application keeps with the session, by name. -/
  attributes : Lookup String := []
deriving DecidableEq, Repr

namespace Peer

/-- The value of an attribute. -/
def attribute? (p : Peer) (key : String) : Option String := p.attributes.get? key

/-- Sets an attribute.  Gives the value it had. -/
def setAttribute (p : Peer) (key value : String) : Option String × Peer :=
  (p.attribute? key, { p with attributes := p.attributes.insert key value })

/-- Removes an attribute.  Gives the value it had. -/
def removeAttribute (p : Peer) (key : String) : Option String × Peer :=
  (p.attribute? key, { p with attributes := p.attributes.erase key })

end Peer

end SmtpReceiver
