import SmtpReceiver.Call
import SmtpReceiver.Progress
import SmtpReceiver.Settings

/-!
# Sessions

A `Session` is everything that a command may look at or change: the settings,
the progress, the peer, the authenticator and the delivery handler of the
connection, whether TLS can be started, and the message that was received last
and not yet delivered.

An `Outcome` is what a command makes of a session: the session afterwards, the
reply or the failure that ends the session, and the calls that were made.
-/

namespace SmtpReceiver

open Auth (Authenticator)
open Delivery (Handler)

/-- What a command may look at or change. -/
structure Session (α δ : Type) where
  settings : Settings
  /-- How far the session has come. -/
  progress : Progress := {}
  /-- The client as collaborators see it. -/
  peer : Peer := {}
  /-- The authenticator of the connection. -/
  auth : α
  /-- The delivery handler of the connection. -/
  delivery : δ
  /-- The connection can be made secure. -/
  offersTls : Bool := false
  /-- The client may start TLS now. -/
  wantsTls : Bool := false
  /-- The message that waits to be delivered. -/
  pending : Option Message := none

/-- What a command makes of a session. -/
structure Outcome (α δ : Type) where
  /-- The session afterwards. -/
  session : Session α δ
  /-- The reply, or the failure that ends the session. -/
  answer : Except Failure Reply
  /-- The calls that were made, in order. -/
  calls : List Call := []

namespace Session

variable {α δ : Type}

/-- The outcome that changes nothing. -/
def answer (s : Session α δ) (r : Reply) : Outcome α δ := ⟨s, .ok r, []⟩

/-- A reply of one line that changes nothing. -/
def say (s : Session α δ) (code : ReplyCode) (text : String) : Outcome α δ :=
  s.answer (.line code text)

/-- Whether the client still has to authenticate.  It has to only if there is a mechanism. -/
def mustAuthenticate [Authenticator α] (s : Session α δ) : Bool :=
  !s.progress.authenticated && !(Authenticator.mechanisms s.auth).isEmpty

def reset [Handler δ] (s : Session α δ) : Session α δ :=
  { s with
    progress := s.progress.reset
    delivery := Handler.reset s.delivery
    pending := none }

/-- Forgets everything that the client has said.  Attributes are kept. -/
def forget [Authenticator α] [Handler δ] (s : Session α δ) : Turn Call (Session α δ) Unit :=
  let t := Authenticator.reset s.auth
  { result := ()
    next :=
      { s with
        progress := s.progress.forget
        delivery := Handler.reset s.delivery
        auth := t.next
        peer := { s.peer with user := none }
        pending := none }
    calls := t.calls.map .auth }

end Session

end SmtpReceiver
