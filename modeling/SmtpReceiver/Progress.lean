/-!
# How far a session has come

`Progress` is what the order of commands depends on.  A client greets, names
one sender and at least one recipient, and may then send a message.  Beside
this, an exchange for authentication may be under way or have succeeded.

A `Mark` is one change of the progress.  `Progress.reset` ends the mail
transaction and keeps the greeting and the authentication.  `Progress.forget`
takes everything back but whether the session goes on.
-/

namespace SmtpReceiver

/-- What the order of commands depends on. -/
structure Progress where
  /-- The session goes on. -/
  active : Bool := true
  /-- The client has greeted. -/
  greeted : Bool := false
  /-- A sender was accepted. -/
  hasSender : Bool := false
  /-- How many recipients were accepted. -/
  recipients : Nat := 0
  /-- The message is due. -/
  expectsMessage : Bool := false
  /-- An exchange for authentication is under way. -/
  authenticating : Bool := false
  /-- The client has authenticated. -/
  authenticated : Bool := false
deriving DecidableEq, Repr

namespace Progress

def reset (p : Progress) : Progress :=
  { p with hasSender := false, recipients := 0, expectsMessage := false }

/-- Takes everything back but whether the session goes on. -/
def forget (p : Progress) : Progress := { active := p.active }

end Progress

/-- One change of the progress. -/
inductive Mark where
  /-- The session ends after the reply. -/
  | quit
  /-- The client has greeted, or has not. -/
  | greeted (value : Bool)
  /-- There is a sender, or there is none. -/
  | sender (value : Bool)
  /-- One more recipient was accepted. -/
  | recipient
  /-- The message is due, or it is not. -/
  | message (value : Bool)
  /-- An exchange for authentication is under way, or it is not. -/
  | authenticating (value : Bool)
  /-- The client has authenticated, or has not. -/
  | authenticated (value : Bool)
  /-- The mail transaction ends. -/
  | reset
  /-- Everything is taken back but whether the session goes on. -/
  | forget
  /-- A new session begins. -/
  | renew
deriving DecidableEq, Repr

def Progress.mark (p : Progress) : Mark → Progress
  | .quit => { p with active := false }
  | .greeted value => { p with greeted := value }
  | .sender value => { p with hasSender := value }
  | .recipient => { p with recipients := p.recipients + 1 }
  | .message value => { p with expectsMessage := value }
  | .authenticating value => { p with authenticating := value }
  | .authenticated value => { p with authenticated := value }
  | .reset => p.reset
  | .forget => p.forget
  | .renew => {}

end SmtpReceiver
