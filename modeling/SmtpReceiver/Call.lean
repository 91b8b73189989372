import SmtpReceiver.Auth.Basic
import SmtpReceiver.Delivery.Basic

/-!
# Calls of a session

Whatever a session does comes with the list of calls that were made to others,
in order.  A session calls its authenticator and its delivery handler, and these
call others in turn.  An authenticator checks passwords and uses mechanisms of
the application.  Only a delivery handler calls listeners.
-/

namespace SmtpReceiver

/-- One call to a collaborator. -/
inductive Call where
  /-- The authenticator made a call. -/
  | auth (c : Auth.Call)
  /-- The delivery handler was given the sender. -/
  | sender (peer : Peer) (address : String)
  /-- The delivery handler was given a recipient. -/
  | recipient (peer : Peer) (address : String)
  /-- The delivery handler was given a message. -/
  | message (peer : Peer) (m : Message)
  /-- The delivery handler made a call. -/
  | delivery (c : Delivery.Call)
deriving DecidableEq, Repr

end SmtpReceiver
