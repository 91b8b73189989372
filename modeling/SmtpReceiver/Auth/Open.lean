import SmtpReceiver.Auth.Basic

/-!
# No authentication

A receiver without authentication has no mechanism, and so never asks a client
to authenticate.  A line given to it all the same is a success.
-/

namespace SmtpReceiver.Auth

/-- The authenticator of a receiver that needs none. -/
structure Open where
deriving DecidableEq, Repr

/-- The user that everyone is. -/
def anonymous : String := "anonymous"

instance : Authenticator Open where
  mechanisms _ := []
  answer o _ := ⟨.ok (.done anonymous), o, []⟩
  reset o := ⟨(), o, []⟩

end SmtpReceiver.Auth
