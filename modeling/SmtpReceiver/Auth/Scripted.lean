import SmtpReceiver.Auth.Basic

/-!
# Mechanisms that answer by a script

An application brings mechanisms of its own.  A scripted one answers each line
by the next entry of a list, whatever the line says, and fails when the list is
used up.  What it was given shows in the calls.
-/

namespace SmtpReceiver.Auth

/-- A mechanism with prepared answers. -/
structure Scripted where
  /-- What it is called in the calls. -/
  name : String
  mechanisms : List String
  /-- The answers that are left. -/
  script : List Answer

namespace Scripted

def answer (s : Scripted) (line : String) : Turn Call Scripted Answer :=
  ⟨s.script.headD (.error .failed), { s with script := s.script.tail }, [.mechanism s.name line]⟩

instance : Authenticator Scripted where
  mechanisms := Scripted.mechanisms
  answer := answer
  reset s := ⟨(), s, [.mechanismReset s.name]⟩

end Scripted

end SmtpReceiver.Auth
