import SmtpReceiver.Command.Basic

/-!
# Commands of the application

An application adds commands of its own to the table.  A prepared one does the
same at every line: it changes the progress, may let the client start TLS, and
answers by a reply or fails.
-/

namespace SmtpReceiver

/-- What a command of the application does. -/
structure Preparation where
  /-- The verb. -/
  name : String
  /-- The client has to authenticate first. -/
  needsAuthentication : Bool := true
  /-- How to use the command. -/
  help : Option HelpText := none
  /-- The changes of the progress, first to last. -/
  marks : List Mark := []
  /-- The client may start TLS after the reply. -/
  startsTls : Bool := false
  /-- The reply. -/
  reply : Reply
  /-- The failure, if the command fails instead. -/
  failure : Option Failure := none

/-- The command that does what was prepared. -/
def Command.prepared {α δ : Type} (p : Preparation) : Command α δ where
  name := p.name
  needsAuthentication := p.needsAuthentication
  help := p.help
  run _ _ s :=
    { session :=
        { s with
          progress := p.marks.foldl Progress.mark s.progress
          wantsTls := s.wantsTls || p.startsTls }
      answer := match p.failure with
        | some failure => .error failure
        | none => .ok p.reply
      calls := [] }

end SmtpReceiver
