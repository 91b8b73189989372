import SmtpReceiver.Address
import SmtpReceiver.Command.Basic

/-!
# The commands MAIL, RCPT and DATA

A mail transaction has one sender, then recipients, then a message.  Each
command refuses to run before its turn.

`MAIL` and `RCPT` check that an address is well formed before they tell it to
the delivery handler, and the progress changes only if the handler accepts.

`DATA` makes the message due.  When the message is complete the receiver runs
the command of its end.  That gives the message to the delivery handler and
ends the transaction, however the delivery went.
-/

namespace SmtpReceiver.Command

open Delivery (Handler)

variable {α δ : Type} [Handler δ]

/-- The keyword before a sender. -/
def fromKeyword : String := "FROM:"

/-- The keyword before a recipient. -/
def toKeyword : String := "TO:"

/-- The refusal of an address that is not well formed. -/
def malformed (raw : String) : Reply := .line .badAddress ("<" ++ raw ++ "> Invalid email address")

/-- Tells the handler the sender. -/
def acceptSender (s : Session α δ) (address : Address) : Outcome α δ :=
  let t := Handler.sender s.delivery s.peer address.text
  let calls := Call.sender s.peer address.text :: t.calls.map .delivery
  match t.result with
  | .ok () =>
    { session := { s with progress := s.progress.mark (.sender true), delivery := t.next }
      answer := .ok (.line .ok "Ok")
      calls }
  | .error rejection =>
    { session := { s with delivery := t.next }, answer := .ok rejection.reply, calls }

/-- Names the sender. -/
def mail : Command α δ where
  name := Verb.mail
  help := some
    ⟨Verb.mail, "FROM: <address>\naddress = the email address of the sender",
      "The MAIL FROM command specifies the sender."⟩
  run _ line s :=
    if !s.progress.greeted then s.say .badSequence "Error: send HELO/EHLO first"
    else if s.progress.hasSender then s.say .badSequence "Sender already specified"
    else if Text.sameFold (Text.trim line) "MAIL FROM:" then
      s.say .badArguments "Syntax: MAIL FROM: <address>"
    else
      let predicate := CommandLine.predicate line
      if !CommandLine.startsWithKeyword predicate fromKeyword then
        s.say .badArguments
          ("Syntax: MAIL FROM: <address>  Error in parameters: \"" ++ predicate ++ "\"")
      else
        let raw := CommandLine.envelopeAddress predicate (Text.byteLength fromKeyword)
        match Address.parse? raw with
        | none => s.answer (malformed raw)
        | some address => acceptSender s address

/-- Whether there is no room for another recipient. -/
def isFull (s : Session α δ) : Bool :=
  match s.settings.maxRecipients with
  | some limit => limit ≤ s.progress.recipients
  | none => false

/-- Tells the handler a recipient. -/
def acceptRecipient (s : Session α δ) (address : Address) : Outcome α δ :=
  let t := Handler.recipient s.delivery s.peer address.text
  let calls := Call.recipient s.peer address.text :: t.calls.map .delivery
  match t.result with
  | .ok () =>
    { session := { s with progress := s.progress.mark .recipient, delivery := t.next }
      answer := .ok (.line .ok "Ok")
      calls }
  | .error rejection =>
    { session := { s with delivery := t.next }, answer := .ok rejection.reply, calls }

/-- Names a recipient. -/
def rcpt : Command α δ where
  name := Verb.rcpt
  help := some
    ⟨Verb.rcpt, "TO: <recipient>\nrecipient = the email address of the recipient of the message",
      "The RCPT command specifies the recipient. This command can be used\n"
      ++ "any number of times to specify multiple recipients."⟩
  run _ line s :=
    if !s.progress.hasSender then s.say .badSequence "Error: need MAIL command"
    else if isFull s then s.say .noRoom "Too many recipients"
    else
      let predicate := CommandLine.predicate line
      if !CommandLine.startsWithKeyword predicate toKeyword then
        s.say .badArguments
          ("Syntax: RCPT TO: <address> Error in parameters: \"" ++ predicate ++ "\"")
      else
        let raw := CommandLine.envelopeAddress predicate (Text.byteLength toKeyword)
        match Address.parse? raw with
        | none => s.answer (malformed raw)
        | some address => acceptRecipient s address

omit [Handler δ] in
/-- Begins a message. -/
def data : Command α δ where
  name := Verb.data
  help := some
    ⟨Verb.data, "",
      "The DATA command initiates the message transmission.\n"
      ++ "Message ends with <CR><LF>.<CR><LF>"⟩
  run _ _ s :=
    if !s.progress.hasSender then s.say .badSequence "Error: need MAIL command"
    else if s.progress.recipients = 0 then s.say .badSequence "Error: need RCPT command"
    else
      Session.say { s with progress := s.progress.mark (.message true) } .startMessage
        "End data with <CR><LF>.<CR><LF>"

/-- What is made of the end of a delivery. -/
def deliveryAnswer : Except Delivery.Fault Unit → Except Failure Reply
  | .ok () => .ok (.line .ok "Ok")
  | .error .tooMuchData => .ok (.line .tooLarge (Delivery.Fault.message .tooMuchData))
  | .error (.rejected rejection) => .ok rejection.reply
  | .error (.io cause) => .error (.delivery cause.text)

/-- Ends a message.  A client that says so itself has sent no message. -/
def dataEnd : Command α δ where
  name := Verb.dataEnd
  needsAuthentication := false
  run _ _ s :=
    match s.pending with
    | none => s.say .notUnderstood "Command not implemented"
    | some m =>
      let t := Handler.message s.delivery s.peer m
      { session := Session.reset { s with delivery := t.next }
        answer := deliveryAnswer t.result
        calls := .message s.peer m :: t.calls.map .delivery }

end SmtpReceiver.Command
