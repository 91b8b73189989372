import SmtpReceiver.Text.Utf8

/-!
# Replies

A reply is a code and lines of text.  Every line but the last is written with a
hyphen after the code, and the last with a space.  A last line without text is
the bare code, and so is a reply without lines.

`Reply.text` is the reply as text, its lines separated by CRLF.  `Reply.wire`
is what is sent: the text and a final CRLF, in UTF-8.
-/

namespace SmtpReceiver

open Text (Bytes)

/-! ## Codes -/

abbrev ReplyCode := Nat

namespace ReplyCode

/-- Help follows. -/
def help : ReplyCode := 214
/-- The service is ready. -/
def ready : ReplyCode := 220
/-- The service closes the session. -/
def closing : ReplyCode := 221
/-- The client has authenticated. -/
def authenticated : ReplyCode := 235
/-- Done. -/
def ok : ReplyCode := 250
/-- A challenge follows. -/
def challenge : ReplyCode := 334
/-- The message may follow. -/
def startMessage : ReplyCode := 354
/-- The session is closed for idleness. -/
def unavailable : ReplyCode := 421
/-- The receiver has failed. -/
def failing : ReplyCode := 450
/-- There is no room for another recipient. -/
def noRoom : ReplyCode := 452
/-- TLS cannot be started. -/
def noTls : ReplyCode := 454
/-- The command is not known, or is no command. -/
def notUnderstood : ReplyCode := 500
/-- The arguments of the command are wrong. -/
def badArguments : ReplyCode := 501
/-- The command is out of order. -/
def badSequence : ReplyCode := 503
/-- The argument is not supported. -/
def notSupported : ReplyCode := 504
/-- The client has to authenticate first. -/
def authenticateFirst : ReplyCode := 530
/-- The client has failed to authenticate. -/
def authenticationFailed : ReplyCode := 535
/-- The message is too large. -/
def tooLarge : ReplyCode := 552
/-- The address is malformed or unknown. -/
def badAddress : ReplyCode := 553
/-- The session is refused. -/
def refused : ReplyCode := 554

end ReplyCode

/-! ## Replies -/

/-- A code and lines of text. -/
structure Reply where
  code : ReplyCode
  /-- The lines, first to last. -/
  lines : List String
deriving DecidableEq, Repr

namespace Reply

def line (code : ReplyCode) (text : String) : Reply := ⟨code, [text]⟩

/-- The code in decimal. -/
def codeText (code : ReplyCode) : String := toString code

/-- Lines of text under a code, each with its code and its mark. -/
def marked (code : ReplyCode) : List String → List String
  | [] => [codeText code]
  | [last] => [if last = "" then codeText code else codeText code ++ " " ++ last]
  | l :: next :: rest => (codeText code ++ "-" ++ l) :: marked code (next :: rest)

/-- The reply as text, without its final CRLF. -/
def text (r : Reply) : String := String.intercalate "\r\n" (marked r.code r.lines)

def wire (r : Reply) : Bytes := Text.encode (r.text ++ "\r\n")

end Reply

/-! ## Tests -/

example : (Reply.mk .ok ["a", "", "b"]).text = "250-a\r\n250-\r\n250 b" := by decide +kernel

example : (Reply.mk .ok ["a", ""]).text = "250-a\r\n250" := by decide +kernel

example : (Reply.mk .ok []).text = "250" := by decide +kernel

end SmtpReceiver
