/-!
# Service extensions

What a receiver can do beyond the basic commands, as it is told to a client
that greets with `EHLO`.
-/

namespace SmtpReceiver

/-- An extension of the service. -/
inductive Extension where
  /-- Messages may hold bytes above 127. -/
  | eightBitMime
  /-- TLS can be started. -/
  | startTls
  /-- The client can authenticate by these mechanisms. -/
  | auth (mechanisms : List String)
deriving DecidableEq, Repr

/-- The extension as it is told to the client. -/
def Extension.text : Extension → String
  | eightBitMime => "8BITMIME"
  | startTls => "STARTTLS"
  | auth mechanisms => "AUTH " ++ String.intercalate " " mechanisms

end SmtpReceiver
