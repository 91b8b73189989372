import SmtpReceiver.Auth.Composite
import SmtpReceiver.Delivery.Screen
import SmtpReceiver.Proofs.Connection.Refinement
import SmtpReceiver.Proofs.Delivery.Transaction
import SmtpReceiver.Server
import SmtpReceiver.Proofs.Command.Order
import SmtpReceiver.Proofs.Auth.Gate
import SmtpReceiver.Proofs.Auth.Attempt
import SmtpReceiver.Proofs.Connection.Past
import SmtpReceiver.Proofs.Connection.Upgrade
import SmtpReceiver.Proofs.Framing.Spilling
import SmtpReceiver.Proofs.Auth.Secret
import SmtpReceiver.Proofs.Connection.Modes
import SmtpReceiver.Proofs.Connection.Admission
import SmtpReceiver.Proofs.Auth.Visits
import SmtpReceiver.Proofs.Connection.Idle
import SmtpReceiver.Proofs.Connection.Transcript
import SmtpReceiver.Proofs.Framing.Headroom
import SmtpReceiver.Proofs.Connection.Moves
import SmtpReceiver.Proofs.Connection.Failing
import SmtpReceiver.Proofs.Connection.TlsState
import SmtpReceiver.Proofs.Command.Refusal
import SmtpReceiver.Proofs.Command.Advertised
import SmtpReceiver.Proofs.Command.Padding
import SmtpReceiver.Proofs.Auth.Underway
import SmtpReceiver.Proofs.Auth.Routing
import SmtpReceiver.Proofs.Delivery.Sharing
import SmtpReceiver.Proofs.Reply.Breaks
import SmtpReceiver.Proofs.Framing.Words
import SmtpReceiver.Proofs.Address.Grammar
import SmtpReceiver.Proofs.Framing.Longest
