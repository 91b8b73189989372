import SmtpReceiver.Reply
import SmtpReceiver.Settings
import SmtpReceiver.Text.Ascii
import SmtpReceiver.Text.Blank
import SmtpReceiver.Text.Lines
import SmtpReceiver.Text.Lookup

/-!
# Help texts

A help text has a name, arguments and a description.  The first line of the
arguments stands beside the name, and the other lines explain them.  The reply
shows the name with its arguments, the description, the explanations and an
end line.

A `HelpTable` finds help texts by their names, whatever the case of the
letters.  Its summary lists the names in rising order.
-/

namespace SmtpReceiver

open Text (lines trim upper Lookup)

/-- How to use a command. -/
structure HelpText where
  /-- What the text is about. -/
  name : String
  /-- The arguments, and in further lines what they mean. -/
  arguments : String
  /-- What the command is for. -/
  description : String
deriving DecidableEq, Repr

namespace HelpText

/-- A line below the first one. -/
def indent (line : String) : String := "    " ++ trim line

/-- The name, with the first line of the arguments if that says anything. -/
def usage (h : HelpText) : String :=
  match lines h.arguments with
  | [] => h.name
  | first :: _ => if trim first = "" then h.name else h.name ++ " " ++ trim first

/-- The text as a reply. -/
def reply (h : HelpText) : Reply :=
  ⟨.help, [h.usage] ++ (lines h.description).map indent ++ (lines h.arguments).tail.map indent
    ++ ["End of " ++ h.name ++ " info"]⟩

end HelpText

/-- Help texts by their names in raised letters. -/
abbrev HelpTable := Lookup HelpText

namespace HelpTable

/-- Adds a text, in place of one of the same name. -/
def add (t : HelpTable) (h : HelpText) : HelpTable := Lookup.insert (upper h.name) h t

/-- The table of texts.  Of two texts of one name the later counts. -/
def ofTexts (texts : List HelpText) : HelpTable := texts.foldl add []

/-- The text about a topic, whatever the case of its letters. -/
def topic? (t : HelpTable) (topic : String) : Option HelpText := Lookup.get? (upper topic) t

/-- The topics, in rising order. -/
def topics (t : HelpTable) : List String := Lookup.names t

/-- The reply to a client that asks for no topic. -/
def summary (t : HelpTable) (settings : Settings) : Reply :=
  ⟨.help,
    ["This is " ++ Settings.productVersion ++ " server running on " ++ settings.hostName,
      "Available commands:"]
    ++ t.topics.map ("  " ++ ·)
    ++ ["For more info use \"HELP <command>\".",
      "For local information send email to Postmaster at your site.",
      "End of HELP info"]⟩

end HelpTable

end SmtpReceiver
