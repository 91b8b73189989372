import SmtpReceiver.Proofs.Command.Effect
import SmtpReceiver.Proofs.Reply.Wording

/-!
# What commands reply

What the commands of the receiver say is fixed for the most part.  The rest is the name of
the host, or the words of a collaborator, or quotes the client.  `Wording` has one case for
each, with the command that says so, and all that is to be known of the texts of replies can be
read off it (`worded_dispatch`).

A command quotes the client in four places: a topic of `HELP` that there is none on, what
stands behind the verb of `MAIL` and of `RCPT`, and an address of these two that is malformed
(`Quotation`).  Each of these is a part of the line, so no CRLF stands in it if none stands
in the line.  Around it stand texts that begin and end with neither a CR nor an LF, so none
comes about.  So what is replied to a frame can be read (`readable_dispatch`), and the session
stays one of which that is true (`Discreet.dispatch`).
-/

namespace SmtpReceiver

open Auth (Authenticator)
open Delivery (Handler)
open Framing (Frame)
open Text (Lookup Solid Unbroken)

variable {α δ : Type}

/-! ## The commands in the table -/

theorem HelpTable.mem_ofTexts {texts : List HelpText} {e : String × HelpText}
    (h : e ∈ HelpTable.ofTexts texts) : e.1 = Text.upper e.2.name ∧ e.2 ∈ texts :=
  (Lookup.mem_foldl_insert h).resolve_right List.not_mem_nil

namespace CommandTable

theorem help_directory (t : CommandTable α δ) : t.directory.help = t.help := rfl

variable [Authenticator α] [Handler δ]

theorem mem_builtin {e : String × Command α δ} (h : e ∈ builtin) : e.2 ∈ builtinCommands :=
  ((Lookup.mem_foldl_insert h).resolve_right List.not_mem_nil).2

theorem breakless_of_help : ∀ c ∈ builtinCommands (α := α) (δ := δ), ∀ h, c.help = some h →
    Solid (Text.upper h.name).toList ∧ h.Breakless := by
  simp only [builtinCommands, List.forall_mem_cons]
  refine ⟨?_, ?_, ?_, ?_, ?_, ?dataEnd, ?_, ?_, ?_, ?_, ?_, ?_, List.forall_mem_nil _⟩
  case dataEnd => rintro _ ⟨⟩
  all_goals
    rintro _ ⟨⟩
    refine ⟨by decide, Text.solid_ofList (by decide), ?_, ?_⟩
  -- A text of several lines is put together from them.
  all_goals
    simp only [String.toList_append, List.mem_append, not_or]
    and_intros
    all_goals exact Text.not_mem_ofList (by decide)

theorem breakless_builtin : (builtin (α := α) (δ := δ)).directory.help.Breakless := by
  rw [help_directory]
  intro e he
  rw [help] at he
  obtain ⟨hname, hmem⟩ := HelpTable.mem_ofTexts he
  obtain ⟨entry, hentry, hhelp⟩ := List.mem_filterMap.1 hmem
  rw [hname]
  exact breakless_of_help entry.2 (mem_builtin hentry) e.2 hhelp

end CommandTable

/-! ## Quotations -/

/-- The commands that take an address, and the keywords before it. -/
def Command.addressKeywords : List (String × String) :=
  [(Verb.mail, Command.fromKeyword), (Verb.rcpt, Command.toKeyword)]

/-- A text by which the command of a verb refuses a line, and the part of the line that it quotes. -/
inductive Quotation (help : HelpTable) (line : String) : Option String → String → String → Prop
    where
  /-- There is no help on a topic. -/
  | topic : CommandLine.predicate line ≠ "" → help.topic? (CommandLine.predicate line) = none →
    Quotation help line (some Verb.help) (CommandLine.predicate line)
      ("HELP topic \"" ++ CommandLine.predicate line ++ "\" unknown")
  /-- What stands behind `MAIL` does not begin with the keyword. -/
  | sender :
    CommandLine.startsWithKeyword (CommandLine.predicate line) Command.fromKeyword = false →
    Quotation help line (some Verb.mail) (CommandLine.predicate line)
      ("Syntax: MAIL FROM: <address>  Error in parameters: \"" ++ CommandLine.predicate line ++ "\"")
  /-- What stands behind `RCPT` does not begin with the keyword. -/
  | recipient :
    CommandLine.startsWithKeyword (CommandLine.predicate line) Command.toKeyword = false →
    Quotation help line (some Verb.rcpt) (CommandLine.predicate line)
      ("Syntax: RCPT TO: <address> Error in parameters: \"" ++ CommandLine.predicate line ++ "\"")
  /-- The address behind the keyword of the command is malformed. -/
  | address {verb keyword raw : String} : (verb, keyword) ∈ Command.addressKeywords →
    CommandLine.startsWithKeyword (CommandLine.predicate line) keyword = true →
    raw = CommandLine.envelopeAddress (CommandLine.predicate line) (Text.byteLength keyword) →
    Address.parse? raw = none →
    Quotation help line (some verb) raw ("<" ++ raw ++ "> Invalid email address")

namespace Quotation

variable {help : HelpTable} {line raw text : String} {verb? : Option String}

/-- Around the quoted part stands neither a CR nor an LF. -/
theorem exists_around (h : Quotation help line verb? raw text) :
    ∃ before after, text = before ++ raw ++ after ∧
      Solid before.toList ∧ Solid after.toList := by
  cases h with
  | topic => exact ⟨_, _, rfl, Text.solid_ofList (by decide), Text.solid_ofList (by decide)⟩
  | sender => exact ⟨_, _, rfl, Text.solid_ofList (by decide), Text.solid_ofList (by decide)⟩
  | recipient => exact ⟨_, _, rfl, Text.solid_ofList (by decide), Text.solid_ofList (by decide)⟩
  | address => exact ⟨_, _, rfl, Text.solid_ofList (by decide), Text.solid_ofList (by decide)⟩

theorem part_predicate (h : Quotation help line verb? raw text) :
    raw.toList <:+: (CommandLine.predicate line).toList := by
  cases h with
  | topic | sender | recipient => exact List.infix_refl _
  | address _ _ hraw =>
      rw [hraw]
      exact Text.envelopeAddress_part _ _

theorem part (h : Quotation help line verb? raw text) : raw.toList <:+: line.toList :=
  h.part_predicate.trans (Text.predicate_part line)

theorem solid (h : Quotation help line verb? raw text)
    (hpredicate : Solid (CommandLine.predicate line).toList) : Solid text.toList := by
  obtain ⟨before, after, rfl, hbefore, hafter⟩ := h.exists_around
  exact Text.solid_append (Text.solid_append hbefore (hpredicate.part h.part_predicate)) hafter

theorem unbroken (h : Quotation help line verb? raw text) (hline : Unbroken line.toList) :
    Unbroken text.toList := by
  obtain ⟨before, after, rfl, hbefore, hafter⟩ := h.exists_around
  rw [String.toList_append, String.toList_append]
  exact ((hline.part h.part).after_solid hbefore).before_solid hafter

end Quotation

/-! ## Where the texts come from -/

section Wording

variable [Authenticator α] [Handler δ]

/-- Where a line of the reply to this line comes from, if the command of a verb replies. -/
inductive Wording (s : Session α δ) (help : HelpTable) (line : String) :
    Option String → String → Prop where
  | fixed {verb? : Option String} {text : String} : Solid text.toList →
    Wording s help line verb? text
  /-- A line ends with the name of the host. -/
  | host {verb? : Option String} {before : String} : Solid before.toList →
    Wording s help line verb? (before ++ s.settings.hostName)
  | mechanisms : Wording s help line (some Verb.ehlo)
    (Extension.auth (Authenticator.mechanisms s.auth)).text
  | challenge {text : String} : (Authenticator.answer s.auth line).result = .ok (.challenge text) →
    Wording s help line (some Verb.auth) text
  /-- The handler refuses a sender. -/
  | sender {address : Address} {rejection : Delivery.Rejection} :
    (Handler.sender s.delivery s.peer address.text).result = .error rejection →
    Wording s help line (some Verb.mail) rejection.text
  /-- The handler refuses a recipient. -/
  | recipient {address : Address} {rejection : Delivery.Rejection} :
    (Handler.recipient s.delivery s.peer address.text).result = .error rejection →
    Wording s help line (some Verb.rcpt) rejection.text
  /-- The handler refuses the message that is pending. -/
  | message {m : Message} {rejection : Delivery.Rejection} : s.pending = some m →
    (Handler.message s.delivery s.peer m).result = .error (.rejected rejection) →
    Wording s help line (some Verb.dataEnd) rejection.text
  | quoted {verb? : Option String} {raw text : String} : Quotation help line verb? raw text →
    Wording s help line verb? text

/-- If there is a reply it has lines, and this is where each of them comes from. -/
def Outcome.Worded (s : Session α δ) (help : HelpTable) (line : String) (verb? : Option String)
    (o : Outcome α δ) : Prop :=
  ∀ r, o.answer = .ok r → r.lines ≠ [] ∧ ∀ text ∈ r.lines, Wording s help line verb? text

variable {s : Session α δ} {help : HelpTable} {line text : String} {verb? : Option String}
  {o : Outcome α δ} {code : ReplyCode}

theorem Outcome.worded_answer {r : Reply} (hanswer : o.answer = .ok r) (hlines : r.lines ≠ [])
    (h : ∀ text ∈ r.lines, Wording s help line verb? text) : o.Worded s help line verb? := by
  intro r' hr
  obtain rfl := Except.ok.inj (hanswer.symm.trans hr)
  exact ⟨hlines, h⟩

theorem Outcome.worded_line (hanswer : o.answer = .ok (.line code text))
    (h : Wording s help line verb? text) : o.Worded s help line verb? :=
  worded_answer hanswer (List.cons_ne_nil _ _) (List.forall_mem_singleton.2 h)

theorem Outcome.worded_fixed {cs : List Char}
    (hanswer : o.answer = .ok (.line code (String.ofList cs))) (h : Solid cs) :
    o.Worded s help line verb? :=
  worded_line hanswer (.fixed (Text.solid_ofList h))

theorem Asked.worded {mark : Mark} {asked : Call}
    {t : Turn Delivery.Call δ (Except Delivery.Rejection Unit)} (h : Asked s mark asked t o)
    (ht : ∀ rejection, t.result = .error rejection → Wording s help line verb? rejection.text) :
    o.Worded s help line verb? := by
  cases h with
  | accepted => exact Outcome.worded_fixed rfl (by decide)
  | refused rejection hrefused => exact Outcome.worded_line rfl (ht rejection hrefused)

theorem Exchanged.worded (h : Exchanged s (Authenticator.answer s.auth line) o) :
    o.Worded s help line (some Verb.auth) := by
  cases h with
  | challenge text hresult => exact Outcome.worded_line rfl (.challenge hresult)
  | done => exact Outcome.worded_fixed rfl (by decide)
  | fault fault =>
      cases fault with
      | failed | mechanismMismatch | initialResponseNotAllowed =>
          exact Outcome.worded_fixed rfl (by decide)

/-! ## Each command -/

namespace Command

variable {dir : Directory}

theorem worded_helo : (helo.run dir line s).Worded s dir.help line (some Verb.helo) := by
  simp only [helo]
  split
  next => exact Outcome.worded_fixed rfl (by decide)
  next =>
    refine Outcome.worded_line rfl ?_
    rw [← String.empty_append (s := s.settings.hostName)]
    exact .host (Text.solid_ofList (by decide))

theorem worded_extension {x : Extension} (hx : x ∈ extensions dir s) :
    Wording s help line (some Verb.ehlo) x.text := by
  simp only [extensions, List.mem_append] at hx
  obtain (hx | hx) | hx := hx
  · obtain rfl := List.mem_singleton.1 hx
    exact .fixed (Text.solid_ofList (by decide))
  · split at hx
    next =>
      obtain rfl := List.mem_singleton.1 hx
      exact .fixed (Text.solid_ofList (by decide))
    next => cases hx
  · split at hx
    next =>
      obtain rfl := List.mem_singleton.1 hx
      exact .mechanisms
    next => cases hx

theorem worded_ehlo : (ehlo.run dir line s).Worded s dir.help line (some Verb.ehlo) := by
  simp only [ehlo]
  split
  next verb host rest hwords =>
    split
    next =>
      have hhost : host ∈ Text.words line := by
        show host ∈ CommandLine.arguments line
        simp [hwords]
      exact Outcome.worded_line rfl (.fixed
        (Text.solid_append (Text.solid_of_mem_words hhost) (Text.solid_ofList (by decide))))
    next =>
      refine Outcome.worded_answer rfl (List.cons_ne_nil _ _) ?_
      simp only [List.forall_mem_append, List.forall_mem_singleton, List.forall_mem_map]
      refine ⟨⟨?_, fun x => worded_extension⟩, .fixed (Text.solid_ofList (by decide))⟩
      rw [← String.empty_append (s := s.settings.hostName)]
      exact .host (Text.solid_ofList (by decide))
  next => exact Outcome.worded_fixed rfl (by decide)

theorem worded_helpMe (hdir : dir.help.Breakless) :
    (helpMe.run dir line s).Worded s dir.help line (some Verb.help) := by
  simp only [helpMe]
  split
  next =>
    refine Outcome.worded_answer rfl (List.cons_ne_nil _ _) ?_
    have htopic : ∀ text ∈ dir.help.topics.map ("  " ++ ·), 
        Wording s dir.help line (some Verb.help) text := by
      intro text htext
      obtain ⟨topic, htopic, rfl⟩ := List.mem_map.1 htext
      obtain ⟨e, he, rfl⟩ := List.mem_map.1 htopic
      exact .fixed (Text.solid_append (Text.solid_ofList (by decide)) (hdir e he).1)
    simp only [HelpTable.summary, List.forall_mem_append, List.forall_mem_cons]
    have hproduct : Solid ("This is " ++ Settings.productVersion ++ " server running on ").toList :=
      Text.solid_append (Text.solid_append (Text.solid_ofList (by decide)) (by decide))
        (Text.solid_ofList (by decide))
    exact ⟨⟨⟨.host hproduct, .fixed (Text.solid_ofList (by decide)),
        List.forall_mem_nil _⟩, htopic⟩, .fixed (Text.solid_ofList (by decide)),
      .fixed (Text.solid_ofList (by decide)), .fixed (Text.solid_ofList (by decide)),
      List.forall_mem_nil _⟩
  next =>
    split
    next text htopic =>
      have htext : text.Breakless := (hdir _ (Lookup.mem_of_get? htopic)).2
      exact Outcome.worded_answer rfl (List.append_ne_nil_of_right_ne_nil _ (List.cons_ne_nil _ _))
        fun l hl => .fixed (htext.reply l hl)
    next hnone => exact Outcome.worded_line rfl (.quoted (.topic ‹_› hnone))

theorem worded_startTls :
    (startTls.run dir line s).Worded s dir.help line (some Verb.startTls) := by
  simp only [startTls]
  split
  next => exact Outcome.worded_fixed rfl (by decide)
  next =>
    split
    next => exact Outcome.worded_fixed rfl (by decide)
    next =>
      split
      next => exact Outcome.worded_fixed rfl (by decide)
      next => exact Outcome.worded_fixed rfl (by decide)

theorem worded_mail : (mail.run dir line s).Worded s dir.help line (some Verb.mail) := by
  simp only [mail]
  split
  next => exact Outcome.worded_fixed rfl (by decide)
  next =>
    split
    next => exact Outcome.worded_fixed rfl (by decide)
    next =>
      split
      next => exact Outcome.worded_fixed rfl (by decide)
      next =>
        split
        next hkeyword =>
          exact Outcome.worded_line rfl (.quoted (.sender (by simpa using hkeyword)))
        next hkeyword =>
          split
          next hnone =>
            exact Outcome.worded_line rfl
              (.quoted (.address (by decide) (by simpa using hkeyword) rfl hnone))
          next address _ => exact (acceptSender_asked s address).worded fun _ => .sender

theorem worded_rcpt : (rcpt.run dir line s).Worded s dir.help line (some Verb.rcpt) := by
  simp only [rcpt]
  split
  next => exact Outcome.worded_fixed rfl (by decide)
  next =>
    split
    next => exact Outcome.worded_fixed rfl (by decide)
    next =>
      split
      next hkeyword =>
        exact Outcome.worded_line rfl (.quoted (.recipient (by simpa using hkeyword)))
      next hkeyword =>
        split
        next hnone =>
          exact Outcome.worded_line rfl
            (.quoted (.address (by decide) (by simpa using hkeyword) rfl hnone))
        next address _ => exact (acceptRecipient_asked s address).worded fun _ => .recipient

theorem worded_data : (data.run dir line s).Worded s dir.help line (some Verb.data) := by
  simp only [data]
  split
  next => exact Outcome.worded_fixed rfl (by decide)
  next =>
    split
    next => exact Outcome.worded_fixed rfl (by decide)
    next => exact Outcome.worded_fixed rfl (by decide)

theorem worded_dataEnd : (dataEnd.run dir line s).Worded s dir.help line (some Verb.dataEnd) := by
  simp only [dataEnd]
  split
  next => exact Outcome.worded_fixed rfl (by decide)
  next m hpending =>
    cases hresult : (Handler.message s.delivery s.peer m).result with
    | ok u => exact Outcome.worded_fixed rfl (by decide)
    | error fault =>
        cases fault with
        | tooMuchData => exact Outcome.worded_fixed rfl (by decide)
        | rejected rejection => exact Outcome.worded_line rfl (.message hpending hresult)
        | io cause => rintro _ ⟨⟩

theorem worded_auth : (auth.run dir line s).Worded s dir.help line (some Verb.auth) := by
  simp only [auth]
  split
  next => exact Outcome.worded_fixed rfl (by decide)
  next =>
    split
    next =>
      split
      next => exact Outcome.worded_fixed rfl (by decide)
      next => exact (exchange_exchanged s line).worded
    next =>
      unfold beginExchange
      split
      next =>
        split
        next => exact (exchange_exchanged s line).worded
        next => exact Outcome.worded_fixed rfl (by decide)
      next => exact Outcome.worded_fixed rfl (by decide)

theorem worded_command (hdir : dir.help.Breakless) :
    ∀ c ∈ CommandTable.builtinCommands (α := α) (δ := δ), 
      (c.run dir line s).Worded s dir.help line (some c.name) := by
  simp only [CommandTable.builtinCommands, List.forall_mem_cons]
  refine ⟨worded_helo, worded_ehlo, worded_mail, worded_rcpt, worded_data, worded_dataEnd, ?rset,
    ?noop, ?quit, worded_helpMe hdir, worded_auth, worded_startTls, List.forall_mem_nil _⟩
  case rset => exact Outcome.worded_fixed rfl (by decide)
  case noop => exact Outcome.worded_fixed rfl (by decide)
  case quit => exact Outcome.worded_fixed rfl (by decide)

end Command

/-! ## All lines -/

theorem worded_run (verb : String) :
    (CommandTable.builtin.run verb line s).Worded s
      (CommandTable.builtin (α := α) (δ := δ)).directory.help line (some verb) := by
  unfold CommandTable.run
  split
  next => exact Outcome.worded_fixed rfl (by decide)
  next c hc =>
    obtain ⟨hmem, hname⟩ := CommandTable.mem_of_command? hc
    split
    next => exact Outcome.worded_fixed rfl (by decide)
    next =>
      rw [← hname]
      exact Command.worded_command CommandTable.breakless_builtin c hmem

theorem worded_dispatch (line : String) (s : Session α δ) :
    (CommandTable.builtin.dispatch (.line line) s).Worded s
      (CommandTable.builtin (α := α) (δ := δ)).directory.help line (s.verb? (.line line)) := by
  simp only [CommandTable.dispatch, CommandTable.dispatchLine, Session.verb?]
  split
  next => exact worded_run _
  next =>
    split
    next hnone =>
      rw [CommandLine.noVerb]
      exact Outcome.worded_fixed rfl (by decide)
    next hverb =>
      rw [hverb]
      exact worded_run _

end Wording

/-! ## Replies that can be read -/

/-- The reply can be read, if there is one. -/
def Outcome.Readable (o : Outcome α δ) : Prop := ∀ r, o.answer = .ok r → r.Readable

/-- What is told to clients in the words of others can be read. -/
structure Session.Discreet (P : δ → Prop) (s : Session α δ) : Prop where
  hostName : Unbroken s.settings.hostName.toList
  delivery : P s.delivery

section Dispatch

variable [Authenticator α] [Handler δ] {s : Session α δ} {P : δ → Prop} {help : HelpTable}
  {line : String} {verb? : Option String}

theorem Wording.unbroken {text : String} (hauth : Auth.Legible α) (hP : Delivery.Legible P)
    (hs : s.Discreet P) (hline : Unbroken line.toList) (h : Wording s help line verb? text) :
    Unbroken text.toList := by
  cases h with
  | fixed hsolid => exact hsolid.unbroken
  | host hbefore =>
      rw [String.toList_append]
      exact hs.hostName.after_solid hbefore
  | mechanisms =>
      rw [Extension.text, String.toList_append]
      exact (Text.solid_intercalate (Text.solid_ofList (by decide))
        (hauth.mechanisms s.auth)).unbroken.after_solid (Text.solid_ofList (by decide))
  | challenge hresult => exact hauth.challenge hresult
  | sender hrefused => exact (hP.sender s.peer _ hs.delivery).2 _ hrefused
  | recipient hrefused => exact (hP.recipient s.peer _ hs.delivery).2 _ hrefused
  | message _ hrefused => exact (hP.message s.peer _ hs.delivery).2 _ hrefused
  | quoted hquoted => exact hquoted.unbroken hline

theorem Outcome.Worded.readable {o : Outcome α δ} (hauth : Auth.Legible α)
    (hP : Delivery.Legible P) (hs : s.Discreet P) (hline : Unbroken line.toList)
    (h : o.Worded s help line verb?) : o.Readable := fun r hr =>
  ⟨(h r hr).1, fun text htext => ((h r hr).2 text htext).unbroken hauth hP hs hline⟩

/-- What is replied to a frame can be read, if no CRLF stands in a line. -/
theorem readable_dispatch (hauth : Auth.Legible α) (hP : Delivery.Legible P) (hs : s.Discreet P)
    {frame : Frame} (hframe : ∀ line, frame = .line line → Unbroken line.toList) :
    (CommandTable.builtin.dispatch frame s).Readable := by
  cases frame with
  | message m =>
      have hpending : Session.Discreet P { s with pending := some m } := ⟨hs.hostName, hs.delivery⟩
      have hworded : (CommandTable.builtin.dispatch (.message m) s).Worded
          { s with pending := some m } (CommandTable.builtin (α := α) (δ := δ)).directory.help
          Verb.dataEnd (some Verb.dataEnd) := worded_run Verb.dataEnd
      exact hworded.readable hauth hP hpending (Solid.unbroken (by decide))
  | line text => exact (worded_dispatch text s).readable hauth hP hs (hframe text rfl)

/-- What is told in the words of others can still be read after a frame. -/
theorem Session.Discreet.dispatch (hP : Delivery.Legible P) (hs : s.Discreet P) (frame : Frame) :
    (CommandTable.builtin.dispatch frame s).session.Discreet P := by
  have he := dispatch_effect s frame
  generalize CommandTable.builtin.dispatch frame s = o at he
  refine ⟨by rw [he.settings]; exact hs.hostName, ?_⟩
  cases he with
  | reset => exact hP.reset hs.delivery
  | startTls => exact hP.reset hs.delivery
  | sender address =>
      rw [(acceptSender_asked s address).session]
      exact (hP.sender s.peer address hs.delivery).1
  | recipient address =>
      rw [(acceptRecipient_asked s address).session]
      exact (hP.recipient s.peer address hs.delivery).1
  | exchange text =>
      rw [(exchange_exchanged s text).session]
      exact hs.delivery
  | deliver m => exact hP.reset (hP.message s.peer m hs.delivery).1
  | stay | greet | quit | data | cancel => exact hs.delivery

end Dispatch

end SmtpReceiver
