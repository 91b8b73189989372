import SmtpReceiver.Framing.Decoder
import SmtpReceiver.Proofs.Reply.Commands

/-!
# Breaks within a reply

A line ends at a CRLF, and so a CR or an LF alone may stand in it.  Most of what commands say
cannot have one, with the mechanisms that the receiver comes with.  Words have none, since
both are blank, and neither have addresses or base64.  But a quotation is not cut into words.
It has the breaks that the quoted part of the line has, and these are all that are ever
replied to a line (`breaks_are_quoted`).

To a client that ends lines at a CR or an LF alone, what is quoted behind such a break is a
line of its own.  It may be a reply that the receiver has never given (`help_quotes_reply`).
No reply can be taken for another one if nothing behind the verb has a break.
-/

namespace SmtpReceiver

open Delivery (Fanout Handler)
open Text (Base64 Bytes LawfulBase64 Solid Unbroken decode)

/-! ## A client that ends lines at any break -/

namespace Text

/-- A CR or an LF. -/
def isBreak (c : Char) : Bool := c == '\r' || c == '\n'

/-- What stands between breaks, without what is empty. -/
def pieces (s : String) : List String :=
  ((s.toList.splitOnP isBreak).filter fun cs => !cs.isEmpty).map String.ofList

theorem Solid.isBreak_eq_false {cs : List Char} (h : Solid cs) : ∀ c ∈ cs, isBreak c = false := by
  intro c hc
  rw [isBreak, Bool.or_eq_false_iff, beq_eq_false_iff_ne, beq_eq_false_iff_ne]
  exact h c hc

/-- A piece ends at a CRLF, since nothing stands between the CR and the LF. -/
theorem pieces_line {t : String} (ht : t ≠ "") (hsolid : Solid t.toList) (rest : String) :
    pieces (t ++ ("\r\n" ++ rest)) = t :: pieces rest := by
  have hchars : (t ++ ("\r\n" ++ rest)).toList = t.toList ++ '\r' :: ([] ++ '\n' :: rest.toList) := by
    rw [String.toList_append, String.toList_append]
    rfl
  have hne : t.toList.isEmpty = false := by
    rw [List.isEmpty_eq_false_iff]
    exact fun hnil => ht (String.toList_eq_nil_iff.1 hnil)
  rw [pieces, hchars,
    List.splitOnP_append_cons_of_forall_mem hsolid.isBreak_eq_false '\r' (by decide),
    List.splitOnP_append_cons_of_forall_mem (List.forall_mem_nil _) '\n' (by decide)]
  simp only [List.filter_cons, hne, Bool.not_false, if_true, List.isEmpty_nil, Bool.not_true,
    Bool.false_eq_true, if_false, List.map_cons, String.ofList_toList]
  rfl

/-- Lines without a break are the pieces of what is written of them. -/
theorem pieces_intercalate (l : String) (ls : List String)
    (h : ∀ t ∈ l :: ls, t ≠ "" ∧ Solid t.toList) :
    pieces (String.intercalate "\r\n" (l :: ls) ++ "\r\n") = l :: ls := by
  induction ls generalizing l with
  | nil =>
      obtain ⟨hne, hsolid⟩ := h l List.mem_cons_self
      rw [String.intercalate_singleton, ← String.append_empty (s := "\r\n"),
        pieces_line hne hsolid]
      rfl
  | cons next ls ih =>
      obtain ⟨⟨hne, hsolid⟩, hrest⟩ := List.forall_mem_cons.1 h
      rw [String.intercalate_cons_cons, String.append_assoc, String.append_assoc,
        pieces_line hne hsolid, ih next hrest]

end Text

namespace Reply

/-- The replies in the bytes that a client receives, if it ends lines at any break. -/
def readLoosely? (bs : Bytes) : Option (List Reply) := ofLines? (Text.pieces (decode bs))

theorem solid_of_mem_marked {code : ReplyCode} {lines : List String}
    (h : ∀ l ∈ lines, Solid l.toList) : ∀ l ∈ marked code lines, l ≠ "" ∧ Solid l.toList := by
  have hne (rest : String) : codeText code ++ rest ≠ "" := by
    intro hempty
    rw [← String.toList_eq_nil_iff, String.toList_append] at hempty
    exact codeText_ne_nil (List.append_eq_nil_iff.1 hempty).1
  intro written hwritten
  obtain rfl | ⟨mark, hmark, l, hl, rfl⟩ := of_mem_marked hwritten
  · exact ⟨fun hempty => codeText_ne_nil (String.toList_eq_nil_iff.2 hempty), solid_codeText code⟩
  · refine ⟨?_, Text.solid_append (Text.solid_append (solid_codeText code) hmark) (h l hl)⟩
    rw [String.append_assoc]
    exact hne _

/-- A reply without breaks is read as it is. -/
theorem readLoosely?_wire {r : Reply} (hlines : r.lines ≠ []) (h : ∀ l ∈ r.lines, Solid l.toList) :
    readLoosely? r.wire = some [r] := by
  have hpieces : Text.pieces (r.text ++ "\r\n") = marked r.code r.lines := by
    have hsolid : ∀ l ∈ marked r.code r.lines, l ≠ "" ∧ Solid l.toList := solid_of_mem_marked h
    rw [text]
    cases hmarked : marked r.code r.lines with
    | nil => exact absurd hmarked (marked_ne_nil _ _)
    | cons l ls => exact Text.pieces_intercalate l ls (hmarked ▸ hsolid)
  have hof := ofLines?_marked r.code [] hlines
  rw [List.append_nil] at hof
  rw [readLoosely?, wire, Text.decode_encode, hpieces, hof]
  rfl

end Reply

/-! ## Where there is a break -/

/-- Authenticators that the receiver comes with, and composites of them, so many levels deep. -/
def Auth.Own : Nat → Type
  | 0 => Open ⊕ Plain ⊕ Login
  | n + 1 => (Open ⊕ Plain ⊕ Login) ⊕ Composite (Own n)

namespace Auth.Own

/-- They take part in exchanges. -/
instance authenticator [Base64] : (n : Nat) → Authenticator (Own n)
  | 0 => inferInstanceAs (Authenticator (Open ⊕ Plain ⊕ Login))
  | n + 1 =>
    have := authenticator n
    inferInstanceAs (Authenticator ((Open ⊕ Plain ⊕ Login) ⊕ Composite (Own n)))

theorem breakless [Base64] [LawfulBase64] : (n : Nat) → Breakless (Own n)
  | 0 => Open.breakless.sum (Plain.breakless.sum Login.breakless)
  | n + 1 => (Open.breakless.sum (Plain.breakless.sum Login.breakless)).sum (breakless n).composite

end Auth.Own

section Breaks

variable {α ω : Type} [Auth.Authenticator α] {s : Session α (Fanout ω)} {help : HelpTable}
  {line text : String} {verb? : Option String}

/-- What a listener says of the message that is pending, when its end is asked for. -/
def RefusesPending (s : Session α (Fanout ω)) (verb? : Option String) (text : String) : Prop :=
  verb? = some Verb.dataEnd ∧ ∃ m rejection, s.pending = some m ∧
    (Handler.message s.delivery s.peer m).result = .error (.rejected rejection) ∧
    text = rejection.text

omit [Auth.Authenticator α] in
theorem RefusesPending.pending (h : RefusesPending s verb? text) : s.pending ≠ none := by
  obtain ⟨-, m, -, hpending, -⟩ := h
  rw [hpending]
  exact Option.some_ne_none m

/-- Only what quotes the line can have a break, and what a listener says. -/
theorem Wording.solid_or (hauth : Auth.Breakless α) (hhost : Solid s.settings.hostName.toList)
    (h : Wording s help line verb? text) :
    Solid text.toList ∨ (∃ raw, Quotation help line verb? raw text) ∨
      RefusesPending s verb? text := by
  cases h with
  | fixed hsolid => exact .inl hsolid
  | host hbefore => exact .inl (Text.solid_append hbefore hhost)
  | mechanisms =>
      exact .inl (Text.solid_append (Text.solid_ofList (by decide))
        (Text.solid_intercalate (Text.solid_ofList (by decide)) (hauth.mechanisms s.auth)))
  | challenge hresult => exact .inl (hauth.challenge hresult)
  | sender hrefused => cases hrefused
  | recipient hrefused => exact .inl (Delivery.Fanout.recipient_rejected hrefused)
  | message hpending hrefused => exact .inr (.inr ⟨rfl, _, _, hpending, hrefused, rfl⟩)
  | quoted hquoted => exact .inr (.inl ⟨_, hquoted⟩)

end Breaks

section Own

variable [Base64] {n : Nat} {ω : Type} {s : Session (Auth.Own n) (Fanout ω)}

/-- The help texts of the receiver with the mechanisms that it comes with. -/
def ownHelp (n : Nat) (ω : Type) : HelpTable :=
  (CommandTable.builtin (α := Auth.Own n) (δ := Fanout ω)).directory.help

/-- The outcome of a line, or of any command that is given it, and the verb of the command that
answers. -/
inductive OutcomeOf (s : Session (Auth.Own n) (Fanout ω)) (line : String) :
    Option String → Outcome (Auth.Own n) (Fanout ω) → Prop where
  | dispatched :
    OutcomeOf s line (s.verb? (.line line)) (CommandTable.builtin.dispatch (.line line) s)
  | run {c : Command (Auth.Own n) (Fanout ω)} : c ∈ CommandTable.builtinCommands →
    OutcomeOf s line (some c.name)
      (c.run (CommandTable.builtin (α := Auth.Own n) (δ := Fanout ω)).directory line s)

theorem OutcomeOf.worded {line : String} {verb? : Option String}
    {o : Outcome (Auth.Own n) (Fanout ω)} (h : OutcomeOf s line verb? o) :
    o.Worded s (ownHelp n ω) line verb? := by
  cases h with
  | dispatched => exact worded_dispatch line s
  | run hc => exact Command.worded_command CommandTable.breakless_builtin _ hc

/-- With the mechanisms that the receiver comes with, a CR or an LF stands in a reply to a line only
where the command that answers quotes the line, and it is one of the line.  `HELP` quotes a topic
that there is no help on, `MAIL` and `RCPT` quote parameters without the keyword, and addresses that
are malformed.  Or the break is in the words of a listener, which are told only if a message is
pending.  A reply can be read if no CRLF stands in the line, and no client can take it for another
one if neither a CR nor an LF stands behind the verb. -/
theorem breaks_are_quoted [LawfulBase64] (hhost : Solid s.settings.hostName.toList) (line : String)
    {verb? : Option String} {o : Outcome (Auth.Own n) (Fanout ω)} (ho : OutcomeOf s line verb? o)
    {r : Reply} (hr : o.answer = .ok r) :
    (∀ text ∈ r.lines, Solid text.toList ∨ RefusesPending s verb? text ∨
      ∃ raw before after, Quotation (ownHelp n ω) line verb? raw text ∧ ¬Solid raw.toList ∧
        text = before ++ raw ++ after ∧ Solid before.toList ∧ Solid after.toList) ∧
    (s.pending = none → (Unbroken line.toList → Reply.read? r.wire = some [r]) ∧
      (Solid (CommandLine.predicate line).toList → Reply.readLoosely? r.wire = some [r])) := by
  obtain ⟨hlines, hwording⟩ := ho.worded r hr
  have hcases (text : String) (htext : text ∈ r.lines) :=
    (hwording text htext).solid_or (Auth.Own.breakless n) hhost
  have hquotes (hpending : s.pending = none) (text : String) (htext : text ∈ r.lines) :
      Solid text.toList ∨ ∃ raw, Quotation (ownHelp n ω) line verb? raw text := by
    obtain hsolid | hquoted | hrefuses := hcases text htext
    · exact .inl hsolid
    · exact .inr hquoted
    · exact absurd hpending hrefuses.pending
  refine ⟨fun text htext => ?_, fun hpending => ⟨fun hline => Reply.read?_wire ⟨hlines, ?_⟩,
    fun hpredicate => Reply.readLoosely?_wire hlines ?_⟩⟩
  · obtain hsolid | ⟨raw, hquoted⟩ | hrefuses := hcases text htext
    · exact .inl hsolid
    · obtain ⟨before, after, rfl, hbefore, hafter⟩ := hquoted.exists_around
      by_cases hraw : Solid raw.toList
      · exact .inl (Text.solid_append (Text.solid_append hbefore hraw) hafter)
      · exact .inr (.inr ⟨raw, before, after, hquoted, hraw, rfl, hbefore, hafter⟩)
    · exact .inr (.inl hrefuses)
  · intro text htext
    obtain hsolid | ⟨raw, hquoted⟩ := hquotes hpending text htext
    · exact hsolid.unbroken
    · exact hquoted.unbroken hline
  · intro text htext
    obtain hsolid | ⟨raw, hquoted⟩ := hquotes hpending text htext
    · exact hsolid
    · exact hquoted.solid hpredicate

end Own

theorem breaks_are_quoted_topic :
    let s : Session (Auth.Own 0) (Fanout Unit) :=
      { settings := {}, auth := .inl {}, delivery := { listeners := [], world := () } }
    let line := "HELP me"
    let o := CommandTable.builtin.dispatch (.line line) s
    let r : Reply := .line .notSupported "HELP topic \"me\" unknown"
    Solid s.settings.hostName.toList ∧ OutcomeOf s line (some Verb.help) o ∧ o.answer = .ok r ∧
      Reply.readLoosely? r.wire = some [r] := by
  intro s line o r
  have hhost : Solid s.settings.hostName.toList := by decide
  have hverb : s.verb? (.line line) = some Verb.help := by decide +kernel
  have ho : OutcomeOf s line (some Verb.help) o := hverb ▸ .dispatched
  have hr : o.answer = .ok r := by decide +kernel
  have hpredicate : Solid (CommandLine.predicate line).toList := by decide +kernel
  exact ⟨hhost, ho, hr, ((breaks_are_quoted hhost line ho hr).2 rfl).2 hpredicate⟩

/-- A line of a client that is told a reply of its own choice, if it ends lines at any break. -/
theorem help_quotes_reply :
    let s : Session (Auth.Own 0) (Fanout Unit) :=
      { settings := {}, auth := .inl {}, delivery := { listeners := [], world := () } }
    let line := "HELP a\n250 b"
    let r : Reply := .line .notSupported "HELP topic \"a\n250 b\" unknown"
    (Framing.Decoder.decode s.settings {} false (Text.encode (line ++ "\r\n"))).result
        = .ok (some (.line line)) ∧
      Solid s.settings.hostName.toList ∧
      (CommandTable.builtin.dispatch (.line line) s).answer = .ok r ∧
      ¬(∀ text ∈ r.lines, Solid text.toList) ∧
      Reply.readLoosely? r.wire
        = some [.line .notSupported "HELP topic \"a", .line .ok "b\" unknown"] := by
  intro s line r
  refine ⟨?_, by decide, ?_, ?_, ?_⟩
  · decide +kernel
  · decide +kernel
  · decide +kernel
  · decide +kernel

end SmtpReceiver
