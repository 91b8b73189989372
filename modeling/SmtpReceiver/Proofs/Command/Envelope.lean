import SmtpReceiver.Auth.Open
import SmtpReceiver.Delivery.Fanout
import SmtpReceiver.Proofs.Command.Effect
import SmtpReceiver.Proofs.Command.Parts
import SmtpReceiver.Proofs.Reply.Wording

/-!
# Addresses in commands

A line names an address by a verb, a keyword and the address, which is *written* in brackets,
behind a bracket that is not closed, or bare.  There may be blanks between the three, and there
must be some behind the verb.  The verb and the keyword may be spelled in any case.

However it is written, the address is what the command reads (`Names.predicate_eq`), since no
blank and no bracket stands in an address.  So the delivery handler is told the address itself, and
once.  It is never told anything that is no address, for an `Address` carries the proof that it
is one.
-/

namespace SmtpReceiver

open Auth (Authenticator Open)
open Delivery (Fanout Handler)
open Framing (Frame)
open Text

variable {α δ : Type}

/-! ## Written addresses -/

/-- An address as it may be written in a line. -/
inductive Written (x : String) : String → Prop where
  | bracketed (rest : String) : Written x ("<" ++ x ++ ">" ++ rest)
  | unclosed {b : String} : AllBlank b.toList → Written x ("<" ++ x ++ b)
  | bare {b : String} : AllBlank b.toList → Written x (x ++ b)

namespace Written

variable {x form : String}

theorem untilBracket_append {cs : List Char} (h : ∀ c ∈ cs, c ≠ '>') (rest : List Char) :
    CommandLine.untilBracket (cs ++ '>' :: rest) = cs := by
  have hall : ∀ c ∈ cs, (c != '>') = true := fun c hc => bne_iff_ne.2 (h c hc)
  rw [CommandLine.untilBracket, List.takeWhile_append_of_pos hall, List.takeWhile_cons_of_neg (by simp),
    List.append_nil]

/-- However it is written, the address is read. -/
theorem unbracketed_trimChars (hx : isAddress x = true) (h : Written x form) :
    CommandLine.unbracketed (trimChars form.toList) = x.toList := by
  have hharmless : ∀ c ∈ x.toList, Harmless c := harmless_of_isAddress hx
  have hblank : NoBlank x.toList := fun c hc => (hharmless c hc).not_blank
  have hclose : ∀ c ∈ x.toList, c ≠ '>' := fun c hc => (hharmless c hc).not_bracket.2
  have hopen : NoBlank ('<' :: x.toList) := List.forall_mem_cons.2 ⟨by decide, hblank⟩
  cases h with
  | bracketed rest =>
      have hclosed : NoBlank ('<' :: x.toList ++ ['>']) :=
        List.forall_mem_append.2 ⟨hopen, List.forall_mem_singleton.2 (by decide)⟩
      obtain ⟨ds, b, -, -, htrim⟩ :=
        (trimmed_of_noBlank hclosed).trimChars_append (List.cons_ne_nil _ _) rest.toList
      have hform : ("<" ++ x ++ ">" ++ rest).toList = '<' :: x.toList ++ ['>'] ++ rest.toList := by
        simp only [String.toList_append]
        rfl
      rw [hform, htrim, List.append_assoc]
      exact untilBracket_append hclose ds
  | unclosed hb =>
      have hall : ∀ c ∈ x.toList, (c != '>') = true := fun c hc => bne_iff_ne.2 (hclose c hc)
      rw [String.toList_append, trimChars_append_blank hb, String.toList_append]
      refine (congrArg CommandLine.unbracketed (trimChars_of_no_blank hopen)).trans ?_
      exact List.takeWhile_eq_self_iff.2 hall
  | bare hb =>
      rw [String.toList_append, trimChars_append_blank hb, trimChars_of_no_blank hblank]
      unfold CommandLine.unbracketed
      split
      next cs hcs => exact absurd rfl (hharmless '<' (hcs ▸ List.mem_cons_self)).not_bracket.1
      next => rfl

theorem not_blank (hx : isAddress x = true) (h : Written x form) : ¬ AllBlank form.toList := by
  intro hblank
  have hread := h.unbracketed_trimChars hx
  have hnil : trimChars form.toList = [] := trimChars_append_blank hblank []
  rw [hnil] at hread
  exact ne_nil_of_isAddress hx hread.symm

end Written

/-! ## Lines that name an address -/

/-- A line that names an address behind a verb and a keyword. -/
inductive Names (verb keyword x : String) : String → Prop where
  | intro {v gap k space form : String} : sameFold v verb = true → gap ≠ "" →
    AllBlank gap.toList → sameFold k keyword = true → AllBlank space.toList → Written x form →
    Names verb keyword x (v ++ gap ++ k ++ space ++ form)

namespace Names

variable {verb keyword x line : String}

/-- The verb of the line. -/
theorem verb_eq (h : Names verb keyword x line) (hverb : NoBlank verb.toList)
    (hsize : 4 ≤ byteLength verb) : CommandLine.verb? line = some (upper verb) := by
  cases h with
  | @intro v gap k space form hv hne hgap =>
      have hv : upper v = upper verb := eq_of_beq hv
      have hsize : 4 ≤ byteLength v := by rwa [byteLength_eq, byteCount_of_upper hv, ← byteLength_eq]
      rw [String.append_assoc, String.append_assoc, String.append_assoc, ← hv]
      exact CommandLine.verb?_of_word (noBlank_of_upper hv hverb) hsize (head?_blank_append hgap hne _)

/-- The predicate is the keyword, spelled somehow, and behind it stands the address. -/
theorem predicate_eq (h : Names verb keyword x line) (hsize : byteLength verb = 4)
    (hkeyword : NoBlank keyword.toList) (hne : keyword ≠ "")
    (hx : isAddress x = true) :
    CommandLine.startsWithKeyword (CommandLine.predicate line) keyword = true ∧
      CommandLine.envelopeAddress (CommandLine.predicate line) (byteLength keyword) = x := by
  cases h with
  | @intro v gap k space form hv _ hgap hk hspace hform =>
      have hv : upper v = upper verb := eq_of_beq hv
      have hk : upper k = upper keyword := eq_of_beq hk
      have hfour : byteCount v.toList = 4 := by rw [byteCount_of_upper hv, ← byteLength_eq, hsize]
      have hlength : byteLength keyword = byteCount k.toList := by
        rw [byteLength_eq, byteCount_of_upper hk]
      have hknil : k.toList ≠ [] := by
        intro hnil
        have hcount : byteLength keyword = 0 := by rw [hlength, hnil, byteCount]
        rw [byteLength_eq] at hcount
        have hpos : 0 < byteCount keyword.toList :=
          byteCount_pos fun h => hne (String.toList_inj.1 h)
        omega
      obtain ⟨ds, b, hds, hb, htrim⟩ := (trimmed_of_noBlank (noBlank_of_upper hk hkeyword)).trimChars_append
        hknil (space ++ form).toList
      have hpredicate : CommandLine.predicate (v ++ gap ++ k ++ space ++ form)
          = k ++ String.ofList ds := by
        rw [CommandLine.predicate_eq, ← hfour]
        have hline : (v ++ gap ++ k ++ space ++ form).toList
            = v.toList ++ (gap.toList ++ (k.toList ++ (space ++ form).toList)) := by
          simp only [String.toList_append, List.append_assoc]
        rw [hline, behind_append, trimChars_blank_append hgap, htrim, String.ofList_append,
          String.ofList_toList]
      have haddress : trimChars ds = trimChars form.toList := by
        rw [← trimChars_append_blank hb ds, ← hds, String.toList_append,
          trimChars_blank_append hspace]
      rw [hpredicate]
      refine ⟨CommandLine.startsWithKeyword_append hk _, ?_⟩
      rw [CommandLine.envelopeAddress_eq, hlength, String.toList_append, behind_append,
        String.toList_ofList, haddress, hform.unbracketed_trimChars hx, String.ofList_toList]

/-- The line is more than the verb and the keyword. -/
theorem not_bare (h : Names verb keyword x line) (hx : isAddress x = true) (gap : String)
    (hgap : AllBlank gap.toList) : sameFold (trim line) (verb ++ gap ++ keyword) = false := by
  refine Bool.eq_false_iff.2 fun hsame => ?_
  cases h with
  | intro hv _ hgap' hk hspace hform =>
      have hletters := dense_of_upper (eq_of_beq hsame)
      rw [trim, String.toList_ofList, dense_trimChars] at hletters
      simp only [String.toList_append, dense_append, List.map_append,
        dense_of_upper (eq_of_beq hv), dense_of_upper (eq_of_beq hk), dense_eq_nil.2 hgap,
        dense_eq_nil.2 hgap', dense_eq_nil.2 hspace, List.append_nil,
        List.append_right_eq_self, List.map_eq_nil_iff] at hletters
      exact hform.not_blank hx (dense_eq_nil.1 hletters)

end Names

/-! ## The commands -/

theorem CommandTable.command?_mail [Authenticator α] [Handler δ] :
    (builtin (α := α) (δ := δ)).command? Verb.mail = some .mail :=
  command?_of_mem (c := .mail) (by simp [builtinCommands])

theorem CommandTable.command?_rcpt [Authenticator α] [Handler δ] :
    (builtin (α := α) (δ := δ)).command? Verb.rcpt = some .rcpt :=
  command?_of_mem (c := .rcpt) (by simp [builtinCommands])

section Sessions

variable [Authenticator α] (s : Session α δ)

/-- The client may name a sender. -/
structure Session.AwaitsSender : Prop where
  greeted : s.progress.greeted = true
  sender : s.progress.hasSender = false
  gate : s.mustAuthenticate = false
  exchange : s.progress.authenticating = false

/-- The client may name a recipient. -/
structure Session.AwaitsRecipient : Prop where
  sender : s.progress.hasSender = true
  room : Command.isFull s = false
  gate : s.mustAuthenticate = false
  exchange : s.progress.authenticating = false

end Sessions

section Lines

variable [Authenticator α] [Handler δ] {s : Session α δ} {x line : String}

/-- A line that names a sender has the handler told of it. -/
theorem dispatch_names_sender (hs : s.AwaitsSender) (hx : isAddress x = true)
    (h : Names Verb.mail Command.fromKeyword x line) :
    CommandTable.builtin.dispatch (.line line) s = Command.acceptSender s ⟨x, hx⟩ := by
  have hverb : s.verb? (.line line) = some Verb.mail := by
    rw [Session.verb?, if_neg (Bool.eq_false_iff.1 hs.exchange)]
    exact h.verb_eq (by decide) (by decide)
  have hbare : sameFold (trim line) "MAIL FROM:" = false := h.not_bare hx " " (by decide)
  obtain ⟨hkeyword, haddress⟩ := h.predicate_eq (by decide) (by decide) (by decide) hx
  rw [dispatch_of_command hverb CommandTable.command?_mail, hs.gate, Bool.and_false,
    if_neg Bool.false_ne_true]
  simp only [Command.mail, hs.greeted, hs.sender, hbare, hkeyword, haddress, Bool.not_true,
    Bool.false_eq_true, if_false, Address.parse?_text ⟨x, hx⟩]

/-- A line that names a recipient has the handler told of it. -/
theorem dispatch_names_recipient (hs : s.AwaitsRecipient) (hx : isAddress x = true)
    (h : Names Verb.rcpt Command.toKeyword x line) :
    CommandTable.builtin.dispatch (.line line) s = Command.acceptRecipient s ⟨x, hx⟩ := by
  have hverb : s.verb? (.line line) = some Verb.rcpt := by
    rw [Session.verb?, if_neg (Bool.eq_false_iff.1 hs.exchange)]
    exact h.verb_eq (by decide) (by decide)
  obtain ⟨hkeyword, haddress⟩ := h.predicate_eq (by decide) (by decide) (by decide) hx
  rw [dispatch_of_command hverb CommandTable.command?_rcpt, hs.gate, Bool.and_false,
    if_neg Bool.false_ne_true]
  simp only [Command.rcpt, hs.sender, hs.room, hkeyword, haddress, Bool.not_true,
    Bool.false_eq_true, if_false, Address.parse?_text ⟨x, hx⟩]

end Lines

/-! ## All frames -/

/-- The address that the delivery handler is told. -/
def Call.address? : Call → Option String
  | .sender _ address => some address
  | .recipient _ address => some address
  | _ => none

namespace Asked

variable {s : Session α δ} {mark : Mark} {asked : Call} {o : Outcome α δ}
  {t : Turn Delivery.Call δ (Except Delivery.Rejection Unit)}

theorem eq_of_ok (h : Asked s mark asked t o) (hresult : t.result = .ok ()) :
    o.answer = .ok (.line .ok "Ok") ∧
      o.session = { s with progress := s.progress.mark mark, delivery := t.next } := by
  cases h with
  | accepted => exact ⟨rfl, rfl⟩
  | refused rejection herror =>
      rw [hresult] at herror
      cases herror

theorem addresses (h : Asked s mark asked t o) (hasked : ∀ x ∈ asked.address?, isAddress x = true) :
    ∀ c ∈ o.calls, ∀ x ∈ c.address?, isAddress x = true := by
  rw [h.calls]
  refine List.forall_mem_cons.2 ⟨hasked, fun c hc x hx => ?_⟩
  obtain ⟨call, -, rfl⟩ := List.mem_map.1 hc
  cases hx

end Asked

/-- The authenticator is told no address. -/
theorem addresses_of_auth (calls : List Auth.Call) :
    ∀ c ∈ calls.map Call.auth, ∀ x ∈ c.address?, isAddress x = true := by
  intro c hc x hx
  obtain ⟨call, -, rfl⟩ := List.mem_map.1 hc
  cases hx

variable [Authenticator α] [Handler δ]

/-- The delivery handler is told only what is an address. -/
theorem Effect.addresses {s : Session α δ} {frame : Frame} {o : Outcome α δ}
    (he : Effect s frame o) : ∀ c ∈ o.calls, ∀ x ∈ c.address?, isAddress x = true := by
  cases he with
  | stay | greet | quit | reset | data => exact List.forall_mem_nil _
  | startTls | cancel => exact addresses_of_auth _
  | exchange text =>
      obtain ⟨calls, hcalls⟩ := (exchange_exchanged s text).calls
      rw [hcalls]
      exact addresses_of_auth calls
  | sender address =>
      refine (acceptSender_asked s address).addresses ?_
      rintro _ ⟨⟩
      exact address.wellFormed
  | recipient address =>
      refine (acceptRecipient_asked s address).addresses ?_
      rintro _ ⟨⟩
      exact address.wellFormed
  | deliver m =>
      refine List.forall_mem_cons.2 ⟨nofun, fun c hc x hx => ?_⟩
      obtain ⟨call, -, rfl⟩ := List.mem_map.1 hc
      cases hx

/-- An address that is named in its turn is told to the delivery handler once, however it is
written, and the line is accepted if the handler accepts the address.  The handler is never told
anything that is no address. -/
theorem named_address_is_told (s : Session α δ) :
    (s.AwaitsSender → ∀ {x line : String}, isAddress x = true →
      Names Verb.mail Command.fromKeyword x line →
        let t := Handler.sender s.delivery s.peer x
        let o := CommandTable.builtin.dispatch (.line line) s
        o.calls = .sender s.peer x :: t.calls.map .delivery ∧
          (t.result = .ok () →
            o.answer = .ok (.line .ok "Ok") ∧
              o.session
                = { s with progress := s.progress.mark (.sender true), delivery := t.next })) ∧
    (s.AwaitsRecipient → ∀ {x line : String}, isAddress x = true →
      Names Verb.rcpt Command.toKeyword x line →
        let t := Handler.recipient s.delivery s.peer x
        let o := CommandTable.builtin.dispatch (.line line) s
        o.calls = .recipient s.peer x :: t.calls.map .delivery ∧
          (t.result = .ok () →
            o.answer = .ok (.line .ok "Ok") ∧
              o.session = { s with progress := s.progress.mark .recipient, delivery := t.next })) ∧
    ∀ frame, ∀ c ∈ (CommandTable.builtin.dispatch frame s).calls,
      ∀ x ∈ c.address?, isAddress x = true := by
  refine ⟨?_, ?_, fun frame => (dispatch_effect s frame).addresses⟩
  · intro hs x line hx h t o
    have hasked : Asked s (.sender true) (.sender s.peer x) t o := by
      rw [show o = _ from dispatch_names_sender hs hx h]
      exact acceptSender_asked s ⟨x, hx⟩
    exact ⟨hasked.calls, hasked.eq_of_ok⟩
  · intro hs x line hx h t o
    have hasked : Asked s .recipient (.recipient s.peer x) t o := by
      rw [show o = _ from dispatch_names_recipient hs hx h]
      exact acceptRecipient_asked s ⟨x, hx⟩
    exact ⟨hasked.calls, hasked.eq_of_ok⟩

theorem named_address_is_told_spelled_oddly :
    let s : Session Open (Fanout Unit) :=
      { settings := {}, progress := { greeted := true }, auth := {}
        delivery := { listeners := [], world := () } }
    let o := CommandTable.builtin.dispatch (.line "mAil \tfrom:  <a@b> SIZE=1") s
    o.calls = [.sender {} "a@b"] ∧ o.answer = .ok (.line .ok "Ok") := by
  intro s o
  have hs : s.AwaitsSender := ⟨rfl, rfl, rfl, rfl⟩
  have hform : Written "a@b" "<a@b> SIZE=1" := .bracketed " SIZE=1"
  have hnames : Names Verb.mail Command.fromKeyword "a@b"
      ("mAil" ++ " \t" ++ "from:" ++ "  " ++ "<a@b> SIZE=1") :=
    .intro (by decide) (by decide) (by decide) (by decide) (by decide) hform
  obtain ⟨hcalls, hanswer⟩ := (named_address_is_told s).1 hs (by decide) hnames
  exact ⟨hcalls, (hanswer rfl).1⟩

end SmtpReceiver
