import SmtpReceiver.Auth.Composite
import SmtpReceiver.Proofs.Command.Envelope
import SmtpReceiver.Proofs.Command.History

/-!
# Blanks around a command line

A command looks at a line in few ways, and most of them do not depend on the blanks around it.
So two lines are *alike* for a verb if they are the same without the blanks around them, and have
the same predicate as well if the command of the verb reads that.  A command cannot tell
lines that are alike for its verb apart (`run_congr`).

Blanks behind a line never make a difference.  Blanks in front of it do for `MAIL`, `RCPT` and
`HELP`.  The predicate is taken from behind four bytes, and a blank in front pushes the end of the
verb there.  No keyword begins with that, so such a line never names an address
(`not_startsWithKeyword_of_indented`).
-/

namespace SmtpReceiver

open Auth (Authenticator Open PlainLogin)
open Delivery (Fanout Handler)
open Text

variable {α δ : Type} {a b l l' verb keyword : String}

/-! ## Authenticators -/

namespace Auth

/-- Lines that are the same without the blanks around them are answered alike. -/
def ReadsTrimmed (α : Type) [Authenticator α] : Prop :=
  ∀ (x : α) {l l' : String}, trim l = trim l' → Authenticator.answer x l = Authenticator.answer x l'

theorem authLine?_of_trim (h : trim l = trim l') : authLine? l = authLine? l' := by
  rw [authLine?, authLine?, words_of_trim h]

theorem Open.readsTrimmed : ReadsTrimmed Open := fun _ _ _ _ => rfl

theorem Plain.readsTrimmed [Base64] : ReadsTrimmed Plain := by
  intro p l l' h
  show p.answer l = p.answer l'
  rw [answer, answer, authLine?_of_trim h, h]

theorem Login.readsTrimmed [Base64] : ReadsTrimmed Login := by
  intro p l l' h
  show p.answer l = p.answer l'
  rw [answer, answer, authLine?_of_trim h, loginResponse?, loginResponse?, h]

variable {β : Type} [Authenticator α] [Authenticator β]

theorem ReadsTrimmed.sum (hα : ReadsTrimmed α) (hβ : ReadsTrimmed β) : ReadsTrimmed (α ⊕ β) := by
  intro x l l' h
  cases x with
  | inl x => exact congrArg (·.lift Sum.inl) (hα x h)
  | inr x => exact congrArg (·.lift Sum.inr) (hβ x h)

theorem ReadsTrimmed.ask (hα : ReadsTrimmed α) (c : Composite α) (h : trim l = trim l') :
    c.ask l = c.ask l' := by
  rw [Composite.ask, Composite.ask]
  split
  next i x _ => simp only [hα x h]
  next => rfl

theorem ReadsTrimmed.composite (hα : ReadsTrimmed α) : ReadsTrimmed (Composite α) := by
  intro c l l' h
  show c.answer l = c.answer l'
  rw [Composite.answer, Composite.answer, authLine?_of_trim h]
  split
  next => simp only [hα.ask _ h]
  next => exact hα.ask c h

theorem PlainLogin.readsTrimmed [Base64] : ReadsTrimmed PlainLogin :=
  (Plain.readsTrimmed.sum Login.readsTrimmed).composite

end Auth

/-! ## Lines that are alike -/

/-- The verbs whose commands read the predicate. -/
def Verb.withPredicate : List String := [mail, rcpt, help]

/-- What the command of a verb reads is the same in two lines. -/
structure CommandLine.Alike (verb l l' : String) : Prop where
  trim : trim l = trim l'
  predicate : verb ∈ Verb.withPredicate → predicate l = predicate l'

namespace CommandTable

variable [Authenticator α] [Handler δ]

/-- A command cannot tell lines that are alike for its verb apart. -/
theorem run_congr (hreads : Auth.ReadsTrimmed α) (dir : Directory) (s : Session α δ) :
    ∀ c ∈ builtinCommands (α := α) (δ := δ), CommandLine.Alike c.name l l' →
      c.run dir l s = c.run dir l' s := by
  simp only [builtinCommands, List.forall_mem_cons]
  refine ⟨?helo, ?ehlo, ?mail, ?rcpt, ?_, ?_, ?_, ?_, ?_, ?help, ?auth, ?startTls,
    List.forall_mem_nil _⟩
  case helo =>
    intro h
    simp only [Command.helo, CommandLine.arguments_of_trim h.trim]
  case ehlo =>
    intro h
    simp only [Command.ehlo, CommandLine.arguments_of_trim h.trim]
  case mail =>
    intro h
    have hverb : Verb.mail ∈ Verb.withPredicate := by decide
    simp only [Command.mail, h.trim, h.predicate hverb]
  case rcpt =>
    intro h
    have hverb : Verb.rcpt ∈ Verb.withPredicate := by decide
    simp only [Command.rcpt, h.predicate hverb]
  case help =>
    intro h
    have hverb : Verb.help ∈ Verb.withPredicate := by decide
    simp only [Command.helpMe, h.predicate hverb]
  case auth =>
    intro h
    simp only [Command.auth, Command.beginExchange, Command.exchange, h.trim,
      CommandLine.arguments_of_trim h.trim, hreads s.auth h.trim]
  case startTls =>
    intro h
    simp only [Command.startTls, h.trim]
  -- The other commands do not read the line.
  all_goals exact fun _ => rfl

theorem run_of_alike (hreads : Auth.ReadsTrimmed α) (s : Session α δ)
    (h : CommandLine.Alike verb l l') : builtin.run verb l s = builtin.run verb l' s := by
  rw [run, run]
  cases hc : (builtin (α := α) (δ := δ)).command? verb with
  | none => rfl
  | some c =>
      obtain ⟨hmem, rfl⟩ := mem_of_command? hc
      simp only [run_congr hreads _ s c hmem h]

end CommandTable

section Sessions

variable {s : Session α δ}

theorem Session.verb?_of_trim (h : trim l = trim l') : s.verb? (.line l) = s.verb? (.line l') := by
  simp only [Session.verb?, CommandLine.verb?_of_trim h]

variable [Authenticator α] [Handler δ]

/-- A session cannot tell lines that are alike for their verb apart. -/
theorem dispatch_congr (hreads : Auth.ReadsTrimmed α) (htrim : trim l = trim l')
    (hpredicate : ∀ verb ∈ Verb.withPredicate, s.verb? (.line l') = some verb →
      CommandLine.predicate l = CommandLine.predicate l') :
    CommandTable.builtin.dispatch (.line l) s = CommandTable.builtin.dispatch (.line l') s := by
  have hverb : s.verb? (.line l) = s.verb? (.line l') := Session.verb?_of_trim htrim
  cases hv : s.verb? (.line l') with
  | some verb =>
      rw [dispatch_of_verb (hverb.trans hv), dispatch_of_verb hv]
      exact CommandTable.run_of_alike hreads s ⟨htrim, fun hmem => hpredicate verb hmem hv⟩
  | none =>
      rw [dispatch_of_no_verb (hverb.trans hv), dispatch_of_no_verb hv]

end Sessions

/-! ## Lines that are indented -/

namespace CommandLine

/-- The predicate of an indented line does not begin with a keyword in which there is a colon. -/
theorem not_startsWithKeyword_of_indented (ha : AllBlank a.toList) (hne : a ≠ "")
    (hb : AllBlank b.toList) (hverb : verb? l = some verb) (hsize : byteLength verb = 4)
    (hcolon : ':' ∉ verb.toList) (hkeyword : NoBlank keyword.toList) (hmem : ':' ∈ keyword.toList) :
    startsWithKeyword (predicate (a ++ l ++ b)) keyword = false := by
  refine Bool.eq_false_iff.2 fun hstarts => ?_
  rw [predicate_append_blank hb] at hstarts
  obtain ⟨-, word, ws, hwords, hupper⟩ := verb?_eq_some.1 hverb
  obtain ⟨w, ws, hlist, rfl, -⟩ := List.map_eq_cons_iff.1 hwords
  obtain ⟨space, rest, hspace, hl, hwne, hw, hrest⟩ := exists_of_wordsOf hlist
  obtain ⟨k, later, hpredicate, hk⟩ := exists_of_startsWithKeyword hstarts
  have hfour : byteCount w = 4 := by
    rw [← hsize, byteLength_eq, ← hupper, toList_upper, byteCount_map_toUpper, String.toList_ofList]
  have hindent : AllBlank (a.toList ++ space) := List.forall_mem_append.2 ⟨ha, hspace⟩
  have hindented : a.toList ++ space ≠ [] :=
    List.append_ne_nil_of_left_ne_nil (fun h => hne (String.toList_inj.1 h)) space
  have hbehind : behind (a.toList ++ space ++ (w ++ rest)) (byteCount w)
      = k.toList ++ later.toList := by
    rw [predicate_eq, String.toList_append, hl, ← List.append_assoc, ← hfour] at hpredicate
    rw [← String.toList_append, ← hpredicate, String.toList_ofList]
  have hcolonk : ':' ∈ k.toList.map Char.toUpper := by
    rw [← toList_upper, hk, toList_upper]
    exact List.mem_map_of_mem (f := Char.toUpper) hmem
  have hkne : k.toList ≠ [] := by
    intro hnil
    rw [hnil] at hcolonk
    cases hcolonk
  -- The keyword would be in the end of the verb, where there is no colon.
  obtain ⟨u, hhead⟩ := head?_wordsOf_append (noBlank_of_upper hk hkeyword) hkne later.toList
  rw [← hbehind] at hhead
  have hsuffix := head?_wordsOf_behind hindent hindented hwne hw hrest _ hhead
  have hsubset : k.toList ⊆ w := fun c hc => hsuffix.subset (List.mem_append_left u hc)
  refine hcolon ?_
  rw [← hupper, toList_upper, String.toList_ofList]
  exact List.map_subset Char.toUpper hsubset hcolonk

end CommandLine

section Refusals

variable [Handler δ] {s : Session α δ} {dir : Directory} {line : String}

theorem mail_refuses
    (h : CommandLine.startsWithKeyword (CommandLine.predicate line) Command.fromKeyword = false) :
    ∃ r, Command.mail.run dir line s = s.answer r ∧ 400 ≤ r.code := by
  simp only [Command.mail, h, Bool.not_false, if_true]
  split
  next => exact ⟨_, rfl, by decide⟩
  next =>
    split
    next => exact ⟨_, rfl, by decide⟩
    next =>
      split
      next => exact ⟨_, rfl, by decide⟩
      next => exact ⟨_, rfl, Nat.le_of_ble_eq_true rfl⟩

theorem rcpt_refuses
    (h : CommandLine.startsWithKeyword (CommandLine.predicate line) Command.toKeyword = false) :
    ∃ r, Command.rcpt.run dir line s = s.answer r ∧ 400 ≤ r.code := by
  simp only [Command.rcpt, h, Bool.not_false, if_true]
  split
  next => exact ⟨_, rfl, by decide⟩
  next =>
    split
    next => exact ⟨_, rfl, by decide⟩
    next => exact ⟨_, rfl, Nat.le_of_ble_eq_true rfl⟩

/-- If the command refuses a line, the line is refused. -/
theorem dispatch_refuses [Authenticator α] {c : Command α δ} (hv : s.verb? (.line line) = some verb)
    (hc : CommandTable.builtin.command? verb = some c)
    (hrun : ∀ dir, ∃ r, c.run dir line s = s.answer r ∧ 400 ≤ r.code) :
    ∃ r, CommandTable.builtin.dispatch (.line line) s = s.answer r ∧ 400 ≤ r.code := by
  rw [dispatch_of_command hv hc]
  split
  next => exact ⟨_, rfl, by decide⟩
  next => exact hrun _

end Refusals

/-! ## All lines -/

/-- Blanks around a line make no difference, unless they are in front of it and its command reads
the predicate.  An indented `MAIL` or `RCPT` is refused, whatever it says. -/
theorem blanks_around_are_not_read [Base64] [Handler δ] (s : Session (Open ⊕ PlainLogin) δ)
    (ha : AllBlank a.toList) (hb : AllBlank b.toList) (l : String) :
    ((∀ verb ∈ Verb.withPredicate, s.verb? (.line l) = some verb →
        CommandLine.predicate (a ++ l) = CommandLine.predicate l) →
      CommandTable.builtin.dispatch (.line (a ++ l ++ b)) s
        = CommandTable.builtin.dispatch (.line l) s) ∧
    (a ≠ "" → s.progress.authenticating = false →
      CommandLine.verb? l = some Verb.mail ∨ CommandLine.verb? l = some Verb.rcpt →
        ∃ r, CommandTable.builtin.dispatch (.line (a ++ l ++ b)) s = s.answer r ∧
          400 ≤ r.code) := by
  have hreads : Auth.ReadsTrimmed (Open ⊕ PlainLogin) :=
    Open.readsTrimmed.sum PlainLogin.readsTrimmed
  have htrim : trim (a ++ l ++ b) = trim l := trim_padded ha hb l
  have hpredicate : CommandLine.predicate (a ++ l ++ b) = CommandLine.predicate (a ++ l) :=
    CommandLine.predicate_append_blank hb (a ++ l)
  refine ⟨fun h => ?_, fun hne hexchange hverb => ?_⟩
  · exact dispatch_congr hreads htrim fun verb hmem hv => hpredicate.trans (h verb hmem hv)
  have hv : s.verb? (.line (a ++ l ++ b)) = CommandLine.verb? l := by
    rw [Session.verb?_of_trim htrim, Session.verb?, if_neg (Bool.eq_false_iff.1 hexchange)]
  obtain hverb | hverb := hverb
  · have hkeyword : CommandLine.startsWithKeyword (CommandLine.predicate (a ++ l ++ b))
        Command.fromKeyword = false :=
      CommandLine.not_startsWithKeyword_of_indented ha hne hb hverb (by decide) (by decide)
        (by decide) (by decide)
    exact dispatch_refuses (hv.trans hverb) CommandTable.command?_mail fun _ => mail_refuses hkeyword
  · have hkeyword : CommandLine.startsWithKeyword (CommandLine.predicate (a ++ l ++ b))
        Command.toKeyword = false :=
      CommandLine.not_startsWithKeyword_of_indented ha hne hb hverb (by decide) (by decide)
        (by decide) (by decide)
    exact dispatch_refuses (hv.trans hverb) CommandTable.command?_rcpt fun _ => rcpt_refuses hkeyword

theorem blanks_around_are_not_read_greeting :
    let s : Session (Open ⊕ PlainLogin) (Fanout Unit) :=
      { settings := {}, auth := .inr (.over fun _ _ => true)
        delivery := { listeners := [], world := () } }
    CommandTable.builtin.dispatch (.line (" " ++ "EHLO a" ++ "\t")) s
        = CommandTable.builtin.dispatch (.line "EHLO a") s ∧
      ∃ r, CommandTable.builtin.dispatch (.line (" " ++ "MAIL FROM:<a@b>" ++ "\t")) s = s.answer r ∧
        400 ≤ r.code := by
  intro s
  have hblank : AllBlank " ".toList ∧ AllBlank "\t".toList := by decide
  have hgreeting : s.verb? (.line "EHLO a") = some Verb.ehlo := by decide
  have hverb : CommandLine.verb? "MAIL FROM:<a@b>" = some Verb.mail := by decide
  refine ⟨(blanks_around_are_not_read s hblank.1 hblank.2 "EHLO a").1 fun verb hmem hv => ?_,
    (blanks_around_are_not_read s hblank.1 hblank.2 "MAIL FROM:<a@b>").2 (by decide) rfl (.inl hverb)⟩
  obtain rfl := Option.some.inj (hgreeting.symm.trans hv)
  exact absurd hmem (by decide)

/-- A sender is refused for the blank in front of the line, and accepted without it. -/
theorem indented_sender_is_refused :
    let s : Session Open (Fanout Unit) :=
      { settings := {}, auth := {}, delivery := { listeners := [], world := () } }
    let t := s.after [.line "HELO a"]
    (CommandTable.builtin.dispatch (.line "MAIL FROM:<a@b>") t).answer = .ok (.line .ok "Ok") ∧
      (CommandTable.builtin.dispatch (.line " MAIL FROM:<a@b>") t).answer
        = .ok (.line .badArguments
            "Syntax: MAIL FROM: <address>  Error in parameters: \"L FROM:<a@b>\"") := by
  decide

end SmtpReceiver
