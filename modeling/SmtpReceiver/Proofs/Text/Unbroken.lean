import Mathlib.Algebra.Group.Nat.Defs
import SmtpReceiver.CommandLine
import SmtpReceiver.Proofs.Framing.Lines
import SmtpReceiver.Proofs.Text.RoundTrip
import SmtpReceiver.Settings
import SmtpReceiver.Text.Lines

/-!
# Characters without a CRLF

Characters are *unbroken* if no CRLF stands among them, as `IsLine` says it of bytes.
A CR or an LF may be there, but not one right after the other.  Characters are
*solid* if neither is there.

Bytes and characters agree on this.  What is read from a line is unbroken, in either
character set (`unbroken_charset_decode`), and what is unbroken is written as a line
(`isLine_encode`).  In UTF-8 that needs a look at characters that have begun.  They
never become a CR or an LF, and an ASCII byte that comes too early ends them and is
a character of its own (`advance_ascii`).

Cutting a text keeps it unbroken, as any part of it is.  Only putting texts together
may bring a CRLF about.
-/

namespace SmtpReceiver.Text

open Framing (IsLine cr lf crlf)

/-- No CRLF stands among the characters. -/
def Unbroken (cs : List Char) : Prop := ¬ ['\r', '\n'] <:+: cs

/-- Neither a CR nor an LF is among the characters. -/
def Solid (cs : List Char) : Prop := ∀ c ∈ cs, c ≠ '\r' ∧ c ≠ '\n'

-- Over the list, and not over all characters, of which there are finitely many.
instance (cs : List Char) : Decidable (Solid cs) := List.decidableBAll _ cs

/-! ## Parts and wholes -/

section Parts

variable {c : Char} {cs ds : List Char}

theorem Unbroken.part (h : Unbroken ds) (hpart : cs <:+: ds) : Unbroken cs :=
  fun hbreak => h (hbreak.trans hpart)

theorem unbroken_cons :
    Unbroken (c :: cs) ↔ ¬ (c = '\r' ∧ cs.head? = some '\n') ∧ Unbroken cs := by
  cases cs with
  | nil => simp [Unbroken, List.infix_cons_iff]
  | cons d cs =>
      simp only [Unbroken, List.infix_cons_iff, List.cons_prefix_cons, List.nil_prefix,
        List.head?_cons, Option.some.injEq, and_true]
      grind

theorem Solid.append (hcs : Solid cs) (hds : Solid ds) : Solid (cs ++ ds) :=
  List.forall_mem_append.2 ⟨hcs, hds⟩

theorem Solid.part (h : Solid ds) (hpart : cs <:+: ds) : Solid cs :=
  fun c hc => h c (hpart.subset hc)

/-- To have a text as the list of its characters saves taking the text apart. -/
theorem solid_ofList (h : Solid cs) : Solid (String.ofList cs).toList := by
  rwa [String.toList_ofList]

theorem solid_append {s t : String} (hs : Solid s.toList) (ht : Solid t.toList) :
    Solid (s ++ t).toList := by
  rw [String.toList_append]
  exact hs.append ht

theorem solid_intercalate {sep : String} (hsep : Solid sep.toList) {ts : List String}
    (hts : ∀ t ∈ ts, Solid t.toList) : Solid (String.intercalate sep ts).toList := by
  induction ts with
  | nil => exact nofun
  | cons t ts ih =>
      obtain ⟨ht, hts⟩ := List.forall_mem_cons.1 hts
      cases ts with
      | nil =>
          rw [String.intercalate_singleton]
          exact ht
      | cons u ts =>
          rw [String.intercalate_cons_cons]
          exact solid_append (solid_append ht hsep) (ih hts)

theorem Unbroken.after_solid (hds : Unbroken ds) (hcs : Solid cs) : Unbroken (cs ++ ds) := by
  induction cs with
  | nil => exact hds
  | cons c cs ih =>
      obtain ⟨hc, hcs⟩ := List.forall_mem_cons.1 hcs
      exact unbroken_cons.2 ⟨fun h => hc.1 h.1, ih hcs⟩

theorem Unbroken.before_solid (hcs : Unbroken cs) (hds : Solid ds) : Unbroken (cs ++ ds) := by
  induction cs with
  | nil =>
      rw [List.nil_append, ← List.append_nil ds]
      exact Unbroken.after_solid (by simp [Unbroken]) hds
  | cons c cs ih =>
      obtain ⟨hc, hcs⟩ := unbroken_cons.1 hcs
      refine unbroken_cons.2 ⟨?_, ih hcs⟩
      rintro ⟨rfl, hhead⟩
      cases cs with
      | nil => exact (hds '\n' (List.mem_of_mem_head? hhead)).2 rfl
      | cons d cs => exact hc ⟨rfl, hhead⟩

theorem Solid.unbroken (h : Solid cs) : Unbroken cs := by
  rw [← List.append_nil cs]
  exact Unbroken.after_solid (by simp [Unbroken]) h

/-- Characters of which something is true that is false of a CR and of an LF. -/
theorem solid_of_forall {p : Char → Prop} (hcr : ¬ p '\r') (hlf : ¬ p '\n') (h : ∀ c ∈ cs, p c) :
    Solid cs := by
  intro c hc
  refine ⟨?_, ?_⟩
  · rintro rfl
    exact hcr (h _ hc)
  · rintro rfl
    exact hlf (h _ hc)

end Parts

/-! ## Reading -/

theorem toNat_of_ofNat {n : Nat} {c : Char} (h : Char.ofNat n = c) (hc : c.toNat ≠ 0) :
    n = c.toNat := by
  subst h
  by_cases hvalid : n.isValidChar
  · rw [Char.ofNat, dif_pos hvalid]
    rfl
  · rw [Char.ofNat, dif_neg hvalid] at hc
    exact absurd rfl hc

/-- A character that is not ASCII is solid. -/
theorem solid_ofNat {n : Nat} (h : 0x80 ≤ n) : Solid [Char.ofNat n] := by
  have hne : ∀ {c : Char}, c.toNat ≠ 0 → c.toNat < 0x80 → Char.ofNat n ≠ c := by
    intro c hzero hascii hc
    rw [toNat_of_ofNat hc hzero] at h
    exact Nat.not_le.2 hascii h
  exact List.forall_mem_singleton.2 ⟨hne (by decide) (by decide), hne (by decide) (by decide)⟩

theorem eq_cr_of_ofNat {b : UInt8} (h : Char.ofNat b.toNat = '\r') : b = cr :=
  UInt8.toNat_inj.1 (toNat_of_ofNat h (by decide))

theorem eq_lf_of_ofNat {b : UInt8} (h : Char.ofNat b.toNat = '\n') : b = lf :=
  UInt8.toNat_inj.1 (toNat_of_ofNat h (by decide))

theorem solid_replacement : Solid [replacement] := by decide

/-- The least code point that a character which has begun can become. -/
def Pending.least (p : Pending) : Nat :=
  (p.bits * 64 + (p.low.toNat - 0x80)) * 64 ^ (p.missing - 1)

/-- The next byte that may come does not make it less. -/
theorem Pending.least_le (p : Pending) {b : UInt8} (hb : p.low.toNat ≤ b.toNat) :
    p.least ≤ Pending.least ⟨p.missing - 1, p.bits * 64 + (b.toNat - 0x80), 0x80, 0xBF⟩ := by
  have hbits : p.bits * 64 + (p.low.toNat - 0x80) ≤ p.bits * 64 + (b.toNat - 0x80) := by omega
  have hpow : 64 ^ (p.missing - 1) ≤ 64 * 64 ^ (p.missing - 1 - 1) := by
    rw [← Nat.pow_succ']
    exact Nat.pow_le_pow_right (by decide) (by omega)
  have hlow : (0x80 : UInt8).toNat - 0x80 = 0 := by decide
  simp only [least, hlow, Nat.add_zero]
  rw [Nat.mul_assoc]
  exact Nat.mul_le_mul hbits hpow

theorem Pending.least_of_bits {missing bits : Nat} {low high : UInt8}
    (h : 0x80 ≤ bits * 64 * 64 ^ (missing - 1)) :
    0x80 ≤ Pending.least ⟨missing, bits, low, high⟩ :=
  Nat.le_trans h (Nat.mul_le_mul_right _ (Nat.le_add_right _ _))

/-- The character goes on with bytes that are not ASCII, and becomes one that is not. -/
structure Pending.Sound (p : Pending) : Prop where
  low : 0x80 ≤ p.low.toNat
  least : 0x80 ≤ p.least

/-- What a byte that is not ASCII gives.  It completes no CR and no LF, and a character has begun if
none is complete. -/
structure BeyondAscii (r : List Char × Option Pending) : Prop where
  solid : Solid r.1
  begun : r.1 = [] → r.2 ≠ none
  sound : ∀ q ∈ r.2, q.Sound

section Reading

variable {p : Option Pending} {b : UInt8}

/-- An ASCII byte is a character, and ends one that has begun. -/
theorem advance_ascii (hp : ∀ q ∈ p, q.Sound) (hb : b.toNat < 0x80) :
    advance p b = (p.toList.map (fun _ => replacement) ++ [Char.ofNat b.toNat], none) := by
  have hlead : lead b = ([Char.ofNat b.toNat], none) := if_pos hb
  cases p with
  | none => exact hlead
  | some q =>
      have hlow : ¬ (q.low ≤ b ∧ b ≤ q.high) := by
        intro h
        have hle : q.low.toNat ≤ b.toNat := h.1
        have := (hp q rfl).low
        omega
      simp only [advance, if_neg hlow, hlead]
      rfl

theorem beyondAscii_pending {missing bits : Nat} {low high : UInt8} (hlow : 0x80 ≤ low.toNat)
    (hleast : 0x80 ≤ Pending.least ⟨missing, bits, low, high⟩) :
    BeyondAscii ([], some ⟨missing, bits, low, high⟩) where
  solid := by simp [Solid]
  begun _ := Option.some_ne_none _
  sound := by
    rintro _ ⟨⟩
    exact ⟨hlow, hleast⟩

theorem beyondAscii_lead (hb : 0x80 ≤ b.toNat) : BeyondAscii (lead b) := by
  have hnone : BeyondAscii ([replacement], none) := ⟨solid_replacement, nofun, nofun⟩
  simp only [lead]
  split
  next h => omega
  split
  next => exact hnone
  split
  next => exact beyondAscii_pending (by decide) (Pending.least_of_bits (by omega))
  split
  next => exact beyondAscii_pending (by decide) (by decide)
  split
  next => exact beyondAscii_pending (by decide) (by decide)
  split
  next => exact beyondAscii_pending (by decide) (Pending.least_of_bits (by omega))
  split
  next => exact beyondAscii_pending (by decide) (by decide)
  split
  next => exact beyondAscii_pending (by decide) (Pending.least_of_bits (by omega))
  split
  next => exact beyondAscii_pending (by decide) (by decide)
  next => exact hnone

theorem beyondAscii_advance (hp : ∀ q ∈ p, q.Sound) (hb : 0x80 ≤ b.toNat) :
    BeyondAscii (advance p b) := by
  cases p with
  | none => exact beyondAscii_lead hb
  | some q =>
      obtain ⟨hlow, hleast⟩ := hp q rfl
      obtain ⟨hsolid, -, hsound⟩ := beyondAscii_lead hb
      simp only [advance]
      split
      next hrange =>
        have hle : q.low.toNat ≤ b.toNat := hrange.1
        split
        next hlast =>
          refine ⟨solid_ofNat ?_, fun h => absurd h (List.cons_ne_nil _ _), by simp⟩
          simp only [Pending.least, hlast] at hleast
          omega
        next =>
          exact beyondAscii_pending (Nat.le_refl _) (Nat.le_trans hleast (q.least_le hle))
      next =>
        exact ⟨solid_replacement.append hsolid, fun h => absurd h (List.cons_ne_nil _ _), hsound⟩

end Reading

theorem decodeFrom_cons (p : Option Pending) (b : UInt8) (bs : Bytes) :
    decodeFrom p (b :: bs) = (advance p b).1 ++ decodeFrom (advance p b).2 bs := by
  cases p with
  | none => rfl
  | some q => rfl

/-- An LF comes first only if it was read first. -/
theorem head_decodeFrom {p : Option Pending} (hp : ∀ q ∈ p, q.Sound) {bs : Bytes}
    (h : (decodeFrom p bs).head? = some '\n') : p = none ∧ bs.head? = some lf := by
  induction bs generalizing p with
  | nil =>
      cases p with
      | none => cases h
      | some q => cases h
  | cons b bs ih =>
      rw [decodeFrom_cons] at h
      by_cases hb : b.toNat < 0x80
      · rw [advance_ascii hp hb] at h
        cases p with
        | none =>
            obtain rfl := eq_lf_of_ofNat (Option.some.inj h)
            exact ⟨rfl, rfl⟩
        | some q => cases h
      · obtain ⟨hsolid, hbegun, hnext⟩ := beyondAscii_advance hp (Nat.not_lt.1 hb)
        cases hchars : (advance p b).1 with
        | nil =>
            rw [hchars] at h
            exact absurd (ih hnext h).1 (hbegun hchars)
        | cons c cs =>
            rw [hchars] at h hsolid
            obtain rfl : c = '\n' := Option.some.inj h
            exact absurd rfl (List.forall_mem_cons.1 hsolid).1.2

theorem unbroken_decodeFrom {p : Option Pending} (hp : ∀ q ∈ p, q.Sound) {bs : Bytes}
    (h : IsLine bs) : Unbroken (decodeFrom p bs) := by
  induction bs generalizing p with
  | nil =>
      cases p with
      | none => simp [decodeFrom, Unbroken]
      | some q => exact solid_replacement.unbroken
  | cons b bs ih =>
      obtain ⟨hcrlf, hbs⟩ := Framing.isLine_cons.1 h
      rw [decodeFrom_cons]
      by_cases hb : b.toNat < 0x80
      · rw [advance_ascii hp hb, List.append_assoc]
        have hrest : Unbroken (Char.ofNat b.toNat :: decodeFrom none bs) := by
          refine unbroken_cons.2 ⟨?_, ih (by simp) hbs⟩
          rintro ⟨hcr, hhead⟩
          exact hcrlf ⟨eq_cr_of_ofNat hcr, (head_decodeFrom (by simp) hhead).2⟩
        refine hrest.after_solid ?_
        cases p with
        | none => simp [Solid]
        | some q => exact solid_replacement
      · obtain ⟨hsolid, -, hnext⟩ := beyondAscii_advance hp (Nat.not_lt.1 hb)
        exact (ih hnext hbs).after_solid hsolid

theorem unbroken_map_ofNat {l : Bytes} (h : IsLine l) :
    Unbroken (l.map fun b => Char.ofNat b.toNat) := by
  induction l with
  | nil => simp [Unbroken]
  | cons b l ih =>
      obtain ⟨hcrlf, hl⟩ := Framing.isLine_cons.1 h
      rw [List.map_cons]
      refine unbroken_cons.2 ⟨?_, ih hl⟩
      rintro ⟨hcr, hhead⟩
      rw [List.head?_map] at hhead
      obtain ⟨next, hnext, hlf⟩ := Option.map_eq_some_iff.1 hhead
      exact hcrlf ⟨eq_cr_of_ofNat hcr, hnext.trans (congrArg some (eq_lf_of_ofNat hlf))⟩

/-- What is read from a line is unbroken. -/
theorem unbroken_charset_decode (charset : Charset) {l : Bytes} (h : IsLine l) :
    Unbroken (charset.decode l).toList := by
  cases charset with
  | utf8 =>
      simp only [Charset.decode, decode, String.toList_ofList]
      exact unbroken_decodeFrom (by simp) h
  | latin1 =>
      simp only [Charset.decode, String.toList_ofList]
      exact unbroken_map_ofNat h

/-! ## Writing -/

/-- Bytes are read the same way, whatever comes behind them. -/
theorem decodeFrom_append {p : Option Pending} (hp : ∀ q ∈ p, q.Sound) (bs : Bytes) :
    ∃ cs p', (∀ q ∈ p', q.Sound) ∧
      ∀ rest, decodeFrom p (bs ++ rest) = cs ++ decodeFrom p' rest := by
  induction bs generalizing p with
  | nil => exact ⟨[], p, hp, fun _ => rfl⟩
  | cons b bs ih =>
      have hnext : ∀ q ∈ (advance p b).2, q.Sound := by
        by_cases hb : b.toNat < 0x80
        · simp [advance_ascii hp hb]
        · exact (beyondAscii_advance hp (Nat.not_lt.1 hb)).sound
      obtain ⟨cs, p', hp', hcs⟩ := ih hnext
      refine ⟨(advance p b).1 ++ cs, p', hp', fun rest => ?_⟩
      rw [List.cons_append, decodeFrom_cons, hcs, List.append_assoc]

/-- What is unbroken is written as a line.  A CRLF among the bytes would be read back. -/
theorem isLine_encode {s : String} (h : Unbroken s.toList) : IsLine (encode s) := by
  rintro ⟨before, later, hbytes⟩
  refine h ?_
  obtain ⟨cs, p, hp, hcs⟩ := decodeFrom_append (p := none) (by simp) before
  have hread : s.toList = decodeFrom none (before ++ (crlf ++ later)) := by
    rw [← List.append_assoc, hbytes, encode, decodeFrom_encode]
  have hcr : decodeFrom p (crlf ++ later)
      = p.toList.map (fun _ => replacement) ++ (['\r', '\n'] ++ decodeFrom none later) := by
    show decodeFrom p (cr :: lf :: later) = _
    rw [decodeFrom_cons, advance_ascii hp (by decide), decodeFrom_cons,
      advance_ascii (by simp) (by decide)]
    simp [cr, lf]
  rw [hread, hcs, hcr, ← List.append_assoc, ← List.append_assoc]
  exact ⟨_, _, rfl⟩

/-! ## Cutting -/

section Cutting

variable {s : String}

theorem trimChars_part (cs : List Char) : trimChars cs <:+: cs := by
  have hend : trimChars cs <+: cs.dropWhile isBlank := by
    rw [← List.reverse_suffix, trimChars, List.reverse_reverse]
    exact List.dropWhile_suffix _
  exact hend.isInfix.trans (List.dropWhile_suffix _).isInfix

theorem trim_part (s : String) : (trim s).toList <:+: s.toList := by
  rw [trim, String.toList_ofList]
  exact trimChars_part _

/-- What stands behind a byte offset, without the blanks around it. -/
theorem behind_part (s : String) (n : Nat) :
    (((dropBytes? s n).map Text.trim).getD "").toList <:+: s.toList := by
  cases hcut : splitChars? s.toList n with
  | none =>
      simp only [dropBytes?, hcut, Option.map_none, Option.getD_none]
      exact List.nil_infix
  | some p =>
      obtain ⟨before, later⟩ := p
      simp only [dropBytes?, hcut, Option.map_some, Option.getD_some]
      refine (trim_part _).trans ?_
      rw [String.toList_ofList, ← append_of_splitChars? hcut]
      exact (List.suffix_append before later).isInfix

theorem predicate_part (s : String) : (CommandLine.predicate s).toList <:+: s.toList :=
  behind_part s 4

theorem envelopeAddress_part (s : String) (keywordLength : Nat) :
    (CommandLine.envelopeAddress s keywordLength).toList <:+: s.toList := by
  have hrest := behind_part s keywordLength
  simp only [CommandLine.envelopeAddress]
  split
  next cs hbracket =>
    rw [hbracket] at hrest
    have hstart : CommandLine.untilBracket cs <+: cs := List.takeWhile_prefix _
    rw [String.toList_ofList]
    exact (hstart.isInfix.trans (List.suffix_cons _ _).isInfix).trans hrest
  next => exact hrest

theorem not_blank_of_mem_wordsOf {cs w : List Char} (h : w ∈ wordsOf cs) :
    ∀ c ∈ w, isBlank c = false := by
  induction cs generalizing w with
  | nil => cases h
  | cons c cs ih =>
      rw [wordsOf.eq_def] at h
      dsimp only at h
      split at h
      next => exact ih h
      next hc =>
        have hc : isBlank c = false := Bool.eq_false_iff.2 hc
        split at h
        next =>
          obtain rfl := List.mem_singleton.1 h
          exact List.forall_mem_singleton.2 hc
        next d ds =>
          split at h
          next =>
            obtain rfl | h := List.mem_cons.1 h
            · exact List.forall_mem_singleton.2 hc
            · exact ih h
          next =>
            cases hwords : wordsOf (d :: ds) with
            | nil => simp [hwords] at h
            | cons w' ws =>
                rw [hwords] at h ih
                obtain rfl | h := List.mem_cons.1 h
                · exact List.forall_mem_cons.2 ⟨hc, ih List.mem_cons_self⟩
                · exact ih (List.mem_cons_of_mem _ h)

/-- A CR and an LF are blank. -/
theorem solid_of_not_blank {cs : List Char} (h : ∀ c ∈ cs, isBlank c = false) : Solid cs :=
  solid_of_forall (by decide) (by decide) h

theorem solid_of_mem_words {w : String} (h : w ∈ words s) : Solid w.toList := by
  obtain ⟨cs, hcs, rfl⟩ := List.mem_map.1 h
  rw [String.toList_ofList]
  exact solid_of_not_blank (not_blank_of_mem_wordsOf hcs)

/-- The lines of a text end at each LF, so none is in them. -/
theorem of_mem_linesOf {cs w : List Char} (h : w ∈ linesOf cs) : ∀ c ∈ w, c ∈ cs ∧ c ≠ '\n' := by
  fun_induction linesOf cs generalizing w with
  | case1 => cases h
  | case2 cs ih =>
      obtain rfl | h := List.mem_cons.1 h
      · exact List.forall_mem_nil _
      · exact fun c hc => ⟨List.mem_cons_of_mem _ (ih h c hc).1, (ih h c hc).2⟩
  | case3 cs ih =>
      obtain rfl | h := List.mem_cons.1 h
      · exact List.forall_mem_nil _
      · exact fun c hc => ⟨List.mem_cons_of_mem _ (List.mem_cons_of_mem _ (ih h c hc).1),
          (ih h c hc).2⟩
  | case4 c hc =>
      obtain rfl := List.mem_singleton.1 h
      exact List.forall_mem_singleton.2 ⟨List.mem_singleton_self c, hc⟩
  | case5 c d cs hc hcd ih =>
      cases hlines : linesOf (d :: cs) with
      | nil => simp [hlines] at h
      | cons w' ws =>
          rw [hlines] at h ih
          have hrest {w : List Char} (hw : w ∈ w' :: ws) :
              ∀ e ∈ w, e ∈ c :: d :: cs ∧ e ≠ '\n' :=
            fun e he => ⟨List.mem_cons_of_mem c (ih hw e he).1, (ih hw e he).2⟩
          obtain rfl | h := List.mem_cons.1 h
          · exact List.forall_mem_cons.2 ⟨⟨List.mem_cons_self, hc⟩, hrest List.mem_cons_self⟩
          · exact hrest (List.mem_cons_of_mem _ h)

theorem not_mem_ofList {c : Char} {cs : List Char} (h : c ∉ cs) :
    c ∉ (String.ofList cs).toList := by
  rwa [String.toList_ofList]

/-- The lines of a text without a CR. -/
theorem solid_of_mem_lines {l : String} (hcr : '\r' ∉ s.toList) (h : l ∈ lines s) :
    Solid l.toList := by
  obtain ⟨cs, hcs, rfl⟩ := List.mem_map.1 h
  rw [String.toList_ofList]
  intro c hc
  obtain ⟨hmem, hlf⟩ := of_mem_linesOf hcs c hc
  exact ⟨fun heq => hcr (heq ▸ hmem), hlf⟩

end Cutting

end SmtpReceiver.Text
