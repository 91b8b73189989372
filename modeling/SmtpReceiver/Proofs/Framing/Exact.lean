import SmtpReceiver.Proofs.Framing.Holding

/-!
# Framing is exact

What a fresh decoder makes of bytes is told here without the decoder.  A command
line is what stands before the first CRLF (`decode_line`), and a message is what
a block stands for (`decode_block`).  The bytes behind the frame are left as they
are.  If no frame ends, all bytes are used up (`decode_open_line`,
`decode_open_block`).

A decoder that is in no frame is as good as a fresh one, as long as it never
failed (`ErrorFree.eq_fresh`).  So all this is true between any two frames of a
session.
-/

namespace SmtpReceiver.Framing

open Text (Bytes)

/-- The message of so many bytes, as it is received. -/
def received (settings : Settings) (content : Bytes) : Message :=
  .ofContent content (decide (settings.spillThreshold < content.length))

/-- What a command line comes to. -/
def lineResult (settings : Settings) (l : Bytes) : Except Failure Frame :=
  if l.length ≤ settings.maxLine then .ok (.line (settings.charset.decode l))
  else .error (.lineTooLong l.length)

theorem shown_lines (ls : List Bytes) :
    ls.flatMap Kind.message.shown ++ crlf = crlf ++ Block.content ls := by
  induction ls with
  | nil => rfl
  | cons l ls ih =>
      rw [List.flatMap_cons, List.append_assoc, ih]
      simp [Kind.shown, Block.content, join_cons]

namespace Decoder

variable {settings : Settings}

/-! ## From a fresh decoder to the end of a frame -/

theorem feedAll_fresh (expectMessage : Bool) {bs : Bytes} (hne : bs ≠ []) :
    feedAll settings expectMessage bs {}
      = feedAll settings expectMessage bs
          (holding settings (due expectMessage) (due expectMessage).opening []) := by
  cases bs with
  | nil => exact absurd rfl hne
  | cons b bs =>
      have hfeed : feed settings {} expectMessage b
          = (holding settings (due expectMessage) (due expectMessage).opening []).feed settings
              expectMessage b := by
        rw [← start_eq_holding]
        cases expectMessage <;> rfl
      rw [feedAll_cons, feedAll_cons, hfeed]

theorem feedAll_open (expectMessage : Bool)
    (husable : due expectMessage = .message → settings.spillDirectory.usable = true)
    {bs released : Bytes} {matched : Nat} (hne : bs ≠ [])
    (h : settleAll (settle (due expectMessage)) (due expectMessage).opening bs
      = ⟨released, matched, false⟩) :
    feedAll settings expectMessage bs {}
      = ⟨holding settings (due expectMessage) matched released, [], .ok none⟩ := by
  rw [feedAll_fresh expectMessage hne, feedAll_holding husable expectMessage (by rw [h]), h]
  rfl

theorem feedAll_close (expectMessage : Bool)
    (husable : due expectMessage = .message → settings.spillDirectory.usable = true)
    {bs released out : Bytes} {matched matched' : Nat} {b : UInt8} (hne : bs ≠ [])
    (h : settleAll (settle (due expectMessage)) (due expectMessage).opening bs
      = ⟨released, matched, false⟩)
    (hb : settle (due expectMessage) matched b = ⟨out, matched', true⟩) (rest : Bytes) :
    let r := (holding settings (due expectMessage) matched' (released ++ out)).finish settings
      (due expectMessage)
    feedAll settings expectMessage (bs ++ b :: rest) {} = ⟨r.1, rest, r.2.map some⟩ := by
  intro r
  have hopen := feedAll_open expectMessage husable hne h
  have hfeed : (holding settings (due expectMessage) matched released).feed settings expectMessage b
      = (r.1, r.2.map some) := feedFrame_of_complete husable hb
  rw [feedAll_append_of_none _ (by rw [hopen]), hopen, feedAll_cons, hfeed]
  cases r.2 with
  | ok frame => rfl
  | error failure => rfl

theorem decode_of_idle {d : Decoder} {expectMessage : Bool} {src : Bytes}
    (h : (feedAll settings expectMessage src d).decoder.inFrame = false) :
    d.decode settings expectMessage src = feedAll settings expectMessage src d := by
  cases hr : (feedAll settings expectMessage src d).result with
  | ok frame? => exact decode_of_ok hr
  | error failure =>
      simp only [decode, hr, h]
      rfl

/-! ## Command lines -/

/-- The first CRLF ends a command line. -/
theorem decode_line {l : Bytes} (h : IsLine l) (rest : Bytes) :
    decode settings {} false (l ++ crlf ++ rest)
      = ⟨{}, rest, (lineResult settings l).map some⟩ := by
  obtain ⟨released, hsettle, hshown⟩ := settleAll_open .line (isLine_concat_cr h)
  have hmatch : Kind.line.openMatch (l ++ [cr]) = 1 := by simp [Kind.openMatch]
  rw [hmatch] at hsettle hshown
  have hreleased : released = l := List.append_cancel_right hshown
  have hsplit : l ++ crlf ++ rest = l ++ [cr] ++ lf :: rest := by simp [crlf]
  have hclose : feedAll settings false (l ++ crlf ++ rest) {}
      = ⟨{}, rest, (lineResult settings l).map some⟩ := by
    rw [hsplit]
    refine (feedAll_close false (fun hk => by cases hk) (by simp) hsettle (settle_matched rfl)
      rest).trans ?_
    rw [hreleased, List.append_nil]
    exact congrArg (fun r : Decoder × Except Failure Frame => Decoded.mk r.1 rest (r.2.map some))
      (finish_line _ l)
  rw [decode_of_idle (by rw [hclose]; rfl), hclose]

/-- Bytes without a CRLF are the beginning of a command line. -/
theorem decode_open_line {bs : Bytes} (h : IsLine bs) :
    (decode settings {} false bs).rest = [] ∧ (decode settings {} false bs).result = .ok none := by
  have hresult : (decode settings {} false bs).result = .ok none := by
    by_cases hne : bs = []
    · subst hne
      rfl
    · obtain ⟨released, hsettle, -⟩ := settleAll_open .line h
      rw [decode_result, feedAll_open false (fun hk => by cases hk) hne hsettle]
  exact ⟨rest_decode_of_none hresult, hresult⟩

/-! ## Messages -/

/-- The lines up to the first one that is a lone dot are a message. -/
theorem decode_block (husable : settings.spillDirectory.usable = true) {bs rest : Bytes}
    {ls : List Bytes} (h : block? bs = some (ls, rest)) :
    decode settings {} true bs
      = ⟨{}, rest, .ok (some (.message (received settings (Block.content ls))))⟩ := by
  obtain ⟨hls, rfl⟩ := eq_of_block? h
  obtain ⟨released, hsettle, hshown⟩ := settleAll_lines hls isLine_dot_cr
  have hmatch : Kind.message.openMatch [dot, cr] = 4 := rfl
  have hpending : Kind.message.pendingBytes 4 = crlf ++ [cr] := rfl
  have hunstuff : Kind.message.shown [dot, cr] = crlf ++ [cr] := rfl
  rw [hmatch, hpending, hunstuff] at hshown
  have hreleased : released = ls.flatMap Kind.message.shown := List.append_cancel_right hshown
  have hsplit : join ls ++ ([dot] ++ crlf ++ rest) = join ls ++ [dot, cr] ++ lf :: rest := by
    simp [crlf]
  have hcontent : (released ++ crlf).drop 2 = Block.content ls := by
    rw [hreleased, shown_lines]
    rfl
  have hlen : released.length ≠ 1 := by
    rw [hreleased]
    cases ls with
    | nil => simp
    | cons l ls => simp [Kind.shown, crlf]
  have hclose : feedAll settings true (join ls ++ ([dot] ++ crlf ++ rest)) {}
      = ⟨{}, rest, .ok (some (.message (received settings (Block.content ls))))⟩ := by
    rw [hsplit]
    refine (feedAll_close true (fun _ => husable) (by simp) hsettle (settle_matched rfl)
      rest).trans ?_
    rw [List.append_nil, ← hcontent]
    exact congrArg (fun r : Decoder × Except Failure Frame => Decoded.mk r.1 rest (r.2.map some))
      (finish_message husable _ hlen)
  rw [decode_of_idle (by rw [hclose]; rfl), hclose]

/-- Bytes without a block are the beginning of a message. -/
theorem decode_open_block (husable : settings.spillDirectory.usable = true) {bs : Bytes}
    (h : block? bs = none) :
    (decode settings {} true bs).rest = [] ∧ (decode settings {} true bs).result = .ok none := by
  have hresult : (decode settings {} true bs).result = .ok none := by
    by_cases hne : bs = []
    · subst hne
      rfl
    · obtain ⟨hbs, hlines, htail⟩ := join_splitLines bs
      have hdot : [dot] ∉ (splitLines bs).1 := fun hmem => by simp [block?, hmem] at h
      obtain ⟨released, hsettle, -⟩ :=
        settleAll_lines (fun l hl => ⟨hlines l hl, fun he => hdot (he ▸ hl)⟩) htail
      rw [← hbs] at hsettle
      rw [decode_result, feedAll_open true (fun _ => husable) hne hsettle]
  exact ⟨rest_decode_of_none hresult, hresult⟩

/-! ## Decoders in use -/

/-- The decoders that a fresh one can become without a failure. -/
inductive ErrorFree (settings : Settings) : Decoder → Prop where
  | fresh : ErrorFree settings {}
  | decode {d : Decoder} (expectMessage : Bool) (src : Bytes) {frame? : Option Frame} :
    ErrorFree settings d → (d.decode settings expectMessage src).result = .ok frame? →
      ErrorFree settings (d.decode settings expectMessage src).decoder
  | reset {d : Decoder} : ErrorFree settings d → ErrorFree settings d.reset

/-- Adding bytes changes nothing but the store, and counts phantom bytes off. -/
theorem emit_eq (settings : Settings) (k : Kind) : ∀ (bs : Bytes) (d : Decoder),
    ∃ store, (emit settings k bs d).2 = { d with phantom := d.phantom - bs.length, store }
  | [], d => ⟨d.store, rfl⟩
  | b :: bs, d => by
      have hwrite : ∃ store, (write settings k b d).2 = { d with store } := by
        cases k with
        | line => exact ⟨_, rfl⟩
        | message => exact ⟨_, rfl⟩
      unfold emit
      split
      next hphantom =>
        obtain ⟨store, hemit⟩ := emit_eq settings k bs { d with phantom := d.phantom - 1 }
        have hcount : d.phantom - 1 - bs.length = d.phantom - (b :: bs).length := by
          rw [List.length_cons]
          omega
        exact ⟨store, by rw [hemit, ← hcount]⟩
      next hphantom =>
        have hzero : d.phantom = 0 := by omega
        rw [hzero, Nat.zero_sub]
        obtain ⟨written, hwrite⟩ := hwrite
        split
        next d' hw =>
          rw [hw] at hwrite
          obtain rfl : d' = { d with store := written } := hwrite
          obtain ⟨store, hemit⟩ := emit_eq settings k bs { d with store := written }
          exact ⟨store, by rw [hemit, hzero, Nat.zero_sub]⟩
        next failure d' hw =>
          rw [hw] at hwrite
          exact ⟨written, hwrite.trans (by rw [hzero])⟩

theorem kind_emit (settings : Settings) (k : Kind) (bs : Bytes) (d : Decoder) :
    (emit settings k bs d).2.kind = d.kind := by
  obtain ⟨store, hemit⟩ := emit_eq settings k bs d
  rw [hemit]

theorem feedFrame_of_ok {k : Kind} {d d' : Decoder} {b : UInt8} {frame? : Option Frame}
    (hk : d.kind = some k) (h : d.feedFrame settings k b = (d', .ok frame?)) :
    d'.inFrame = true ∨ d' = {} := by
  have hkind : (emit settings k (settle k d.matched b).released { d with matched := 0 }).2.kind
      = d.kind := kind_emit settings k _ _
  simp only [feedFrame] at h
  split at h
  next failure d₁ hemit => cases h
  next d₁ hemit =>
    rw [hemit] at hkind
    split at h
    next hcomplete =>
      obtain ⟨hd, hr⟩ := Prod.mk.inj h
      right
      have hfinished := finish_finished settings k
        { d₁ with matched := (settle k d.matched b).matched }
      generalize { d₁ with matched := (settle k d.matched b).matched }.finish settings k = r
        at hd hr hfinished
      obtain ⟨d₂, result⟩ := r
      cases result with
      | error failure => cases hr
      | ok frame => exact hd.symm.trans hfinished.eq_fresh
    next hcomplete =>
      obtain ⟨hd, -⟩ := Prod.mk.inj h
      left
      rw [← hd]
      change d₁.kind.isSome = true
      rw [hkind, hk]
      rfl

theorem feed_of_ok {d d' : Decoder} {expectMessage : Bool} {b : UInt8} {frame? : Option Frame}
    (h : d.feed settings expectMessage b = (d', .ok frame?)) : d'.inFrame = true ∨ d' = {} := by
  unfold feed at h
  split at h
  next k hk => exact feedFrame_of_ok hk h
  next hk =>
    refine feedFrame_of_ok ?_ h
    cases expectMessage <;> rfl

theorem feedAll_of_ok {expectMessage : Bool} : ∀ {src : Bytes} {d : Decoder} {frame? : Option Frame},
    d.inFrame = true ∨ d = {} → (feedAll settings expectMessage src d).result = .ok frame? →
      (feedAll settings expectMessage src d).decoder.inFrame = true ∨
        (feedAll settings expectMessage src d).decoder = {}
  | [], d, frame?, hd, _ => hd
  | b :: src, d, frame?, hd, h => by
      simp only [feedAll_cons] at h ⊢
      split at h
      next d' hf => exact feedAll_of_ok (feed_of_ok hf) h
      next d' result hne hf =>
        change result = .ok frame? at h
        subst h
        exact feed_of_ok hf

/-- Where nothing failed, a decoder in no frame is a fresh one. -/
theorem ErrorFree.eq_fresh {d : Decoder} (h : ErrorFree settings d) (hidle : d.inFrame = false) :
    d = {} := by
  have hinv : d.inFrame = true ∨ d = {} := by
    clear hidle
    induction h with
    | fresh => exact .inr rfl
    | decode expectMessage src _ hok ih =>
        rw [decode_result] at hok
        rw [decode_decoder]
        exact feedAll_of_ok ih hok
    | reset _ _ => exact .inr rfl
  cases hinv with
  | inl hin => rw [hidle] at hin; cases hin
  | inr heq => exact heq

/-! ## The whole of it -/

/-- What a decoder makes of bytes when a message is due.  A block is a message, and the bytes behind
it are left.  Stuffed lines come out as they were, and a lone dot ends a message without lines.
Nothing else than CRLF, dot, CRLF ends a message, and the first of these does. -/
theorem decode_message {settings : Settings} (husable : settings.spillDirectory.usable = true)
    {d : Decoder} (hd : ErrorFree settings d) (hidle : d.inFrame = false) :
    (∀ bs, match block? bs with
      | some (ls, rest) =>
        d.decode settings true bs
          = ⟨{}, rest, .ok (some (.message (received settings (Block.content ls))))⟩
      | none =>
        (d.decode settings true bs).rest = [] ∧ (d.decode settings true bs).result = .ok none) ∧
    (∀ ls rest, (∀ l ∈ ls, IsLine l) →
      d.decode settings true (join (ls.map stuff) ++ ([dot] ++ crlf ++ rest))
        = ⟨{}, rest, .ok (some (.message (received settings (join ls))))⟩) ∧
    (∀ rest, d.decode settings true ([dot] ++ crlf ++ rest)
        = ⟨{}, rest, .ok (some (.message (received settings [])))⟩) ∧
    (∀ bs frame, (d.decode settings true bs).result = .ok (some frame) →
      ∃ used, bs = used ++ (d.decode settings true bs).rest ∧
        crlf ++ [dot] ++ crlf <:+ crlf ++ used ∧
        ¬ crlf ++ [dot] ++ crlf <:+: (crlf ++ used).dropLast) := by
  obtain rfl := hd.eq_fresh hidle
  refine ⟨?_, ?_, ?_, ?_⟩
  · intro bs
    split
    next ls rest h => exact decode_block husable h
    next h => exact decode_open_block husable h
  · intro ls rest hls
    have hstuffed : ∀ l ∈ ls.map stuff, IsLine l ∧ l ≠ [dot] := by
      intro l hl
      obtain ⟨l', hl', rfl⟩ := List.mem_map.1 hl
      exact ⟨isLine_stuff (hls l' hl'), stuff_ne_dot l'⟩
    have hcontent : Block.content (ls.map stuff) = join ls := by
      simp [Block.content, List.map_map, Function.comp_def, unstuff_stuff]
    rw [decode_block husable (block?_join hstuffed rest), hcontent]
  · intro rest
    exact decode_block husable (block?_join (fun l hl => absurd hl List.not_mem_nil) rest)
  · intro bs frame h
    cases hblock : block? bs with
    | none =>
        rw [(decode_open_block husable hblock).2] at h
        cases h
    | some p =>
        obtain ⟨ls, rest⟩ := p
        obtain ⟨hls, hbs⟩ := eq_of_block? hblock
        rw [decode_block husable hblock]
        refine ⟨join ls ++ ([dot] ++ crlf), by rw [hbs]; simp, ?_, ?_⟩
        · obtain ⟨before, hbefore⟩ := crlf_join ls
          exact ⟨before, by rw [← List.append_assoc crlf, hbefore]; simp⟩
        · have hsplit : crlf ++ (join ls ++ ([dot] ++ crlf))
              = crlf ++ (join ls ++ [dot, cr]) ++ [lf] := by simp [crlf]
          have hlines : splitLines (join ls ++ [dot, cr]) = (ls, [dot, cr]) := by
            rw [splitLines_join (fun l hl => (hls l hl).1),
              splitLines_of_isLine isLine_dot_cr, List.append_nil]
          have hdot : [dot] ∉ ls := fun hmem => (hls [dot] hmem).2 rfl
          rw [hsplit, List.dropLast_concat, ← block?_isSome]
          simp only [block?, hlines, if_neg hdot]
          simp

theorem decode_message_after_line :
    let d := (decode {} {} false crlf).decoder
    d.inFrame = false ∧
      decode {} d true ([dot] ++ crlf ++ [dot])
        = ⟨{}, [dot], .ok (some (.message (received {} [])))⟩ := by
  have hline : (decode {} {} false crlf).result = .ok (some (.line "")) := by decide +kernel
  have hidle : (decode {} {} false crlf).decoder.inFrame = false := by decide +kernel
  exact ⟨hidle, (decode_message rfl (.decode false crlf .fresh hline) hidle).2.2.1 [dot]⟩

end Decoder

end SmtpReceiver.Framing
