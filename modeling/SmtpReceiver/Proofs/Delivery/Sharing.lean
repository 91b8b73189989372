import SmtpReceiver.Delivery.Fanout
import SmtpReceiver.Proofs.Delivery.Readers

/-!
# Listeners that share a message

The listeners that get a message read from one storage, one after the other.  Each of them has a
reader that begins at the start.  So it reads what it would read if it had the message for
itself (`deliverFrom_eq_apart`), and all of it if it does not stop early.
-/

namespace SmtpReceiver

namespace Delivery

open Text (Bytes)

variable {ω : Type}

namespace Listener

variable {l : Listener ω} {m : Message} {world : ω}

/-- What the listener reads of a message that it has for itself. -/
def reads (l : Listener ω) (m : Message) (world : ω) : Bytes :=
  match l.appetite m world with
  | some n => m.content.take n
  | none => m.content

/-- However much the listener reads, the content is there for the next one. -/
theorem reading_gives (l : Listener ω) (world : ω) {s : Storage} (hs : s.content = m.content) :
    s.open.Gives (l.reads m world) (l.reading m world s.open) := by
  rw [reading, reads, ← hs, ← s.remaining_open]
  cases l.appetite m world with
  | some n => exact s.open.read_gives n
  | none => exact s.open.readAll_gives

/-- The turn of a listener that has the message for itself. -/
def receiveApart (l : Listener ω) (peer : Peer) (sender recipient : String) (m : Message)
    (world : ω) : Turn Call ω (Except Fault Unit) :=
  let r := l.outcome peer sender recipient (l.reads m world) world
  let fault? := match r.1 with
    | .ok () => none
    | .error fault => some fault
  ⟨r.1, r.2, [.deliver l.id peer sender recipient m (l.reads m world) fault?]⟩

theorem receive_apart (l : Listener ω) (peer : Peer) (sender recipient : String) (world : ω)
    {s : Storage} (hs : s.content = m.content) :
    ∃ s', s'.content = m.content ∧ l.receive peer sender recipient m s world
      = (l.receiveApart peer sender recipient m world).lift fun world => (world, s') := by
  have hgives := l.reading_gives world hs
  refine ⟨(l.reading m world s.open).2.storage, hgives.content.trans hs, ?_⟩
  simp only [receive, hgives.given]
  rfl

end Listener

namespace Fanout

/-- Deliveries to listeners that have the message for themselves. -/
def deliverApart (peer : Peer) (sender : String) (m : Message) :
    List (Binding ω) → ω → Turn Call ω (Except Fault Unit)
  | [], world => ⟨.ok (), world, []⟩
  | b :: bs, world =>
    let t := b.listener.receiveApart peer sender b.recipient m world
    match t.result with
    | .error _ => t
    | .ok () => (deliverApart peer sender m bs t.next).after t.calls

theorem deliverFrom_eq_apart (peer : Peer) (sender : String) {m : Message} (bs : List (Binding ω)) :
    ∀ (world : ω) {s : Storage}, s.content = m.content →
      (deliverFrom peer sender m bs (world, s)).lift Prod.fst
        = deliverApart peer sender m bs world := by
  induction bs with
  | nil => exact fun world s hs => rfl
  | cons b bs ih =>
      intro world s hs
      obtain ⟨s', hs', hreceive⟩ := b.listener.receive_apart peer sender b.recipient world hs
      rw [deliverFrom, deliverApart, hreceive]
      generalize b.listener.receiveApart peer sender b.recipient m world = t
      obtain ⟨result, next, calls⟩ := t
      cases result with
      | error fault => rfl
      | ok u => exact congrArg (Turn.after calls) (ih next hs')

theorem deliver_eq_apart (peer : Peer) (sender : String) (m : Message) (bs : List (Binding ω))
    (world : ω) : deliver peer sender m bs world = deliverApart peer sender m bs world :=
  deliverFrom_eq_apart peer sender bs world rfl

/-- What a listener is given depends on the content and on how much it wants to read. -/
theorem exists_of_mem_calls {peer : Peer} {sender : String} {m : Message} {c : Call}
    {bs : List (Binding ω)} : ∀ {world : ω}, c ∈ (deliverApart peer sender m bs world).calls →
      ∃ b ∈ bs, ∃ world fault?, c = .deliver b.listener.id peer sender b.recipient m
        (b.listener.reads m world) fault? := by
  induction bs with
  | nil => nofun
  | cons b bs ih =>
      intro world hc
      have hfirst : c ∈ (b.listener.receiveApart peer sender b.recipient m world).calls →
          ∃ b' ∈ b :: bs, ∃ world fault?, c = .deliver b'.listener.id peer sender b'.recipient m
            (b'.listener.reads m world) fault? :=
        fun hc => ⟨b, List.mem_cons_self, world, _, List.mem_singleton.1 hc⟩
      rw [deliverApart] at hc
      split at hc
      next => exact hfirst hc
      next =>
        obtain hc | hc := List.mem_append.1 hc
        · exact hfirst hc
        · obtain ⟨b', hb', hcall⟩ := ih hc
          exact ⟨b', List.mem_cons_of_mem b hb', hcall⟩

end Fanout

end Delivery

open Delivery

/-- The readers of a message do not disturb each other, whether it is in memory or in a file, which
may have its cursor anywhere and more bytes than those of the message.  After any uses a reader has
returned the content up to its place.  It gives what comes next, as much of it as there is, and
nothing only if it is asked for nothing or is at the end.  All of this is as if the message were in
memory.  Listeners that share the message are given what each would read if it had the message for
itself, and so is every listener of the delivery handler. -/
theorem readers_do_not_disturb {m : Message} {s : Storage} (hs : s.content = m.content) :
    (∀ uses : List Readers.Use,
      let rs : Readers := { message := m, storage := s }
      let t := rs.after uses
      (∀ i, i < t.opened.length →
        let seen := Readers.returned (rs.answers uses) i
        seen = m.content.take seen.length ∧
        (∀ n, let bytes := (t.run i fun r => r.read n).1
          bytes = (m.content.drop seen.length).take n ∧ (bytes = [] ↔ n = 0 ∨ seen = m.content)) ∧
        (t.run i Reader.readAll).1 = m.content.drop seen.length) ∧
      rs.answers uses
        = Readers.answers { message := m, storage := .memory m.content } uses) ∧
    ∀ (ω : Type) (peer : Peer) (sender : String) (bs : List (Binding ω)) (world : ω),
      let apart := Fanout.deliverApart peer sender m bs world
      (Fanout.deliverFrom peer sender m bs (world, s)).lift Prod.fst = apart ∧
      Fanout.deliver peer sender m bs world = apart ∧
      ∀ c ∈ apart.calls, ∃ b ∈ bs, ∃ world fault?,
        c = .deliver b.listener.id peer sender b.recipient m (b.listener.reads m world) fault? := by
  refine ⟨fun uses => ⟨fun i hi => ?_, ?_⟩, fun ω peer sender bs world => ⟨?_, ?_, ?_⟩⟩
  · have hsees := (Readers.sees_new m s).after uses
    simp only [List.nil_append, hs] at hsees
    exact ⟨hsees.returned_eq hi, fun n => ⟨hsees.read hi n, hsees.read_eq_nil hi n⟩,
      hsees.readAll hi⟩
  · have halike : Readers.Alike { message := m, storage := s }
        { message := m, storage := .memory m.content } := ⟨hs, rfl⟩
    exact halike.answers uses
  · exact Fanout.deliverFrom_eq_apart peer sender bs world hs
  · exact Fanout.deliver_eq_apart peer sender m bs world
  · exact fun c hc => Fanout.exists_of_mem_calls hc

/-- A file with the cursor at its end, and with two bytes behind those of the message. -/
theorem readers_do_not_disturb_behind_message :
    let m : Message := .ofContent (Text.encode "abc") true
    let s : Storage := .file ⟨Text.encode "abcde", 5⟩ 3
    let uses : List Readers.Use := [.add, .add, .read 1 2, .read 0 1]
    let rs : Readers := { message := m, storage := s }
    s.content = m.content ∧ 0 < (rs.after uses).opened.length ∧
      ((rs.after uses).run 0 Reader.readAll).1 = Text.encode "bc" := by
  intro m s uses rs
  have hs : s.content = m.content := by decide
  have hi : 0 < (rs.after uses).opened.length := by decide
  obtain ⟨-, -, hrest⟩ := ((readers_do_not_disturb hs).1 uses).1 0 hi
  exact ⟨hs, hi, hrest.trans (by decide)⟩

end SmtpReceiver
