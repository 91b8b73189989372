import SmtpReceiver.Auth.Plain
import SmtpReceiver.Auth.Login
import SmtpReceiver.Auth.Open
import SmtpReceiver.Auth.Scripted

/-!
# Several mechanisms together

A `Composite` offers the mechanisms of its parts.  A line that begins an
exchange makes the first part active that has the mechanism, after the part
active until then was told to forget its exchange.  Any other line goes to the
active part, and without one no mechanism takes it.  A part stays active as
long as it answers by challenges.

`PlainLogin` is the composite of the two mechanisms of the receiver.  A `Tree`
is a composite of composites, so many levels deep.
-/

namespace SmtpReceiver.Auth

open Text (Base64 sameFold)

/-- Authenticators side by side, of which one may be active. -/
structure Composite (α : Type) where
  /-- The parts, in the order in which they are asked. -/
  parts : List α
  /-- The number of the active part. -/
  active : Option Nat := none

namespace Composite

variable {α : Type} [Authenticator α]

/-- Whether a part has a mechanism. -/
def offers (mechanism : String) (a : α) : Bool :=
  (Authenticator.mechanisms a).any fun name => sameFold name mechanism

/-- Makes the active part forget its exchange, and no part active. -/
def reset (c : Composite α) : Turn Call (Composite α) Unit :=
  match c.active.bind fun i => c.parts[i]?.map fun a => (i, a) with
  | some (i, a) =>
    let t := Authenticator.reset a
    ⟨(), { parts := c.parts.set i t.next, active := none }, t.calls⟩
  | none => ⟨(), { c with active := none }, []⟩

/-- Makes the first part active that has a mechanism. -/
def activate (mechanism : String) (c : Composite α) : Composite α :=
  { c with active := c.parts.findIdx? (offers mechanism) }

/-- Gives a line to the active part. -/
def ask (c : Composite α) (line : String) : Turn Call (Composite α) Answer :=
  match c.active.bind fun i => c.parts[i]?.map fun a => (i, a) with
  | some (i, a) =>
    let t := Authenticator.answer a line
    ⟨t.result,
      { parts := c.parts.set i t.next, active := if isChallenge t.result then some i else none },
      t.calls⟩
  | none => ⟨.error .mechanismMismatch, c, []⟩

def answer (c : Composite α) (line : String) : Turn Call (Composite α) Answer :=
  match authLine? line with
  | some (mechanism, _) =>
    let r := c.reset
    let t := (r.next.activate mechanism).ask line
    { t with calls := r.calls ++ t.calls }
  | none => c.ask line

instance : Authenticator (Composite α) where
  mechanisms c := c.parts.flatMap Authenticator.mechanisms
  answer := answer
  reset := reset

end Composite

/-! ## Composites in use -/

/-- PLAIN and LOGIN together. -/
abbrev PlainLogin := Composite (Plain ⊕ Login)

/-- PLAIN and LOGIN over one validator. -/
def PlainLogin.over (validator : Validator) : PlainLogin :=
  { parts := [.inl { validator }, .inr { validator }] }

/-- An authenticator that has no parts. -/
abbrev Leaf := Open ⊕ Plain ⊕ Login ⊕ Scripted

/-- An authenticator with parts, and parts of parts, up to a depth. -/
def Tree : Nat → Type
  | 0 => Leaf
  | n + 1 => Leaf ⊕ Composite (Tree n)

/-- A tree of any depth takes part in exchanges. -/
instance Tree.authenticator [Base64] : (n : Nat) → Authenticator (Tree n)
  | 0 => inferInstanceAs (Authenticator Leaf)
  | n + 1 =>
    have := Tree.authenticator n
    inferInstanceAs (Authenticator (Leaf ⊕ Composite (Tree n)))

/-- A leaf as a tree of any depth. -/
def Tree.leaf (l : Leaf) : (n : Nat) → Tree n
  | 0 => l
  | _ + 1 => .inl l

end SmtpReceiver.Auth
