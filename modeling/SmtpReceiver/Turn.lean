/-!
# Turns of collaborators

A collaborator has a state of its own, and makes calls to others before it
answers.  A `Turn` is its answer together with its next state and these calls.
What kind of calls a collaborator can make is part of the type.
-/

namespace SmtpReceiver

/-- The answer of a collaborator in a state, with the calls that it made. -/
structure Turn (κ σ ρ : Type) where
  result : ρ
  /-- The collaborator afterwards. -/
  next : σ
  /-- The calls that were made on the way. -/
  calls : List κ := []

variable {κ σ τ ρ : Type}

/-- The same turn of a collaborator that holds another one. -/
def Turn.lift (f : σ → τ) (t : Turn κ σ ρ) : Turn κ τ ρ :=
  ⟨t.result, f t.next, t.calls⟩

/-- The same turn with calls made before. -/
def Turn.after (calls : List κ) (t : Turn κ σ ρ) : Turn κ σ ρ :=
  { t with calls := calls ++ t.calls }

end SmtpReceiver
