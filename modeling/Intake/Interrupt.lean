/-!
# Interrupts

A run can be asked to stop, by its user or by the host. The request lives
in a token that everything taking part in the run looks at; a request by
the host overrides one by the user, and nothing overrides it.
-/

namespace Intake

/-- Who asked for the run to stop. -/
inductive Interrupt where
  /-- The caller. -/
  | cancelled
  /-- The host, which is shutting down. -/
  | shutdown
  deriving DecidableEq, Repr

/-- The wording of an interrupt. -/
def Interrupt.message : Interrupt → String
  | .cancelled => "canceling statement due to user request"
  | .shutdown => "terminating load due to administrator command"

/-- A cancel token: the pending interrupt, if any. -/
structure Token where
  pending : Option Interrupt := none
  deriving DecidableEq, Repr

namespace Token

/-- A token after a request. A cancel is heeded only while nothing is
pending; a shutdown always. -/
def request (t : Token) : Interrupt → Token
  | .cancelled => if t.pending.isNone then ⟨some .cancelled⟩ else t
  | .shutdown => ⟨some .shutdown⟩

/-- A token after several requests, in order. -/
def requests (t : Token) (ks : List Interrupt) : Token := ks.foldl request t

/-- Whether a request is pending. -/
def isTripped (t : Token) : Bool := t.pending.isSome

/-- A tripped token stays tripped. -/
theorem isTripped_request (t : Token) (k : Interrupt) : (t.request k).isTripped = true := by
  rcases t with ⟨_ | k'⟩ <;> cases k <;> simp [request, isTripped]

end Token
end Intake
