import Supervisor.Fault
/-!
# Courses

How a call runs, as far as others can tell: it takes some time, and then it ends in one way or never.
-/
namespace Supervisor

/-- What a call that panics leaves behind. -/
inductive Payload
  /-- A text that was made for the occasion. -/
  | text (s : String)
  /-- A text that is part of the program. -/
  | fixedText (s : String)
  | other
deriving DecidableEq, Repr

def Payload.message : Payload → String
  | .text s | .fixedText s => s
  | .other => "unknown panic payload"

inductive Ending (α : Type)
  | value (a : α)
  | fault (f : Fault)
  | panic (p : Payload)
  | never

structure Course (α : Type) where
  /-- Milliseconds. -/
  delay : Nat := 0
  ending : Ending α
  /-- Does it panic when it is called, before it waits? -/
  early : Bool := false

namespace Ending
variable {α β : Type}

/-- What the caller of a call is told; nothing if it never ends. -/
def result? : Ending α → Option (Except Fault α)
  | .value a => some (.ok a)
  | .fault f => some (.error f)
  | .panic p => some (.error (.operationPanicked p.message))
  | .never => none

def map (f : α → β) : Ending α → Ending β
  | .value a => .value (f a)
  | .fault e => .fault e
  | .panic p => .panic p
  | .never => .never

def isPanic : Ending α → Bool
  | .panic _ => true
  | _ => false

end Ending

namespace Course
variable {α β : Type}

def map (f : α → β) (c : Course α) : Course β :=
  { delay := c.delay, ending := c.ending.map f, early := c.early }

/-- When a call ends that was made at `now`. -/
def due? (c : Course α) (now : Nat) : Option Nat :=
  match c.ending with
  | .never => none
  | .panic _ => some (if c.early then now else now + c.delay)
  | _ => some (now + c.delay)

end Course

/-! ## Limits -/

/-- What a call brings that is given up after `limit`; one that ends exactly then is in time. -/
def inTime {α : Type} (late : α) (limit : Option Nat) (x : Nat × α) : Nat × α :=
  match limit with
  | some l => if x.1 ≤ l then x else (l, late)
  | none => x

/-- The same for a call that may never end. -/
def withinLimit {α : Type} (late : α) (limit : Option Nat) : Option (Nat × α) → Option (Nat × α)
  | some x => some (inTime late limit x)
  | none => limit.map fun l => (l, late)

end Supervisor
