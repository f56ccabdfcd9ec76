import Supervisor.Event.Basic
/-!
# The bus

Notices are published on a bus. It counts them, keeps the latest ones, and delivers each to the
listeners that want its kind. A receiver reads the notices published since it was made, in order,
from a buffer that holds the latest ones; what it was too slow for, it is told the number of.
-/
namespace Supervisor

structure Listener where
  id : Nat
  /-- The kinds that are wanted; all of them if nothing is said. -/
  kinds : Option (List EventKind)
deriving Repr

def Listener.wants (l : Listener) (n : Notice) : Bool :=
  match l.kinds with
  | none => true
  | some kinds => kinds.contains n.kind

/-- The identifier under which a listener is registered. -/
def Listener.name (id : Nat) : String := "listener-" ++ toString id

structure Bus where
  capacity : Nat := 256
  historySize : Nat := 100
  /-- How many notices have been published. -/
  count : Nat := 0
  /-- The latest notices, the newest first. -/
  latest : List Notice := []
  /-- What receivers can still read, the newest first. -/
  buffer : List Notice := []
  listeners : List Listener := []
  /-- How many listeners have been registered. -/
  issued : Nat := 0
deriving Repr, Inhabited

/-- The position of the next notice that a receiver reads. -/
structure Receiver where
  next : Nat
deriving Repr

namespace Bus

/-- The least power of two that is at least `n`, looked for from `p` on. -/
def powerFrom (n p : Nat) : Nat → Nat
  | 0 => p
  | fuel + 1 => if n ≤ p then p else powerFrom n (2 * p) fuel

def withConfig (capacity historySize : Nat) : Bus :=
  { capacity := powerFrom capacity 1 capacity, historySize }

def publish (b : Bus) (n : Notice) : Bus :=
  { b with
    count := b.count + 1
    latest := (n :: b.latest).take b.historySize
    buffer := (n :: b.buffer).take b.capacity }

/-- The listeners to which a notice is delivered. -/
def recipients (b : Bus) (n : Notice) : List Listener := b.listeners.filter (·.wants n)

/-- Registers a listener under a new identifier. -/
def subscribe (b : Bus) (kinds : Option (List EventKind)) : Nat × Bus :=
  (b.issued, { b with listeners := b.listeners ++ [⟨b.issued, kinds⟩], issued := b.issued + 1 })

/-- Takes a listener away: was it there? -/
def unsubscribe (b : Bus) (id : Nat) : Bool × Bus :=
  (b.listeners.any (·.id == id), { b with listeners := b.listeners.filter (·.id != id) })

/-- The latest notices, the newest first. -/
def history (b : Bus) (limit : Option Nat) : List Notice :=
  match limit with
  | some k => b.latest.take k
  | none => b.latest

def receiver (b : Bus) : Receiver := ⟨b.count⟩

/-- The position of the oldest notice that can still be read. -/
def oldest (b : Bus) : Nat := b.count - b.capacity

/-- One read: how many notices the receiver has lost, or else the next notice, if there is one. -/
def receive (b : Bus) (r : Receiver) : Nat × Option Notice × Receiver :=
  if r.next < b.oldest then (b.oldest - r.next, none, ⟨b.oldest⟩)
  else if r.next < b.count then (0, b.buffer[b.count - r.next - 1]?, ⟨r.next + 1⟩)
  else (0, none, r)

/-- All that a receiver can read now, after the number of notices it has lost. -/
def drain (b : Bus) (r : Receiver) : Nat × List Notice × Receiver :=
  let start := max r.next b.oldest
  (start - r.next, (b.buffer.take (b.count - start)).reverse, ⟨b.count⟩)

end Bus

end Supervisor
