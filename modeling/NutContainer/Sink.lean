import NutContainer.Bytes
import NutContainer.Fault

/-!
Where bytes go. A sink only ever grows at its end; nothing is taken back and no
position is visited twice. What a sink does with the bytes it is offered is its
policy, so one type covers memory, files and outputs that fail at any point. A
refused write may still leave a part of its bytes behind.

Three counts are kept apart: the bytes that the sink has taken, the position,
which counts only writes that succeeded as a whole, and the bytes that a file
still holds back in memory.
-/
namespace NutContainer

/-- An action on a state. It ends in a value or a failure, and either way in the
state that it has come to: a failure undoes nothing. -/
abbrev Act (σ α : Type) := EStateM Failure σ α

namespace Act

/-- Ends in a refusal. -/
def refuse (fault : Fault) : Act σ α := throw (.refused fault)

/-- Goes on where this holds, and crashes where it does not. -/
def insist (condition : Prop) [Decidable condition] : Act σ Unit :=
  if condition then pure () else throw .crash

end Act

namespace Sink

/-- What a sink does with a write. -/
inductive Reply where
  /-- All bytes are taken. -/
  | taken
  /-- The write fails after its first `kept` bytes are taken. -/
  | refused (kept : Nat)
  deriving DecidableEq, Repr

/-- How a sink behaves. A reply may depend on how many writes came before, on how
many bytes are stored and on how many are offered. -/
structure Policy where
  reply : (calls stored offered : Nat) → Reply
  /-- What a refused write says. -/
  refusal : String
  /-- What every flush says, if flushes fail. -/
  flushRefusal : Option String
  /-- The stored bytes can be looked at while the sink is in use. -/
  readable : Bool
  /-- How many bytes may be held back before they reach the medium. -/
  capacity : Nat

namespace Policy

/-- Memory takes everything. -/
def memory : Policy := ⟨fun _ _ _ => .taken, "", none, true, 0⟩

/-- A file takes everything, 32 KiB at a time where writes are small. -/
def file : Policy := ⟨fun _ _ _ => .taken, "", none, false, 32 * 1024⟩

/-- A sink with limited room that stores nothing of a write that does not fit. -/
def wholeOrNothing (limit : Option Nat) (refusal : String) (flushRefusal : Option String) : Policy :=
  let fits (total : Nat) : Bool := limit.all (total ≤ ·)
  ⟨fun _ stored offered => if fits (stored + offered) then .taken else .refused 0,
    refusal, flushRefusal, false, 0⟩

/-- The least of a count and a bound that may be missing. -/
def atMost (bound : Option Nat) (count : Nat) : Nat := bound.elim count (min count)

theorem atMost_le (bound : Option Nat) (count : Nat) : atMost bound count ≤ count := by
  cases bound with
  | none => exact Nat.le_refl count
  | some bound => exact Nat.min_le_left count bound

/-- How many bytes of an offer remain when it is repeated until a turn takes
nothing. A turn takes at most `piece` bytes, and never more than there is room
for. -/
def leftOver (piece limit : Option Nat) (stored offered : Nat) : Nat :=
  let turn := atMost (limit.map (· - stored)) (atMost piece offered)
  if turn = 0 then offered else leftOver piece limit (stored + turn) (offered - turn)
termination_by offered
decreasing_by
  have least : turn ≤ offered := Nat.le_trans (atMost_le _ _) (atMost_le _ _)
  omega

/-- A sink that takes a write piece by piece, and refuses it when a turn takes
nothing. -/
def piecewise (piece limit : Option Nat) (flushRefusal : Option String) : Policy :=
  ⟨fun _ stored offered =>
    match leftOver piece limit stored offered with
    | 0 => .taken
    | rest => .refused (offered - rest),
    "failed to write whole buffer", flushRefusal, false, 0⟩

end Policy

/-- How many bytes are held back after a write of `size` bytes with `held` of them
before. Writes that fill the room are passed on, large ones directly. -/
def holdBack (capacity held size : Nat) : Nat :=
  if size < capacity - held then held + size
  else
    let kept := if capacity - held < size then 0 else held
    if capacity ≤ size then kept else kept + size

end Sink

/-- A sink in use. -/
structure Sink where
  policy : Sink.Policy
  /-- All bytes taken so far. -/
  stored : Array UInt8
  /-- The bytes of all writes that succeeded. -/
  position : Nat
  /-- How many writes there were. -/
  calls : Nat
  /-- How many of the last bytes have not reached the medium. -/
  held : Nat

namespace Sink

/-- A sink that nothing was written to. -/
def fresh (policy : Policy) : Sink := ⟨policy, #[], 0, 0, 0⟩

/-- The bytes that have reached the medium. -/
def arrived (sink : Sink) : Array UInt8 := sink.stored.extract 0 (sink.stored.size - sink.held)

/-- The stored bytes, if the sink shows them. -/
def data? (sink : Sink) : Option (Array UInt8) :=
  if sink.policy.readable then some sink.stored else none

/-- Offers bytes to the sink. -/
def write (bytes : Bytes) : Act Sink Unit := fun sink =>
  match sink.policy.reply sink.calls sink.stored.size bytes.length with
  | .taken =>
    .ok () { sink with
      stored := sink.stored ++ bytes
      position := sink.position + bytes.length
      calls := sink.calls + 1
      held := holdBack sink.policy.capacity sink.held bytes.length }
  | .refused kept =>
    .error (.refused (.output sink.policy.refusal)) { sink with
      stored := sink.stored ++ bytes.take kept
      calls := sink.calls + 1 }

/-- Asks the sink to let go of everything it holds back. -/
def flush : Act Sink Unit := fun sink =>
  match sink.policy.flushRefusal with
  | none => .ok () { sink with held := 0 }
  | some reason => .error (.refused (.output reason)) sink

end Sink

end NutContainer
