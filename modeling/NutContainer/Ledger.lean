import NutContainer.Header

/-!
What must be remembered of a file while it grows forward. Sync points cut the
file into intervals; for every interval the ledger keeps where it begins and the
first time of each stream in it, which is all that the index needs. Besides that
it keeps the latest time of all and how many frames each stream has.

Times of different streams are compared as fractions, crosswise, without
division.
-/
namespace NutContainer

/-- The stretch of a file from one sync point to the next. -/
structure Interval where
  /-- Where its sync point begins. -/
  position : Nat
  /-- By stream, the time of its first frame here. -/
  firstPts : List (Option Nat)
  deriving DecidableEq, Repr

/-- Enters a stream's time into an interval that has none for it yet. -/
def Interval.enter (interval : Interval) (stream : Nat) (pts : Nat) : Interval :=
  { interval with firstPts := interval.firstPts.modify stream fun first => first.or (some pts) }

/-- The books of a growing file. -/
structure Ledger where
  /-- All intervals, the newest first. -/
  intervals : List Interval
  /-- The latest time so far and its stream. -/
  latest : Option (Nat × UInt32)
  /-- By stream, how many frames are complete. -/
  frameCounts : List Nat
  deriving DecidableEq, Repr

namespace Ledger

/-- The books of an empty file. -/
def empty (streamCount : Nat) : Ledger := ⟨[], none, List.replicate streamCount 0⟩

/-- How many streams the books are kept for. -/
def streamCount (ledger : Ledger) : Nat := ledger.frameCounts.length

/-- Positions of all sync points in file order. -/
def syncpoints (ledger : Ledger) : List Nat := ledger.intervals.reverse.map (·.position)

/-- Position of the newest sync point. -/
def lastSyncpoint? (ledger : Ledger) : Option Nat := ledger.intervals.head?.map (·.position)

/-- First times of a stream by interval, in file order. -/
def firstTimes (ledger : Ledger) (stream : Nat) : List (Option Nat) :=
  ledger.intervals.reverse.map fun interval => interval.firstPts[stream]?.join

/-- Frames of all streams together. -/
def frameTotal (ledger : Ledger) : Nat := ledger.frameCounts.foldr (· + ·) 0

/-- Opens an interval at a sync point. -/
def addSyncpoint (ledger : Ledger) (position : Nat) : Ledger :=
  { ledger with
    intervals := ⟨position, List.replicate ledger.streamCount none⟩ :: ledger.intervals }

/-- The tick of a clock; clocks that the file does not have stand still. -/
def tick (clocks : List Ratio) (clock : UInt32) : Ratio := clocks[clock.toNat]?.getD ⟨0, 1⟩

/-- The first time is after the second. -/
def IsLater (clocks : List Ratio) (first second : Nat × UInt32) : Prop :=
  second.1 * (tick clocks second.2).num.toNat * (tick clocks first.2).den.toNat <
    first.1 * (tick clocks first.2).num.toNat * (tick clocks second.2).den.toNat

instance (clocks : List Ratio) (first second : Nat × UInt32) :
    Decidable (IsLater clocks first second) := inferInstanceAs (Decidable (_ < _))

/-- The later of a time and the latest so far, which stays in a tie. -/
def later (clocks : List Ratio) (time : Nat × UInt32) : Option (Nat × UInt32) → Nat × UInt32
  | none => time
  | some latest => if IsLater clocks time latest then time else latest

/-- Enters a complete frame. -/
def addFrame (ledger : Ledger) (clocks : List Ratio) (stream : UInt32) (pts : Nat) : Ledger where
  intervals := ledger.intervals.modifyHead (·.enter stream.toNat pts)
  latest := some (later clocks (pts, stream) ledger.latest)
  frameCounts := ledger.frameCounts.modify stream.toNat (· + 1)

end Ledger

end NutContainer
