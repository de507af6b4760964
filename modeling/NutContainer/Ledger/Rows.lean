import NutContainer.Index

/-!
The books of a growing file in rows that lie side by side: the positions of the sync
points, for every stream a row with a place for each of them, and a count for every
stream. Each row grows by itself, so the rows have to be kept in step. A place that
a row does not have is not looked up and a difference below zero is not taken: what
would need it is missing.
-/
namespace NutContainer.Ledger

/-- The first number less the second, unless that is below zero. -/
def difference? (first second : Nat) : Option Nat :=
  if second ≤ first then some (first - second) else none

/-- Changes what a list has at a place, if it has the place. -/
def modify? (list : List α) (place : Nat) (change : α → α) : Option (List α) :=
  if place < list.length then some (list.modify place change) else none

/-- The books of a growing file in rows. -/
structure Rows where
  /-- Positions of all sync points in file order. -/
  syncpoints : List Nat
  /-- By stream, the time of its first frame behind each sync point. -/
  firstTimes : List (List (Option Nat))
  /-- The latest time so far and its stream. -/
  latest : Option (Nat × UInt32)
  /-- By stream, how many frames are complete. -/
  frameCounts : List Nat
  deriving DecidableEq, Repr

namespace Rows

/-- The books of an empty file. -/
def empty (streamCount : Nat) : Rows :=
  ⟨[], List.replicate streamCount [], none, List.replicate streamCount 0⟩

/-- The distance back from a position to the last sync point, in units of the index. It
is zero where there is no sync point yet. -/
def back? (rows : Rows) (position : Nat) : Option Nat :=
  match rows.syncpoints.getLast? with
  | none => some 0
  | some last => (difference? position last).map (· / Index.unit)

/-- Enters a sync point, with a free place for it in every row. -/
def addSyncpoint (rows : Rows) (position : Nat) : Rows :=
  { rows with
    syncpoints := rows.syncpoints ++ [position]
    firstTimes := rows.firstTimes.map (· ++ [none]) }

/-- Enters a time at the last place of a row, if there is one and it is free. -/
def enterLast (pts : Nat) : List (Option Nat) → List (Option Nat)
  | [] => []
  | [last] => [last.or (some pts)]
  | first :: second :: rest => first :: enterLast pts (second :: rest)

/-- The later of a time and the latest so far, which stays in a tie. Both clocks are
looked up. -/
def later? (clocks : List Ratio) (time : Nat × UInt32) :
    Option (Nat × UInt32) → Option (Nat × UInt32)
  | none => some time
  | some latest => do
    let tick ← clocks[time.2.toNat]?
    let latestTick ← clocks[latest.2.toNat]?
    if latest.1 * latestTick.num.toNat * tick.den.toNat <
        time.1 * tick.num.toNat * latestTick.den.toNat then
      some time
    else some latest

/-- Enters a complete frame. -/
def addFrame? (rows : Rows) (clocks : List Ratio) (stream : UInt32) (pts : Nat) :
    Option Rows := do
  let firstTimes ← modify? rows.firstTimes stream.toNat (enterLast pts)
  let latest ← later? clocks (pts, stream) rows.latest
  let frameCounts ← modify? rows.frameCounts stream.toNat (· + 1)
  return { rows with firstTimes, latest := some latest, frameCounts }

/-- Distances from one number to the next, the first from `last`. -/
def gaps? (last : Nat) : List Nat → Option (List Nat)
  | [] => some []
  | n :: rest => do
    let gap ← difference? n last
    let others ← gaps? n rest
    return gap :: others

/-- The index without its size. -/
def indexFields? (rows : Rows) (clocks : Nat) : Option (List Field) := do
  let (pts, stream) := rows.latest.getD (0, 0)
  let gaps ← gaps? 0 (rows.syncpoints.map (· / Index.unit))
  return [.time pts stream.toNat clocks, .unsigned rows.syncpoints.length]
    ++ gaps.map .unsigned ++ rows.firstTimes.flatMap Index.streamFields

/-- The index of a file. -/
def indexPacket? (rows : Rows) (clocks : Nat) : Option Packet := do
  let fields ← rows.indexFields? clocks
  let body := Field.encodeAll fields
  return ⟨Startcode.index, body ++ .ofNat 8 (Index.totalSize body)⟩

end Rows

/-- The books with the intervals laid out in rows. -/
def rows (ledger : Ledger) : Rows where
  syncpoints := ledger.syncpoints
  firstTimes := (List.range ledger.streamCount).map ledger.firstTimes
  latest := ledger.latest
  frameCounts := ledger.frameCounts

end NutContainer.Ledger
