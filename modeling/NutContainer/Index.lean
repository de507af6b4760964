import NutContainer.Ledger
import NutContainer.Packet

/-!
The index at the end of a file: the latest time, where the sync points are, and
for every stream the intervals in which it can be entered. Positions are counted
in units of 16 bytes and written as distances from one to the next.

A stream's part goes interval by interval. Interval `j` is marked when the stream
has a first frame in the interval before it whose time is beyond all marked ones,
and then the step of that time from the last marked one is written; steps are
therefore never zero, which a reader would take for something else. The frames
after the last sync point are not indexed. Marks are packed 32 at a time into a
number with a one on top, followed by their steps.

The last field of the index is its own size, so that a reader can find it from
the end of the file.
-/
namespace NutContainer.Index

/-- Bytes per unit in which positions are counted. -/
def unit : Nat := 16

/-- The most marks in one number. -/
def groupSize : Nat := 32

/-- No number is below the one before it, and the first is not below `last`. -/
def Climbs (last : Nat) : List Nat → Prop
  | [] => True
  | n :: rest => last ≤ n ∧ Climbs n rest

instance decidableClimbs : (last : Nat) → (list : List Nat) → Decidable (Climbs last list)
  | _, [] => isTrue trivial
  | _, n :: rest => @instDecidableAnd _ _ _ (decidableClimbs n rest)

/-- Distances from one number to the next, the first from `last`. They can be taken where
the numbers climb. -/
def gaps (last : Nat) : List Nat → List Nat
  | [] => []
  | n :: rest => (n - last) :: gaps n rest

/-- Marks with their steps. A time is marked if it is at least `next`; it is then
one step for every tick from the one before `next`. The time of a written frame is
not the greatest word, so its step fits one. -/
def marks (next : Nat) : List (Option Nat) → List (Option Nat)
  | [] => []
  | none :: rest => none :: marks next rest
  | some pts :: rest =>
    if next ≤ pts then some (pts + 1 - next) :: marks (pts + 1) rest
    else none :: marks next rest

/-- The marks of a stream: none for the first interval, then one place for each
interval but the last. -/
def streamMarks : List (Option Nat) → List (Option Nat)
  | [] => []
  | first :: rest => none :: marks 0 (first :: rest).dropLast

/-- Cuts a list into groups of 32, the last one shorter if need be. -/
def groups (list : List α) : List (List α) :=
  match list with
  | [] => []
  | first :: rest => (first :: rest).take groupSize :: groups ((first :: rest).drop groupSize)
termination_by list.length
decreasing_by
  simp only [groupSize, List.length_drop, List.length_cons]
  omega

/-- The marks of a group as bits, the first one lowest, with a one above them. -/
def bits (group : List (Option Nat)) : Nat :=
  group.foldr (fun mark word => 2 * word + mark.isSome.toNat) 1

/-- One group: its bits, tagged as plain marks, and its steps. -/
def groupFields (group : List (Option Nat)) : List Field :=
  .unsigned (2 * bits group) :: group.filterMap (·.map .unsigned)

/-- A stream's part of the index. -/
def streamFields (firstTimes : List (Option Nat)) : List Field :=
  (groups (streamMarks firstTimes)).flatMap groupFields

/-- The index without its size. -/
def fields (ledger : Ledger) (clocks : Nat) : List Field :=
  let (pts, stream) := ledger.latest.getD (0, 0)
  [.time pts stream.toNat clocks, .unsigned ledger.syncpoints.length]
  ++ (gaps 0 (ledger.syncpoints.map (· / unit))).map .unsigned
  ++ (List.range ledger.streamCount).flatMap fun stream => streamFields (ledger.firstTimes stream)

/-- The size of the index packet over a body without the size field. -/
def totalSize (body : Bytes) : Nat := Packet.size (body.length + 8)

/-- The index of a file. -/
def packet (ledger : Ledger) (clocks : Nat) : Packet :=
  let body := Field.encodeAll (fields ledger clocks)
  ⟨Startcode.index, body ++ .ofNat 8 (totalSize body)⟩

end NutContainer.Index
