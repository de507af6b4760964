import NutContainer.Index

/-!
The index out of its payload. What comes back is what a player needs: where the
sync points are, and for every stream the intervals that it can be entered in
with the time it has there.

Marks come in two shapes. A plain group holds its bits in a number with a one on
top. A repeated group stands for a run of equal bits with one opposite bit behind
it; files written here have none of these, but other files may. Bits beyond the
last sync point mean nothing.
-/
namespace NutContainer.Index

/-- What an index says. -/
structure Contents where
  latestPts : Nat
  latestClock : Nat
  /-- Positions of the sync points, in units of 16 bytes. -/
  syncpoints : List Nat
  /-- By stream, the marked places with their times. -/
  keyframes : List (List (Nat × Nat))
  /-- The size of the index packet. -/
  size : Nat
  deriving DecidableEq, Repr

/-- The bits below the highest one, the lowest first. -/
def lowBits (word : Nat) : List Bool :=
  if word ≤ 1 then [] else (word % 2 == 1) :: lowBits (word / 2)

/-- The marks of a group. A group without any is refused. -/
def groupMarks? (word : Nat) : Option (List Bool) :=
  if word % 2 = 0 then
    if 1 < word / 2 then some (lowBits (word / 2)) else none
  else
    let bit := word / 2 % 2 == 1
    some (List.replicate (word / 4) bit ++ [!bit])

/-- Reads the step of every mark that is set. A step leads on from the last marked
time, which is the one before `next`, and is never zero. -/
def readSteps? (place next : Nat) :
    List Bool → Bytes → Option (List (Nat × Nat) × Nat × Bytes)
  | [], bytes => some ([], next, bytes)
  | false :: marks, bytes => readSteps? (place + 1) next marks bytes
  | true :: marks, bytes =>
    match Varint.read? bytes with
    | none => none
    | some (step, bytes) =>
      if step = 0 then none
      else
        (readSteps? (place + 1) (next + step) marks bytes).map fun (others, rest) =>
          ((place, next + step - 1) :: others, rest)

/-- Reads groups until `remaining` more places are covered. -/
def readGroups? (remaining place next : Nat) (bytes : Bytes) : Option (List (Nat × Nat) × Bytes) :=
  if remaining = 0 then some ([], bytes)
  else
    match Varint.read? bytes with
    | none => none
    | some (word, bytes) =>
      match groupMarks? word with
      | none | some [] => none
      | some (mark :: marks) =>
        match readSteps? place next ((mark :: marks).take remaining) bytes with
        | none => none
        | some (entries, next, bytes) =>
          let covered := marks.length + 1
          (readGroups? (remaining - covered) (place + covered) next bytes).map
            fun (others, bytes) => (entries ++ others, bytes)
termination_by remaining
decreasing_by omega

/-- Reads a stream's part of an index over `count` sync points. Nothing can be
marked before the first of them. -/
def readStream? (count : Nat) (bytes : Bytes) : Option (List (Nat × Nat) × Bytes) := do
  let (entries, bytes) ← readGroups? count 0 0 bytes
  if entries.all (·.1 ≠ 0) then some (entries, bytes) else none

/-- Numbers out of the distances between them, the first from `last`. -/
def ofGaps (last : Nat) : List Nat → List Nat
  | [] => []
  | gap :: rest => (last + gap) :: ofGaps (last + gap) rest

/-- The index in a payload, for a file with known counts of clocks and streams. -/
def read? (clocks streams : Nat) (payload : Bytes) : Option Contents := do
  let (time, bytes) ← Varint.read? payload
  let (count, bytes) ← Varint.read? bytes
  let (gaps, bytes) ← Bytes.many? Varint.read? count bytes
  let (keyframes, bytes) ← Bytes.many? (readStream? count) streams bytes
  let (size, bytes) ← Bytes.word64? bytes
  if gaps.all (0 < ·) ∧ bytes = [] then
    some ⟨time / clocks, time % clocks, ofGaps 0 gaps, keyframes, size.toNat⟩
  else none

end NutContainer.Index
