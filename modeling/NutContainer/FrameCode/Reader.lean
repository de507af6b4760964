import NutContainer.FrameCode

/-!
The frame-code table out of a main header. Runs are read until they speak of all
codes but the one under the startcode byte, which a file never states; an
unusable entry is put there. Runs that are empty, that reach beyond the table, or
whose sizes could be divided in two ways, are refused.
-/
namespace NutContainer.FrameCodeTable

/-- How many codes a file states. -/
def statedCount : Nat := 255

/-- The codes that runs speak of. -/
def expand (runs : List (FrameCode × Nat)) : List FrameCode :=
  runs.flatMap fun (code, count) => List.replicate count code

/-- The table that runs describe, if they speak of the right number of codes. -/
def ofRuns? (runs : List (FrameCode × Nat)) : Option FrameCodeTable :=
  let codes := (expand runs).insertIdx startcodeByte.toNat .unusable
  if complete : codes.length = 256 then some ⟨⟨codes.toArray, by simpa using complete⟩⟩ else none

/-- Reads one run. -/
def readRun? (bytes : Bytes) : Option ((FrameCode × Nat) × Bytes) := do
  let (flags, bytes) ← Varint.read? bytes
  let (fieldCount, bytes) ← Varint.read? bytes
  let (ptsDelta, bytes) ← Varint.readSigned? bytes
  let (sizeMultiplier, bytes) ← Varint.read? bytes
  let (stream, bytes) ← Varint.read? bytes
  let (sizeLsb, bytes) ← Varint.read? bytes
  let (reservedCount, bytes) ← Varint.read? bytes
  let (count, bytes) ← Varint.read? bytes
  let code : FrameCode := ⟨flags, stream, sizeMultiplier, sizeLsb, ptsDelta, reservedCount⟩
  if fieldCount = runFieldCount ∧ code.IsSized then some ((code, count), bytes) else none

/-- Reads runs for the given number of codes. -/
def readRuns? : (codes : Nat) → Bytes → Option (List (FrameCode × Nat) × Bytes)
  | 0, bytes => some ([], bytes)
  | codes + 1, bytes =>
    match readRun? bytes with
    | none => none
    | some (run, bytes) =>
      if within : 0 < run.2 ∧ run.2 ≤ codes + 1 then
        (readRuns? (codes + 1 - run.2) bytes).map fun (others, bytes) => (run :: others, bytes)
      else none
termination_by codes => codes

/-- Reads a whole table. -/
def read? (bytes : Bytes) : Option (FrameCodeTable × Bytes) := do
  let (runs, bytes) ← readRuns? statedCount bytes
  return (← ofRuns? runs, bytes)

theorem expand_prependRun (code : FrameCode) (runs : List (FrameCode × Nat)) :
    expand (prependRun code runs) = code :: expand runs := by
  match runs with
  | [] => rfl
  | (first, count) :: rest =>
    by_cases same : code = first
    · simp [prependRun, same, expand, List.replicate_succ]
    · simp [prependRun, same, expand]

theorem expand_runLengths (codes : List FrameCode) : expand (runLengths codes) = codes := by
  induction codes with
  | nil => rfl
  | cons code rest ih =>
    rw [runLengths, List.foldr_cons, expand_prependRun]
    exact congrArg _ ih

end NutContainer.FrameCodeTable
