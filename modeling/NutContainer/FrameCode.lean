import NutContainer.Field

/-!
The frame-code table. The first byte of a frame selects an entry that says which
properties of the frame are fixed and which are spelled out in its header. Files
written here use one entry only, code 1, which fixes nothing.

A main header states the table as runs of equal neighbours. The code that is
also the first byte of every startcode can never begin a frame; the runs pass
over it without counting it, and a reader puts an unusable entry there.
-/
namespace NutContainer

/-- Properties of a frame, each with its bit. -/
inductive FrameFlag where
  /-- Decoding can begin here. -/
  | key
  /-- The stream ends here. -/
  | endOfRelevance
  | codedPts
  | streamId
  | sizeMsb
  | checksum
  | reserved
  | sideData
  | headerIndex
  | matchTime
  /-- Flags are in the frame header. -/
  | coded
  /-- The code must not be used. -/
  | invalid
  deriving DecidableEq, Repr

namespace FrameFlag

def bit : FrameFlag → Nat
  | key => 0
  | endOfRelevance => 1
  | codedPts => 3
  | streamId => 4
  | sizeMsb => 5
  | checksum => 6
  | reserved => 7
  | sideData => 8
  | headerIndex => 10
  | matchTime => 11
  | coded => 12
  | invalid => 13

/-- The number that stands for a set of flags. -/
def mask (flags : List FrameFlag) : Nat := flags.foldl (fun bits flag => bits ||| 1 <<< flag.bit) 0

end FrameFlag

/-- An entry of the frame-code table. -/
structure FrameCode where
  flags : Nat
  stream : Nat := 0
  sizeMultiplier : Nat := 1
  sizeLsb : Nat := 0
  ptsDelta : Int := 0
  reservedCount : Nat := 0
  deriving DecidableEq, Repr

namespace FrameCode

/-- A code that no frame may use. -/
def unusable : FrameCode := ⟨FrameFlag.mask [.invalid], 0, 1, 0, 0, 0⟩

/-- A code that leaves every property to the frame header. -/
def generic : FrameCode := ⟨FrameFlag.mask [.coded], 0, 1, 0, 0, 0⟩

/-- The part of a size that the code fixes stays below the code's multiplier, so that
every size has one division into the two. -/
def IsSized (code : FrameCode) : Prop := code.sizeLsb < code.sizeMultiplier

instance (code : FrameCode) : Decidable code.IsSized := inferInstanceAs (Decidable (_ < _))

/-- A frame may use this code. -/
def isUsable (code : FrameCode) : Bool := !code.flags.testBit FrameFlag.invalid.bit

end FrameCode

/-- The entries for all values of a frame's first byte. -/
structure FrameCodeTable where
  codes : Vector FrameCode 256
  deriving DecidableEq, Repr

namespace FrameCodeTable

/-- The byte that begins every startcode, the letter `N`. -/
def startcodeByte : UInt8 := 0x4E

/-- The code that files written here use for every frame. -/
def genericCode : UInt8 := 1

/-- The table in which only the generic code is usable. -/
def generic : FrameCodeTable :=
  ⟨Vector.ofFn fun i => if i.val = genericCode.toNat then .generic else .unusable⟩

def get (table : FrameCodeTable) (code : UInt8) : FrameCode := table.codes.get code.toFin

/-- How many codes a frame may use. -/
def usableCount (table : FrameCodeTable) : Nat := table.codes.toList.countP FrameCode.isUsable

/-- Joins one more item in front of a run-length list. -/
def prependRun (code : FrameCode) : List (FrameCode × Nat) → List (FrameCode × Nat)
  | [] => [(code, 1)]
  | (first, count) :: rest =>
    if code = first then (first, count + 1) :: rest else (code, 1) :: (first, count) :: rest

/-- The longest runs of equal neighbours, in order. -/
def runLengths (codes : List FrameCode) : List (FrameCode × Nat) := codes.foldr prependRun []

/-- The entries that runs speak of: all but the one under the startcode byte. -/
def statedCodes (table : FrameCodeTable) : List FrameCode :=
  table.codes.toList.eraseIdx startcodeByte.toNat

/-- The table as a main header states it. -/
def runs (table : FrameCodeTable) : List (FrameCode × Nat) := runLengths table.statedCodes

/-- How many fields of a run are spelled out: all of them. -/
def runFieldCount : Nat := 6

/-- One run of a main header. -/
def runFields (run : FrameCode × Nat) : List Field :=
  [.unsigned run.1.flags, .unsigned runFieldCount, .signed run.1.ptsDelta,
    .unsigned run.1.sizeMultiplier, .unsigned run.1.stream, .unsigned run.1.sizeLsb,
    .unsigned run.1.reservedCount, .unsigned run.2]

/-- All runs of a main header. -/
def fields (table : FrameCodeTable) : List Field := table.runs.flatMap runFields

end FrameCodeTable

end NutContainer
