import NutContainer.FrameCode

/-!
The runs of a frame-code table place by place. A scan takes the entry at a place and
goes on from there to the first entry that differs, and from that one again; on the
way it passes over the place of the startcode byte, be it in the middle of a run, at
its end or between two of them. A table is filled from runs in the same manner, with
an unusable entry wherever that place comes up, as long as places are left.
-/
namespace NutContainer.FrameCodeTable

/-- The end of a run that has `count` entries equal to `code` before `place`: how many
it has in all, and the place behind it. -/
def runEnd (table : FrameCodeTable) (code : FrameCode) (count place : Nat) : Nat × Nat :=
  if inside : place < 256 then
    if place = startcodeByte.toNat then table.runEnd code count (place + 1)
    else if table.codes[place] = code then table.runEnd code (count + 1) (place + 1)
    else (count, place)
  else (count, place)
termination_by 256 - place

theorem le_runEnd (table : FrameCodeTable) (code : FrameCode) (count place : Nat) :
    place ≤ (table.runEnd code count place).2 := by
  induction count, place using runEnd.induct table code with
  | case1 count inside ih =>
    rw [runEnd, dif_pos inside, if_pos rfl]
    omega
  | case2 count place inside other same ih =>
    rw [runEnd, dif_pos inside, if_neg other, if_pos same]
    omega
  | case3 count place inside other differs =>
    exact Nat.le_of_eq (by rw [runEnd, dif_pos inside, if_neg other, if_neg differs])
  | case4 count place outside =>
    exact Nat.le_of_eq (by rw [runEnd, dif_neg outside])

/-- The runs from a place on. -/
def scan (table : FrameCodeTable) (place : Nat) : List (FrameCode × Nat) :=
  if inside : place < 256 then
    if place = startcodeByte.toNat then table.scan (place + 1)
    else
      let code := table.codes[place]
      let stop := table.runEnd code 1 (place + 1)
      (code, stop.1) :: table.scan stop.2
  else []
termination_by 256 - place
decreasing_by
  · omega
  · have further := table.le_runEnd table.codes[place] 1 (place + 1)
    omega

/-- Puts an entry `count` times behind others, passing over the startcode byte. -/
def fillRun (code : FrameCode) : (count : Nat) → List FrameCode → List FrameCode
  | 0, codes => codes
  | count + 1, codes =>
    if codes.length = startcodeByte.toNat then fillRun code count (codes ++ [.unusable, code])
    else fillRun code count (codes ++ [code])

/-- Puts the entries of runs behind others until the table is full, and says which runs
are left over. -/
def fill : List (FrameCode × Nat) → List FrameCode → List FrameCode × List (FrameCode × Nat)
  | [], codes => (codes, [])
  | (code, count) :: runs, codes =>
    if codes.length < 256 then fill runs (fillRun code count codes)
    else (codes, (code, count) :: runs)

end NutContainer.FrameCodeTable
