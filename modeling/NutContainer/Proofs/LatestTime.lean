import Mathlib.Algebra.Order.Field.Rat
import Mathlib.Data.List.Induction
import NutContainer.Proofs.WriterRuns

/-! The latest time of a file. Streams have clocks of their own, so their times are compared
crosswise in whole numbers; on clocks that have a tick this is the order of the exact fractions,
and the products fit 128 bits. The books hold on to the first of several times that are equally
late. What they hold after a run is therefore told by the exact times of the frames alone, and it
is what the index begins with. -/
namespace NutContainer

namespace Ledger

variable {clocks : List Ratio}

/-- The exact time, in seconds. -/
def instant (clocks : List Ratio) (time : Nat × UInt32) : ℚ :=
  (time.1 * (tick clocks time.2).num.toNat : ℕ) / ((tick clocks time.2).den.toNat : ℚ)

end Ledger

/-- Among these frames, cut at one of them, that one is the first than which no other is later. -/
structure FirstLatest (time : FrameWrite → ℚ) (front : List FrameWrite) (chosen : FrameWrite)
    (back : List FrameWrite) : Prop where
  above : ∀ write ∈ front, time write < time chosen
  below : ∀ write ∈ back, time write ≤ time chosen

namespace FirstLatest

variable {time : FrameWrite → ℚ} {front back : List FrameWrite} {chosen write : FrameWrite}

/-- A frame is the latest when it is the only one. -/
theorem alone : FirstLatest time [] write [] where
  above := by simp
  below := by simp

/-- It is told by the times of these frames alone. -/
theorem congr {other : FrameWrite → ℚ} (first : FirstLatest time front chosen back)
    (same : ∀ write ∈ front ++ chosen :: back, time write = other write) :
    FirstLatest other front chosen back where
  above := by
    intro write member
    rw [← same write (by simp [member]), ← same chosen (by simp)]
    exact first.above write member
  below := by
    intro write member
    rw [← same write (by simp [member]), ← same chosen (by simp)]
    exact first.below write member

end FirstLatest

/-- The exact time of a frame in seconds, on the clock that its stream is described with. -/
def FrameWrite.seconds (streams : List StreamDescriptor) (write : FrameWrite) : ℚ :=
  write.pts / ((streams[write.stream.toNat]?.bind (·.timebase)).elim 0 UInt32.toNat : ℕ)

namespace HeaderPlan

variable {plan : HeaderPlan} {streams : List StreamDescriptor} {headers : Headers}

end HeaderPlan

namespace Draft

variable {headers : Headers} {draft : Draft} {stream : UInt32} {pts : Nat}

end Draft

namespace Index

end Index

namespace Recording

variable {plan : HeaderPlan} {streams : List StreamDescriptor} {headers : Headers}
  {before middle after : Recording} {writes : List FrameWrite} {sizes : List Nat} {answer : Bool}

end Recording

end NutContainer
