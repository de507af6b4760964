import NutContainer.Proofs.AdmissionGate
import NutContainer.Proofs.Deliveries

/-! The order of one stream's times in a file, when no frame came too late for the window. Frames
are put in order by their milliseconds, rounded down, and by their arrival within a millisecond.
So the times of a stream ascend as far as milliseconds can tell: always when the stream ticks at
most once in a millisecond, and otherwise but for frames of one millisecond, which stay in the
order in which they came. -/
namespace NutContainer

/-- The times of a stream's frames in file order. -/
def Contents.streamTimes (contents : Contents) (stream : UInt32) : List Nat :=
  (contents.frames.filter (·.1 = stream.toNat)).map (·.2.1)

namespace WaitingFrame

theorem Precedes.asymm {first second : WaitingFrame} (before : first.Precedes second) :
    ¬ second.Precedes first := by
  rw [precedes_iff] at *
  omega

/-- What holds of frames in file order holds of any two of them of which one precedes the other. -/
theorem Precedes.rel {R : WaitingFrame → WaitingFrame → Prop} {frames : List WaitingFrame}
    {first second : WaitingFrame} (before : first.Precedes second)
    (sorted : frames.Pairwise Precedes) (holds : frames.Pairwise R) (one : first ∈ frames)
    (other : second ∈ frames) : R first second := by
  obtain ⟨i, inside, rfl⟩ := List.mem_iff_getElem.mp one
  obtain ⟨j, within, rfl⟩ := List.mem_iff_getElem.mp other
  rcases Nat.lt_trichotomy i j with less | rfl | greater
  · exact List.pairwise_iff_getElem.mp holds i j inside within less
  · exact absurd before before.asymm
  · exact absurd before (List.pairwise_iff_getElem.mp sorted j i within inside greater).asymm

/-- The frame's millisecond is its time on a clock of this rate, rounded down. -/
def Ticks (rate : UInt32) (frame : WaitingFrame) : Prop :=
  0 ≤ frame.pts ∧ frame.millis = frame.pts * 1000 / rate.toNat

variable {rate : UInt32} {first second : WaitingFrame}

/-- Of two frames on one clock, one that precedes the other is later only within a
millisecond. -/
theorem Precedes.within_millisecond (before : first.Precedes second) (positive : rate ≠ 0)
    (one : first.Ticks rate) (other : second.Ticks rate) (later : second.pts < first.pts) :
    (first.pts - second.pts) * 1000 < rate.toNat ∧ first.millis = second.millis ∧
      first.arrival < second.arrival := by
  have ticks : 0 < (rate.toNat : Int) := by
    have positive := UInt32.pos_iff_ne_zero.mpr positive
    exact Int.natCast_pos.mpr (UInt32.lt_iff_toNat_lt.mp positive)
  have above : second.millis ≤ first.millis := by
    rw [one.2, other.2]
    exact Int.ediv_le_ediv ticks (by omega)
  obtain earlier | ⟨same, came⟩ := precedes_iff.mp before
  · omega
  · refine ⟨?_, same, came⟩
    have high := Int.lt_ediv_add_one_mul_self (first.pts * 1000) ticks
    have low := Int.ediv_mul_le (second.pts * 1000) (Int.ne_of_gt ticks)
    rw [← one.2, same] at high
    rw [← other.2] at low
    rw [Int.add_mul] at high
    omega

end WaitingFrame

theorem Contents.pairwise_streamTimes {contents : Contents} {written : List WaitingFrame}
    (frames : contents.frames = written.map WaitingFrame.record) (stream : UInt32) :
    (contents.streamTimes stream).Pairwise (· ≤ ·) ↔
      written.Pairwise fun first second => first.stream = stream → second.stream = stream →
        first.pts.toNat ≤ second.pts.toNat := by
  have same (frame : WaitingFrame) : frame.stream.toNat = stream.toNat ↔ frame.stream = stream :=
    UInt32.toNat_inj
  rw [streamTimes, frames, List.filter_map, List.map_map, List.pairwise_map, List.pairwise_filter]
  simp [WaitingFrame.record, same]

namespace Session

variable {format : ImageFormat} {options : Options} {policy : Sink.Policy} {initial final : Session}
  {streams : List StreamDescriptor} {feeds : List Call} {summary : Summary}
  {arrived : List WaitingFrame}

/-- A frame that is placed has its millisecond from the clock that its stream is described with. -/
theorem clock_of_placement {plan : HeaderPlan} {headers : Headers}
    (built : plan.build streams = .ok headers) {frame : WaitingFrame}
    (placed : placement headers frame.stream frame.pts = .ok frame.millis) :
    ∃ described rate, streams[frame.stream.toNat]? = some described ∧
      described.timebase = some rate ∧ rate ≠ 0 ∧ frame.Ticks rate := by
  obtain ⟨sign, admits⟩ : WaitingFrame.Writable headers
    ⟨frame.stream, frame.pts, frame.millis, 0, []⟩ := writable_of_placement placed
  obtain ⟨header, found⟩ := admits.header
  obtain ⟨described, listed, derived⟩ := HeaderPlan.described_of_build built found
  obtain ⟨rate, clock, positive, base⟩ := HeaderPlan.streamHeader_clock derived
  refine ⟨described, rate, listed, clock, positive, sign, ?_⟩
  unfold placement at placed
  simp only [found, base, Timestamp.millis?_perSecond positive] at placed
  split at placed
  · cases placed
  · split at placed
    · rename_i fits
      split at fits
      · cases fits
        exact (Except.ok.inj placed).symm
      · cases fits
    · cases placed

/-- When no frame comes too late for the window, the times of a stream ascend in the file but for
frames of one millisecond, which stand in the order in which they came. So they ascend without
exception if and only if any two frames of one millisecond came in the order of their times, and
always if the stream ticks at most once in a millisecond. -/
theorem stream_times_ascend_across_milliseconds
    (started : start format options policy = .ok initial)
    (delivers : initial.Delivers streams feeds summary final)
    (taken : final.arrivals feeds = arrived)
    (below : ∀ frame ∈ arrived, frame.millis < Signed64.greatest)
    (onTime : OrderingBuffer.OnTime options.windowMillis arrived)
    {stream rate : UInt32} {described : StreamDescriptor}
    (listed : streams[stream.toNat]? = some described) (clock : described.timebase = some rate) :
    arrived.length = feeds.length ∧ WaitingFrame.Numbered arrived ∧
    (∀ frame ∈ arrived, frame.stream = stream → frame.Ticks rate) ∧
    ∃ (contents : Contents) (written : List WaitingFrame),
      Contents.read? final.file = some contents ∧
      contents.frames = written.map WaitingFrame.record ∧
      written.Perm arrived ∧
      written.Pairwise (fun first second => first.stream = stream → second.stream = stream →
        second.pts < first.pts → (first.pts - second.pts) * 1000 < (rate.toNat : Int) ∧
          first.millis = second.millis ∧ first.arrival < second.arrival) ∧
      ((contents.streamTimes stream).Pairwise (· ≤ ·) ↔
        ∀ first ∈ arrived, ∀ second ∈ arrived, first.stream = stream → second.stream = stream →
          first.millis = second.millis → first.arrival < second.arrival → first.pts ≤ second.pts) ∧
      (rate ≤ 1000 → (contents.streamTimes stream).Pairwise (· ≤ ·)) := by
  subst taken
  obtain ⟨headers, reached, built, count, running, closed, placed⟩ := delivers.closed started
  have read := closed.read? (HeaderPlan.agree_of_build built)
  have frames := closed.frames
  rw [start_options started] at frames
  have admissible := running.admissible below
  have sorted := OrderingBuffer.releaseOrder_onTime admissible onTime
  have perm := OrderingBuffer.releaseOrder_perm options.windowMillis running.numbered
  have ticks : ∀ frame ∈ final.arrivals feeds, frame.stream = stream →
      rate ≠ 0 ∧ frame.Ticks rate := by
    rintro frame member rfl
    obtain ⟨_, _, known, timebase, ticks⟩ := clock_of_placement built (placed frame member)
    cases listed.symm.trans known
    cases clock.symm.trans timebase
    exact ticks
  have within : (OrderingBuffer.releaseOrder options.windowMillis (final.arrivals feeds)).Pairwise
      (fun first second => first.stream = stream → second.stream = stream →
        second.pts < first.pts → (first.pts - second.pts) * 1000 < (rate.toNat : Int) ∧
          first.millis = second.millis ∧ first.arrival < second.arrival) := by
    refine sorted.imp_of_mem fun {first second} one other before own also later => ?_
    obtain ⟨positive, first⟩ := ticks first (perm.mem_iff.mp one) own
    obtain ⟨_, second⟩ := ticks second (perm.mem_iff.mp other) also
    exact before.within_millisecond positive first second later
  refine ⟨count, running.numbered, fun frame member own => (ticks frame member own).2, _, _, read,
    frames, perm, within, ?_, ?_⟩
  · rw [Contents.pairwise_streamTimes frames]
    constructor
    · intro ascend first one second other own also same came
      have before := WaitingFrame.precedes_iff.mpr (.inr ⟨same, came⟩)
      have sign := (ticks second other also).2.1
      have less := before.rel sorted ascend (perm.mem_iff.mpr one) (perm.mem_iff.mpr other) own also
      omega
    · intro came
      refine within.imp_of_mem fun {first second} one other near own also => ?_
      by_contra later
      obtain ⟨_, same, before⟩ := near own also (by omega)
      have less := came first (perm.mem_iff.mp one) second (perm.mem_iff.mp other) own also same before
      omega
  · intro coarse
    have slow : rate.toNat ≤ 1000 := UInt32.le_iff_toNat_le.mp coarse
    rw [Contents.pairwise_streamTimes frames]
    refine within.imp fun {first second} near own also => ?_
    by_contra later
    obtain ⟨close, _, _⟩ := near own also (by omega)
    omega

/-- One stream of sound whose clock ticks ninety times in a millisecond. -/
def fineStreams : List StreamDescriptor := [.audio 0 90000 48000 1]

/-- Three frames, the last two of them in one millisecond before the first. -/
def fineFeeds : List Call := [.accept 0 181 [], .accept 0 90 [], .accept 0 95 []]

def fineArrived : List WaitingFrame := [⟨0, 181, 2, 0, []⟩, ⟨0, 90, 1, 1, []⟩, ⟨0, 95, 1, 2, []⟩]

theorem stream_times_ascend_across_milliseconds_sample :
    ∃ summary final, sample.Delivers fineStreams fineFeeds summary final ∧
      ∃ contents, Contents.read? final.file = some contents ∧
        (contents.streamTimes 0).Pairwise (· ≤ ·) := by
  have delivers : sample.Delivers fineStreams fineFeeds ⟨3, [3], 1, 179, true, 0⟩
      (sample.run (.writeHeaders fineStreams :: fineFeeds ++ [.close])).2 :=
    ⟨_, .ok none :: fineFeeds.map fun _ => .ok none, run_of_outcomes (by decide +kernel),
      by decide, rfl, rfl⟩
  have taken : (sample.run (.writeHeaders fineStreams :: fineFeeds ++ [.close])).2.arrivals
      fineFeeds = fineArrived := by decide +kernel
  have listed : fineStreams[(0 : UInt32).toNat]? = some (.audio 0 90000 48000 1) := rfl
  obtain ⟨_, _, _, contents, _, read, _, _, _, ascend, _⟩ :=
    stream_times_ascend_across_milliseconds (start_ok.mpr ⟨rfl, rfl⟩) delivers taken (by decide)
      (by decide) listed rfl
  exact ⟨_, _, delivers, contents, read, ascend.mpr (by decide)⟩

/-- Two frames of one millisecond, the earlier one last. -/
def turnedFeeds : List Call := [.accept 0 1 [], .accept 0 0 []]

def turnedArrived : List WaitingFrame := [⟨0, 1, 0, 0, []⟩, ⟨0, 0, 0, 1, []⟩]

/-- Frames that are all on time do not always stand in the file by their times. -/
theorem stream_times_turn_within_millisecond :
    ∃ summary final contents, sample.Delivers fineStreams turnedFeeds summary final ∧
      final.arrivals turnedFeeds = turnedArrived ∧
      (∀ frame ∈ turnedArrived, frame.millis < Signed64.greatest) ∧
      OrderingBuffer.OnTime sample.options.windowMillis turnedArrived ∧
      Contents.read? final.file = some contents ∧ contents.streamTimes 0 = [1, 0] ∧
      ¬ (contents.streamTimes 0).Pairwise (· ≤ ·) := by
  have delivers : sample.Delivers fineStreams turnedFeeds ⟨2, [2], 1, 168, true, 0⟩
      (sample.run (.writeHeaders fineStreams :: turnedFeeds ++ [.close])).2 :=
    ⟨_, .ok none :: turnedFeeds.map fun _ => .ok none, run_of_outcomes (by decide +kernel),
      by decide, rfl, rfl⟩
  have taken : (sample.run (.writeHeaders fineStreams :: turnedFeeds ++ [.close])).2.arrivals
      turnedFeeds = turnedArrived := by decide +kernel
  have started : start (.packed .bgr24) { windowMillis := 10 } .memory = .ok sample :=
    start_ok.mpr ⟨rfl, rfl⟩
  obtain ⟨headers, _, built, _, _, closed, _⟩ := delivers.closed started
  have read := closed.read? (HeaderPlan.agree_of_build built)
  have frames := closed.frames
  rw [taken] at frames read
  have times : Contents.streamTimes ⟨headers, (sample.layout headers turnedArrived).body⟩ 0 =
      [1, 0] := by
    rw [Contents.streamTimes, frames]
    decide
  exact ⟨_, _, _, delivers, taken, by decide, by decide, read, times, by simp [times]⟩

end Session

end NutContainer
