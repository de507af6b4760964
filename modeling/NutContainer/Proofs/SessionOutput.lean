import NutContainer.Proofs.SessionRun

/-! What a session leaves in its sink, told by what a reader finds there. The reader
knows nothing of the session: it verifies every checksum, takes the whole output
and gives back headers, sync points, frames and the index. The frames it finds are
the ones that were taken in, those that are due while the session is open and all
of them once it is closed, in the order in which the buffer lets them go. -/
namespace NutContainer

namespace Session

theorem start_options {format : ImageFormat} {options : Options} {policy : Sink.Policy}
    {session : Session} (started : start format options policy = .ok session) :
    session.options = options := by
  obtain ⟨_, rfl⟩ := start_ok.mp started
  rfl

variable {format : ImageFormat} {options : Options} {policy : Sink.Policy} {initial reached : Session}
  {streams : List StreamDescriptor} {feeds : List Call} {summary : Summary}

/-- A reader takes the whole file of a closed session and finds its layout. -/
theorem Closed.read? {headers : Headers} {arrived : List WaitingFrame} {final : Session}
    (agree : headers.Agree) (closed : Closed initial headers arrived summary final) :
    Contents.read? final.file = some ⟨headers, (initial.layout headers arrived).body⟩ := by
  have sound := (Draft.opened_sound headers).putFrames agree
    fun frame member => (closed.writable frame member).2
  rw [closed.file]
  exact (sound.ended agree initial.options.writeIndex).read? agree

theorem Closed.frames {headers : Headers} {arrived : List WaitingFrame} {final : Session}
    (closed : Closed initial headers arrived summary final) :
    Contents.frames ⟨headers, (initial.layout headers arrived).body⟩ =
      (OrderingBuffer.releaseOrder initial.options.windowMillis arrived).map WaitingFrame.record := by
  rw [layout, Draft.frames_ended, Draft.frames_putFrames _ fun frame member =>
    (closed.writable frame member).2]
  rfl

/-- After every call on an open session, the file has exactly the frames that are a
whole window behind the latest one, and the buffer has exactly the others. -/
theorem open_file_has_due_frames {arrived : List WaitingFrame}
    (started : start format options policy = .ok initial)
    (opens : initial.Opens streams feeds reached) (taken : reached.arrivals feeds = arrived)
    (below : ∀ frame ∈ arrived, frame.millis < Signed64.greatest) :
    arrived.length = feeds.length ∧
    (∃ (contents : Contents) (written : List WaitingFrame),
      Contents.read? reached.file = some contents ∧
      contents.frames = written.map WaitingFrame.record ∧
      written.Perm (arrived.filter (·.Due options.windowMillis arrived))) ∧
    reached.buffer.frames.Perm (arrived.filter (¬ ·.Due options.windowMillis arrived)) ∧
    reached.buffer.size = (arrived.filter (¬ ·.Due options.windowMillis arrived)).length ∧
    ∀ frame ∈ reached.buffer.frames, ∀ top, WaitingFrame.highest? arrived = some top →
      top - frame.millis < options.windowMillis := by
  subst taken
  obtain ⟨headers, built, count, running⟩ := opens.running started
  have agree := HeaderPlan.agree_of_build built
  have sound := (Draft.opened_sound headers).putFrames agree
    fun frame member => (running.writable frame member).2
  have settled := OrderingBuffer.release_settled initial.options.windowMillis
    (running.admissible below)
  have frames := Draft.frames_putFrames (Draft.opened headers)
    fun frame member => (running.writable frame member).2
  have written := running.recording.output.1
  rw [← running.buffer] at settled
  rw [start_options started] at *
  refine ⟨count, ⟨_, _, ?_, frames, settled.left_perm⟩, settled.waiting_perm,
    settled.waiting_perm.length_eq, ?_⟩
  · rw [file, written]
    exact sound.read? agree
  · intro frame member top highest
    have waits := settled.waiting frame member
    by_contra behind
    exact waits ⟨top, highest, by omega⟩

/-- A session with a window of ten milliseconds, into memory. -/
def sample : Session := fresh (.packed .bgr24) { windowMillis := 10 } .memory

/-- One stream of sound with a clock in milliseconds. -/
def sampleStreams : List StreamDescriptor := [.audio 0 1000 48000 1]

/-- Three frames, the second of them late. The first looks like a startcode. -/
def sampleFeeds : List Call := [.accept 0 20 [0x4E, 0x4B], .accept 0 5 [], .accept 0 40 [7]]

def sampleArrived : List WaitingFrame :=
  [⟨0, 20, 20, 0, [0x4E, 0x4B]⟩, ⟨0, 5, 5, 1, []⟩, ⟨0, 40, 40, 2, [7]⟩]

theorem open_file_has_due_frames_sample :
    ∃ reached, sample.Opens sampleStreams sampleFeeds reached ∧ reached.buffer.size = 1 ∧
      ∃ contents, Contents.read? reached.file = some contents ∧
        contents.frames.Perm [(0, 20, [0x4E, 0x4B]), (0, 5, [])] := by
  obtain ⟨reached, opens, taken⟩ : ∃ reached, sample.Opens sampleStreams sampleFeeds reached ∧
      reached.arrivals sampleFeeds = sampleArrived :=
    ⟨_, opens_run (by decide +kernel), by decide +kernel⟩
  obtain ⟨_, ⟨contents, written, read, frames, due⟩, _, waiting, _⟩ :=
    open_file_has_due_frames (start_ok.mpr ⟨rfl, rfl⟩) opens taken (by decide)
  refine ⟨reached, opens, waiting.trans (by decide), contents, read, ?_⟩
  rw [frames]
  exact (due.map WaitingFrame.record).trans (by decide)

/-- What is in the file of a session that is closed: every frame once, and one goes
before another that came earlier exactly if it is earlier in time and the other was
still waiting when it came. -/
theorem closed_file_order {final : Session} {arrived : List WaitingFrame}
    (started : start format options policy = .ok initial)
    (completes : initial.Completes streams feeds summary final)
    (taken : final.arrivals feeds = arrived)
    (below : ∀ frame ∈ arrived, frame.millis < Signed64.greatest) :
    arrived.length = feeds.length ∧
    ∃ (contents : Contents) (written : List WaitingFrame),
      Contents.read? final.file = some contents ∧
      contents.frames = written.map WaitingFrame.record ∧
      written.Perm arrived ∧
      (∀ (i j : Nat) (first second : WaitingFrame),
        arrived[i]? = some first → arrived[j]? = some second → i < j →
          (written.idxOf second < written.idxOf first ↔
            second.millis < first.millis ∧
              ∀ other ∈ arrived.take j, other.millis < first.millis + options.windowMillis)) ∧
      (options.windowMillis = 0 → written = arrived) ∧
      ((∀ (j : Nat) (frame : WaitingFrame), arrived[j]? = some frame →
          ∀ other ∈ arrived.take j, other.millis ≤ frame.millis + options.windowMillis) →
        written = arrived.mergeSort (·.millis ≤ ·.millis)) := by
  subst taken
  obtain ⟨headers, reached, built, count, running, closed⟩ := completes.closed started
  have agree := HeaderPlan.agree_of_build built
  have admissible := running.admissible below
  have read := closed.read? agree
  have frames := closed.frames
  rw [start_options started] at frames
  refine ⟨count, _, _, read, frames, OrderingBuffer.releaseOrder_perm _ admissible.numbered, ?_, ?_,
    ?_⟩
  · intro i j first second one other later
    rw [OrderingBuffer.releaseOrder_idxOf _ admissible one other later, WaitingFrame.Overtakes,
      admissible.numbered _ _ other]
  · intro none
    rw [none]
    exact OrderingBuffer.releaseOrder_zero admissible
  · intro onTime
    refine OrderingBuffer.releaseOrder_mergeSort admissible fun frame member => ?_
    obtain ⟨place, found⟩ := List.mem_iff_getElem?.mp member
    rw [admissible.numbered _ _ found]
    exact onTime place frame found

def sampleSummary : Summary := ⟨3, [3], 1, 179, true, 0⟩

private theorem sample_completes : ∃ final,
    sample.Completes sampleStreams sampleFeeds sampleSummary final ∧
      final.arrivals sampleFeeds = sampleArrived :=
  ⟨_, completes_run (by decide +kernel), by decide +kernel⟩

theorem closed_file_order_sample :
    ∃ final, sample.Completes sampleStreams sampleFeeds sampleSummary final ∧
      ∃ (contents : Contents) (written : List WaitingFrame),
        Contents.read? final.file = some contents ∧
        contents.frames = written.map WaitingFrame.record ∧ written.Perm sampleArrived ∧
        written.idxOf ⟨0, 5, 5, 1, []⟩ < written.idxOf ⟨0, 20, 20, 0, [0x4E, 0x4B]⟩ := by
  obtain ⟨final, completes, taken⟩ := sample_completes
  obtain ⟨_, contents, written, read, frames, all, order, _⟩ :=
    closed_file_order (start_ok.mpr ⟨rfl, rfl⟩) completes taken (by decide)
  exact ⟨final, completes, contents, written, read, frames, all,
    (order 0 1 _ _ rfl rfl (by decide)).mpr (by decide)⟩

end Session

end NutContainer
