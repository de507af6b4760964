import NutContainer.Proofs.IndexPointer
import NutContainer.Proofs.PresentationOrder

/-! What the summary of a session says, held against its file. The numbers come from three places:
the books count frames by stream and sync points as they are laid down, the output knows how much
it took, and the session counts the frames that were written behind a later one. A reader who
knows none of these finds the same numbers in the file. -/
namespace NutContainer

namespace WaitingFrame

/-- The frame at this place stands behind one of a later time. -/
def IsLate (written : List WaitingFrame) (place : Nat) : Prop :=
  ∃ frame, written[place]? = some frame ∧ ∃ other ∈ written.take place, frame.millis < other.millis

instance (written : List WaitingFrame) (place : Nat) : Decidable (IsLate written place) :=
  match found : written[place]? with
  | none => .isFalse (by simp [IsLate, found])
  | some frame =>
    decidable_of_iff (∃ other ∈ written.take place, frame.millis < other.millis) (by
      simp [IsLate, found])

/-- How many frames stand behind one of a later time. -/
def lateCount (written : List WaitingFrame) : Nat :=
  (List.range written.length).countP (IsLate written ·)

theorem isLate_append {written more : List WaitingFrame} {place : Nat}
    (inside : place < written.length) : IsLate (written ++ more) place ↔ IsLate written place := by
  rw [IsLate, IsLate, List.getElem?_append_left inside,
    List.take_append_of_le_length (Nat.le_of_lt inside)]

/-- The newest frame is late if the latest time is after its own. -/
theorem isLate_newest {written : List WaitingFrame} {frame : WaitingFrame} :
    IsLate (written ++ [frame]) written.length ↔ (highest? written).any (frame.millis < ·) := by
  have later : IsLate (written ++ [frame]) written.length ↔
      ∃ other ∈ written, frame.millis + (1 : Nat) ≤ other.millis := by
    rw [IsLate, List.getElem?_concat_length, List.take_left]
    simp only [Option.some.injEq, exists_eq_left']
    rfl
  rw [later, ← due_iff, Due, Option.any_eq_true]
  refine exists_congr fun top => and_congr_right fun _ => ?_
  rw [decide_eq_true_iff]
  rfl

theorem lateCount_concat (written : List WaitingFrame) (frame : WaitingFrame) :
    lateCount (written ++ [frame]) =
      lateCount written + if (highest? written).any (frame.millis < ·) then 1 else 0 := by
  have kept : (List.range written.length).countP (IsLate (written ++ [frame]) ·) =
      lateCount written := by
    refine List.countP_congr fun place inside => ?_
    simpa using isLate_append (List.mem_range.mp inside)
  rw [lateCount, List.length_append, List.length_singleton, List.range_succ, List.countP_append, kept,
    List.countP_singleton]
  simp [isLate_newest]

/-- Frames that are counted as they are written are late where they stand. -/
theorem tally_eq (written : List WaitingFrame) :
    tally written = (highest? written, lateCount written) := by
  induction written using List.reverseRecOn with
  | nil => rfl
  | append_singleton earlier frame ih =>
    rw [tally_append, ih, List.foldl_cons, List.foldl_nil, count, highest?_concat, lateCount_concat]

end WaitingFrame

/-- One more in one place is one more in all. -/
theorem total_modify_succ {counts : List Nat} {place : Nat} (inside : place < counts.length) :
    (counts.modify place (· + 1)).foldr (· + ·) 0 = counts.foldr (· + ·) 0 + 1 := by
  induction counts generalizing place with
  | nil => cases inside
  | cons first rest ih =>
    cases place with
    | zero => simp [Nat.add_right_comm]
    | succ place =>
      have inner : place < rest.length := Nat.lt_of_succ_lt_succ inside
      simp [ih inner, Nat.add_assoc]

namespace Draft

variable {headers : Headers} {draft : Draft}

/-- The books count the frames that a reader finds. -/
structure Counted (headers : Headers) (draft : Draft) : Prop where
  wide : draft.ledger.frameCounts.length = headers.streams.length
  counts : ∀ stream count, draft.ledger.frameCounts[stream]? = some count →
    count = (Contents.frames ⟨headers, draft.body⟩).countP (·.1 = stream)
  total : draft.ledger.frameTotal = (Contents.frames ⟨headers, draft.body⟩).length

theorem opened_counted (headers : Headers) : (opened headers).Counted headers where
  wide := List.length_replicate
  counts := by
    intro stream count found
    obtain ⟨_, rfl⟩ := List.getElem?_eq_some_iff.mp found
    exact List.getElem_replicate ..
  total := by
    have none (streams : Nat) : (List.replicate streams 0).foldr (· + ·) 0 = 0 := by
      induction streams with
      | zero => rfl
      | succ streams ih => exact (Nat.zero_add _).trans ih
    exact none headers.streams.length

theorem Counted.putSyncpoint (counted : draft.Counted headers) (stream : UInt32) (pts : Nat) :
    (draft.putSyncpoint headers stream pts).Counted headers := by
  have same : Contents.frames ⟨headers, (draft.putSyncpoint headers stream pts).body⟩ =
      Contents.frames ⟨headers, draft.body⟩ :=
    (frames_put ..).trans (List.append_nil _)
  refine ⟨counted.wide, ?_, ?_⟩
  · rw [same]
    exact counted.counts
  · rw [same]
    exact counted.total

/-- A complete frame is counted for its stream. -/
theorem Counted.putRecord (counted : draft.Counted headers) {stream : UInt32} {header : StreamHeader}
    (found : headers.stream? stream = some header) (pts : Nat) (payload : Bytes) :
    (draft.putRecord headers header stream pts payload).Counted headers := by
  have inside : stream.toNat < draft.ledger.frameCounts.length := by
    obtain ⟨inside, _⟩ := List.getElem?_eq_some_iff.mp found
    exact counted.wide ▸ inside
  have frames : Contents.frames ⟨headers, (draft.putRecord headers header stream pts payload).body⟩ =
      Contents.frames ⟨headers, draft.body⟩ ++ [(stream.toNat, pts, payload)] := frames_put ..
  refine ⟨(List.length_modify ..).trans counted.wide, ?_, ?_⟩
  · intro other count known
    change (draft.ledger.frameCounts.modify stream.toNat (· + 1))[other]? = some count at known
    rw [List.getElem?_modify] at known
    obtain ⟨before, stood, rfl⟩ := Option.map_eq_some_iff.mp known
    rw [frames, List.countP_append, List.countP_singleton, ← counted.counts other before stood]
    by_cases same : stream.toNat = other
    · simp [same]
    · simp [same]
  · have total := counted.total
    rw [frames, List.length_append, List.length_singleton, ← total]
    exact total_modify_succ inside

theorem Counted.putFrames (counted : draft.Counted headers) (frames : List WaitingFrame) :
    (draft.putFrames headers frames).Counted headers :=
  List.foldlRecOn frames _ counted fun _ counted frame _ =>
    putFrame_induct (Counted headers) frame.payload counted (counted.putSyncpoint _ _)
      fun _ _ found _ counted => counted.putRecord found frame.pts.toNat frame.payload

/-- An index is not among the sync points. -/
theorem syncpoints_ended (headers : Headers) (writeIndex : Bool) (draft : Draft) :
    Contents.syncpoints ⟨headers, (draft.ended headers writeIndex).body⟩ =
      Contents.syncpoints ⟨headers, draft.body⟩ := by
  obtain ⟨tail, body, indexes, _⟩ := ended_body headers writeIndex draft
  have other : tail.filter Placed.isSync = [] := by
    refine List.filter_eq_nil_iff.mpr fun placed member sync => ?_
    obtain ⟨offset, element⟩ := placed
    have index := indexes _ member
    cases element with
    | index contents => cases sync
    | _ => cases index
  rw [Contents.syncpoints_eq, Contents.syncpoints_eq, body, List.filter_append, other,
    List.append_nil]

/-- Whether a file that had no index ends in one now. -/
theorem endsInIndex_ended (writeIndex : Bool)
    (plain : ∀ placed ∈ draft.body, placed.element.isIndex = false) :
    (∃ placed, (draft.ended headers writeIndex).body.getLast? = some placed ∧
        placed.element.isIndex) ↔ writeIndex ∧ draft.ledger.intervals ≠ [] := by
  obtain ⟨tail, body, indexes, length⟩ := ended_body headers writeIndex draft
  have more : tail ≠ [] ↔ writeIndex ∧ draft.ledger.intervals ≠ [] := by
    rw [← List.length_pos_iff, length, Nat.pos_iff_ne_zero, Ne, Bool.toNat_eq_zero]
    simp
  rw [body, ← more]
  obtain rfl | ⟨front, last, rfl⟩ := List.eq_nil_or_concat tail
  · refine iff_of_false ?_ (by simp)
    rintro ⟨placed, last, index⟩
    rw [List.append_nil] at last
    rw [plain placed (List.mem_of_getLast? last)] at index
    cases index
  · exact iff_of_true ⟨last, by simp, indexes last (by simp)⟩ (by simp)

end Draft

namespace Session

variable {format : ImageFormat} {options : Options} {policy : Sink.Policy} {initial final : Session}
  {streams : List StreamDescriptor} {feeds : List Call} {summary : Summary}
  {arrived : List WaitingFrame}

/-- Whatever history a session has and whatever its window, its summary says what is in its file.
The frames of each stream are as many as were taken in and as many as a reader finds, and all of
them together are their sum; sync points and size are those of the file; there is an index where
one was asked for and some frame was taken in, and then the file ends in it; and late are the
frames that stand in the file behind one of a later millisecond. -/
theorem summary_says_what_is_in_file (started : start format options policy = .ok initial)
    (delivers : initial.Delivers streams feeds summary final)
    (taken : final.arrivals feeds = arrived) :
    arrived.length = feeds.length ∧
    (∀ frame ∈ arrived, ∃ described rate, streams[frame.stream.toNat]? = some described ∧
      described.timebase = some rate ∧ rate ≠ 0 ∧ frame.Ticks rate) ∧
    ∃ (contents : Contents) (written : List WaitingFrame),
      Contents.read? final.file = some contents ∧
      contents.frames = written.map WaitingFrame.record ∧
      written.Perm arrived ∧
      summary.frameCounts.length = streams.length ∧
      (∀ stream count, summary.frameCounts[stream]? = some count →
        count = arrived.countP (·.stream.toNat = stream) ∧
        count = contents.frames.countP (·.1 = stream)) ∧
      summary.frames = summary.frameCounts.foldr (· + ·) 0 ∧
      summary.frames = arrived.length ∧
      summary.syncpoints = contents.syncpoints.length ∧
      summary.size = final.file.length ∧
      (summary.indexed ↔ options.writeIndex ∧ arrived ≠ []) ∧
      (summary.indexed ↔
        ∃ placed, contents.body.getLast? = some placed ∧ placed.element.isIndex) ∧
      summary.late = WaitingFrame.lateCount written := by
  subst taken
  obtain ⟨headers, reached, built, count, running, closed, placed⟩ := delivers.closed started
  have agree := HeaderPlan.agree_of_build built
  obtain ⟨_, derived, _⟩ := HeaderPlan.build_ok built
  have read := closed.read? agree
  have frames := closed.frames
  have perm := OrderingBuffer.releaseOrder_perm options.windowMillis running.numbered
  have summed := closed.summed
  have file := closed.file
  have writable := closed.writable
  rw [layout] at read frames summed file
  rw [start_options started] at read frames summed file writable
  generalize OrderingBuffer.releaseOrder options.windowMillis (final.arrivals feeds) = written at *
  have counted := (Draft.opened_counted headers).putFrames written
  have booked : ((Draft.opened headers).putFrames headers written).Booked headers :=
    (Draft.booked_empty ..).putFrames written
  have plain : ∀ placed ∈ ((Draft.opened headers).putFrames headers written).body,
      placed.element.isIndex = false := Draft.putFrames_plain written (by simp [Draft.opened])
  have admits : ∀ frame ∈ written, headers.Admits frame.stream frame.pts.toNat :=
    fun frame member => (writable frame member).2
  have begun : ((Draft.opened headers).putFrames headers written).ledger.intervals ≠ [] ↔
      final.arrivals feeds ≠ [] := by
    have empty : written = [] ↔ final.arrivals feeds = [] :=
      ⟨fun none => (none ▸ perm).nil_eq.symm, fun none => (none ▸ perm).eq_nil⟩
    refine ⟨fun begun none => ?_, fun fed => Draft.begun_putFrames (fed ∘ empty.mp) admits⟩
    rw [empty.mpr none] at begun
    exact begun rfl
  have indexed : summary.indexed ↔ options.writeIndex ∧
      ((Draft.opened headers).putFrames headers written).ledger.intervals ≠ [] := by
    rw [summed, Draft.summary, Draft.ended_ledger]
    simp
  refine ⟨count, fun frame member => clock_of_placement built (placed frame member), _, written,
    read, frames, perm, ?_, ?_, ?_, ?_, ?_, ?_, ?_, ?_, ?_⟩
  · rw [summed, Draft.summary, Draft.ended_ledger, counted.wide, derived.length_eq]
  · intro stream count known
    rw [summed, Draft.summary, Draft.ended_ledger] at known
    have found := counted.counts stream count known
    rw [← Draft.frames_ended headers options.writeIndex, frames] at found
    refine ⟨?_, by rwa [frames]⟩
    rw [found, List.countP_map, perm.countP_eq]
    rfl
  · rw [summed]
    rfl
  · rw [summed, Draft.summary, Draft.ended_ledger, counted.total,
      ← Draft.frames_ended headers options.writeIndex, frames, List.length_map, perm.length_eq]
  · rw [Draft.syncpoints_ended, booked.points, summed, Draft.summary, Draft.ended_ledger]
    simp [Ledger.syncpoints]
  · rw [file, summed, Draft.summary]
  · rw [indexed, begun]
  · rw [indexed, Draft.endsInIndex_ended _ plain]
  · rw [summed, WaitingFrame.tally_eq]
    rfl

theorem summary_says_what_is_in_file_sample : ∃ final,
    sample.Delivers sampleStreams interruptedFeeds interruptedSummary final ∧
      ∃ (contents : Contents) (written : List WaitingFrame),
        Contents.read? final.file = some contents ∧
        contents.frames = written.map WaitingFrame.record ∧ written.Perm interruptedArrived ∧
        contents.frames.countP (·.1 = 0) = 3 ∧ contents.syncpoints.length = 1 ∧
        final.file.length = 181 ∧ WaitingFrame.lateCount written = 1 := by
  obtain ⟨final, delivers, taken⟩ := interrupted_delivers
  obtain ⟨_, _, contents, written, read, frames, all, _, counts, _, _, points, size, _, _, late⟩ :=
    summary_says_what_is_in_file (start_ok.mpr ⟨rfl, rfl⟩) delivers taken
  exact ⟨final, delivers, contents, written, read, frames, all, (counts 0 3 rfl).2.symm, points.symm,
    size.symm, late.symm⟩

end Session

end NutContainer
