import NutContainer.Proofs.SessionOutput

/-! A file does not show in which order its frames came in, as long as none came too
late for its window. Such frames are written by time, frames of equal time as they
came, and everything else in the file follows from what is written in which order:
sync points depend on the bytes laid so far, the index on the sync points. So two
sessions with different windows and different arrivals make the same file. -/
namespace NutContainer

namespace WaitingFrame

/-- The frame without its number. -/
def content (frame : WaitingFrame) : WaitingFrame := { frame with arrival := 0 }

/-- The same frames in another order that leaves frames of equal time in theirs. -/
def Rearranged (first second : List WaitingFrame) : Prop :=
  ∀ millis, (first.filter (·.millis = millis)).map content =
    (second.filter (·.millis = millis)).map content

theorem Rearranged.mem {first second : List WaitingFrame} (rearranged : Rearranged first second)
    {frame : WaitingFrame} (member : frame ∈ second) : ∃ other ∈ first, other.millis = frame.millis := by
  have listed : frame.content ∈ (second.filter (·.millis = frame.millis)).map content :=
    List.mem_map_of_mem (List.mem_filter.mpr ⟨member, by simp⟩)
  rw [← rearranged] at listed
  obtain ⟨other, among, _⟩ := List.mem_map.mp listed
  obtain ⟨among, same⟩ := List.mem_filter.mp among
  exact ⟨other, among, by simpa using same⟩

/-- Lists that are sorted by a key are equal if they agree on each key. -/
private theorem eq_of_filter_eq {key : α → Int} {first second : List α}
    (one : first.Pairwise (key · ≤ key ·)) (other : second.Pairwise (key · ≤ key ·))
    (same : ∀ value, first.filter (key · = value) = second.filter (key · = value)) :
    first = second := by
  induction first generalizing second with
  | nil =>
    cases second with
    | nil => rfl
    | cons head tail => simpa using same (key head)
  | cons item rest ih =>
    cases second with
    | nil => simpa using same (key item)
    | cons head tail =>
      obtain ⟨least, sorted⟩ := List.pairwise_cons.mp one
      obtain ⟨lowest, ordered⟩ := List.pairwise_cons.mp other
      have below : key head ≤ key item := by
        have listed : item ∈ (head :: tail).filter (key · = key item) := by simp [← same]
        rcases List.mem_cons.mp (List.mem_filter.mp listed).1 with rfl | member
        · exact Int.le_refl _
        · exact lowest item member
      have above : key item ≤ key head := by
        have listed : head ∈ (item :: rest).filter (key · = key head) := by simp [same]
        rcases List.mem_cons.mp (List.mem_filter.mp listed).1 with rfl | member
        · exact Int.le_refl _
        · exact least head member
      have keys : key head = key item := Int.le_antisymm below above
      have equal : item = head := by
        have heads := same (key item)
        simp only [List.filter_cons, keys, decide_true, if_true] at heads
        exact (List.cons.inj heads).1
      subst equal
      refine congrArg (item :: ·) (ih sorted ordered fun value => ?_)
      have both := same value
      by_cases here : key item = value
      · simpa [List.filter_cons, here] using both
      · simpa [List.filter_cons, here] using both

/-- Frames of one time are written as they came. -/
private theorem filter_releaseOrder {window : Nat} {arrived : List WaitingFrame}
    (admissible : OrderingBuffer.Admissible arrived)
    (onTime : OrderingBuffer.OnTime window arrived) (millis : Int) :
    (OrderingBuffer.releaseOrder window arrived).filter (·.millis = millis) =
      arrived.filter (·.millis = millis) := by
  have perm := (OrderingBuffer.releaseOrder_perm window admissible.numbered).filter
    (·.millis = millis)
  have written := (OrderingBuffer.releaseOrder_onTime admissible onTime).filter (·.millis = millis)
  have ordered : ((OrderingBuffer.releaseOrder window arrived).filter
      (·.millis = millis)).Pairwise (·.arrival < ·.arrival) := by
    refine written.imp_of_mem fun {first second} one other before => ?_
    have same := (List.mem_filter.mp one).2
    have also := (List.mem_filter.mp other).2
    simp only [decide_eq_true_eq] at same also
    rw [precedes_iff] at before
    omega
  refine perm.eq_of_pairwise ?_ ordered (admissible.numbered.pairwise_arrival.filter _)
  intro first second _ _ before after
  omega

theorem releaseOrder_rearranged {window other : Nat} {first second : List WaitingFrame}
    (firstAdmissible : OrderingBuffer.Admissible first)
    (secondAdmissible : OrderingBuffer.Admissible second)
    (firstOnTime : OrderingBuffer.OnTime window first)
    (secondOnTime : OrderingBuffer.OnTime other second) (rearranged : Rearranged first second) :
    (OrderingBuffer.releaseOrder window first).map content =
      (OrderingBuffer.releaseOrder other second).map content := by
  have sorted {window : Nat} {arrived : List WaitingFrame}
      (admissible : OrderingBuffer.Admissible arrived)
      (onTime : OrderingBuffer.OnTime window arrived) :
      ((OrderingBuffer.releaseOrder window arrived).map content).Pairwise (·.millis ≤ ·.millis) := by
    rw [List.pairwise_map]
    refine (OrderingBuffer.releaseOrder_onTime admissible onTime).imp fun {first second} before => ?_
    rw [precedes_iff] at before
    simp only [content]
    omega
  have equal {window : Nat} {arrived : List WaitingFrame}
      (admissible : OrderingBuffer.Admissible arrived)
      (onTime : OrderingBuffer.OnTime window arrived) (millis : Int) :
      ((OrderingBuffer.releaseOrder window arrived).map content).filter (·.millis = millis) =
        (arrived.filter (·.millis = millis)).map content := by
    rw [List.filter_map, ← filter_releaseOrder admissible onTime]
    rfl
  refine eq_of_filter_eq (sorted firstAdmissible firstOnTime) (sorted secondAdmissible secondOnTime)
    fun millis => ?_
  rw [equal firstAdmissible firstOnTime, equal secondAdmissible secondOnTime, rearranged]

/-- Frames in the order of their times are counted without any late one. -/
theorem tally_sorted {frames : List WaitingFrame} (sorted : frames.Pairwise Precedes) :
    tally frames = (highest? frames, 0) := by
  induction frames using List.reverseRecOn with
  | nil => rfl
  | append_singleton earlier frame ih =>
    obtain ⟨before, _, across⟩ := List.pairwise_append.mp sorted
    have last : ¬ (highest? earlier).any (frame.millis < ·) := by
      intro late
      obtain ⟨top, found, above⟩ := (Option.any_eq_true _ _).mp late
      obtain ⟨other, member, rfl⟩ := List.mem_map.mp (List.max?_mem found)
      have precedes := precedes_iff.mp (across other member frame (by simp))
      simp only [decide_eq_true_eq] at above
      omega
    rw [tally_append, ih before, List.foldl_cons, List.foldl_nil, count, highest?_concat]
    simp [last]

end WaitingFrame

theorem Draft.putFrames_content (headers : Headers) (frames : List WaitingFrame) (draft : Draft) :
    draft.putFrames headers (frames.map WaitingFrame.content) = draft.putFrames headers frames :=
  List.foldl_map

namespace Session

open WaitingFrame OrderingBuffer

/-- Two sessions that differ in their windows and in the order in which the same
frames come, none of them too late, make the same file and sum it up in the same
way. -/
theorem closed_file_independent_of_arrival {format : ImageFormat} {options : Options}
    {otherWindow : Nat} {policy otherPolicy : Sink.Policy} {initial other final otherFinal : Session}
    {streams : List StreamDescriptor} {feeds otherFeeds : List Call}
    {summary otherSummary : Summary} {arrived otherArrived : List WaitingFrame}
    (started : start format options policy = .ok initial)
    (otherStarted : start format { options with windowMillis := otherWindow } otherPolicy = .ok other)
    (completes : initial.Completes streams feeds summary final)
    (otherCompletes : other.Completes streams otherFeeds otherSummary otherFinal)
    (taken : final.arrivals feeds = arrived)
    (otherTaken : otherFinal.arrivals otherFeeds = otherArrived)
    (rearranged : Rearranged arrived otherArrived)
    (onTime : OnTime options.windowMillis arrived) (otherOnTime : OnTime otherWindow otherArrived)
    (below : ∀ frame ∈ arrived, frame.millis < Signed64.greatest) :
    otherFinal.file = final.file ∧ otherSummary = summary ∧ summary.late = 0 := by
  subst taken otherTaken
  obtain ⟨headers, reached, built, _, running, closed⟩ := completes.closed started
  obtain ⟨otherHeaders, otherReached, otherBuilt, _, otherRunning, otherClosed⟩ :=
    otherCompletes.closed otherStarted
  obtain ⟨_, rfl⟩ := start_ok.mp started
  obtain ⟨_, rfl⟩ := start_ok.mp otherStarted
  cases built.symm.trans otherBuilt
  have admissible := running.admissible below
  have otherAdmissible := otherRunning.admissible fun frame member => by
    obtain ⟨same, among, equal⟩ := rearranged.mem member
    exact equal ▸ below same among
  have same := releaseOrder_rearranged admissible otherAdmissible onTime otherOnTime rearranged
  have laid : layout (fresh format { options with windowMillis := otherWindow } otherPolicy) headers
      (otherFinal.arrivals otherFeeds) =
      layout (fresh format options policy) headers (final.arrivals feeds) := by
    rw [layout, layout, ← Draft.putFrames_content, fresh, ← same, Draft.putFrames_content]
    rfl
  have sorted := tally_sorted (releaseOrder_onTime admissible onTime)
  have otherSorted := tally_sorted (releaseOrder_onTime otherAdmissible otherOnTime)
  have late : (tally (releaseOrder otherWindow (otherFinal.arrivals otherFeeds))).2 =
      (tally (releaseOrder options.windowMillis (final.arrivals feeds))).2 := by
    rw [sorted, otherSorted]
  refine ⟨?_, ?_, ?_⟩
  · rw [closed.file, otherClosed.file, laid]
  · rw [closed.summed, otherClosed.summed, laid]
    exact congrArg (Draft.summary _ options.writeIndex) late
  · rw [closed.summed]
    exact congrArg Prod.snd sorted

/-- A session with a window of twenty milliseconds, into memory. -/
def patient : Session := fresh (.packed .bgr24) { windowMillis := 20 } .memory

/-- A session that lets every frame through at once, into a file. -/
def hasty : Session := fresh (.packed .bgr24) { windowMillis := 0 } .file

/-- Two frames of equal time with an earlier one between them. -/
def patientFeeds : List Call := [.accept 0 20 [1], .accept 0 5 [], .accept 0 20 [2]]

/-- The same frames by time. -/
def hastyFeeds : List Call := [.accept 0 5 [], .accept 0 20 [1], .accept 0 20 [2]]

theorem closed_file_independent_of_arrival_sample : ∃ summary final otherFinal,
    patient.Completes sampleStreams patientFeeds summary final ∧
      hasty.Completes sampleStreams hastyFeeds summary otherFinal ∧
      otherFinal.file = final.file ∧ summary.late = 0 := by
  obtain ⟨final, completes, taken⟩ : ∃ final,
      patient.Completes sampleStreams patientFeeds ⟨3, [3], 1, 178, true, 0⟩ final ∧
        final.arrivals patientFeeds =
          [⟨0, 20, 20, 0, [1]⟩, ⟨0, 5, 5, 1, []⟩, ⟨0, 20, 20, 2, [2]⟩] :=
    ⟨_, completes_run (by decide +kernel), by decide +kernel⟩
  obtain ⟨otherFinal, otherCompletes, otherTaken⟩ : ∃ final,
      hasty.Completes sampleStreams hastyFeeds ⟨3, [3], 1, 178, true, 0⟩ final ∧
        final.arrivals hastyFeeds =
          [⟨0, 5, 5, 0, []⟩, ⟨0, 20, 20, 1, [1]⟩, ⟨0, 20, 20, 2, [2]⟩] :=
    ⟨_, completes_run (by decide +kernel), by decide +kernel⟩
  obtain ⟨same, _, late⟩ := closed_file_independent_of_arrival (start_ok.mpr ⟨rfl, rfl⟩)
    (start_ok.mpr ⟨rfl, rfl⟩) completes otherCompletes taken otherTaken (by
      intro millis
      by_cases early : 5 = millis
      · simp [content, ← early]
      · by_cases later : 20 = millis
        · simp [content, ← later]
        · simp [early, later]) (by decide) (by decide) (by decide)
  exact ⟨_, final, otherFinal, completes, otherCompletes, same, late⟩

end Session

end NutContainer
