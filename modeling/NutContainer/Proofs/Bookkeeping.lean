import NutContainer.Proofs.Draft

/-! What the books of a file say is what a reader can find out from the body: where the sync
points are, and for every stream the time of its first frame behind each of them. The books are
kept with every element that is laid down and are never corrected, so this is shown one element
at a time. Nothing here depends on the bytes or on what stands before them. -/
namespace NutContainer

/-- What is no separator goes into the last part. -/
theorem splitOnP_concat {separates : α → Bool} {list : List α} {front : List (List α)}
    {last : List α} {item : α} (plain : separates item = false)
    (parts : list.splitOnP separates = front ++ [last]) :
    (list ++ [item]).splitOnP separates = front ++ [last ++ [item]] := by
  induction list generalizing front last with
  | nil =>
    obtain ⟨rfl, rfl⟩ : front = [] ∧ last = [] := by
      simpa [List.append_eq_singleton_iff, eq_comm] using parts
    simp [List.splitOnP_cons_eq_if_modifyHead, plain]
  | cons first rest ih =>
    obtain ⟨others, final, tail⟩ :=
      (List.eq_nil_or_concat (rest.splitOnP separates)).resolve_left (List.splitOnP_ne_nil _ _)
    rw [List.concat_eq_append] at tail
    rw [List.splitOnP_cons_eq_if_modifyHead, tail] at parts
    rw [List.cons_append, List.splitOnP_cons_eq_if_modifyHead, ih tail]
    split at parts
    · rename_i separator
      rw [← List.cons_append] at parts
      obtain ⟨rfl, same⟩ := List.append_inj' parts rfl
      cases same
      rw [if_pos separator]
      rfl
    · rename_i inner
      rw [if_neg inner]
      cases others with
      | nil =>
        obtain ⟨rfl, rfl⟩ : front = [] ∧ last = first :: final := by
          simpa [List.append_eq_singleton_iff, eq_comm] using parts
        rfl
      | cons one more =>
        rw [List.cons_append, List.modifyHead_cons, ← List.cons_append] at parts ⊢
        obtain ⟨rfl, same⟩ := List.append_inj' parts rfl
        cases same
        rfl

/-- Where a list with one more item is cut: at the new one, or at an old one. -/
theorem split_concat {list front back : List α} {last item : α}
    (split : list ++ [last] = front ++ item :: back) :
    (list = front ∧ last = item ∧ back = []) ∨
      ∃ behind, back = behind ++ [last] ∧ list = front ++ item :: behind := by
  obtain rfl | ⟨behind, final, rfl⟩ := List.eq_nil_or_concat back
  · obtain ⟨rfl, same⟩ := List.append_inj' split rfl
    exact .inl ⟨rfl, List.singleton_inj.mp same, rfl⟩
  · rw [List.concat_eq_append, ← List.cons_append, ← List.append_assoc] at split
    obtain ⟨rfl, same⟩ := List.append_inj' split rfl
    obtain rfl := List.singleton_inj.mp same
    exact .inr ⟨behind, List.concat_eq_append, rfl⟩

/-- What stands at a place stands there still when more is behind it. -/
theorem drop_append_of_stands {bytes item behind : List α} {place : Nat} (filled : 0 < item.length)
    (stands : bytes.drop place = item ++ behind) (more : List α) :
    (bytes ++ more).drop place = item ++ (behind ++ more) := by
  have inside : place ≤ bytes.length := by
    have length := congrArg List.length stands
    rw [List.length_drop, List.length_append] at length
    omega
  rw [List.drop_append_of_le_length inside, stands, List.append_assoc]

def Placed.isSync (placed : Placed) : Bool := Contents.syncs placed.element

def Placed.isFrame (placed : Placed) : Bool := placed.element.isFrame

namespace Contents

/-- The elements behind each sync point up to the next. -/
def intervals (body : List Placed) : List (List Placed) := (body.splitOnP Placed.isSync).tail

/-- The time of the stream's first frame among these elements. -/
def firstPts? (stream : Nat) (elements : List Placed) : Option Nat :=
  elements.findSome? fun placed =>
    match placed.element with
    | .frame _ other pts _ => if other = stream then some pts else none
    | _ => none

/-- A sync point opens an interval. -/
theorem intervals_concat_sync (body : List Placed) {point : Placed}
    (sync : point.isSync = true) : intervals (body ++ [point]) = intervals body ++ [[]] := by
  unfold intervals
  rw [List.splitOnP_append_cons body [] sync, List.splitOnP_nil]
  exact List.tail_append_of_ne_nil (List.splitOnP_ne_nil _ _)

/-- Any other element goes into the newest interval. -/
theorem intervals_concat_plain {body : List Placed} {older : List (List Placed)}
    {newest : List Placed} (opened : intervals body = older ++ [newest]) {placed : Placed}
    (plain : placed.isSync = false) :
    intervals (body ++ [placed]) = older ++ [newest ++ [placed]] := by
  unfold intervals at opened ⊢
  cases parts : body.splitOnP Placed.isSync with
  | nil => exact absurd parts (List.splitOnP_ne_nil _ _)
  | cons ahead others =>
    rw [parts, List.tail_cons] at opened
    rw [opened, ← List.cons_append] at parts
    rw [splitOnP_concat plain parts]
    rfl

theorem syncpoints_eq (headers : Headers) (body : List Placed) :
    syncpoints ⟨headers, body⟩ = (body.filter Placed.isSync).map (·.offset) := by
  induction body with
  | nil => rfl
  | cons placed rest ih =>
    obtain ⟨offset, element⟩ := placed
    cases element with
    | syncpoint pts clock back => exact congrArg (offset :: ·) ih
    | frame flags stream pts payload => exact ih
    | index contents => exact ih

/-- There is an interval for every sync point. -/
theorem length_intervals (headers : Headers) (body : List Placed) :
    (intervals body).length = (syncpoints ⟨headers, body⟩).length := by
  suffices parts : (body.splitOnP Placed.isSync).length =
      (body.filter Placed.isSync).length + 1 by
    rw [intervals, List.length_tail, parts, Nat.add_sub_cancel, syncpoints_eq, List.length_map]
  induction body with
  | nil => rfl
  | cons first rest ih =>
    rw [List.splitOnP_cons_eq_if_modifyHead, List.filter_cons]
    split
    · exact congrArg (· + 1) ih
    · rw [List.length_modifyHead, ih]

theorem firstPts?_concat (stream : Nat) (elements : List Placed) (placed : Placed) :
    firstPts? stream (elements ++ [placed]) =
      (firstPts? stream elements).or (firstPts? stream [placed]) := by
  rw [firstPts?, List.findSome?_append]
  rfl

theorem firstPts?_frame (offset : Nat) (stream : UInt32) (pts : Nat) (payload : Bytes)
    (other : Nat) : firstPts? other [⟨offset, .ofFrame stream pts payload⟩] =
      if stream.toNat = other then some pts else none := by
  by_cases same : stream.toNat = other
  · simp [firstPts?, Element.ofFrame, same]
  · simp [firstPts?, Element.ofFrame, same]

theorem syncpoints_concat (headers : Headers) (body : List Placed) (placed : Placed) :
    syncpoints ⟨headers, body ++ [placed]⟩ =
      syncpoints ⟨headers, body⟩ ++ syncpoints ⟨headers, [placed]⟩ := List.filterMap_append

theorem synced_of_syncpoints {headers : Headers} {body : List Placed}
    (some_points : syncpoints ⟨headers, body⟩ ≠ []) : Synced body = true := by
  rw [syncpoints_eq] at some_points
  simpa [Synced, Placed.isSync] using some_points

end Contents

namespace Ledger

variable {ledger : Ledger}

theorem syncpoints_addSyncpoint (ledger : Ledger) (position : Nat) :
    (ledger.addSyncpoint position).syncpoints = ledger.syncpoints ++ [position] := by
  simp [syncpoints, addSyncpoint]

theorem syncpoints_addFrame (ledger : Ledger) (clocks : List Ratio) (stream : UInt32) (pts : Nat) :
    (ledger.addFrame clocks stream pts).syncpoints = ledger.syncpoints := by
  cases intervals : ledger.intervals with
  | nil => simp [syncpoints, addFrame, intervals]
  | cons newest older => simp [syncpoints, addFrame, intervals, Interval.enter]

theorem streamCount_addFrame (ledger : Ledger) (clocks : List Ratio) (stream : UInt32)
    (pts : Nat) : (ledger.addFrame clocks stream pts).streamCount = ledger.streamCount :=
  List.length_modify ..

theorem firstTimes_addSyncpoint (ledger : Ledger) (position stream : Nat) :
    (ledger.addSyncpoint position).firstTimes stream = ledger.firstTimes stream ++ [none] := by
  have untouched : (List.replicate ledger.streamCount (none : Option Nat))[stream]?.join = none := by
    rw [List.getElem?_replicate]
    split
    · rfl
    · rfl
  simp [firstTimes, addSyncpoint, untouched]

theorem firstPts_enter {interval : Interval} (entered pts : Nat) {stream : Nat}
    (inside : stream < interval.firstPts.length) :
    (interval.enter entered pts).firstPts[stream]?.join =
      (interval.firstPts[stream]?.join).or (if entered = stream then some pts else none) := by
  rw [Interval.enter, List.getElem?_modify, List.getElem?_eq_getElem inside]
  by_cases same : entered = stream
  · simp [same]
  · simp [same]

/-- A frame is the first one of its stream where none has been. -/
theorem firstTimes_addFrame {newest : Interval} {older : List Interval}
    (books : ledger.intervals = newest :: older) {other : Nat}
    (inside : other < newest.firstPts.length) {before : List (Option Nat)} {last : Option Nat}
    (known : ledger.firstTimes other = before ++ [last]) (clocks : List Ratio) (stream : UInt32)
    (pts : Nat) : (ledger.addFrame clocks stream pts).firstTimes other =
      before ++ [last.or (if stream.toNat = other then some pts else none)] := by
  rw [firstTimes, books, List.reverse_cons, List.map_append] at known
  obtain ⟨rfl, same⟩ := List.append_inj' known rfl
  cases same
  rw [firstTimes, addFrame, books, List.modifyHead_cons, List.reverse_cons, List.map_append]
  exact congrArg (_ ++ [·]) (firstPts_enter stream.toNat pts inside)

end Ledger

namespace Draft

variable {headers : Headers} {draft : Draft} {stream : UInt32} {pts : Nat}

/-- The books say what a reader finds. -/
structure Booked (headers : Headers) (draft : Draft) : Prop where
  points : Contents.syncpoints ⟨headers, draft.body⟩ = draft.ledger.syncpoints
  wide : ∀ interval ∈ draft.ledger.intervals,
    interval.firstPts.length = draft.ledger.streamCount
  firsts : ∀ stream, stream < draft.ledger.streamCount →
    draft.ledger.firstTimes stream =
      (Contents.intervals draft.body).map (Contents.firstPts? stream)

theorem Booked.putSyncpoint (booked : draft.Booked headers) :
    (draft.putSyncpoint headers stream pts).Booked headers where
  points := by
    rw [Draft.putSyncpoint, put, Contents.syncpoints_concat, booked.points,
      Ledger.syncpoints_addSyncpoint]
    rfl
  wide := by
    intro interval member
    rcases List.mem_cons.mp member with rfl | member
    · exact List.length_replicate
    · exact booked.wide interval member
  firsts := by
    intro stream inside
    rw [Draft.putSyncpoint, put, Contents.intervals_concat_sync _ rfl, List.map_append,
      Ledger.firstTimes_addSyncpoint, booked.firsts stream inside]
    rfl

theorem Booked.length_intervals (booked : draft.Booked headers) :
    (Contents.intervals draft.body).length = draft.ledger.intervals.length := by
  rw [Contents.length_intervals headers, booked.points]
  simp [Ledger.syncpoints]

theorem Booked.synced (booked : draft.Booked headers) (begun : draft.ledger.intervals ≠ []) :
    Contents.Synced draft.body = true := by
  have some_points : Contents.syncpoints ⟨headers, draft.body⟩ ≠ [] := by
    rw [booked.points]
    simpa [Ledger.syncpoints] using begun
  exact Contents.synced_of_syncpoints some_points

/-- A frame behind a sync point is entered where a reader finds it. -/
theorem Booked.putRecord (booked : draft.Booked headers) (begun : draft.ledger.intervals ≠ [])
    (header : StreamHeader) (stream : UInt32) (pts : Nat) (payload : Bytes) :
    (draft.putRecord headers header stream pts payload).Booked headers := by
  obtain ⟨newest, older, books⟩ := List.exists_cons_of_ne_nil begun
  obtain ⟨before, last, opened⟩ : ∃ before last,
      Contents.intervals draft.body = before ++ [last] := by
    obtain empty | ⟨before, last, opened⟩ := List.eq_nil_or_concat (Contents.intervals draft.body)
    · have count := booked.length_intervals
      rw [empty, books] at count
      cases count
    · exact ⟨before, last, by rw [opened, List.concat_eq_append]⟩
  have wide := booked.wide
  rw [books] at wide
  refine ⟨?_, ?_, ?_⟩
  · rw [Draft.putRecord, put, Contents.syncpoints_concat, booked.points,
      Ledger.syncpoints_addFrame]
    exact List.append_nil _
  · intro interval member
    change interval ∈ draft.ledger.intervals.modifyHead _ at member
    rw [books, List.modifyHead_cons] at member
    change interval.firstPts.length = (draft.ledger.addFrame _ stream pts).streamCount
    rw [Ledger.streamCount_addFrame]
    rcases List.mem_cons.mp member with rfl | member
    · rw [Interval.enter, List.length_modify]
      exact wide newest (by simp)
    · exact wide interval (by simp [member])
  · intro other inside
    change other < (draft.ledger.addFrame _ stream pts).streamCount at inside
    rw [Ledger.streamCount_addFrame] at inside
    have firsts := booked.firsts other inside
    rw [opened, List.map_append] at firsts
    have narrow : other < newest.firstPts.length := wide newest (by simp) ▸ inside
    have entered := Ledger.firstTimes_addFrame books narrow firsts headers.main.timeBases stream pts
    rw [Draft.putRecord, put, Contents.intervals_concat_plain opened rfl, List.map_append]
    refine entered.trans (congrArg (_ ++ [·]) ?_)
    rw [Contents.firstPts?_concat, Contents.firstPts?_frame]

/-- The books keep saying what a reader finds, frame by frame. -/
theorem Booked.putFrame (booked : draft.Booked headers) (stream : UInt32) (pts : Nat)
    (payload : Bytes) : (draft.putFrame headers stream pts payload).Booked headers :=
  putFrame_induct (Booked headers) payload booked booked.putSyncpoint
    fun header _ _ begun booked => booked.putRecord begun header stream pts payload

theorem Booked.putFrames (booked : draft.Booked headers) (frames : List WaitingFrame) :
    (draft.putFrames headers frames).Booked headers :=
  List.foldlRecOn frames _ booked fun _ booked frame _ =>
    booked.putFrame frame.stream frame.pts.toNat frame.payload

/-- Before the first element, the books are empty. -/
theorem booked_empty (headers : Headers) (streamCount : Nat) (front : Bytes) :
    Booked headers ⟨.empty streamCount, front, []⟩ where
  points := rfl
  wide := by
    intro interval member
    cases member
  firsts _ _ := rfl

end Draft

end NutContainer
