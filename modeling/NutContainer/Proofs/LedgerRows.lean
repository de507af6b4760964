import NutContainer.Ledger.Rows
import NutContainer.Proofs.Bookkeeping

/-! Books by interval and books in rows. An interval has a place for every stream, and a row has a
place for every sync point; as long as every interval has all its places, the two say the same, and
what the rows look up is there. Rows that have come out of step would show here as a missing
place, clock or distance. -/
namespace NutContainer.Ledger

/-- Every interval has a place for each stream, and the latest time is that of a known stream. -/
structure Whole (ledger : Ledger) (streamCount : Nat) : Prop where
  counted : ledger.streamCount = streamCount
  wide : ∀ interval ∈ ledger.intervals, interval.firstPts.length = streamCount
  known : ∀ time ∈ ledger.latest, time.2.toNat < streamCount

variable {ledger : Ledger} {streamCount : Nat}

theorem syncpoints_empty (streamCount : Nat) : (empty streamCount).syncpoints = [] := rfl

theorem whole_empty (streamCount : Nat) : (empty streamCount).Whole streamCount where
  counted := List.length_replicate
  wide := nofun
  known := nofun

theorem Whole.addSyncpoint (whole : ledger.Whole streamCount) (position : Nat) :
    (ledger.addSyncpoint position).Whole streamCount where
  counted := whole.counted
  wide := by
    intro interval member
    rcases List.mem_cons.mp member with rfl | member
    · exact List.length_replicate.trans whole.counted
    · exact whole.wide interval member
  known := whole.known

theorem Whole.addFrame (whole : ledger.Whole streamCount) (clocks : List Ratio) {stream : UInt32}
    (inside : stream.toNat < streamCount) (pts : Nat) :
    (ledger.addFrame clocks stream pts).Whole streamCount where
  counted := (streamCount_addFrame ..).trans whole.counted
  wide := by
    intro interval member
    change interval ∈ ledger.intervals.modifyHead (·.enter stream.toNat pts) at member
    have wide := whole.wide
    cases intervals : ledger.intervals with
    | nil =>
      rw [intervals] at member
      cases member
    | cons newest older =>
      rw [intervals, List.modifyHead_cons] at member
      rw [intervals] at wide
      rcases List.mem_cons.mp member with rfl | member
      · exact (List.length_modify ..).trans (wide newest (by simp))
      · exact wide interval (by simp [member])
  known := by
    intro time latest
    obtain rfl := Option.mem_some_iff.mp latest
    obtain newer | kept := Draft.later_eq clocks (pts, stream) ledger.latest
    · rw [newer]
      exact inside
    · exact whole.known _ kept.symm

theorem modify?_eq {list : List α} {place : Nat} (inside : place < list.length)
    (change : α → α) : modify? list place change = some (list.modify place change) := if_pos inside

theorem difference?_eq {first second : Nat} (order : second ≤ first) :
    difference? first second = some (first - second) := if_pos order

/-- What is changed at a place of a list that is made by places. -/
theorem modify_map_range (count : Nat) (make : Nat → α) (place : Nat) (change : α → α) :
    ((List.range count).map make).modify place change =
      (List.range count).map fun other => if place = other then change (make other) else make other := by
  apply List.ext_getElem?
  intro other
  rw [List.getElem?_modify, List.getElem?_map, List.getElem?_map]
  by_cases inside : other < count
  · rw [List.getElem?_range inside]
    by_cases same : place = other
    · simp [same]
    · simp [same]
  · rw [List.getElem?_eq_none (by simpa using inside)]
    rfl

theorem rows_empty (streamCount : Nat) : (empty streamCount).rows = .empty streamCount := by
  have rows : (List.range (empty streamCount).streamCount).map (empty streamCount).firstTimes =
      List.replicate streamCount [] := by
    change (List.range (List.replicate streamCount 0).length).map (fun _ => []) = _
    rw [List.map_const', List.length_range, List.length_replicate]
  exact congrArg (Rows.mk _ · _ _) rows

theorem rows_addSyncpoint (ledger : Ledger) (position : Nat) :
    (ledger.addSyncpoint position).rows = ledger.rows.addSyncpoint position := by
  have rows : (List.range ledger.streamCount).map (ledger.addSyncpoint position).firstTimes =
      ((List.range ledger.streamCount).map ledger.firstTimes).map (· ++ [none]) := by
    rw [List.map_map]
    exact List.map_congr_left fun stream _ => firstTimes_addSyncpoint ledger position stream
  rw [Ledger.rows, syncpoints_addSyncpoint]
  exact congrArg (Rows.mk _ · _ _) rows

theorem Rows.enterLast_concat (pts : Nat) (before : List (Option Nat)) (last : Option Nat) :
    enterLast pts (before ++ [last]) = before ++ [last.or (some pts)] := by
  induction before with
  | nil => rfl
  | cons first rest ih =>
    cases rest with
    | nil => rfl
    | cons second others => exact congrArg (first :: ·) ih

/-- A frame is entered in the row of its stream and in no other. -/
theorem Whole.firstTimes_addFrame (whole : ledger.Whole streamCount) (clocks : List Ratio)
    (stream : UInt32) (pts : Nat) {other : Nat} (inside : other < streamCount) :
    (ledger.addFrame clocks stream pts).firstTimes other =
      if stream.toNat = other then Rows.enterLast pts (ledger.firstTimes other)
      else ledger.firstTimes other := by
  cases intervals : ledger.intervals with
  | nil =>
    -- without a sync point the rows have no place at all
    simp [firstTimes, Ledger.addFrame, intervals, Rows.enterLast]
  | cons newest older =>
    have narrow : other < newest.firstPts.length := by
      rw [whole.wide newest (by simp [intervals])]
      exact inside
    have known : ledger.firstTimes other =
        older.reverse.map (fun interval => interval.firstPts[other]?.join) ++
          [newest.firstPts[other]?.join] := by
      simp [firstTimes, intervals]
    rw [Ledger.firstTimes_addFrame intervals narrow known, known, Rows.enterLast_concat]
    by_cases same : stream.toNat = other
    · simp [same]
    · simp [same]

/-- Where both clocks are there, the rows find the same latest time. -/
theorem later?_eq {clocks : List Ratio} {time : Nat × UInt32} {latest : Option (Nat × UInt32)}
    (inside : time.2.toNat < clocks.length)
    (known : ∀ other ∈ latest, other.2.toNat < clocks.length) :
    Rows.later? clocks time latest = some (later clocks time latest) := by
  cases latest with
  | none => rfl
  | some latest =>
    have other := known latest rfl
    simp only [Rows.later?, later, IsLater, tick, List.getElem?_eq_getElem inside,
      List.getElem?_eq_getElem other, bind, Option.bind, Option.getD_some]
    exact (apply_ite some _ _ _).symm

/-- A frame of a known stream finds its row, its counter and all clocks. -/
theorem Whole.addFrame?_rows (whole : ledger.Whole streamCount) {clocks : List Ratio}
    (timed : clocks.length = streamCount) {stream : UInt32} (inside : stream.toNat < streamCount)
    (pts : Nat) :
    ledger.rows.addFrame? clocks stream pts = some (ledger.addFrame clocks stream pts).rows := by
  have row : stream.toNat < ledger.rows.firstTimes.length := by
    simpa [rows, whole.counted] using inside
  have counter : stream.toNat < ledger.rows.frameCounts.length := by
    rw [← whole.counted] at inside
    exact inside
  have latest : Rows.later? clocks (pts, stream) ledger.latest =
      some (later clocks (pts, stream) ledger.latest) :=
    later?_eq (timed ▸ inside) (timed ▸ whole.known)
  have entered : ledger.rows.firstTimes.modify stream.toNat (Rows.enterLast pts) =
      (ledger.addFrame clocks stream pts).rows.firstTimes := by
    rw [rows, rows, streamCount_addFrame, modify_map_range]
    refine List.map_congr_left fun other member => (whole.firstTimes_addFrame clocks stream pts ?_).symm
    rw [← whole.counted]
    exact List.mem_range.mp member
  have points := syncpoints_addFrame ledger clocks stream pts
  rw [Rows.addFrame?, modify?_eq row, modify?_eq counter, entered]
  change (Rows.later? clocks (pts, stream) ledger.latest).bind _ = _
  rw [latest]
  exact congrArg (fun points => some (Rows.mk points _ _ _)) points.symm

theorem getLast?_syncpoints (ledger : Ledger) :
    ledger.rows.syncpoints.getLast? = ledger.lastSyncpoint? := by
  simp [rows, syncpoints, lastSyncpoint?]

/-- A position behind the last sync point has a distance to it. -/
theorem back?_rows {position : Nat} (behind : ∀ last ∈ ledger.lastSyncpoint?, last ≤ position) :
    ledger.rows.back? position =
      some ((ledger.lastSyncpoint?.map fun last => (position - last) / Index.unit).getD 0) := by
  rw [Rows.back?, getLast?_syncpoints]
  cases found : ledger.lastSyncpoint? with
  | none => rfl
  | some last =>
    have order : last ≤ position := behind last found
    simp [difference?_eq order]

/-- Numbers that climb have distances. -/
theorem gaps?_eq {last : Nat} {list : List Nat} (climbs : Index.Climbs last list) :
    Rows.gaps? last list = some (Index.gaps last list) := by
  induction list generalizing last with
  | nil => rfl
  | cons n rest ih =>
    obtain ⟨order, others⟩ := climbs
    simp [Rows.gaps?, Index.gaps, difference?_eq order, ih others]

theorem climbs_of_pairwise {last : Nat} {list : List Nat} (order : (last :: list).Pairwise (· ≤ ·)) :
    Index.Climbs last list := by
  induction list generalizing last with
  | nil => trivial
  | cons n rest ih =>
    obtain ⟨above, others⟩ := List.pairwise_cons.mp order
    exact ⟨above n (by simp), ih others⟩

/-- Positions that do not fall do not fall in units of the index. -/
theorem climbs_of_rising (rising : ledger.syncpoints.Pairwise (· ≤ ·)) :
    Index.Climbs 0 (ledger.syncpoints.map (· / Index.unit)) := by
  refine climbs_of_pairwise (List.pairwise_cons.mpr ⟨fun _ _ => Nat.zero_le _, ?_⟩)
  exact List.pairwise_map.mpr (rising.imp Nat.div_le_div_right)

/-- Where sync points do not fall, each has a distance in units of the index. -/
theorem indexPacket?_rows (rising : ledger.syncpoints.Pairwise (· ≤ ·)) (clocks : Nat) :
    ledger.rows.indexPacket? clocks = some (Index.packet ledger clocks) := by
  have fields : ledger.rows.indexFields? clocks = some (Index.fields ledger clocks) := by
    change (Rows.gaps? 0 (ledger.syncpoints.map (· / Index.unit))).bind _ = _
    rw [gaps?_eq (climbs_of_rising rising)]
    cases latest : ledger.latest with
    | none => simp [rows, Index.fields, latest, List.flatMap_map]
    | some time => simp [rows, Index.fields, latest, List.flatMap_map]
  rw [Rows.indexPacket?, fields]
  rfl

/-- The rows of such books are in step. -/
theorem Whole.rows_inStep (whole : ledger.Whole streamCount) :
    ledger.rows.firstTimes.length = streamCount ∧
      (∀ row ∈ ledger.rows.firstTimes, row.length = ledger.rows.syncpoints.length) ∧
      ledger.rows.frameCounts.length = streamCount := by
  refine ⟨by simp [rows, whole.counted], fun row member => ?_, whole.counted⟩
  obtain ⟨stream, _, rfl⟩ := List.mem_map.mp member
  exact Index.length_firstTimes ledger stream

end NutContainer.Ledger
