import NutContainer.Proofs.IndexCodec
import NutContainer.Proofs.WriterRuns

/-! Where a stream can be entered by the index. A stream's part marks an interval when the stream
has a frame there whose time, that of its first one, is beyond those of all earlier intervals. The
part is written and read by groups and by steps from one marked time to the next, so what is
marked where was said before in terms of a walk over the intervals. Here it is said of every
interval for itself, and of intervals that a reader cuts out of the frames and sync points. -/
namespace NutContainer

namespace Index

variable {times : List (Option Nat)} {time : Option Nat} {place next interval pts : Nat}

/-- The interval has this first time, and it is beyond those of all earlier intervals. -/
def Rises (times : List (Option Nat)) (interval pts : Nat) : Prop :=
  times[interval]? = some (some pts) ∧
    ∀ earlier, some earlier ∈ times.take interval → earlier < pts

theorem rises_zero : Rises (time :: times) 0 pts ↔ time = some pts := by
  simp [Rises]

theorem rises_succ : Rises (time :: times) (interval + 1) pts ↔
    Rises times interval pts ∧ ∀ earlier, time = some earlier → earlier < pts := by
  rw [Rises, List.getElem?_cons_succ, List.take_succ_cons, Rises, and_assoc]
  refine and_congr_right fun _ => ⟨fun above => ⟨?_, ?_⟩, ?_⟩
  · exact fun earlier member => above earlier (List.mem_cons_of_mem _ member)
  · rintro earlier rfl
    exact above earlier List.mem_cons_self
  · rintro ⟨others, first⟩ earlier member
    rcases List.mem_cons.mp member with same | member
    · exact first earlier same.symm
    · exact others earlier member

/-- An interval that rises is the first one, or rises among the others and above the first. -/
theorem exists_rises_cons {mark : Nat} : (∃ interval, mark = place + interval ∧
      Rises (time :: times) interval pts ∧ next ≤ pts) ↔
    (mark = place ∧ time = some pts ∧ next ≤ pts) ∨
      ∃ interval, mark = place + 1 + interval ∧ Rises times interval pts ∧
        (∀ earlier, time = some earlier → earlier < pts) ∧ next ≤ pts := by
  constructor
  · rintro ⟨interval, rfl, rises, enough⟩
    cases interval with
    | zero => exact .inl ⟨rfl, rises_zero.mp rises, enough⟩
    | succ interval =>
      obtain ⟨others, first⟩ := rises_succ.mp rises
      exact .inr ⟨interval, by omega, others, first, enough⟩
  · rintro (⟨rfl, first, enough⟩ | ⟨interval, rfl, others, first, enough⟩)
    · exact ⟨0, rfl, rises_zero.mpr first, enough⟩
    · exact ⟨interval + 1, by omega, rises_succ.mpr ⟨others, first⟩, enough⟩

/-- The walk marks the intervals that rise, from the time that it has reached. -/
theorem mem_risingTimes {mark : Nat} : (mark, pts) ∈ risingTimes place next times ↔
    ∃ interval, mark = place + interval ∧ Rises times interval pts ∧ next ≤ pts := by
  induction times generalizing place next with
  | nil => simp [risingTimes, Rises]
  | cons time rest ih =>
    rw [exists_rises_cons]
    cases time with
    | none => simp [risingTimes, ih]
    | some first =>
      by_cases beyond : next ≤ first
      · rw [risingTimes, if_pos beyond, List.mem_cons, ih]
        constructor
        · rintro (same | ⟨interval, rfl, rises, above⟩)
          · obtain ⟨rfl, rfl⟩ := Prod.mk.inj same
            exact .inl ⟨rfl, rfl, beyond⟩
          · refine .inr ⟨interval, rfl, rises, ?_, Nat.le_trans beyond (Nat.le_of_succ_le above)⟩
            rintro _ ⟨⟩
            exact above
        · rintro (⟨rfl, ⟨⟩, _⟩ | ⟨interval, rfl, rises, above, _⟩)
          · exact .inl rfl
          · exact .inr ⟨interval, rfl, rises, above first rfl⟩
      · rw [risingTimes, if_neg beyond, ih]
        constructor
        · rintro ⟨interval, rfl, rises, enough⟩
          refine .inr ⟨interval, rfl, rises, ?_, enough⟩
          rintro _ ⟨⟩
          exact Nat.lt_of_lt_of_le (Nat.lt_of_not_le beyond) enough
        · rintro (⟨_, ⟨⟩, enough⟩ | ⟨interval, rfl, rises, _, enough⟩)
          · exact absurd enough beyond
          · exact ⟨interval, rfl, rises, enough⟩

/-- The places of a walk go up. -/
theorem pairwise_risingTimes (place next : Nat) (times : List (Option Nat)) :
    (risingTimes place next times).Pairwise (·.1 < ·.1) := by
  induction times generalizing place next with
  | nil => exact .nil
  | cons time rest ih =>
    cases time with
    | none => exact ih _ _
    | some pts =>
      unfold risingTimes
      split
      · exact .cons (fun entry member => risingTimes_place member) (ih _ _)
      · exact ih _ _

/-- What lies behind the last sync point is left out. -/
theorem rises_dropLast : Rises times.dropLast interval pts ↔
    1 + interval < times.length ∧ Rises times interval pts := by
  rw [Rises, Rises, List.dropLast_eq_take, List.getElem?_take, List.take_take]
  by_cases inside : 1 + interval < times.length
  · have early : interval < times.length - 1 := by omega
    rw [if_pos early, Nat.min_eq_left (Nat.le_of_lt early)]
    exact (and_iff_right inside).symm
  · have late : ¬ interval < times.length - 1 := by omega
    simp [late, inside]

/-- A stream's part marks the sync points at which an interval ends that rises. -/
theorem mem_streamEntries {mark : Nat} : (mark, pts) ∈ streamEntries times ↔
    1 ≤ mark ∧ mark < times.length ∧ Rises times (mark - 1) pts := by
  rw [streamEntries, mem_risingTimes]
  constructor
  · rintro ⟨interval, rfl, rises, _⟩
    obtain ⟨inside, rises⟩ := rises_dropLast.mp rises
    rw [Nat.add_sub_cancel_left]
    exact ⟨Nat.le_add_right 1 interval, inside, rises⟩
  · rintro ⟨late, inside, rises⟩
    obtain ⟨interval, rfl⟩ := Nat.exists_eq_add_of_le late
    rw [Nat.add_sub_cancel_left] at rises
    exact ⟨interval, rfl, rises_dropLast.mpr ⟨inside, rises⟩, Nat.zero_le pts⟩

example : streamEntries [some 5, some 3, none, some 9, some 10] = [(1, 5), (4, 9)] := by decide

end Index

namespace Draft

variable {headers : Headers} {draft : Draft}

/-- The part of a stream is read back to its last byte, and what it marks is what a reader of the
frames and sync points finds. -/
theorem Booked.readStream?_streamPart (booked : draft.Booked headers) {stream : Nat}
    (inside : stream < draft.ledger.streamCount) : ∃ entries,
      (∀ rest, Index.readStream? draft.ledger.syncpoints.length
        (Index.streamPart draft.ledger stream ++ rest) = some (entries, rest)) ∧
      entries.Pairwise (·.1 < ·.1) ∧
      ∀ mark pts, (mark, pts) ∈ entries ↔ 1 ≤ mark ∧ mark < draft.ledger.syncpoints.length ∧
        Index.Rises ((Contents.intervals draft.body).map (Contents.firstPts? stream)) (mark - 1)
          pts := by
  have count := Index.length_firstTimes draft.ledger stream
  refine ⟨Index.streamEntries (draft.ledger.firstTimes stream), ?_,
    Index.pairwise_risingTimes .., ?_⟩
  · intro rest
    rw [← count]
    exact Index.readStream?_append _ rest
  · intro mark pts
    rw [Index.mem_streamEntries, count, booked.firsts stream inside]

end Draft

namespace Recording

variable {plan : HeaderPlan} {streams : List StreamDescriptor} {headers : Headers}
  {before middle after : Recording} {writes : List FrameWrite} {sizes : List Nat} {answer : Bool}

/-- Whatever frames are written, in whatever order of times: the index that follows them has a part
for every stream. A reader takes each part to its last byte and finds a stream's mark at a sync
point, in the order of sync points, if and only if the stream has a frame in the interval that ends
there and the first of these is beyond the first ones of the stream in all earlier intervals. The
mark has that frame's time. -/
theorem keyframes_of_index (built : plan.build streams = .ok headers)
    (fresh : before.ledger = .empty headers.streams.length)
    (wrote : writeFrames headers writes before = .ok sizes middle) (some_writes : writes ≠ [])
    (indexed : writeIndex headers middle = .ok answer after) :
    answer = true ∧
    ∃ (laid payload size : Bytes) (body : List Placed) (gaps : List Nat) (parts : List Bytes),
      before.output.Adds laid middle.output ∧
      Contents.readBody? headers false before.output.sink.position laid = some body ∧
      Contents.frames ⟨headers, body⟩ = writes.map FrameWrite.record ∧
      middle.output.Adds (Packet.encode ⟨Startcode.index, payload⟩) after.output ∧
      Index.readGaps? payload = some (gaps, parts.flatten ++ size) ∧
      gaps.length = (Contents.syncpoints ⟨headers, body⟩).length ∧ 0 < gaps.length ∧
      parts.length = headers.streams.length ∧ size.length = 8 ∧
      ∀ stream part, parts[stream]? = some part → ∃ entries,
        (∀ rest, Index.readStream? gaps.length (part ++ rest) = some (entries, rest)) ∧
        entries.Pairwise (·.1 < ·.1) ∧
        ∀ mark pts, (mark, pts) ∈ entries ↔ 1 ≤ mark ∧ mark < gaps.length ∧
          Index.Rises ((Contents.intervals body).map (Contents.firstPts? stream)) (mark - 1) pts := by
  have agree := HeaderPlan.agree_of_build built
  obtain ⟨front, laid, draft, _, same, admits, readable, follows, _, adds, read⟩ :=
    writeFrames_ok agree fresh wrote
  have frames : Contents.frames ⟨headers, draft.body⟩ = writes.map FrameWrite.record := by
    rw [same, Draft.frames_putWrites _ admits]
    rfl
  have begun : draft.ledger.intervals ≠ [] := by
    rw [same]
    exact Draft.begun_putWrites some_writes admits
  obtain ⟨told, ends⟩ := follows_writeIndex follows.here indexed
  obtain ⟨packet, behind, added⟩ := ends.laid
  rw [Draft.putIndex_eq begun] at behind
  obtain rfl := List.append_cancel_left behind
  have points : (Index.gaps 0 (Index.places draft.ledger)).length =
      draft.ledger.syncpoints.length := by
    rw [Index.length_gaps, Index.places, List.length_map]
  have counted : (Index.streamParts draft.ledger).length = headers.streams.length := by
    rw [Index.streamParts, List.length_map, List.length_range, readable.counted]
  refine ⟨by simpa using told.trans (by simpa using begun), laid, _, _, draft.body, _,
    Index.streamParts draft.ledger, adds, read, frames, added, Index.readGaps?_packet _ _, ?_, ?_,
    counted, Bytes.length_ofNat .., ?_⟩
  · rw [points, readable.booked.points]
  · rw [points]
    simpa [Ledger.syncpoints, List.length_pos_iff] using begun
  · intro stream part found
    rw [Index.streamParts, List.getElem?_map, Option.map_eq_some_iff] at found
    obtain ⟨other, listed, rfl⟩ := found
    obtain ⟨inside, rfl⟩ : stream < draft.ledger.streamCount ∧ stream = other := by
      simpa [List.getElem?_eq_some_iff] using listed
    rw [points]
    exact readable.booked.readStream?_streamPart inside

theorem keyframes_of_index_sample :
    ∃ (middle after : Recording) (payload rest part : Bytes) (gaps : List Nat)
      (entries : List (Nat × Nat)),
      (samplePlan 1).build [.audio 0 1000 48000 1] = .ok (sampleHeaders 1) ∧
      writeFrames (sampleHeaders 1) sampleWrites (.fresh .memory 1) = .ok [10, 10, 10, 9] middle ∧
      writeIndex (sampleHeaders 1) middle = .ok true after ∧
      middle.output.Adds (Packet.encode ⟨Startcode.index, payload⟩) after.output ∧
      Index.readGaps? payload = some (gaps, part ++ rest) ∧
      Index.readStream? gaps.length (part ++ rest) = some (entries, rest) := by
  have built : (samplePlan 1).build [.audio 0 1000 48000 1] = .ok (sampleHeaders 1) := rfl
  obtain ⟨after, ran⟩ := Act.value_eq_some.mp (show EStateM.run' (do
    let sizes ← writeFrames (sampleHeaders 1) sampleWrites
    let answer ← writeIndex (sampleHeaders 1)
    return (sizes, answer)) (.fresh .memory 1) = some ([10, 10, 10, 9], true) by decide +kernel)
  obtain ⟨sizes, middle, wrote, ran⟩ := Act.bind_ok.mp ran
  obtain ⟨answer, last, indexed, done⟩ := Act.bind_ok.mp ran
  obtain ⟨same, rfl⟩ := Act.pure_ok.mp done
  obtain ⟨rfl, rfl⟩ := Prod.mk.inj same
  obtain ⟨_, _, payload, size, _, gaps, parts, _, _, _, added, split, _, _, count, _, streams⟩ :=
    keyframes_of_index built rfl wrote (by decide) indexed
  obtain ⟨part, rfl⟩ := List.length_eq_one_iff.mp count
  obtain ⟨entries, read, _⟩ := streams 0 part rfl
  rw [List.flatten_singleton] at split
  exact ⟨middle, last, payload, size, part, gaps, entries, built, wrote, indexed, added, split,
    read size⟩

end Recording

end NutContainer
