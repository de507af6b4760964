import Mathlib.Data.List.Induction
import NutContainer.Proofs.LedgerRows
import NutContainer.Proofs.WriterTurns

/-! What a history of calls leaves in the books, where the caller may go on after a call that failed.
No call brings the books out of step with each other or with the position, whichever of its turns it
takes; the counters follow the calls that went well, and every sync point goes back to one call. -/
namespace NutContainer.Recording

variable {headers : Headers} {before middle after : Recording} {stream : UInt32} {pts : Nat}

/-- The books are in step with each other and with the output. -/
structure InStep (headers : Headers) (recording : Recording) : Prop where
  whole : recording.ledger.Whole headers.streams.length
  rising : recording.ledger.syncpoints.Pairwise (· < ·)
  below : ∀ position ∈ recording.ledger.syncpoints, position < recording.output.sink.position

theorem inStep_fresh (fresh : before.ledger = .empty headers.streams.length) :
    before.InStep headers where
  whole := fresh ▸ Ledger.whole_empty _
  rising := by
    rw [fresh, Ledger.syncpoints_empty]
    exact .nil
  below := by simp [fresh, Ledger.syncpoints_empty]

theorem InStep.aside (inStep : before.InStep headers) (aside : before.Aside after) :
    after.InStep headers where
  whole := aside.kept ▸ inStep.whole
  rising := aside.kept ▸ inStep.rising
  below := by
    intro position member
    rw [aside.kept] at member
    exact Nat.lt_of_lt_of_le (inStep.below position member) aside.on.position

/-- A new sync point lies behind all others, and its packet is not empty. -/
theorem InStep.opened (inStep : before.InStep headers)
    (opened : after.ledger = before.ledger.addSyncpoint before.output.sink.position)
    (took : before.output.Takes (syncpoint before.ledger headers.clockCount stream pts
      before.output.sink.position).encode after.output) : after.InStep headers where
  whole := opened ▸ inStep.whole.addSyncpoint _
  rising := by
    rw [opened, Ledger.syncpoints_addSyncpoint, List.pairwise_append]
    exact ⟨inStep.rising, List.pairwise_singleton _ _, fun position member other last => by
      rw [List.mem_singleton.mp last]
      exact inStep.below position member⟩
  below := by
    intro position member
    have filled := Draft.length_syncpoint before.ledger headers.clockCount stream pts
      before.output.sink.position
    have further := took.position
    rw [opened, Ledger.syncpoints_addSyncpoint] at member
    rcases List.mem_append.mp member with old | new
    · have behind := inStep.below position old
      omega
    · rw [List.mem_singleton.mp new]
      omega

theorem InStep.prepared (inStep : before.InStep headers)
    (prepared : Prepared headers before stream pts after) : after.InStep headers := by
  cases prepared with
  | plain aside => exact inStep.aside aside
  | synced _ opened took => exact inStep.opened opened took

theorem InStep.entered (inStep : middle.InStep headers)
    (known : stream.toNat < headers.streams.length)
    (entered : after.ledger = middle.ledger.addFrame headers.main.timeBases stream pts)
    (on : middle.output.Takes [] after.output) : after.InStep headers where
  whole := entered ▸ inStep.whole.addFrame _ known pts
  rising := by
    rw [entered, Ledger.syncpoints_addFrame]
    exact inStep.rising
  below := by
    intro position member
    rw [entered, Ledger.syncpoints_addFrame] at member
    exact Nat.lt_of_lt_of_le (inStep.below position member) on.position

/-- No call brings the books out of step. -/
theorem InStep.turn (inStep : before.InStep headers) {call : Call} {outcome : Outcome}
    (turn : Turn headers before call outcome after) : after.InStep headers := by
  cases turn with
  | other _ aside => exact inStep.aside aside
  | cut prepared => exact inStep.prepared prepared
  | complete found prepared entered took =>
    obtain ⟨known, _⟩ := List.getElem?_eq_some_iff.mp found
    exact (inStep.prepared prepared).entered known entered took.weaken

/-- A frame of this stream was written. -/
def IsWritten (stream : Nat) (turn : Call × Outcome) : Bool :=
  turn.1.stream?.any (·.toNat = stream) && turn.2.isOk

/-- How many frames of a stream were written. -/
def writtenCount (told : List (Call × Outcome)) (stream : Nat) : Nat := told.countP (IsWritten stream)

section
variable {call : Call} {outcome : Outcome} {told : List (Call × Outcome)}

theorem isWritten_of_other (other : call.stream? = none) (outcome : Outcome) (stream : Nat) :
    IsWritten stream (call, outcome) = false := by
  simp [IsWritten, other]

theorem isWritten_error (call : Call) (failure : Failure) (stream : Nat) :
    IsWritten stream (call, .error failure) = false := by
  simp [IsWritten, Except.isOk, Except.toBool]

theorem isWritten_frame (stream : UInt32) (pts : Nat) (payload : Bytes) (answer : Answer)
    (other : Nat) : IsWritten other (.frame stream pts payload, .ok answer) =
      decide (stream.toNat = other) := by
  simp [IsWritten, Call.stream?, Except.isOk, Except.toBool]

theorem writtenCount_concat (told : List (Call × Outcome)) (turn : Call × Outcome) (stream : Nat) :
    writtenCount (told ++ [turn]) stream =
      writtenCount told stream + if IsWritten stream turn then 1 else 0 := by
  rw [writtenCount, List.countP_append, List.countP_singleton]
  rfl

/-- What was not written is not counted. -/
theorem writtenCount_same (unwritten : ∀ stream, IsWritten stream (call, outcome) = false) :
    writtenCount (told ++ [(call, outcome)]) = writtenCount told := by
  funext stream
  rw [writtenCount_concat, unwritten]
  rfl

end

/-- Between these moments a sync point was entered, and the sink took its whole packet. -/
structure Recorded (headers : Headers) (before after : Recording) (stream : UInt32)
    (pts position : Nat) : Prop where
  starts : before.output.sink.position = position
  entered : after.ledger.syncpoints = before.ledger.syncpoints ++ [position]
  took : before.output.Takes (syncpoint before.ledger headers.clockCount stream pts position).encode
    after.output

/-- The sync points are the same as before the frame, or there is one more. -/
theorem Prepared.recorded (prepared : Prepared headers before stream pts middle)
    (same : after.ledger.syncpoints = middle.ledger.syncpoints)
    (on : middle.output.Takes [] after.output) :
    after.ledger.syncpoints = before.ledger.syncpoints ∨
      Recorded headers before after stream pts before.output.sink.position := by
  cases prepared with
  | plain aside => exact .inl (same.trans (congrArg Ledger.syncpoints aside.kept))
  | synced _ opened took =>
    refine .inr ⟨rfl, ?_, took.trans on⟩
    rw [same, opened, Ledger.syncpoints_addSyncpoint]

/-- Only a frame's call enters a sync point, and the sink has then taken the whole packet. -/
theorem Turn.recorded {call : Call} {outcome : Outcome} (turn : Turn headers before call outcome after) :
    after.ledger.syncpoints = before.ledger.syncpoints ∨
      ∃ stream pts payload, call = .frame stream pts payload ∧
        Recorded headers before after stream pts before.output.sink.position := by
  cases turn with
  | other _ aside => exact .inl (congrArg Ledger.syncpoints aside.kept)
  | cut prepared =>
    exact (prepared.recorded rfl (.refl _)).imp_right fun recorded => ⟨_, _, _, rfl, recorded⟩
  | complete _ prepared entered took =>
    have same := entered ▸ Ledger.syncpoints_addFrame ..
    exact (prepared.recorded same took.weaken).imp_right fun recorded => ⟨_, _, _, rfl, recorded⟩

theorem Prepared.frameCounts (prepared : Prepared headers before stream pts after) :
    after.ledger.frameCounts = before.ledger.frameCounts := by
  cases prepared with
  | plain aside => exact congrArg Ledger.frameCounts aside.kept
  | synced _ opened _ =>
    rw [opened]
    rfl

theorem Prepared.latest (prepared : Prepared headers before stream pts after) :
    after.ledger.latest = before.ledger.latest := by
  cases prepared with
  | plain aside => exact congrArg Ledger.latest aside.kept
  | synced _ opened _ =>
    rw [opened]
    rfl

/-- What the books say of the calls that were made since this start. -/
structure Kept (headers : Headers) (start : Recording) (calls : List Call)
    (told : List (Call × Outcome)) (recording : Recording) : Prop
    extends InStep headers recording where
  counts : recording.ledger.frameCounts =
    (List.range headers.streams.length).map (writtenCount told)
  latest : recording.ledger.latest.isSome ↔ ∃ stream, 0 < writtenCount told stream
  recorded : ∀ position ∈ recording.ledger.syncpoints, ∃ front stream pts payload back,
    calls = front ++ .frame stream pts payload :: back ∧
    Recorded headers (start.run headers front).2
      (start.run headers (front ++ [.frame stream pts payload])).2 stream pts position

section
variable {start : Recording} {calls : List Call} {told : List (Call × Outcome)} {call : Call}
  {outcome : Outcome}

theorem kept_fresh (fresh : start.ledger = .empty headers.streams.length) :
    Kept headers start [] [] start where
  toInStep := inStep_fresh fresh
  counts := by
    rw [fresh]
    exact (List.map_const' ..).trans (congrArg (List.replicate · 0) List.length_range) |>.symm
  latest := by
    rw [fresh]
    simp [Ledger.empty, writtenCount]
  recorded := by simp [fresh, Ledger.syncpoints_empty]

theorem run_concat (reached : start.run headers calls = (told, before)) (call : Call) :
    start.run headers (calls ++ [call]) =
      (told ++ [(call, (attempt (call.act headers) before).1)],
        (attempt (call.act headers) before).2) := by
  unfold run at reached ⊢
  rw [attemptAll_append, reached]
  rfl

/-- The counters of the streams, after one more call. -/
theorem Turn.counts (turn : Turn headers before call outcome after)
    (counts : before.ledger.frameCounts =
      (List.range headers.streams.length).map (writtenCount told)) :
    after.ledger.frameCounts =
      (List.range headers.streams.length).map (writtenCount (told ++ [(call, outcome)])) := by
  cases turn with
  | other unasked aside =>
    rw [aside.kept, counts, writtenCount_same (isWritten_of_other unasked outcome)]
  | cut prepared =>
    rw [prepared.frameCounts, counts, writtenCount_same (isWritten_error _ _)]
  | complete _ prepared entered _ =>
    rw [entered, Ledger.addFrame, prepared.frameCounts, counts, Ledger.modify_map_range]
    refine List.map_congr_left fun other _ => ?_
    rw [writtenCount_concat, isWritten_frame]
    split
    · simp [*]
    · simp [*]

/-- There is a latest time once a frame was written. -/
theorem Turn.latest (turn : Turn headers before call outcome after)
    (latest : before.ledger.latest.isSome ↔ ∃ stream, 0 < writtenCount told stream) :
    after.ledger.latest.isSome ↔ ∃ stream, 0 < writtenCount (told ++ [(call, outcome)]) stream := by
  cases turn with
  | other unasked aside =>
    rw [aside.kept, latest, writtenCount_same (isWritten_of_other unasked outcome)]
  | cut prepared => rw [prepared.latest, latest, writtenCount_same (isWritten_error _ _)]
  | @complete stream _ _ _ _ _ _ _ _ entered _ =>
    refine iff_of_true (by rw [entered]; rfl) ⟨stream.toNat, ?_⟩
    rw [writtenCount_concat, isWritten_frame]
    simp

theorem Kept.turn (kept : Kept headers start calls told before)
    (reached : start.run headers calls = (told, before))
    (turn : Turn headers before call outcome after)
    (ends : start.run headers (calls ++ [call]) = (told ++ [(call, outcome)], after)) :
    Kept headers start (calls ++ [call]) (told ++ [(call, outcome)]) after where
  toInStep := kept.toInStep.turn turn
  counts := turn.counts kept.counts
  latest := turn.latest kept.latest
  recorded := by
    have older (position : Nat) (member : position ∈ before.ledger.syncpoints) :
        ∃ front stream pts payload back,
          calls ++ [call] = front ++ .frame stream pts payload :: back ∧
          Recorded headers (start.run headers front).2
            (start.run headers (front ++ [.frame stream pts payload])).2 stream pts position := by
      obtain ⟨front, stream, pts, payload, back, split, recorded⟩ := kept.recorded position member
      exact ⟨front, stream, pts, payload, back ++ [call], by simp [split], recorded⟩
    intro position member
    obtain same | ⟨stream, pts, payload, rfl, recorded⟩ := turn.recorded
    · exact older position (same ▸ member)
    · rw [recorded.entered] at member
      rcases List.mem_append.mp member with old | new
      · exact older position old
      · refine ⟨calls, stream, pts, payload, [], rfl, ?_⟩
        rw [reached, ends, List.mem_singleton.mp new]
        exact recorded

/-- Whatever is called and whatever becomes of it, the books are kept. -/
theorem kept_run (fresh : start.ledger = .empty headers.streams.length) (calls : List Call) :
    Kept headers start calls (start.run headers calls).1 (start.run headers calls).2 := by
  induction calls using List.reverseRecOn with
  | nil => exact kept_fresh fresh
  | append_singleton earlier call ih =>
    have reached : start.run headers earlier = (_, _) := rfl
    have ends := run_concat reached call
    rw [ends]
    exact ih.turn reached (turn_of_attempt headers call _) ends

end

end NutContainer.Recording
