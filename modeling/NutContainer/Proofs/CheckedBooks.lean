import NutContainer.Proofs.WriterHistory
import NutContainer.Proofs.WriterRuns
import NutContainer.Recording.InRows

/-! Books that check what they look up. The same calls are made on a recording and on one with books
in rows, which stops where a place, a clock or a distance is missing. As long as the books are in step
nothing is missing, so the two go the same way step by step; and no call brings books out of step,
wherever the sink cuts it off. -/
namespace NutContainer.Recording

variable {headers : Headers} {before after : Recording} {stream : UInt32} {pts : Nat} {α β : Type}

/-- Beside an action, the checked one comes to the same: to the same value or to the same failure, and
in both to the same rows and output. -/
def Matches (act : Act Recording α) (checked : Checked α) (before : Recording) : Prop :=
  match act before with
  | .ok value after => checked before.inRows = .ok value after.inRows
  | .error failure after => checked before.inRows = .error (.failed failure) after.inRows

theorem Matches.bind {first : Act Recording β} {checkedFirst : Checked β} {next : β → Act Recording α}
    {checkedNext : β → Checked α} (one : Matches first checkedFirst before)
    (other : ∀ value middle, first before = .ok value middle →
      Matches (next value) (checkedNext value) middle) :
    Matches (first >>= next) (checkedFirst >>= checkedNext) before := by
  change Matches (EStateM.bind first next) (EStateM.bind checkedFirst checkedNext) before
  unfold Matches at one
  cases ran : first before with
  | ok value middle =>
    rw [ran] at one
    have rest := other value middle ran
    unfold Matches at rest ⊢
    simpa only [EStateM.bind, ran, one] using rest
  | error failure middle =>
    rw [ran] at one
    unfold Matches
    simpa only [EStateM.bind, ran] using by rw [one]

theorem matches_pure (value : α) : Matches (pure value) (pure value) before := rfl

theorem Matches.map {act : Act Recording β} {checked : Checked β} (same : Matches act checked before)
    (change : β → α) : Matches (change <$> act) (change <$> checked) before := by
  rw [map_eq_pure_bind, map_eq_pure_bind]
  exact same.bind fun value _ _ => matches_pure (change value)

theorem matches_onOutput (act : Act Output α) (before : Recording) :
    Matches (onOutput act) (InRows.onOutput act) before := by
  obtain ⟨ledger, output⟩ := before
  cases ran : act output with
  | ok value after => simp [Matches, onOutput, InRows.onOutput, inRows, ran]
  | error failure after => simp [Matches, onOutput, InRows.onOutput, inRows, ran]

/-- Looking into the books and into their rows. -/
theorem matches_books {next : Ledger → Act Recording α} {checkedNext : Ledger.Rows → Checked α}
    (rest : Matches (next before.ledger) (checkedNext before.ledger.rows) before) :
    Matches (books >>= next) (InRows.books >>= checkedNext) before := rest

/-- Looking into the rows, where the recording has nothing to look up. -/
theorem matches_rows {act : Act Recording α} {checkedNext : Ledger.Rows → Checked α}
    (rest : Matches act (checkedNext before.ledger.rows) before) :
    Matches act (InRows.books >>= checkedNext) before := rest

/-- What is looked up in the rows is there. -/
theorem matches_look {act : Act Recording α} {looked : Option β} {value : β} {checkedNext : β → Checked α}
    (found : looked = some value) (rest : Matches act (checkedNext value) before) :
    Matches act (InRows.look looked >>= checkedNext) before := by
  subst found
  exact rest

/-- What the recording insists on holds, so it goes on as the rows do. -/
theorem matches_insist {condition : Prop} [Decidable condition] {next : Unit → Act Recording α}
    {checked : Checked α} (holds : condition) (rest : Matches (next ()) checked before) :
    Matches (Act.insist condition >>= next) checked before := by
  rw [Act.insist, if_pos holds]
  exact rest

/-- A change of the books is the same change of the rows. -/
theorem matches_book {change : Ledger → Ledger} {rows : Ledger.Rows}
    (same : (change before.ledger).rows = rows) : Matches (book change) (InRows.enter rows) before := by
  subst same
  rfl

theorem InStep.last_le (inStep : before.InStep headers) :
    ∀ last ∈ before.ledger.lastSyncpoint?, last ≤ before.output.sink.position := by
  intro last found
  rw [← Ledger.getLast?_syncpoints] at found
  exact Nat.le_of_lt (inStep.below last (List.mem_of_getLast? found))

theorem length_syncpoints (ledger : Ledger) : ledger.rows.syncpoints.length = ledger.intervals.length := by
  simp [Ledger.rows, Ledger.syncpoints]

theorem matches_writeSyncpoint (inStep : before.InStep headers) (stream : UInt32) (pts : Nat) :
    Matches (writeSyncpoint headers stream pts) (InRows.writeSyncpoint headers stream pts) before := by
  refine (matches_onOutput _ _).bind fun position middle located => ?_
  obtain ⟨rfl, rfl⟩ := position_ok.mp located
  refine matches_books ?_
  rw [length_syncpoints]
  refine matches_insist inStep.last_le (matches_look (Ledger.back?_rows inStep.last_le) ?_)
  refine (matches_onOutput _ _).bind fun _ packed wrote => ?_
  obtain ⟨output, _, rfl⟩ := onOutput_ok.mp wrote
  exact (matches_book (Ledger.rows_addSyncpoint ..)).bind fun _ _ _ => matches_onOutput _ _

theorem matches_writeRecord (inStep : before.InStep headers) (agree : headers.Agree)
    (header : StreamHeader) (known : stream.toNat < headers.streams.length) (pts : Nat)
    (payload : Bytes) :
    Matches (writeRecord headers header stream pts payload)
      (InRows.writeRecord headers header stream pts payload) before := by
  have clocks : headers.main.timeBases.length = headers.streams.length := by
    rw [agree.clocks, List.length_map]
  refine (matches_onOutput _ _).bind fun start middle located => ?_
  obtain ⟨rfl, rfl⟩ := position_ok.mp located
  refine (matches_onOutput _ _).bind fun _ headed wrote => ?_
  obtain ⟨first, head, rfl⟩ := onOutput_ok.mp wrote
  refine (matches_onOutput _ _).bind fun _ filled wrote => ?_
  obtain ⟨second, body, rfl⟩ := onOutput_ok.mp wrote
  refine matches_rows (matches_look (inStep.whole.addFrame?_rows clocks known pts) ?_)
  have booked : Matches (book (·.addFrame headers.main.timeBases stream pts)) (InRows.enter
      (before.ledger.addFrame headers.main.timeBases stream pts).rows) ⟨before.ledger, second⟩ :=
    matches_book rfl
  refine booked.bind fun _ _ entered => ?_
  cases book_ok.mp entered
  refine (matches_onOutput _ _).bind fun _ _ note => ?_
  obtain ⟨third, noted, rfl⟩ := onOutput_ok.mp note
  refine (matches_onOutput _ _).bind fun stop _ located => ?_
  obtain ⟨rfl, rfl⟩ := position_ok.mp located
  have adds := ((Output.adds_write head).trans (Output.adds_write body)).noted noted
  have further : before.output.sink.position ≤ third.sink.position := adds.takes.weaken.position
  rw [Ledger.difference?_eq further]
  exact matches_pure _

/-- The same sync points are due by the rows. -/
theorem needsSyncpoint_rows (ledger : Ledger) (maxDistance : UInt32) (position size : Nat) :
    InRows.needsSyncpoint ledger.rows maxDistance position size =
      needsSyncpoint ledger maxDistance position size := by
  have same := Ledger.getLast?_syncpoints ledger
  cases found : ledger.lastSyncpoint? with
  | none => simp only [InRows.needsSyncpoint, needsSyncpoint, same, found]
  | some last => simp only [InRows.needsSyncpoint, needsSyncpoint, same, found]

theorem matches_writeFrame (inStep : before.InStep headers) (agree : headers.Agree) (stream : UInt32)
    (pts : Nat) (payload : Bytes) :
    Matches (writeFrame headers stream pts payload) (InRows.writeFrame headers stream pts payload)
      before := by
  unfold writeFrame InRows.writeFrame
  cases found : headers.stream? stream with
  | none => rfl
  | some header =>
    obtain ⟨known, _⟩ := List.getElem?_eq_some_iff.mp found
    dsimp only
    by_cases uncoded : (codedTime? pts stream.toNat headers.clockCount).isNone
    · rw [if_pos uncoded, if_pos uncoded]
      rfl
    · rw [if_neg uncoded, if_neg uncoded]
      by_cases fits : FrameRecord.Fits header (frameCode headers) pts payload.length
      · rw [if_neg (not_not.mpr fits)]
        refine matches_insist fits ((matches_onOutput _ _).bind fun position middle located => ?_)
        obtain ⟨rfl, rfl⟩ := position_ok.mp located
        refine matches_books ?_
        rw [needsSyncpoint_rows]
        split
        · refine (matches_writeSyncpoint inStep stream pts).bind fun _ middle synced => ?_
          obtain ⟨_, opened, took⟩ := (writeSyncpoint_comes headers stream pts before).ok synced
          exact matches_writeRecord (inStep.opened opened took) agree header known pts payload
        · exact matches_writeRecord inStep agree header known pts payload
      · rw [if_pos fits, Act.insist, if_neg fits]
        rfl

theorem matches_writeIndex (inStep : before.InStep headers) :
    Matches (writeIndex headers) (InRows.writeIndex headers) before := by
  refine matches_books ?_
  have begun : before.ledger.rows.syncpoints.isEmpty = before.ledger.intervals.isEmpty := by
    simp [Ledger.rows, Ledger.syncpoints]
  rw [begun, length_syncpoints]
  split
  · exact matches_pure false
  · refine matches_insist (Ledger.climbs_of_rising (inStep.rising.imp Nat.le_of_lt)) ?_
    refine matches_look (Ledger.indexPacket?_rows (inStep.rising.imp Nat.le_of_lt) headers.clockCount) ?_
    refine (matches_onOutput _ _).bind fun _ _ _ => ?_
    exact (matches_onOutput _ _).bind fun _ _ _ => matches_pure true

/-- As long as the books are in step, no call looks up what is not there. -/
theorem matches_call (inStep : before.InStep headers) (agree : headers.Agree) (call : Call) :
    Matches (call.act headers) (call.checkedAct headers) before := by
  cases call with
  | headers => exact Matches.map (matches_onOutput _ _) _
  | frame stream pts payload => exact (matches_writeFrame inStep agree stream pts payload).map _
  | index => exact (matches_writeIndex inStep).map _

theorem Matches.attempt {act : Act Recording α} {checked : Checked α}
    (same : Matches act checked before) :
    attempt checked before.inRows =
      ((NutContainer.attempt act before).1.mapError .failed,
        (NutContainer.attempt act before).2.inRows) := by
  unfold Matches at same
  unfold NutContainer.attempt
  cases ran : act before with
  | ok value after =>
    rw [ran] at same
    rw [same]
    rfl
  | error failure after =>
    rw [ran] at same
    rw [same]
    rfl

/-- A call and its outcome as they are told where everything is checked and nothing is missing. -/
def asChecked (turn : Call × Outcome) : Call × Except Halt Answer := (turn.1, turn.2.mapError .failed)

theorem run_inRows (inStep : before.InStep headers) (agree : headers.Agree) (calls : List Call) :
    before.inRows.run headers calls =
      ((before.run headers calls).1.map asChecked, (before.run headers calls).2.inRows) := by
  induction calls generalizing before with
  | nil => rfl
  | cons call others ih =>
    have rest := ih (inStep.turn (turn_of_attempt headers call before))
    unfold InRows.run run at rest ⊢
    rw [attemptAll, (matches_call inStep agree call).attempt]
    dsimp only
    rw [rest]
    rfl

/-- A history of calls on a file whose headers were derived from descriptions, on any sink, failing
or not, and whatever it had before. A writer that checks all it looks up in its rows never finds
anything missing and does the same. Its rows are in step after every call: there is a row for each
stream with a place for each sync point, and a counter with the frames of the stream that were written;
sync points rise and lie below the position, and each was entered in a call of a frame in which the
sink took its whole packet; and there is a latest time, of a stream that the file has, once a frame
was written. -/
theorem books_stay_in_step {plan : HeaderPlan} {streams : List StreamDescriptor} {start : Recording}
    {calls : List Call} {told : List (Call × Outcome)}
    (built : plan.build streams = .ok headers)
    (fresh : start.ledger = .empty headers.streams.length)
    (ran : start.run headers calls = (told, after)) :
    ∃ (checked : List (Call × Except Halt Answer)) (rows : Ledger.Rows),
      InRows.run headers ⟨.empty headers.streams.length, start.output⟩ calls =
        (checked, ⟨rows, after.output⟩) ∧
      checked = told.map asChecked ∧
      (∀ turn ∈ checked, turn.2 ≠ .error .missing) ∧
      rows = after.ledger.rows ∧
      rows.firstTimes.length = headers.streams.length ∧
      (∀ row ∈ rows.firstTimes, row.length = rows.syncpoints.length) ∧
      rows.frameCounts.length = headers.streams.length ∧
      (∀ stream count, rows.frameCounts[stream]? = some count → count = writtenCount told stream) ∧
      rows.syncpoints.Pairwise (· < ·) ∧
      (∀ position ∈ rows.syncpoints, position < after.output.sink.position) ∧
      (∀ position ∈ rows.syncpoints, ∃ front stream pts payload back,
        calls = front ++ .frame stream pts payload :: back ∧
        Recorded headers (start.run headers front).2
          (start.run headers (front ++ [.frame stream pts payload])).2 stream pts position) ∧
      (rows.latest.isSome ↔ ∃ stream, 0 < writtenCount told stream) ∧
      (∀ time ∈ rows.latest, time.2.toNat < headers.streams.length) := by
  have agree := HeaderPlan.agree_of_build built
  have kept := kept_run fresh calls
  have same := run_inRows (inStep_fresh fresh) agree calls
  rw [ran] at kept same
  obtain ⟨rowCount, places, counters⟩ := kept.whole.rows_inStep
  rw [inRows, fresh, Ledger.rows_empty] at same
  refine ⟨told.map asChecked, after.ledger.rows, same, rfl, ?_, rfl, rowCount, places, counters, ?_,
    kept.rising, kept.below, kept.recorded, kept.latest, kept.whole.known⟩
  · intro turn member
    obtain ⟨⟨call, outcome⟩, _, rfl⟩ := List.mem_map.mp member
    cases outcome with
    | ok answer => nofun
    | error failure => nofun
  · intro stream count found
    change after.ledger.frameCounts[stream]? = some count at found
    rw [kept.counts, List.getElem?_map] at found
    obtain ⟨place, listed, rfl⟩ := Option.map_eq_some_iff.mp found
    rw [(List.getElem?_eq_some_iff.mp listed).2.symm, List.getElem_range]

/-- A file for one stream on a sink that refuses two writes behind their first bytes. -/
def brokenSample : Recording :=
  let reply (calls _ _ : Nat) : Sink.Reply := if calls ∈ [10, 17] then .refused 1 else .taken
  fresh ⟨reply, "broken", none, false, 0⟩ 1

/-- The first frame is cut off behind its sync point and the third inside its sync point; no stream
has the number of the last. -/
def brokenCalls : List Call :=
  [.headers, .frame 0 5 [1], .frame 0 3 [2], .frame 0 9 [3], .frame 0 10 [], .frame 7 0 [], .index]

theorem books_stay_in_step_sample :
    ∃ (told : List (Call × Outcome)) (after : Recording) (checked : List (Call × Except Halt Answer))
      (rows : Ledger.Rows),
      (samplePlan 1).build [.audio 0 1000 48000 1] = .ok (sampleHeaders 1) ∧
      brokenSample.ledger = .empty 1 ∧
      brokenSample.run (sampleHeaders 1) brokenCalls = (told, after) ∧
      told.map (·.2.isOk) = [true, false, true, false, true, false, true] ∧
      InRows.run (sampleHeaders 1) ⟨.empty 1, brokenSample.output⟩ brokenCalls =
        (checked, ⟨rows, after.output⟩) ∧
      (∀ turn ∈ checked, turn.2 ≠ .error .missing) ∧
      rows = ⟨[107, 122, 156], [[none, some 3, some 10]], some (10, 0), [2]⟩ ∧
      (∀ row ∈ rows.firstTimes, row.length = 3) ∧
      writtenCount told 0 = 2 ∧
      ∀ position ∈ rows.syncpoints, position < after.output.sink.position := by
  have built : (samplePlan 1).build [.audio 0 1000 48000 1] = .ok (sampleHeaders 1) := rfl
  have outcomes : (brokenSample.run (sampleHeaders 1) brokenCalls).1.map (·.2.isOk) =
      [true, false, true, false, true, false, true] := by decide +kernel
  have filled : (brokenSample.run (sampleHeaders 1) brokenCalls).2.ledger.rows =
      ⟨[107, 122, 156], [[none, some 3, some 10]], some (10, 0), [2]⟩ := by decide +kernel
  obtain ⟨told, after, reached⟩ : ∃ told after,
      brokenSample.run (sampleHeaders 1) brokenCalls = (told, after) := ⟨_, _, rfl⟩
  rw [reached] at outcomes filled
  obtain ⟨checked, rows, ran, _, complete, rfl, _, places, _, counts, _, below, _⟩ :=
    books_stay_in_step built rfl reached
  refine ⟨told, after, checked, _, built, rfl, reached, outcomes, ran, complete, filled, ?_, ?_, below⟩
  · intro row member
    rw [places row member, filled]
    rfl
  · exact (counts 0 2 (by rw [filled]; rfl)).symm

end NutContainer.Recording
