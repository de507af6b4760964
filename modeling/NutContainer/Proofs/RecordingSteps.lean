import NutContainer.Proofs.Draft
import NutContainer.Proofs.Success

/-! A recording that has not failed follows the layout: the same books, and the laid out
bytes behind whatever the output had before. A sink that takes a write takes all of it, so
nothing about the sink needs to be known but that every step ended well. On an output that
nothing else was written to, the recording then holds the file as it is laid out. -/
namespace NutContainer

namespace Output

/-- The output has taken these bytes and no others. -/
def Holds (output : Output) (bytes : Bytes) : Prop :=
  output.sink.stored.toList = bytes ∧ output.sink.position = bytes.length

variable {before after : Output} {front : Bytes}

theorem onSink_ok {act : Act Sink α} {value : α} :
    onSink act before = .ok value after ↔
      ∃ sink, act before.sink = .ok value sink ∧ after = ⟨sink, before.journal⟩ := by
  obtain ⟨sink, journal⟩ := before
  cases ran : act sink with
  | ok value middle => simp [onSink, ran, eq_comm]
  | error fault middle => simp [onSink, ran]

/-- These bytes have gone out, and the position has moved behind them. -/
structure Adds (before : Output) (bytes : Bytes) (after : Output) : Prop where
  stored : after.sink.stored.toList = before.sink.stored.toList ++ bytes
  position : after.sink.position = before.sink.position + bytes.length

theorem Adds.none (output : Output) : output.Adds [] output := ⟨by simp, rfl⟩

theorem Adds.trans {middle : Output} {first second : Bytes} (one : before.Adds first middle)
    (other : middle.Adds second after) : before.Adds (first ++ second) after := by
  constructor
  · rw [other.stored, one.stored, List.append_assoc]
  · rw [other.position, one.position, List.length_append, Nat.add_assoc]

theorem Holds.add {bytes : Bytes} (holds : before.Holds front) (adds : before.Adds bytes after) :
    after.Holds (front ++ bytes) := by
  constructor
  · rw [adds.stored, holds.1]
  · rw [adds.position, holds.2, List.length_append]

theorem adds_write {bytes : Bytes} {value : Unit} (ran : write bytes before = .ok value after) :
    before.Adds bytes after := by
  obtain ⟨sink, wrote, rfl⟩ := onSink_ok.mp ran
  unfold Sink.write at wrote
  split at wrote
  · cases wrote
    exact ⟨by simp, rfl⟩
  · cases wrote

/-- A notice is no bytes. -/
theorem Adds.noted {middle : Output} {bytes : Bytes} {notice : Notice} {value : Unit}
    (adds : before.Adds bytes middle) (ran : note notice middle = .ok value after) :
    before.Adds bytes after := by
  cases ran
  exact ⟨adds.stored, adds.position⟩

theorem holds_flush {value : Unit} (holds : before.Holds front)
    (ran : flush before = .ok value after) : after.Holds front := by
  obtain ⟨sink, flushed, rfl⟩ := onSink_ok.mp ran
  unfold Sink.flush at flushed
  split at flushed
  · cases flushed
    exact holds
  · cases flushed

theorem position_ok {position : Nat} :
    Output.position before = .ok position after ↔ before.sink.position = position ∧ before = after := by
  simp [Output.position]

theorem adds_writePacket {packet : Packet} {size : Nat}
    (ran : writePacket packet before = .ok size after) : before.Adds packet.encode after := by
  obtain ⟨_, first, header, ran⟩ := Act.bind_ok.mp ran
  obtain ⟨_, second, payload, ran⟩ := Act.bind_ok.mp ran
  obtain ⟨_, third, trailer, ran⟩ := Act.bind_ok.mp ran
  obtain ⟨_, rfl⟩ := Act.pure_ok.mp ran
  exact ((adds_write header).trans (adds_write payload)).trans (adds_write trailer)

end Output

namespace Recording

/-- The recording holds the file as far as it is laid out. -/
structure Holds (recording : Recording) (draft : Draft) : Prop where
  ledger : recording.ledger = draft.ledger
  output : recording.output.Holds draft.bytes

/-- Since this start, the recording has gone on as the file is laid out behind the front. -/
structure Follows (start : Recording) (front : Bytes) (recording : Recording) (draft : Draft) :
    Prop where
  starts : start.output.sink.position = front.length
  ledger : recording.ledger = draft.ledger
  laid : ∃ laid, draft.bytes = front ++ laid ∧ start.output.Adds laid recording.output

variable {start before after : Recording} {front : Bytes} {headers : Headers} {draft : Draft}

theorem Holds.follows (holds : before.Holds draft) : Follows before draft.bytes before draft :=
  ⟨holds.output.2, holds.ledger, [], by simp, .none _⟩

theorem Follows.holds (follows : Follows start front after draft)
    (whole : start.output.Holds front) : after.Holds draft := by
  obtain ⟨laid, bytes, adds⟩ := follows.laid
  refine ⟨follows.ledger, ?_⟩
  rw [bytes]
  exact whole.add adds

theorem Follows.position (follows : Follows start front before draft) :
    before.output.sink.position = draft.bytes.length := by
  obtain ⟨laid, bytes, adds⟩ := follows.laid
  rw [adds.position, follows.starts, bytes, List.length_append]

/-- A layout that is followed is followed from here on, too. -/
theorem Follows.here (follows : Follows start front before draft) :
    Follows before draft.bytes before draft :=
  ⟨follows.position, follows.ledger, [], by simp, .none _⟩

/-- A step that lays an element down is followed. -/
theorem Follows.put (follows : Follows start front before draft) {ledger : Ledger} {bytes : Bytes}
    (booked : after.ledger = ledger) (adds : before.output.Adds bytes after.output)
    (element : Element) : Follows start front after (draft.put ledger bytes element) := by
  obtain ⟨laid, whole, before⟩ := follows.laid
  refine ⟨follows.starts, booked, laid ++ bytes, ?_, before.trans adds⟩
  rw [Draft.put, whole, List.append_assoc]

theorem onOutput_ok {act : Act Output α} {value : α} :
    onOutput act before = .ok value after ↔
      ∃ output, act before.output = .ok value output ∧ after = ⟨before.ledger, output⟩ := by
  obtain ⟨ledger, output⟩ := before
  cases ran : act output with
  | ok value middle => simp [onOutput, ran, eq_comm]
  | error fault middle => simp [onOutput, ran]

theorem book_ok {change : Ledger → Ledger} {value : Unit} :
    book change before = .ok value after ↔ after = ⟨change before.ledger, before.output⟩ := by
  simp [book, eq_comm]

theorem books_ok {ledger : Ledger} :
    books before = .ok ledger after ↔ before.ledger = ledger ∧ before = after := by
  simp [books]

theorem position_ok {position : Nat} :
    onOutput Output.position before = .ok position after ↔
      before.output.sink.position = position ∧ before = after := by
  constructor
  · intro ran
    obtain ⟨output, found, rfl⟩ := onOutput_ok.mp ran
    obtain ⟨here, rfl⟩ := Output.position_ok.mp found
    exact ⟨here, rfl⟩
  · rintro ⟨rfl, rfl⟩
    rfl

theorem holds_note {notice : Notice} {value : Unit} (holds : before.Holds draft)
    (ran : onOutput (Output.note notice) before = .ok value after) : after.Holds draft := by
  obtain ⟨output, noted, rfl⟩ := onOutput_ok.mp ran
  cases noted
  exact ⟨holds.ledger, holds.output⟩

theorem holds_flush {value : Unit} (holds : before.Holds draft)
    (ran : onOutput Output.flush before = .ok value after) : after.Holds draft := by
  obtain ⟨output, flushed, rfl⟩ := onOutput_ok.mp ran
  exact ⟨holds.ledger, Output.holds_flush holds.output flushed⟩

private theorem adds_streamHeaders {before after : Output} {streams : List StreamHeader}
    {value : Unit} (ran : (streams.forM fun stream => do
      let _ ← Output.writePacket ⟨Startcode.streamHeader, stream.encode⟩ : Act Output Unit) before =
        .ok value after) :
    before.Adds (streams.flatMap fun stream => stream.packet.encode) after := by
  induction streams generalizing before with
  | nil =>
    obtain ⟨_, rfl⟩ := Act.pure_ok.mp ran
    exact .none before
  | cons stream others ih =>
    obtain ⟨_, middle, wrote, ran⟩ := Act.bind_ok.mp ran
    obtain ⟨_, _, packet, done⟩ := Act.bind_ok.mp wrote
    obtain ⟨_, rfl⟩ := Act.pure_ok.mp done
    exact (Output.adds_writePacket packet).trans (ih ran)

/-- Writing the headers on a fresh output opens the file. -/
theorem holds_writeHeaders {value : Unit} (ran : writeHeaders headers before = .ok value after)
    (empty : before.output.Holds []) (books : before.ledger = .empty headers.streams.length) :
    after.Holds (.opened headers) := by
  obtain ⟨output, wrote, rfl⟩ := onOutput_ok.mp ran
  obtain ⟨_, marked, mark, wrote⟩ := Act.bind_ok.mp wrote
  obtain ⟨_, mained, main, wrote⟩ := Act.bind_ok.mp wrote
  obtain ⟨_, streamed, streams, wrote⟩ := Act.bind_ok.mp wrote
  obtain ⟨position, same, found, noted⟩ := Act.bind_ok.mp wrote
  obtain ⟨_, rfl⟩ := Output.position_ok.mp found
  have opening := ((Output.adds_write mark).trans (Output.adds_writePacket main)).trans
    (adds_streamHeaders streams)
  exact ⟨books, empty.add (opening.noted noted)⟩

/-- What a sync point does to the books and to the output. -/
theorem writeSyncpoint_ok {stream : UInt32} {pts : Nat} {value : Unit}
    (ran : writeSyncpoint headers stream pts before = .ok value after) :
    (∀ last ∈ before.ledger.lastSyncpoint?, last ≤ before.output.sink.position) ∧
      after.ledger = before.ledger.addSyncpoint before.output.sink.position ∧
      before.output.Adds (syncpoint before.ledger headers.clockCount stream pts
        before.output.sink.position).encode after.output := by
  obtain ⟨position, _, found, ran⟩ := Act.bind_ok.mp ran
  obtain ⟨rfl, rfl⟩ := position_ok.mp found
  obtain ⟨ledger, _, looked, ran⟩ := Act.bind_ok.mp ran
  obtain ⟨rfl, rfl⟩ := books_ok.mp looked
  obtain ⟨_, _, insisted, ran⟩ := Act.bind_ok.mp ran
  obtain ⟨ahead, rfl⟩ := Act.insist_ok.mp insisted
  obtain ⟨_, packed, wrote, ran⟩ := Act.bind_ok.mp ran
  obtain ⟨output, packet, rfl⟩ := onOutput_ok.mp wrote
  obtain ⟨_, booked, entered, ran⟩ := Act.bind_ok.mp ran
  cases book_ok.mp entered
  obtain ⟨last, noted, rfl⟩ := onOutput_ok.mp ran
  exact ⟨ahead, rfl, (Output.adds_writePacket packet).noted noted⟩

/-- What a frame without a sync point does to the books and to the output. -/
theorem writeRecord_ok {header : StreamHeader} {stream : UInt32} {pts size : Nat} {payload : Bytes}
    (ran : writeRecord headers header stream pts payload before = .ok size after) :
    after.ledger = before.ledger.addFrame headers.main.timeBases stream pts ∧
      before.output.Adds (FrameRecord.encode header (frameCode headers) pts payload)
        after.output := by
  obtain ⟨start, _, found, ran⟩ := Act.bind_ok.mp ran
  obtain ⟨_, rfl⟩ := position_ok.mp found
  obtain ⟨_, headed, wrote, ran⟩ := Act.bind_ok.mp ran
  obtain ⟨_, head, rfl⟩ := onOutput_ok.mp wrote
  obtain ⟨_, filled, wrote, ran⟩ := Act.bind_ok.mp ran
  obtain ⟨output, body, rfl⟩ := onOutput_ok.mp wrote
  obtain ⟨_, booked, entered, ran⟩ := Act.bind_ok.mp ran
  cases book_ok.mp entered
  obtain ⟨_, noted, note, ran⟩ := Act.bind_ok.mp ran
  obtain ⟨_, quiet, rfl⟩ := onOutput_ok.mp note
  obtain ⟨stop, _, found, ran⟩ := Act.bind_ok.mp ran
  obtain ⟨_, rfl⟩ := position_ok.mp found
  obtain ⟨_, rfl⟩ := Act.pure_ok.mp ran
  exact ⟨rfl, ((Output.adds_write head).trans (Output.adds_write body)).noted quiet⟩

/-- A frame that is written was one that the file admits, and it is laid down. -/
theorem follows_writeFrame {stream : UInt32} {pts size : Nat} {payload : Bytes}
    (follows : Follows start front before draft)
    (ran : writeFrame headers stream pts payload before = .ok size after) :
    headers.Admits stream pts ∧
      Follows start front after (draft.putFrame headers stream pts payload) := by
  unfold writeFrame at ran
  cases found : headers.stream? stream with
  | none =>
    rw [found] at ran
    exact absurd ran Act.not_refuse_ok
  | some header =>
    rw [found] at ran
    dsimp only at ran
    by_cases uncoded : (codedTime? pts stream.toNat headers.clockCount).isNone
    · rw [if_pos uncoded] at ran
      obtain ⟨_, _, thrown, _⟩ := Act.bind_ok.mp ran
      exact absurd thrown Act.not_refuse_ok
    · rw [if_neg uncoded] at ran
      have coded := Option.isSome_iff_ne_none.mpr (by simpa using uncoded)
      obtain ⟨_, _, insisted, ran⟩ := Act.bind_ok.mp ran
      obtain ⟨fits, rfl⟩ := Act.insist_ok.mp insisted
      obtain ⟨position, _, located, ran⟩ := Act.bind_ok.mp ran
      obtain ⟨rfl, rfl⟩ := position_ok.mp located
      obtain ⟨ledger, _, looked, ran⟩ := Act.bind_ok.mp ran
      obtain ⟨rfl, rfl⟩ := books_ok.mp looked
      rw [Draft.putFrame_eq found]
      refine ⟨(Draft.admits_iff found).mpr coded, ?_⟩
      rw [follows.ledger, follows.position] at ran
      by_cases needed : needsSyncpoint draft.ledger headers.main.maxDistance draft.bytes.length
          payload.length
      · rw [if_pos needed] at ran
        obtain ⟨_, marked, synced, ran⟩ := Act.bind_ok.mp ran
        obtain ⟨_, opened, point⟩ := writeSyncpoint_ok synced
        obtain ⟨entered, record⟩ := writeRecord_ok ran
        rw [follows.ledger, follows.position] at opened point
        rw [opened] at entered
        rw [Draft.prepared, if_pos needed]
        exact (follows.put opened point _).put entered record _
      · rw [if_neg needed] at ran
        obtain ⟨entered, record⟩ := writeRecord_ok ran
        rw [follows.ledger] at entered
        rw [Draft.prepared, if_neg needed]
        exact follows.put entered record _

/-- The index is laid down, and its answer says whether there is one. -/
theorem follows_writeIndex {indexed : Bool} (follows : Follows start front before draft)
    (ran : writeIndex headers before = .ok indexed after) :
    indexed = !draft.ledger.intervals.isEmpty ∧
      Follows start front after (draft.putIndex headers) := by
  obtain ⟨ledger, _, looked, ran⟩ := Act.bind_ok.mp ran
  obtain ⟨known, rfl⟩ := books_ok.mp looked
  rw [follows.ledger] at known
  subst known
  by_cases empty : draft.ledger.intervals.isEmpty
  · rw [if_pos empty] at ran
    obtain ⟨rfl, rfl⟩ := Act.pure_ok.mp ran
    rw [Draft.putIndex, if_pos empty, empty]
    exact ⟨rfl, follows⟩
  · rw [if_neg empty] at ran
    obtain ⟨_, _, insisted, ran⟩ := Act.bind_ok.mp ran
    obtain ⟨climbs, rfl⟩ := Act.insist_ok.mp insisted
    obtain ⟨size, packed, wrote, ran⟩ := Act.bind_ok.mp ran
    obtain ⟨output, packet, rfl⟩ := onOutput_ok.mp wrote
    obtain ⟨_, noted, note, ran⟩ := Act.bind_ok.mp ran
    obtain ⟨last, quiet, rfl⟩ := onOutput_ok.mp note
    obtain ⟨rfl, rfl⟩ := Act.pure_ok.mp ran
    rw [Draft.putIndex, if_neg empty]
    refine ⟨by simpa using empty, follows.put ?_ ((Output.adds_writePacket packet).noted quiet) _⟩
    exact follows.ledger

theorem holds_writeFrame {stream : UInt32} {pts size : Nat} {payload : Bytes}
    (holds : before.Holds draft)
    (ran : writeFrame headers stream pts payload before = .ok size after) :
    headers.Admits stream pts ∧ after.Holds (draft.putFrame headers stream pts payload) := by
  obtain ⟨admits, follows⟩ := follows_writeFrame holds.follows ran
  exact ⟨admits, follows.holds holds.output⟩

theorem holds_writeIndex {indexed : Bool} (holds : before.Holds draft)
    (ran : writeIndex headers before = .ok indexed after) :
    indexed = !draft.ledger.intervals.isEmpty ∧ after.Holds (draft.putIndex headers) := by
  obtain ⟨answer, follows⟩ := follows_writeIndex holds.follows ran
  exact ⟨answer, follows.holds holds.output⟩

end Recording

end NutContainer
