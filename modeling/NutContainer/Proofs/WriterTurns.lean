import NutContainer.Proofs.Endings
import NutContainer.Proofs.RecordingSteps
import NutContainer.Recording.Call

/-! What one call can do to the books. The sink may fail at any write, so a call can end between a
sync point and its frame, inside a packet or between the header of a frame and its payload. Whatever
is entered is entered behind bytes that the sink has taken as a whole, and the position never moves
back, however the call ends. -/
namespace NutContainer

/-- What is known of both endings of an action is known of what comes of it. -/
theorem Act.Comes.attempt {act : Act σ α} {before : σ} {Holds : Except Failure α → σ → Prop}
    (comes : act.Comes (fun value => Holds (.ok value)) (fun failure => Holds (.error failure))
      before) : Holds (attempt act before).1 (attempt act before).2 := by
  unfold NutContainer.attempt
  cases ran : act before with
  | ok value after => exact comes.ok ran
  | error failure after => exact comes.error ran

namespace Output

/-- The output has taken these bytes as a whole, perhaps with more behind them. -/
structure Takes (before : Output) (bytes : Bytes) (after : Output) : Prop where
  stored : before.sink.stored.toList ++ bytes <+: after.sink.stored.toList
  position : before.sink.position + bytes.length ≤ after.sink.position

variable {before middle after : Output} {bytes : Bytes}

theorem Takes.refl (output : Output) : output.Takes [] output := ⟨by simp, Nat.le_refl _⟩

theorem Adds.takes (adds : before.Adds bytes after) : before.Takes bytes after :=
  ⟨adds.stored ▸ List.prefix_rfl, Nat.le_of_eq adds.position.symm⟩

/-- What was taken stays when more comes. -/
theorem Takes.trans (takes : before.Takes bytes middle) {others : Bytes}
    (more : middle.Takes others after) : before.Takes bytes after where
  stored := takes.stored.trans ((List.prefix_append _ _).trans more.stored)
  position := Nat.le_trans takes.position (Nat.le_of_add_right_le more.position)

theorem Takes.weaken (takes : before.Takes bytes after) : before.Takes [] after where
  stored := by
    rw [List.append_nil]
    exact (List.prefix_append _ _).trans takes.stored
  position := Nat.le_of_add_right_le takes.position

/-- However it ends, the action takes nothing back. -/
def Advances (act : Act Output α) : Prop :=
  ∀ before, act.Comes (fun _ after => before.Takes [] after) (fun _ after => before.Takes [] after)
    before

theorem Advances.bind {first : Act Output β} {next : β → Act Output α} (one : Advances first)
    (other : ∀ value, Advances (next value)) : Advances (first >>= next) := by
  intro before
  rw [Act.comes_bind]
  refine (one before).imp (fun value middle takes => ?_) fun _ _ takes => takes
  exact (other value middle).imp (fun _ _ more => takes.trans more) fun _ _ more => takes.trans more

theorem advances_pure (value : α) : Advances (pure value : Act Output α) := fun before => .refl before

theorem advances_forM {items : List β} {act : β → Act Output PUnit}
    (each : ∀ item, Advances (act item)) : Advances (items.forM act) := by
  induction items with
  | nil => exact advances_pure _
  | cons item others ih => exact (each item).bind fun _ => ih

theorem advances_write (bytes : Bytes) : Advances (write bytes) := by
  intro before
  rw [write, comes_onSink, Act.Comes, Sink.write]
  cases before.sink.policy.reply before.sink.calls before.sink.stored.size bytes.length with
  | taken => exact ⟨by simp, Nat.le_add_right _ _⟩
  | refused kept => exact ⟨by simp, Nat.le_refl _⟩

theorem advances_flush : Advances flush := by
  intro before
  rw [flush, comes_onSink, Act.Comes, Sink.flush]
  cases before.sink.policy.flushRefusal with
  | none => exact ⟨(Takes.refl before).stored, Nat.le_refl _⟩
  | some reason => exact .refl before

theorem advances_note (notice : Notice) : Advances (note notice) :=
  fun before => ⟨(Takes.refl before).stored, Nat.le_refl _⟩

theorem advances_position : Advances position := fun before => .refl before

theorem advances_writePacket (packet : Packet) : Advances (writePacket packet) :=
  (advances_write _).bind fun _ => (advances_write _).bind fun _ => (advances_write _).bind fun _ =>
    advances_pure _

/-- What is written goes out as a whole, or it is refused somewhere. -/
theorem write_comes (bytes : Bytes) (before : Output) :
    (write bytes).Comes (fun _ after => before.Adds bytes after) (fun _ after => before.Takes [] after)
      before :=
  (advances_write bytes before).ran.imp (fun _ _ came => adds_write came.1) fun _ _ came => came.2

theorem writePacket_comes (packet : Packet) (before : Output) :
    (writePacket packet).Comes (fun _ after => before.Adds packet.encode after)
      (fun _ after => before.Takes [] after) before :=
  (advances_writePacket packet before).ran.imp (fun _ _ came => adds_writePacket came.1)
    fun _ _ came => came.2

end Output

namespace Recording

variable {headers : Headers} {before middle after : Recording} {stream : UInt32} {pts : Nat}

/-- The books are as they were, and the output has taken nothing back. -/
structure Aside (before after : Recording) : Prop where
  kept : after.ledger = before.ledger
  on : before.output.Takes [] after.output

theorem Aside.refl (recording : Recording) : recording.Aside recording := ⟨rfl, .refl _⟩

/-- However it ends, the action leaves the books as they were. -/
def LeavesBooks (act : Act Recording α) : Prop :=
  ∀ before, act.Comes (fun _ after => before.Aside after) (fun _ after => before.Aside after) before

theorem leavesBooks_onOutput {act : Act Output α} (advances : Output.Advances act) :
    LeavesBooks (onOutput act) := by
  intro before
  rw [comes_onOutput]
  exact (advances before.output).imp (fun _ _ on => ⟨rfl, on⟩) fun _ _ on => ⟨rfl, on⟩

/-- What stands in the books in front of a frame: what did before, or also a sync point whose packet
the sink has taken. -/
inductive Prepared (headers : Headers) (before : Recording) (stream : UInt32) (pts : Nat) :
    Recording → Prop where
  | plain {after : Recording} (aside : before.Aside after) : Prepared headers before stream pts after
  | synced {after : Recording}
    (behind : ∀ last ∈ before.ledger.lastSyncpoint?, last ≤ before.output.sink.position)
    (opened : after.ledger = before.ledger.addSyncpoint before.output.sink.position)
    (took : before.output.Takes (syncpoint before.ledger headers.clockCount stream pts
      before.output.sink.position).encode after.output) : Prepared headers before stream pts after

theorem Prepared.on (prepared : Prepared headers before stream pts middle)
    (aside : middle.Aside after) : Prepared headers before stream pts after := by
  cases prepared with
  | plain first => exact .plain ⟨aside.kept.trans first.kept, first.on.trans aside.on⟩
  | synced behind opened took =>
    exact .synced behind (aside.kept.trans opened) (took.trans aside.on)

/-- Everything that a call can do. -/
inductive Turn (headers : Headers) (before : Recording) : Call → Outcome → Recording → Prop where
  /-- Headers and index are in no books, whether they are written or not. -/
  | other {call : Call} {outcome : Outcome} {after : Recording} (unasked : call.stream? = none)
    (aside : before.Aside after) : Turn headers before call outcome after
  /-- A frame that is refused, or that is cut off at any byte, or that crashes. -/
  | cut {stream : UInt32} {pts : Nat} {payload : Bytes} {failure : Failure} {after : Recording}
    (prepared : Prepared headers before stream pts after) :
    Turn headers before (.frame stream pts payload) (.error failure) after
  /-- A frame that is complete. -/
  | complete {stream : UInt32} {pts : Nat} {payload : Bytes} {size : Nat} {header : StreamHeader}
    {middle after : Recording} (found : headers.stream? stream = some header)
    (prepared : Prepared headers before stream pts middle)
    (entered : after.ledger = middle.ledger.addFrame headers.main.timeBases stream pts)
    (took : middle.output.Takes (FrameRecord.encode header
      (frameCode headers) pts payload) after.output) :
    Turn headers before (.frame stream pts payload) (.ok (.size size)) after

theorem leavesBooks_writeHeaders (headers : Headers) : LeavesBooks (writeHeaders headers) := by
  refine leavesBooks_onOutput ?_
  refine (Output.advances_write _).bind fun _ => (Output.advances_writePacket _).bind fun _ => ?_
  refine Output.Advances.bind (Output.advances_forM fun stream => ?_) fun _ => ?_
  · exact (Output.advances_writePacket _).bind fun _ => Output.advances_pure _
  · exact Output.advances_position.bind fun _ => Output.advances_note _

theorem leavesBooks_writeIndex (headers : Headers) : LeavesBooks (writeIndex headers) := by
  intro before
  rw [writeIndex, Act.comes_bind, comes_books]
  split
  · exact .refl before
  · rw [Act.comes_bind, Act.comes_insist]
    refine ⟨fun _ => ?_, fun _ => .refl before⟩
    rw [Act.comes_bind]
    refine (leavesBooks_onOutput (Output.advances_writePacket _) before).imp
      (fun size middle packed => ?_) fun _ _ aside => aside
    exact ⟨packed.kept, packed.on.trans (Output.advances_note _ middle.output)⟩

/-- A sync point is entered behind its packet and behind the one before it, or not at all. -/
theorem writeSyncpoint_comes (headers : Headers) (stream : UInt32) (pts : Nat) (before : Recording) :
    (writeSyncpoint headers stream pts).Comes
      (fun _ after =>
        (∀ last ∈ before.ledger.lastSyncpoint?, last ≤ before.output.sink.position) ∧
        after.ledger = before.ledger.addSyncpoint before.output.sink.position ∧
        before.output.Takes (syncpoint before.ledger headers.clockCount stream pts
          before.output.sink.position).encode after.output)
      (fun _ after => before.Aside after) before := by
  rw [writeSyncpoint, Act.comes_bind, comes_position, Act.comes_bind, comes_books, Act.comes_bind,
    Act.comes_insist]
  refine ⟨fun behind => ?_, fun _ => .refl before⟩
  rw [Act.comes_bind, comes_onOutput]
  refine (Output.writePacket_comes _ before.output).imp (fun size output took => ?_)
    fun _ _ on => ⟨rfl, on⟩
  rw [Act.comes_bind, comes_book]
  exact ⟨behind, rfl, took.takes.trans (Output.advances_note _ output)⟩

/-- A frame is entered behind its payload, or not at all. -/
theorem writeRecord_comes (headers : Headers) (header : StreamHeader) (stream : UInt32) (pts : Nat)
    (payload : Bytes) (before : Recording) :
    (writeRecord headers header stream pts payload).Comes
      (fun _ after =>
        after.ledger = before.ledger.addFrame headers.main.timeBases stream pts ∧
        before.output.Takes (FrameRecord.encode header
          (frameCode headers) pts payload) after.output)
      (fun _ after => before.Aside after) before := by
  rw [writeRecord, Act.comes_bind, comes_position, Act.comes_bind, comes_onOutput]
  refine (Output.write_comes _ before.output).imp (fun _ headed head => ?_) fun _ _ on => ⟨rfl, on⟩
  rw [Act.comes_bind, comes_onOutput]
  refine (Output.write_comes payload headed).imp (fun _ filled body => ?_)
    fun _ _ on => ⟨rfl, head.takes.weaken.trans on⟩
  rw [Act.comes_bind, comes_book]
  exact ⟨rfl, (head.trans body).takes.trans (Output.advances_note _ filled)⟩

theorem writeFrame_comes (headers : Headers) (stream : UInt32) (pts : Nat) (payload : Bytes)
    (before : Recording) :
    (writeFrame headers stream pts payload).Comes
      (fun size => Turn headers before (.frame stream pts payload) (.ok (.size size)))
      (fun failure => Turn headers before (.frame stream pts payload) (.error failure)) before := by
  -- whatever stands in front of it, the frame itself goes on in one way
  have record {header : StreamHeader} (found : headers.stream? stream = some header)
      {middle : Recording} (prepared : Prepared headers before stream pts middle) :
      (writeRecord headers header stream pts payload).Comes
        (fun size => Turn headers before (.frame stream pts payload) (.ok (.size size)))
        (fun failure => Turn headers before (.frame stream pts payload) (.error failure)) middle :=
    (writeRecord_comes headers header stream pts payload middle).imp
      (fun _ _ came => .complete found prepared came.1 came.2)
      fun _ _ aside => .cut (prepared.on aside)
  unfold writeFrame
  cases found : headers.stream? stream with
  | none => exact .cut (.plain (.refl before))
  | some header =>
    dsimp only
    by_cases uncoded : (codedTime? pts stream.toNat headers.clockCount).isNone
    · rw [if_pos uncoded]
      exact .cut (.plain (.refl before))
    · rw [if_neg uncoded, Act.comes_bind, Act.comes_insist]
      refine ⟨fun _ => ?_, fun _ => .cut (.plain (.refl before))⟩
      rw [Act.comes_bind, comes_position, Act.comes_bind, comes_books]
      by_cases needed : needsSyncpoint before.ledger headers.main.maxDistance
          before.output.sink.position payload.length
      · rw [if_pos needed, Act.comes_bind]
        exact (writeSyncpoint_comes headers stream pts before).imp
          (fun _ _ came => record found (.synced came.1 came.2.1 came.2.2))
          fun _ _ aside => .cut (.plain aside)
      · rw [if_neg needed]
        exact record found (.plain (.refl before))

theorem LeavesBooks.turn {act : Act Recording β} (leaves : LeavesBooks act) {call : Call}
    (unasked : call.stream? = none) (tell : β → Answer) (before : Recording) :
    (tell <$> act).Comes (fun answer => Turn headers before call (.ok answer))
      (fun failure => Turn headers before call (.error failure)) before := by
  rw [Act.comes_map]
  exact (leaves before).imp (fun _ _ aside => .other unasked aside)
    fun _ _ aside => .other unasked aside

/-- No call does anything else. -/
theorem turn_of_attempt (headers : Headers) (call : Call) (before : Recording) :
    Turn headers before call (attempt (call.act headers) before).1
      (attempt (call.act headers) before).2 := by
  apply Act.Comes.attempt
  cases call with
  | headers => exact (leavesBooks_writeHeaders headers).turn rfl _ before
  | frame stream pts payload =>
    exact Act.comes_map.mpr (writeFrame_comes headers stream pts payload before)
  | index => exact (leavesBooks_writeIndex headers).turn rfl _ before

end Recording

end NutContainer
