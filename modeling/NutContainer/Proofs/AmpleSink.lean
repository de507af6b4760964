import NutContainer.Proofs.SessionEndings

/-! An action on a sink that may fail, and the same action on a sink that takes everything.
As long as no write is refused the two come to the same state, but for the sink's own
manner; where one is refused, the failing sink has a part of what the other one comes to
have, since a sink only ever grows. That is all there is to a sink's failure, so it is
proved of every action from its parts: for a single write first, then for whatever is made
of writes. -/
namespace NutContainer

namespace Sink

/-- A refused write leaves nothing behind. -/
def Policy.StoresWhole (policy : Policy) : Prop :=
  ∀ calls stored offered kept, policy.reply calls stored offered = .refused kept → kept = 0

theorem Policy.storesWhole_wholeOrNothing (limit : Option Nat) (refusal : String)
    (flushRefusal : Option String) : (wholeOrNothing limit refusal flushRefusal).StoresWhole := by
  intro calls stored offered kept refused
  simp only [wholeOrNothing] at refused
  split at refused
  · cases refused
  · cases refused
    rfl

/-- The sink as memory. -/
def ample (sink : Sink) : Sink := { sink with policy := .memory, held := 0 }

/-- What any use of a sink keeps. The position falls behind the bytes only where a part of
a refused write stays. -/
structure Grows (before after : Sink) : Prop where
  policy : after.policy = before.policy
  stored : before.stored.toList <+: after.stored.toList
  even : before.policy.StoresWhole → before.position = before.stored.size →
    after.position = after.stored.size

theorem Grows.refl (sink : Sink) : sink.Grows sink := ⟨rfl, List.prefix_rfl, fun _ even => even⟩

theorem Grows.trans {before middle after : Sink} (first : before.Grows middle)
    (second : middle.Grows after) : before.Grows after :=
  ⟨second.policy.trans first.policy, first.stored.trans second.stored,
    fun whole even => second.even (first.policy ▸ whole) (first.even whole even)⟩

end Sink

/-- The failure is a refusal by the sink. -/
def Failure.OfSink (failure : Failure) : Prop :=
  ∃ fault, failure = .refused fault ∧ fault.category = .output

/-- A state that owns a sink. -/
class OwnsSink (σ : Type) where
  sink : σ → Sink
  /-- The same state on a sink that takes everything. -/
  ample : σ → σ

instance : OwnsSink Sink := ⟨fun sink => sink, Sink.ample⟩

instance : OwnsSink Output := ⟨(·.sink), fun output => { output with sink := output.sink.ample }⟩

instance : OwnsSink Recording :=
  ⟨(·.output.sink), fun recording => { recording with output := OwnsSink.ample recording.output }⟩

instance : OwnsSink Session :=
  ⟨(·.recording.output.sink),
    fun session => { session with recording := OwnsSink.ample session.recording }⟩

namespace Act

open OwnsSink

variable {σ τ α β : Type} [OwnsSink σ] [OwnsSink τ]

/-- The action does on any sink what it does on an ample one, or fails by the sink with a
part of it. -/
structure Tracks (act : Act σ α) : Prop where
  grows : ∀ before, act.Comes (fun _ after => (sink before).Grows (sink after))
    (fun _ after => (sink before).Grows (sink after)) before
  beside : ∀ before, act.Comes (fun value after => act (ample before) = .ok value (ample after))
    (fun failure after => act (ample before) = .error failure (ample after) ∨
      failure.OfSink ∧
        (sink after).stored.toList <+: (sink (act.after (ample before))).stored.toList) before

theorem Tracks.after {act : Act σ α} (tracks : act.Tracks) (before : σ) :
    (sink before).Grows (sink (act.after before)) := by
  cases ran : act before with
  | ok value after =>
    rw [after_of_ok ran]
    exact (tracks.grows before).ok ran
  | error failure after =>
    rw [after_of_error ran]
    exact (tracks.grows before).error ran

/-- What follows an action only adds to its sink. -/
theorem grows_after_bind {first : Act σ β} {next : β → Act σ α} (other : ∀ value, (next value).Tracks)
    (before : σ) : (sink (first.after before)).Grows (sink ((first >>= next).after before)) := by
  cases ran : first before with
  | ok value middle =>
    rw [after_of_ok ran, Act.after, bind_of_ok ran]
    exact (other value).after middle
  | error failure after =>
    rw [after_of_error ran, after_of_error (bind_of_error ran)]
    exact .refl _

theorem Tracks.bind {first : Act σ β} {next : β → Act σ α} (one : first.Tracks)
    (other : ∀ value, (next value).Tracks) : Tracks (first >>= next) where
  grows before := by
    rw [comes_bind]
    refine (one.grows before).imp (fun value middle grows => ?_) fun _ _ grows => grows
    exact ((other value).grows middle).imp (fun _ _ more => grows.trans more)
      fun _ _ more => grows.trans more
  beside before := by
    rw [comes_bind]
    refine (one.beside before).imp (fun value middle same => ?_) fun failure middle apart => ?_
    · rw [Act.after, bind_of_ok same]
      exact (other value).beside middle
    · rcases apart with same | ⟨bySink, part⟩
      · exact .inl (bind_of_error same)
      · -- the ample action goes on where the other one has stopped
        exact .inr ⟨bySink, part.trans (grows_after_bind other _).stored⟩

theorem tracks_pure (value : α) : Tracks (pure value : Act σ α) :=
  ⟨fun _ => .refl _, fun _ => rfl⟩

theorem tracks_throw (failure : Failure) : Tracks (throw failure : Act σ α) :=
  ⟨fun _ => .refl _, fun _ => .inl rfl⟩

theorem tracks_refuse (fault : Fault) : Tracks (refuse fault : Act σ α) := tracks_throw _

theorem tracks_insist (condition : Prop) [Decidable condition] :
    Tracks (insist condition : Act σ Unit) := by
  unfold insist
  split
  · exact tracks_pure ()
  · exact tracks_throw .crash

theorem Tracks.map {act : Act σ β} (tracks : act.Tracks) (change : β → α) :
    Tracks (change <$> act) := by
  rw [map_eq_pure_bind]
  exact tracks.bind fun value => tracks_pure (change value)

/-- An action that goes on with what it reads tracks, if how the sink behaves does not
matter to what it does. -/
theorem tracks_get {next : σ → Act σ α} (same : ∀ state, next (ample state) = next state)
    (each : ∀ state, (next state).Tracks) : Tracks (get >>= next) where
  grows before := (each before).grows before
  beside before := by
    have ran : (get >>= next) (ample before) = next before (ample before) :=
      congrFun (same before) (ample before)
    rw [comes_bind, comes_get, Act.after, ran]
    exact (each before).beside before

theorem tracks_modify {change : σ → σ} (kept : ∀ state, sink (change state) = sink state)
    (same : ∀ state, change (ample state) = ample (change state)) :
    Tracks (modify change : Act σ PUnit) where
  grows before := by
    rw [comes_modify, kept]
    exact .refl _
  beside before := by
    rw [comes_modify, ← same]
    rfl

theorem tracks_forM {items : List β} {act : β → Act σ PUnit} (each : ∀ item, (act item).Tracks) :
    Tracks (items.forM act) := by
  induction items with
  | nil => exact tracks_pure _
  | cons item others ih => exact (each item).bind fun _ => ih

/-- An action of a part of the state tracks as an action of the whole. -/
theorem Tracks.lift {inner : Act τ α} {outer : Act σ α} {part : σ → τ} {put : σ → τ → σ}
    (tracks : inner.Tracks)
    (comes : ∀ {good broken before}, outer.Comes good broken before ↔
      inner.Comes (fun value after => good value (put before after))
        (fun failure after => broken failure (put before after)) (part before))
    (reads : ∀ before, sink before = sink (part before))
    (gets : ∀ before after, part (put before after) = after)
    (parts : ∀ before, part (ample before) = ample (part before))
    (puts : ∀ before after, put (ample before) (ample after) = ample (put before after)) :
    outer.Tracks where
  grows before := by
    simp only [comes, reads, gets]
    exact tracks.grows (part before)
  beside before := by
    have run := comes.mp (comes_self outer (ample before))
    rw [parts] at run
    refine comes.mpr ((tracks.beside (part before)).imp (fun value after same => ?_) ?_)
    · rw [run.ok same, puts]
    · rintro failure after (same | ⟨bySink, cut⟩)
      · left
        rw [run.error same, puts]
      · refine .inr ⟨bySink, ?_⟩
        rw [reads, gets]
        cases ran : inner (ample (part before)) with
        | ok value further =>
          rwa [after_of_ok (run.ok ran), reads, gets, ← after_of_ok ran]
        | error failure further =>
          rwa [after_of_error (run.error ran), reads, gets, ← after_of_error ran]

end Act

namespace Sink

theorem holdBack_zero (size : Nat) : holdBack 0 0 size = 0 := by simp [holdBack]

theorem tracks_write (bytes : Bytes) : (write bytes).Tracks where
  grows before := by
    unfold Act.Comes write
    cases reply : before.policy.reply before.calls before.stored.size bytes.length with
    | taken =>
      refine ⟨rfl, ?_, fun _ even => ?_⟩
      · simp [OwnsSink.sink]
      · change before.position = before.stored.size at even
        simp [OwnsSink.sink, even, ← Array.length_toList]
    | refused kept =>
      refine ⟨rfl, ?_, fun whole even => ?_⟩
      · simp [OwnsSink.sink]
      · change before.position = before.stored.size at even
        simp [OwnsSink.sink, even, whole _ _ _ _ reply]
  beside before := by
    have room : write bytes before.ample = .ok () { before.ample with
        stored := before.stored ++ bytes
        position := before.position + bytes.length
        calls := before.calls + 1
        held := holdBack 0 0 bytes.length } := rfl
    rw [holdBack_zero] at room
    unfold Act.Comes
    cases reply : before.policy.reply before.calls before.stored.size bytes.length with
    | taken =>
      simp only [write, reply]
      exact room
    | refused kept =>
      simp only [write, reply]
      refine .inr ⟨⟨_, rfl, rfl⟩, ?_⟩
      change _ <+: (Act.after (write bytes) before.ample).stored.toList
      rw [Act.after_of_ok room]
      simp [OwnsSink.sink, List.take_prefix]

theorem tracks_flush : flush.Tracks where
  grows before := by
    unfold Act.Comes flush
    cases before.policy.flushRefusal with
    | none => exact ⟨rfl, List.prefix_rfl, fun _ even => even⟩
    | some reason => exact .refl _
  beside before := by
    unfold Act.Comes
    cases reason : before.policy.flushRefusal with
    | none =>
      simp only [flush, reason]
      rfl
    | some reason =>
      simp only [flush, reason]
      exact .inr ⟨⟨_, rfl, rfl⟩, List.prefix_rfl⟩

end Sink

namespace Output

theorem tracks_onSink {act : Act Sink α} (tracks : act.Tracks) : (onSink act).Tracks :=
  tracks.lift comes_onSink (fun _ => rfl) (fun _ _ => rfl) (fun _ => rfl) fun _ _ => rfl

theorem tracks_write (bytes : Bytes) : (write bytes).Tracks := tracks_onSink (Sink.tracks_write bytes)

theorem tracks_flush : flush.Tracks := tracks_onSink Sink.tracks_flush

theorem tracks_note (notice : Notice) : (note notice).Tracks :=
  ⟨fun _ => .refl _, fun _ => rfl⟩

theorem tracks_position : position.Tracks := ⟨fun _ => .refl _, fun _ => rfl⟩

theorem tracks_writePacket (packet : Packet) : (writePacket packet).Tracks :=
  (tracks_write _).bind fun _ => (tracks_write _).bind fun _ => (tracks_write _).bind fun _ =>
    Act.tracks_pure _

end Output

namespace Recording

theorem tracks_onOutput {act : Act Output α} (tracks : act.Tracks) : (onOutput act).Tracks :=
  tracks.lift comes_onOutput (fun _ => rfl) (fun _ _ => rfl) (fun _ => rfl) fun _ _ => rfl

theorem tracks_book (change : Ledger → Ledger) : (book change).Tracks :=
  ⟨fun _ => .refl _, fun _ => rfl⟩

theorem tracks_books : books.Tracks := ⟨fun _ => .refl _, fun _ => rfl⟩

theorem tracks_writeHeaders (headers : Headers) : (writeHeaders headers).Tracks := by
  refine tracks_onOutput ?_
  refine (Output.tracks_write _).bind fun _ => (Output.tracks_writePacket _).bind fun _ => ?_
  refine Act.Tracks.bind (Act.tracks_forM fun stream => ?_) fun _ => ?_
  · exact (Output.tracks_writePacket _).bind fun _ => Act.tracks_pure _
  · exact Output.tracks_position.bind fun _ => Output.tracks_note _

theorem tracks_writeSyncpoint (headers : Headers) (stream : UInt32) (pts : Nat) :
    (writeSyncpoint headers stream pts).Tracks := by
  refine (tracks_onOutput Output.tracks_position).bind fun _ => tracks_books.bind fun _ => ?_
  refine (Act.tracks_insist _).bind fun _ => ?_
  refine (tracks_onOutput (Output.tracks_writePacket _)).bind fun _ => ?_
  exact (tracks_book _).bind fun _ => tracks_onOutput (Output.tracks_note _)

theorem tracks_writeRecord (headers : Headers) (header : StreamHeader) (stream : UInt32)
    (pts : Nat) (payload : Bytes) : (writeRecord headers header stream pts payload).Tracks := by
  refine (tracks_onOutput Output.tracks_position).bind fun _ => ?_
  refine (tracks_onOutput (Output.tracks_write _)).bind fun _ => ?_
  refine (tracks_onOutput (Output.tracks_write _)).bind fun _ => ?_
  refine (tracks_book _).bind fun _ => (tracks_onOutput (Output.tracks_note _)).bind fun _ => ?_
  exact (tracks_onOutput Output.tracks_position).bind fun _ => Act.tracks_pure _

theorem tracks_writeFrame (headers : Headers) (stream : UInt32) (pts : Nat) (payload : Bytes) :
    (writeFrame headers stream pts payload).Tracks := by
  unfold writeFrame
  split
  · exact Act.tracks_refuse _
  · dsimp only
    split
    · exact Act.tracks_refuse _
    · refine (Act.tracks_insist _).bind fun _ => ?_
      refine (tracks_onOutput Output.tracks_position).bind fun _ => tracks_books.bind fun _ => ?_
      split
      · exact (tracks_writeSyncpoint _ _ _).bind fun _ => tracks_writeRecord _ _ _ _ _
      · exact tracks_writeRecord _ _ _ _ _

theorem tracks_writeIndex (headers : Headers) : (writeIndex headers).Tracks := by
  refine tracks_books.bind fun ledger => ?_
  split
  · exact Act.tracks_pure _
  · refine (Act.tracks_insist _).bind fun _ => ?_
    refine (tracks_onOutput (Output.tracks_writePacket _)).bind fun _ => ?_
    exact (tracks_onOutput (Output.tracks_note _)).bind fun _ => Act.tracks_pure _

end Recording

namespace Session

theorem tracks_onRecording {act : Act Recording α} (tracks : act.Tracks) :
    (onRecording act).Tracks :=
  tracks.lift comes_onRecording (fun _ => rfl) (fun _ _ => rfl) (fun _ => rfl) fun _ _ => rfl

theorem tracks_note (notice : Notice) : (note notice).Tracks :=
  tracks_onRecording (Recording.tracks_onOutput (Output.tracks_note notice))

theorem tracks_expect (phase : Phase) (operation : String) : (expect phase operation).Tracks where
  grows before := comes_expect.mpr ⟨fun _ => .refl _, fun _ => .refl _⟩
  beside before := by
    refine comes_expect.mpr ⟨fun turn => ?_, fun turn => .inl ?_⟩
    · exact if_pos turn
    · exact if_neg turn

theorem tracks_orFail {act : Act Session α} (tracks : act.Tracks) : (orFail act).Tracks where
  grows before := by
    refine comes_orFail.mpr ((tracks.grows before).imp (fun _ _ grows => grows) ?_)
    rintro (fault | _) after grows
    · exact grows
    · exact grows
  beside before := by
    rw [comes_orFail]
    refine (tracks.beside before).imp (fun value after same => ?_) fun failure after apart => ?_
    · rw [orFail, same]
    · rcases apart with same | ⟨⟨fault, rfl, category⟩, part⟩
      · left
        rw [orFail, same]
        cases failure <;> rfl
      · refine .inr ⟨⟨fault, rfl, category⟩, part.trans ?_⟩
        unfold Act.after orFail
        rcases act (OwnsSink.ample before) with _ | ⟨_ | _, _⟩ <;> exact List.prefix_rfl

theorem tracks_settle (result : Except Failure α) : (settle result).Tracks := by
  cases result with
  | ok value => exact Act.tracks_pure value
  | error failure => exact Act.tracks_throw failure

theorem tracks_headersFor (operation : String) : (headersFor operation).Tracks where
  grows before := by
    unfold Act.Comes headersFor
    cases before.headers <;> exact .refl _
  beside before := by
    have same : (OwnsSink.ample before).headers = before.headers := rfl
    unfold Act.Comes headersFor
    rw [same]
    cases before.headers with
    | none => exact .inl rfl
    | some headers => rfl

theorem tracks_writeHeaders (streams : List StreamDescriptor) : (writeHeaders streams).Tracks := by
  refine (tracks_expect _ _).bind fun _ => Act.tracks_get (fun _ => rfl) fun session => ?_
  refine tracks_orFail ((tracks_settle _).bind fun headers => ?_)
  refine (tracks_onRecording ?_).bind fun _ => Act.tracks_modify (fun _ => rfl) fun _ => rfl
  exact (Recording.tracks_book _).bind fun _ => Recording.tracks_writeHeaders headers

theorem tracks_remark (frame : WaitingFrame) : (remark frame).Tracks := by
  refine Act.tracks_get (fun _ => rfl) fun session => ?_
  split
  · split
    · exact Act.Tracks.bind (Act.tracks_modify (fun _ => rfl) fun _ => rfl) fun _ => tracks_note _
    · exact Act.tracks_pure _
  · exact Act.tracks_pure _

theorem tracks_lay (headers : Headers) (frame : WaitingFrame) : (lay headers frame).Tracks := by
  unfold lay
  dsimp only
  split
  · exact Act.tracks_refuse _
  · refine (tracks_onRecording (Recording.tracks_writeFrame _ _ _ _)).bind fun _ => ?_
    exact Act.tracks_modify (fun _ => rfl) fun _ => rfl

theorem tracks_emit (frame : WaitingFrame) : (emit frame).Tracks := by
  rw [emit_eq]
  refine (tracks_headersFor _).bind fun headers => ?_
  exact (tracks_remark frame).bind fun _ => tracks_lay headers frame

/-- Putting back the rest of the buffer changes nothing but the buffer. Said as a change, it
does not name the session that was read, and so it tracks whatever the sink. -/
theorem emitBy_succ (pop? : OrderingBuffer → Option (WaitingFrame × OrderingBuffer)) (count : Nat) :
    emitBy pop? (count + 1) = (do
      let session ← get
      match pop? session.buffer with
      | none => pure ()
      | some (frame, buffer) =>
        modify fun session => { session with buffer }
        emit frame
        emitBy pop? count) := by
  funext session
  have read (next : Session → Act Session Unit) : (get >>= next) session = next session session :=
    rfl
  rw [emitBy, read, read]
  cases pop? session.buffer with
  | none => rfl
  | some next => rfl

theorem tracks_emitBy (pop? : OrderingBuffer → Option (WaitingFrame × OrderingBuffer))
    (count : Nat) : (emitBy pop? count).Tracks := by
  induction count with
  | zero => exact Act.tracks_pure _
  | succ count ih =>
    rw [emitBy_succ]
    refine Act.tracks_get (fun _ => rfl) fun session => ?_
    cases pop? session.buffer with
    | none => exact Act.tracks_pure _
    | some next =>
      refine Act.Tracks.bind (Act.tracks_modify (fun _ => rfl) fun _ => rfl) fun _ => ?_
      exact (tracks_emit next.1).bind fun _ => ih

theorem tracks_accept (stream : UInt32) (pts : Int) (payload : Bytes) :
    (accept stream pts payload).Tracks := by
  refine (tracks_expect _ _).bind fun _ => tracks_orFail ?_
  refine (tracks_headersFor _).bind fun headers => (tracks_settle _).bind fun millis => ?_
  refine Act.Tracks.bind (Act.tracks_modify (fun _ => rfl) fun _ => rfl) fun _ => ?_
  exact Act.tracks_get (fun _ => rfl) fun session => tracks_emitBy _ _

theorem tracks_writeFrame (frame : Frame) : (writeFrame frame).Tracks := by
  refine (tracks_expect _ _).bind fun _ => Act.tracks_get (fun _ => rfl) fun session => ?_
  refine (tracks_orFail ((tracks_headersFor _).bind fun headers => ?_)).bind fun converted => ?_
  · split
    · exact tracks_settle _
    · exact Act.tracks_refuse _
  · exact (Act.tracks_forM tracks_note).bind fun _ => tracks_accept _ _ _

theorem tracks_layIndex (headers : Headers) : (layIndex headers).Tracks := by
  refine Act.tracks_get (fun _ => rfl) fun session => ?_
  split
  · exact tracks_onRecording (Recording.tracks_writeIndex headers)
  · exact Act.tracks_pure _

theorem tracks_sumUp (pending : Nat) (indexed : Bool) : (sumUp pending indexed).Tracks := by
  refine (tracks_onRecording (Recording.tracks_onOutput Output.tracks_flush)).bind fun _ => ?_
  refine (tracks_note _).bind fun _ => ?_
  exact Act.tracks_get (fun _ => rfl) fun session => Act.tracks_pure _

theorem tracks_finish : finish.Tracks := by
  rw [finish_eq]
  refine Act.tracks_get (fun _ => rfl) fun session => ?_
  refine Act.Tracks.bind (Act.tracks_get (fun _ => rfl) fun _ => tracks_emitBy _ _) fun _ => ?_
  refine (tracks_headersFor _).bind fun headers => ?_
  exact (tracks_layIndex headers).bind fun indexed => tracks_sumUp _ indexed

theorem tracks_close : close.Tracks := by
  refine (tracks_expect _ _).bind fun _ => ?_
  refine Act.Tracks.bind (Act.tracks_modify (fun _ => rfl) fun _ => rfl) fun _ => ?_
  refine (tracks_orFail tracks_finish).bind fun summary => ?_
  refine Act.Tracks.bind (Act.tracks_modify (fun _ => rfl) fun _ => rfl) fun _ => ?_
  exact (tracks_note _).bind fun _ => Act.tracks_pure _

end Session

end NutContainer
