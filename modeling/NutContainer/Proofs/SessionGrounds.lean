import NutContainer.Proofs.SessionHistory
import NutContainer.Proofs.SteadyRecording

/-! What a session stands on, whatever was asked of it and however that ended: its headers are
those that some call's streams lead to, the frames that wait bring times that calls have brought,
and what any writing leaves of the file has been left of it. Nothing is said of the sink, so it
makes no difference whether it fails. These facts are kept by every single action, also by one that
breaks off or crashes. -/
namespace NutContainer

namespace Call

/-- The streams that the call names, if it names any. -/
def streams? : Call → Option (List StreamDescriptor)
  | writeHeaders streams => some streams
  | mux supply => supply.streams.toOption
  | _ => none

/-- Every time that the call brings is a 64-bit number. -/
def InRange : Call → Prop
  | writeFrame frame => Signed64.Fits frame.pts
  | accept _ pts _ => Signed64.Fits pts
  | mux supply => ∀ frame ∈ supply.frames, Signed64.Fits frame.pts
  | writeHeaders _ | close => True

end Call

namespace Session

/-- The session stands on one of these lists of streams, on times in range and on a file that is
laid down so far as it should be. -/
structure Grounded (plan : HeaderPlan) (named : List (List StreamDescriptor))
    (Laid : Recording → Prop) (session : Session) : Prop where
  planned : session.plan = plan
  derived : ∀ {headers : Headers}, session.headers = some headers →
    ∃ streams ∈ named, plan.build streams = .ok headers
  timed : ∀ frame ∈ session.buffer.frames, Signed64.Fits frame.pts
  laid : Laid session.recording

variable {plan : HeaderPlan} {named : List (List StreamDescriptor)} {before after : Session}
  {Laid : Recording → Prop} {α : Type}

theorem Grounded.mono (grounded : before.Grounded plan named Laid)
    {more : List (List StreamDescriptor)} (kept : ∀ streams ∈ named, streams ∈ more) :
    before.Grounded plan more Laid := by
  refine ⟨grounded.planned, fun known => ?_, grounded.timed, grounded.laid⟩
  obtain ⟨streams, member, built⟩ := grounded.derived known
  exact ⟨streams, kept streams member, built⟩

/-- With fewer frames, or with one more in range, a session stands on the same. -/
theorem Grounded.buffered (grounded : before.Grounded plan named Laid) {buffer : OrderingBuffer}
    (timed : ∀ frame ∈ buffer.frames, frame ∈ before.buffer.frames ∨ Signed64.Fits frame.pts) :
    Grounded plan named Laid { before with buffer } := by
  refine ⟨grounded.planned, grounded.derived, fun frame member => ?_, grounded.laid⟩
  rcases timed frame member with old | fits
  · exact grounded.timed frame old
  · exact fits

theorem keeps_onRecording {act : Act Recording α} (keeps : act.Keeps Laid) :
    (onRecording act).Keeps (Grounded plan named Laid) := by
  intro before grounded
  rw [comes_onRecording]
  apply (keeps before.recording grounded.laid).imp
  · exact fun _ _ laid => ⟨grounded.planned, grounded.derived, grounded.timed, laid⟩
  · exact fun _ _ laid => ⟨grounded.planned, grounded.derived, grounded.timed, laid⟩

theorem keeps_expect (phase : Phase) (operation : String) :
    (expect phase operation).Keeps (Grounded plan named Laid) := by
  intro before grounded
  rw [comes_expect]
  constructor
  · exact fun _ => grounded
  · exact fun _ => ⟨grounded.planned, grounded.derived, grounded.timed, grounded.laid⟩

theorem keeps_orFail {act : Act Session α} (keeps : act.Keeps (Grounded plan named Laid)) :
    (orFail act).Keeps (Grounded plan named Laid) := by
  intro before grounded
  rw [comes_orFail]
  apply (keeps before grounded).imp
  · exact fun _ _ still => still
  · rintro (fault | _) after still
    · exact ⟨still.planned, still.derived, still.timed, still.laid⟩
    · exact still

theorem keeps_settle (result : Except Failure α) :
    (settle result).Keeps (Grounded plan named Laid) := by
  cases result with
  | ok value => exact Act.keeps_pure value
  | error failure => exact Act.keeps_throw failure

theorem keeps_headersFor (operation : String) :
    (headersFor operation).Keeps (Grounded plan named Laid) := by
  intro before grounded
  unfold Act.Comes headersFor
  cases before.headers with
  | none => exact grounded
  | some headers => exact grounded

/-- What is popped has waited, and so has what is left. -/
def Shrinks (pop? : OrderingBuffer → Option (WaitingFrame × OrderingBuffer)) : Prop :=
  ∀ {buffer rest frame}, pop? buffer = some (frame, rest) →
    ∀ other ∈ frame :: rest.frames, other ∈ buffer.frames

theorem shrinks_popOldest? : Shrinks OrderingBuffer.popOldest? := by
  intro buffer rest frame popped other member
  obtain ⟨waiting, _⟩ := OrderingBuffer.popOldest?_some popped
  rwa [waiting]

theorem shrinks_popReady? : Shrinks OrderingBuffer.popReady? := by
  intro buffer rest frame popped other member
  obtain ⟨_, _, _, waiting, _⟩ := OrderingBuffer.popReady?_some popped
  rwa [waiting]

section
variable (stable : Recording.Stable Laid)
include stable

theorem keeps_note (notice : Notice) : (note notice).Keeps (Grounded plan named Laid) :=
  keeps_onRecording (stable.keeps_onOutput (Output.advances_note notice))

theorem keeps_remark (frame : WaitingFrame) : (remark frame).Keeps (Grounded plan named Laid) := by
  apply Act.keeps_get.bind
  intro session
  split
  · split
    · apply Act.Keeps.bind
      · exact Act.keeps_modify fun _ held => ⟨held.planned, held.derived, held.timed, held.laid⟩
      · exact fun _ => keeps_note stable _
    · exact Act.keeps_pure _
  · exact Act.keeps_pure _

theorem keeps_lay (headers : Headers) (frame : WaitingFrame) :
    (lay headers frame).Keeps (Grounded plan named Laid) := by
  unfold lay
  dsimp only
  split
  · exact Act.keeps_refuse _
  · apply (keeps_onRecording (stable.keeps_writeFrame _ _ _ _)).bind
    intro size
    exact Act.keeps_modify fun _ held => ⟨held.planned, held.derived, held.timed, held.laid⟩

theorem keeps_emit (frame : WaitingFrame) : (emit frame).Keeps (Grounded plan named Laid) := by
  rw [emit_eq]
  apply (keeps_headersFor _).bind
  intro headers
  exact (keeps_remark stable frame).bind fun _ => keeps_lay stable headers frame

theorem keeps_emitBy {pop? : OrderingBuffer → Option (WaitingFrame × OrderingBuffer)}
    (shrinks : Shrinks pop?) (count : Nat) : (emitBy pop? count).Keeps (Grounded plan named Laid) := by
  induction count with
  | zero => exact Act.keeps_pure _
  | succ count ih =>
    intro before grounded
    unfold emitBy
    rw [Act.comes_bind, Act.comes_get]
    cases popped : pop? before.buffer with
    | none => exact grounded
    | some next =>
      obtain ⟨frame, rest⟩ := next
      rw [Act.comes_bind, Act.comes_set]
      apply (keeps_emit stable frame).bind fun _ => ih
      exact grounded.buffered fun other member => .inl (shrinks popped other (by simp [member]))

theorem keeps_tick : tick.Keeps (Grounded plan named Laid) :=
  Act.keeps_get.bind fun _ => keeps_emitBy stable shrinks_popReady? _

theorem keeps_accept (stream : UInt32) {pts : Int} (payload : Bytes) (fits : Signed64.Fits pts) :
    (accept stream pts payload).Keeps (Grounded plan named Laid) := by
  apply (keeps_expect _ _).bind
  intro _
  apply keeps_orFail
  apply (keeps_headersFor _).bind
  intro headers
  apply (keeps_settle _).bind
  intro millis
  apply Act.Keeps.bind
  · apply Act.keeps_modify
    intro session held
    apply held.buffered
    intro frame member
    rcases List.mem_cons.mp ((WaitingFrame.insertInto_perm _ _).mem_iff.mp member) with rfl | old
    · exact .inr fits
    · exact .inl old
  · exact fun _ => keeps_tick stable

theorem keeps_writeFrame {frame : Frame} (fits : Signed64.Fits frame.pts) :
    (writeFrame frame).Keeps (Grounded plan named Laid) := by
  apply (keeps_expect _ _).bind
  intro _
  apply Act.keeps_get.bind
  intro session
  apply Act.Keeps.bind
  · apply keeps_orFail
    apply (keeps_headersFor _).bind
    intro headers
    split
    · exact keeps_settle _
    · exact Act.keeps_refuse _
  · intro converted
    apply (Act.keeps_forM fun notice _ => keeps_note stable notice).bind
    exact fun _ => keeps_accept stable _ _ fits

theorem keeps_finish : finish.Keeps (Grounded plan named Laid) := by
  rw [finish_eq]
  apply Act.keeps_get.bind
  intro session
  apply Act.Keeps.bind (Act.keeps_get.bind fun _ => keeps_emitBy stable shrinks_popOldest? _)
  intro _
  apply (keeps_headersFor _).bind
  intro headers
  apply Act.Keeps.bind
  · apply Act.keeps_get.bind
    intro session
    split
    · exact keeps_onRecording (stable.keeps_writeIndex headers)
    · exact Act.keeps_pure _
  · intro indexed
    apply (keeps_onRecording (stable.keeps_onOutput Output.advances_flush)).bind
    intro _
    apply (keeps_note stable _).bind
    intro _
    exact Act.keeps_get.bind fun _ => Act.keeps_pure _

theorem keeps_close : close.Keeps (Grounded plan named Laid) := by
  apply (keeps_expect _ _).bind
  intro _
  apply Act.Keeps.bind
  · exact Act.keeps_modify fun _ held => ⟨held.planned, held.derived, held.timed, held.laid⟩
  · intro _
    apply (keeps_orFail (keeps_finish stable)).bind
    intro summary
    apply Act.Keeps.bind
    · exact Act.keeps_modify fun _ held => ⟨held.planned, held.derived, held.timed, held.laid⟩
    · exact fun _ => (keeps_note stable _).bind fun _ => Act.keeps_pure _

/-- Only here do headers come in, and they are those of the streams that are named. -/
theorem keeps_writeHeaders {streams : List StreamDescriptor} (member : streams ∈ named) :
    (writeHeaders streams).Keeps (Grounded plan named Laid) := by
  apply (keeps_expect _ _).bind
  intro _ before grounded
  rw [Act.comes_bind, Act.comes_get, comes_orFail, Act.comes_bind]
  have planned : before.plan = plan := grounded.planned
  unfold Session.plan at planned
  rw [planned]
  cases built : plan.build streams with
  | error fault => exact ⟨grounded.planned, grounded.derived, grounded.timed, grounded.laid⟩
  | ok headers =>
    change Act.Comes (_ >>= _) _ _ before
    rw [Act.comes_bind]
    apply (keeps_onRecording (stable.keeps_writeHeaders headers _) before grounded).imp
    · intro _ middle still
      rw [Act.comes_modify]
      refine ⟨still.planned, fun known => ?_, still.timed, still.laid⟩
      cases known
      exact ⟨streams, member, built⟩
    · rintro (fault | _) middle still
      · exact ⟨still.planned, still.derived, still.timed, still.laid⟩
      · exact still

theorem keeps_mux {supply : FrameSupply}
    (member : ∀ streams, supply.streams.toOption = some streams → streams ∈ named)
    (inRange : ∀ frame ∈ supply.frames, Signed64.Fits frame.pts) :
    (mux supply).Keeps (Grounded plan named Laid) := by
  intro before grounded
  unfold mux
  rw [Act.comes_bind]
  cases stated : supply.streams with
  | error fault => exact grounded
  | ok streams =>
    have listed : streams ∈ named := member streams (by rw [stated]; rfl)
    have headed : (writeHeaders streams).Keeps (Grounded plan named Laid) :=
      keeps_writeHeaders stable listed
    refine headed.bind (fun _ => ?_) before grounded
    apply (Act.keeps_forM fun frame brought => keeps_writeFrame stable (inRange frame brought)).bind
    intro _
    split
    · exact Act.keeps_refuse _
    · exact keeps_close stable

end

/-- No call takes away what a session stands on. -/
theorem Grounded.call {call : Call} {outcome : Outcome}
    (grounded : before.Grounded plan named Laid) (stable : Recording.Stable Laid)
    (member : ∀ streams, call.streams? = some streams → streams ∈ named) (inRange : call.InRange)
    (called : before.call call = (outcome, after)) : after.Grounded plan named Laid := by
  have keeps : call.act.Keeps (Grounded plan named Laid) := by
    cases call with
    | writeHeaders streams =>
      exact (keeps_writeHeaders stable (member streams rfl)).bind fun _ => Act.keeps_pure _
    | writeFrame frame => exact (keeps_writeFrame stable inRange).bind fun _ => Act.keeps_pure _
    | accept stream pts payload =>
      exact (keeps_accept stable _ _ inRange).bind fun _ => Act.keeps_pure _
    | close => exact (keeps_close stable).map _
    | mux supply => exact (keeps_mux stable member inRange).map _
  cases outcome with
  | ok told => exact (keeps before grounded).ok (call_ok.mp called)
  | error failure => exact (keeps before grounded).error (call_error.mp called)

/-- Nor do calls made one after the other, whatever comes of them. -/
theorem Grounded.run {calls : List Call} {outcomes : List Outcome}
    (grounded : before.Grounded plan named Laid) (stable : Recording.Stable Laid)
    (member : ∀ call ∈ calls, ∀ streams, call.streams? = some streams → streams ∈ named)
    (inRange : ∀ call ∈ calls, call.InRange) (ran : before.run calls = (outcomes, after)) :
    after.Grounded plan named Laid := by
  induction calls generalizing before outcomes with
  | nil =>
    cases ran
    exact grounded
  | cons call others ih =>
    obtain ⟨outcome, middle, told, called, rest, rfl⟩ := run_cons ran
    have next := grounded.call stable (member call (by simp)) (inRange call (by simp)) called
    exact ih next (fun other listed => member other (by simp [listed]))
      (fun other listed => inRange other (by simp [listed])) rest

variable {format : ImageFormat} {options : Options} {policy : Sink.Policy} {initial : Session}

theorem grounded_start (stable : Recording.Stable Laid)
    (started : start format options policy = .ok initial) : initial.Grounded initial.plan [] Laid := by
  obtain ⟨_, rfl⟩ := start_ok.mp started
  exact ⟨rfl, nofun, nofun, stable.fresh 0 _⟩

/-- After any calls, a session stands on the streams that they named, and its sync points do not
fall. -/
theorem History.grounded {past : List (Call × Outcome)}
    (started : start format options policy = .ok initial) (history : History initial past after)
    (inRange : ∀ entry ∈ past, entry.1.InRange) :
    after.Grounded initial.plan (past.filterMap (·.1.streams?)) (·.ledger.Rises) := by
  induction history with
  | new => exact grounded_start Recording.stable_rises started
  | @call past before after outcome history output call called back ih =>
    have held := ih fun entry member => inRange entry (List.mem_append_left _ member)
    have moved : (before.onto output).Grounded initial.plan (past.filterMap (·.1.streams?))
        (·.ledger.Rises) := ⟨held.planned, held.derived, held.timed, held.laid⟩
    rw [List.filterMap_append]
    apply (moved.mono fun streams => List.mem_append_left _).call Recording.stable_rises _ _ called
    · intro streams stated
      simp [stated]
    · exact inRange (call, outcome) (by simp)

end Session

end NutContainer
