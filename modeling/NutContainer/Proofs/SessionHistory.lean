import NutContainer.Proofs.SessionEndings

/-! What a call can come to, and what a session is between calls. A call is out of turn,
is refused for what it brings, breaks on its sink or goes well; in each case it is known
how the session is left, and in each case it is left consistent: not in the middle of
closing, with frames that can be written as long as it accepts any, and with none that
wait before it opens and after it has closed. Making a whole file from a supply is not one
call but many, so the ways in which it can stop are listed apart.

A history is any list of calls with any ending of each. Its output may be exchanged
between calls, since the caller owns it. -/
namespace NutContainer

/-- A call out of turn ends a session that is not closed. -/
theorem Phase.afterMisuse_eq {phase : Phase} (unclosed : phase ≠ .closed) :
    phase.afterMisuse = .failed := by
  cases phase <;> simp_all [afterMisuse]

namespace Call

/-- The call asks one thing of a session and draws on no supply. -/
def isSingle : Call → Bool
  | mux _ => false
  | _ => true

theorem isSingle_or_mux (call : Call) : call.isSingle ∨ ∃ supply, call = .mux supply := by
  cases call with
  | mux supply => exact .inr ⟨supply, rfl⟩
  | _ => exact .inl rfl

/-- The phase in which the call is in turn. A supply begins with headers. -/
def turn : Call → Phase
  | writeHeaders _ | mux _ => .created
  | writeFrame _ | accept .. | close => .accepting

theorem turn_ne_closed (call : Call) : call.turn ≠ .closed := by
  cases call <;> simp [turn]

/-- The phase that the call leads to when it goes well. -/
def leads : Call → Phase
  | writeHeaders _ | writeFrame _ | accept .. => .accepting
  | close | mux _ => .closed

/-- What the call is named in a fault. -/
def operation : Call → String
  | writeHeaders _ | mux _ => "write_header"
  | writeFrame _ => "write_frame"
  | accept .. => "admit"
  | close => "close"

/-- The fault is that of the session's picture coding, which may refuse a picture for any
reason of its own. -/
def RefusedByCoding (session : Session) (fault : Fault) : Call → Prop
  | writeFrame frame =>
    ∃ picture, frame.payload = .image picture ∧
      session.converter.format.encode picture = .error fault
  | _ => False

end Call

namespace Session

/-- What holds of a session between calls. -/
structure Consistent (session : Session) : Prop where
  settled : session.phase ≠ .closing
  ready : session.phase = .accepting → session.Ready
  empty : session.phase = .created ∨ session.phase = .closed → session.buffer.frames = []

/-- What can come of a call on a session. -/
inductive Answered (call : Call) (before : Session) : Outcome → Session → Prop where
  /-- The call is out of turn. -/
  | misplaced (turn : before.phase ≠ call.turn) :
    Answered call before (.error (.refused (.wrongPhase call.operation before.phase.name)))
      { before with phase := before.phase.afterMisuse }
  /-- What the call brings is refused, and nothing is changed. -/
  | refused {fault : Fault} {after : Session} (turn : before.phase = call.turn)
    (failed : after.phase = .failed) (untouched : before.Untouched after)
    (cause : fault.category = .validation ∨ fault.category = .conversion ∨
      call.RefusedByCoding before fault) : Answered call before (.error (.refused fault)) after
  /-- The sink fails. -/
  | broken {fault : Fault} {after : Session} (turn : before.phase = call.turn)
    (failed : after.phase = .failed) (sink : fault.category = .output) :
    Answered call before (.error (.refused fault)) after
  /-- A number leaves its word. -/
  | crashed {after : Session} (turn : before.phase = call.turn) :
    Answered call before (.error .crash) after
  | done {told : Option Summary} {after : Session} (turn : before.phase = call.turn)
    (phase : after.phase = call.leads) (consistent : after.Consistent) :
    Answered call before (.ok told) after

variable {before after : Session} {call : Call} {outcome : Outcome}

theorem call_of_outcome (answer : (before.call call).1 = outcome) :
    before.call call = (outcome, (before.call call).2) := Prod.ext answer rfl

theorem run_of_outcomes {calls : List Call} {outcomes : List Outcome}
    (told : (before.run calls).1 = outcomes) :
    before.run calls = (outcomes, (before.run calls).2) := Prod.ext told rfl

theorem run_cons {calls : List Call} {outcomes : List Outcome}
    (ran : before.run (call :: calls) = (outcomes, after)) :
    ∃ outcome middle others, before.call call = (outcome, middle) ∧
      middle.run calls = (others, after) ∧ outcomes = outcome :: others := by
  rcases called : before.call call with ⟨outcome, middle⟩
  rcases rest : middle.run calls with ⟨others, last⟩
  simp only [run, called, rest] at ran
  cases ran
  exact ⟨outcome, middle, others, rfl, rest, rfl⟩

theorem call_error {failure : Failure} :
    before.call call = (.error failure, after) ↔ call.act before = .error failure after := by
  unfold Session.call
  cases ran : call.act before with
  | ok value middle => simp
  | error failure middle => simp

/-- A call out of turn is refused for that, whatever it brings. -/
theorem call_of_misplaced (single : call.isSingle) (turn : before.phase ≠ call.turn) :
    before.call call = (.error (.refused (.wrongPhase call.operation before.phase.name)),
      { before with phase := before.phase.afterMisuse }) := by
  cases call with
  | writeHeaders _ => exact call_error.mpr (Act.bind_of_error (Act.bind_of_error (if_neg turn)))
  | writeFrame _ => exact call_error.mpr (Act.bind_of_error (Act.bind_of_error (if_neg turn)))
  | accept _ _ _ => exact call_error.mpr (Act.bind_of_error (Act.bind_of_error (if_neg turn)))
  | close => exact call_error.mpr (Act.map_of_error (Act.bind_of_error (if_neg turn)))
  | mux supply => cases single

/-- A call in turn that does not crash is answered as it ends. -/
private theorem answered_of_ends (turn : before.phase = call.turn)
    (called : before.call call = (outcome, after))
    (ends : call.act.Ends (fun told after => Answered call before (.ok told) after)
      (fun fault after => Answered call before (.error (.refused fault)) after) before) :
    Answered call before outcome after := by
  match outcome with
  | .ok told => exact ends.ok (call_ok.mp called)
  | .error (.refused fault) => exact ends.error (call_error.mp called)
  | .error .crash => exact .crashed turn

private theorem consistent_of_ready (phase : before.phase = .accepting) (ready : before.Ready) :
    before.Consistent := by
  refine ⟨by simp [phase], fun _ => ready, ?_⟩
  rintro (created | closed)
  · cases phase.symm.trans created
  · cases phase.symm.trans closed

private theorem consistent_of_failed (failed : before.phase = .failed) : before.Consistent :=
  ⟨by simp [failed], by simp [failed], by simp [failed]⟩

/-- Every call that asks one thing is answered in one of these ways. -/
theorem Consistent.answered (consistent : before.Consistent) (single : call.isSingle)
    (called : before.call call = (outcome, after)) : Answered call before outcome after := by
  by_cases turn : before.phase = call.turn
  · refine answered_of_ends turn called ?_
    cases call with
    | writeHeaders streams =>
      have empty := consistent.empty (.inl turn)
      refine Act.ends_bind.mpr ((writeHeaders_ends turn empty).imp ?_ ?_)
      · rintro _ after ⟨phase, ready⟩
        exact .done turn phase (consistent_of_ready phase ready)
      · rintro fault after ⟨failed, sink | ⟨untouched, validation⟩⟩
        · exact .broken turn failed sink
        · exact .refused turn failed untouched (.inl validation)
    | writeFrame frame =>
      refine Act.ends_bind.mpr ((writeFrame_ends turn (consistent.ready turn)).imp ?_ ?_)
      · rintro _ after ⟨phase, ready⟩
        exact .done turn phase (consistent_of_ready phase ready)
      · rintro fault after ⟨failed, sink | ⟨untouched, cause⟩⟩
        · exact .broken turn failed sink
        · exact .refused turn failed untouched (.inr cause)
    | accept stream pts payload =>
      refine Act.ends_bind.mpr ((accept_ends turn (consistent.ready turn)).imp ?_ ?_)
      · rintro _ after ⟨phase, ready⟩
        exact .done turn phase (consistent_of_ready phase ready)
      · rintro fault after ⟨failed, sink | ⟨conversion, untouched⟩⟩
        · exact .broken turn failed sink
        · exact .refused turn failed untouched (.inr (.inl conversion))
    | close =>
      refine Act.ends_map.mpr ((close_ends turn (consistent.ready turn)).imp ?_ ?_)
      · rintro _ after ⟨phase, empty⟩
        exact .done turn phase ⟨by simp [phase], by simp [phase], fun _ => empty⟩
      · rintro fault after ⟨failed, sink⟩
        exact .broken turn failed sink
    | mux supply => cases single
  · rw [call_of_misplaced single turn] at called
    cases called
    exact .misplaced turn

private theorem Consistent.misused (consistent : before.Consistent) :
    Consistent { before with phase := before.phase.afterMisuse } := by
  by_cases closed : before.phase = .closed
  · simpa [closed, Phase.afterMisuse] using ⟨by simp, by simp, fun _ => consistent.empty (.inr closed)⟩
  · exact consistent_of_failed (Phase.afterMisuse_eq closed)

/-- A call that comes back leaves a session as one is between calls. -/
theorem Answered.consistent (answered : Answered call before outcome after)
    (back : outcome ≠ .error .crash) (consistent : before.Consistent) : after.Consistent := by
  cases answered with
  | crashed turn => exact absurd rfl back
  | misplaced turn => exact consistent.misused
  | refused turn failed => exact consistent_of_failed failed
  | broken turn failed => exact consistent_of_failed failed
  | done turn phase consistent => exact consistent

/-- A call that is refused ends the session, unless it has been closed. -/
theorem Answered.phase_of_refused {fault : Fault}
    (answered : Answered call before (.error (.refused fault)) after) :
    before.phase ≠ .closed ∧ after.phase = .failed ∨
      before.phase = .closed ∧ after.phase = .closed := by
  cases answered with
  | misplaced turn =>
    by_cases closed : before.phase = .closed
    · exact .inr ⟨closed, by simp [closed, Phase.afterMisuse]⟩
    · exact .inl ⟨closed, Phase.afterMisuse_eq closed⟩
  | refused turn failed => exact .inl ⟨turn ▸ call.turn_ne_closed, failed⟩
  | broken turn failed => exact .inl ⟨turn ▸ call.turn_ne_closed, failed⟩

/-- A call in turn is never refused as out of turn, but by the words of a picture coding. -/
theorem Answered.coding_of_wrongPhase {operation phase : String}
    (answered : Answered call before (.error (.refused (.wrongPhase operation phase))) after)
    (turn : before.phase = call.turn) : call.RefusedByCoding before (.wrongPhase operation phase) := by
  cases answered with
  | misplaced other => exact absurd turn other
  | refused _ _ _ cause =>
    rcases cause with validation | conversion | coding
    · cases validation
    · cases conversion
    · exact coding
  | broken _ _ sink => cases sink

theorem misused_of_ended (ended : before.phase = .failed ∨ before.phase = .closed) :
    { before with phase := before.phase.afterMisuse } = before := by
  obtain ⟨converter, options, phase, headers, buffer, recording, lastMillis, late⟩ := before
  rcases ended with rfl | rfl
  · rfl
  · rfl

/-- A session that has ended refuses every call and stays as it is. -/
theorem call_of_ended (single : call.isSingle)
    (ended : before.phase = .failed ∨ before.phase = .closed) :
    before.call call =
      (.error (.refused (.wrongPhase call.operation before.phase.name)), before) := by
  have early : before.phase ≠ call.turn := by
    intro turn
    rw [turn] at ended
    cases call <;> simp [Call.turn] at ended
  rw [call_of_misplaced single early, misused_of_ended ended]

/-- How making a whole file from a supply can fail. -/
inductive Stopped (supply : FrameSupply) (before : Session) (fault : Fault) : Session → Prop where
  /-- The supply does not name its streams. -/
  | unnamed (refused : supply.streams = .error fault) : Stopped supply before fault before
  /-- The supply breaks off behind its frames, all of which are taken in. -/
  | brokenOff {streams : List StreamDescriptor} {after : Session}
    (named : supply.streams = .ok streams) (ending : supply.ending = some fault)
    (turn : before.phase = .created)
    (taken : GoesWell before (.writeHeaders streams :: supply.frames.map .writeFrame) after)
    (phase : after.phase = .accepting) (ready : after.Ready) : Stopped supply before fault after
  /-- The session is not a new one. -/
  | misplaced {streams : List StreamDescriptor} (named : supply.streams = .ok streams)
    (turn : before.phase ≠ .created) (same : fault = .wrongPhase "write_header" before.phase.name) :
    Stopped supply before fault { before with phase := before.phase.afterMisuse }
  /-- A call fails. -/
  | failed {streams : List StreamDescriptor} {after : Session}
    (named : supply.streams = .ok streams) (turn : before.phase = .created)
    (failed : after.phase = .failed) : Stopped supply before fault after

private theorem writeFrames_ends {frames : List Frame} (turn : before.phase = .accepting)
    (ready : before.Ready) : (frames.forM writeFrame).Ends
      (fun _ after => GoesWell before (frames.map .writeFrame) after ∧
        after.phase = .accepting ∧ after.Ready)
      (fun _ after => after.phase = .failed) before := by
  induction frames generalizing before with
  | nil => exact ⟨rfl, turn, ready⟩
  | cons frame others ih =>
    change Act.Ends (writeFrame frame >>= fun _ => others.forM writeFrame) _ _ before
    rw [Act.ends_bind]
    refine (writeFrame_ends turn ready).ran.imp ?_ fun _ _ ended => ended.2.1
    rintro value middle ⟨ran, phase, ready⟩
    have called : before.call (.writeFrame frame) = (.ok none, middle) :=
      call_ok.mpr (Act.bind_ok.mpr ⟨value, middle, ran, rfl⟩)
    refine (ih phase ready).imp ?_ fun _ _ failed => failed
    rintro _ after ⟨taken, rest⟩
    exact ⟨goesWell_cons.mpr ⟨middle, called, taken⟩, rest⟩

/-- A file is made whole, or making it stops in one of these ways. -/
theorem mux_ends (supply : FrameSupply) (consistent : before.Consistent) :
    (mux supply).Ends (fun _ after => before.phase = .created ∧ after.phase = .closed ∧
        after.buffer.frames = [])
      (fun fault after => Stopped supply before fault after) before := by
  unfold mux
  rw [Act.ends_bind, ends_settle_ofRefusal]
  refine ⟨fun streams named => ?_, fun fault refused => .unnamed refused⟩
  rw [Act.ends_bind]
  by_cases turn : before.phase = .created
  · refine (writeHeaders_ends turn (consistent.empty (.inl turn))).ran.imp ?_
      fun _ _ ended => .failed named turn ended.2.1
    rintro value opened ⟨ran, phase, ready⟩
    have called : before.call (.writeHeaders streams) = (.ok none, opened) :=
      call_ok.mpr (Act.bind_ok.mpr ⟨value, opened, ran, rfl⟩)
    rw [Act.ends_bind]
    refine (writeFrames_ends phase ready).imp ?_ fun _ _ failed => .failed named turn failed
    rintro _ fed ⟨taken, phase, ready⟩
    cases ending : supply.ending with
    | some fault =>
      exact Act.ends_refuse.mpr
        (.brokenOff named ending turn (goesWell_cons.mpr ⟨opened, called, taken⟩) phase ready)
    | none =>
      refine (close_ends phase ready).imp (fun _ _ closed => ⟨turn, closed⟩) ?_
      rintro fault after ⟨failed, _⟩
      exact .failed named turn failed
  · exact Act.ends_bind.mpr (ends_expect.mpr
      ⟨fun same => absurd same turn, fun _ => .misplaced named turn rfl⟩)

/-- A mux that is through has begun a session and closed it. -/
theorem Consistent.through {supply : FrameSupply} {told : Option Summary}
    (consistent : before.Consistent) (called : before.call (.mux supply) = (.ok told, after)) :
    before.phase = .created ∧ after.phase = .closed ∧ after.buffer.frames = [] := by
  obtain ⟨summary, ran, _⟩ := Act.map_ok.mp (call_ok.mp called)
  exact (mux_ends supply consistent).ok ran

/-- A mux that is not through has stopped in one of these ways. -/
theorem Consistent.stopped {supply : FrameSupply} {fault : Fault} (consistent : before.Consistent)
    (called : before.call (.mux supply) = (.error (.refused fault), after)) :
    Stopped supply before fault after := by
  have ends : (Call.mux supply).act.Ends (fun _ _ => True)
      (fun fault after => Stopped supply before fault after) before :=
    Act.ends_map.mpr ((mux_ends supply consistent).imp (fun _ _ _ => trivial) fun _ _ stop => stop)
  exact ends.error (call_error.mp called)

/-- A supply that names its streams is refused by a session that is not new. -/
theorem mux_of_old {supply : FrameSupply} {streams : List StreamDescriptor}
    (old : before.phase ≠ .created) (named : supply.streams = .ok streams) :
    before.call (.mux supply) = (.error (.refused (.wrongPhase "write_header" before.phase.name)),
      { before with phase := before.phase.afterMisuse }) := by
  refine call_error.mpr (Act.map_of_error ?_)
  unfold mux
  rw [named]
  exact (Act.bind_of_ok rfl).trans (Act.bind_of_error (Act.bind_of_error (if_neg old)))

/-- A supply that names its streams is refused, too, by a session that has ended. -/
theorem refused_of_ended (ended : before.phase = .failed ∨ before.phase = .closed)
    (named : ∀ supply, call = .mux supply → ∃ streams, supply.streams = .ok streams)
    (called : before.call call = (outcome, after)) :
    (∃ operation, outcome = .error (.refused (.wrongPhase operation before.phase.name))) ∧
      after = before := by
  rcases call.isSingle_or_mux with single | ⟨supply, rfl⟩
  · rw [call_of_ended single ended] at called
    cases called
    exact ⟨⟨_, rfl⟩, rfl⟩
  · obtain ⟨streams, named⟩ := named supply rfl
    have old : before.phase ≠ .created := by rcases ended with ended | ended <;> simp [ended]
    rw [mux_of_old old named, misused_of_ended ended] at called
    cases called
    exact ⟨⟨_, rfl⟩, rfl⟩

/-- Any call that comes back leaves a session as one is between calls. -/
theorem Consistent.kept (consistent : before.Consistent) (back : outcome ≠ .error .crash)
    (called : before.call call = (outcome, after)) : after.Consistent := by
  rcases call.isSingle_or_mux with single | ⟨supply, rfl⟩
  · exact (consistent.answered single called).consistent back consistent
  · match outcome with
    | .ok told =>
      obtain ⟨_, phase, empty⟩ := consistent.through called
      exact ⟨by simp [phase], by simp [phase], fun _ => empty⟩
    | .error .crash => exact absurd rfl back
    | .error (.refused fault) =>
      cases consistent.stopped called with
      | unnamed refused => exact consistent
      | brokenOff named ending turn taken phase ready => exact consistent_of_ready phase ready
      | misplaced named turn same => exact consistent.misused
      | failed named turn failed => exact consistent_of_failed failed

/-- What calls have made of a session and what came of each of them. The output is an
argument of every call, so it may be another one each time. A call that crashes does not
come back, so nothing is called behind it. -/
inductive History (initial : Session) : List (Call × Outcome) → Session → Prop where
  | new : History initial [] initial
  | call {past : List (Call × Outcome)} {before after : Session} {outcome : Outcome}
    (history : History initial past before) (output : Output) (call : Call)
    (called : (before.onto output).call call = (outcome, after))
    (back : outcome ≠ .error .crash) :
    History initial (past ++ [(call, outcome)]) after

variable {initial : Session} {past : List (Call × Outcome)}

/-- Calls made one after the other on one output are a history. -/
theorem History.run {calls : List Call} {outcomes : List Outcome}
    (history : History initial past before) (ran : before.run calls = (outcomes, after))
    (back : .error .crash ∉ outcomes) :
    History initial (past ++ calls.zip outcomes) after := by
  induction calls generalizing past before outcomes with
  | nil =>
    cases ran
    simpa using history
  | cons call others ih =>
    obtain ⟨outcome, middle, told, called, rest, rfl⟩ := run_cons ran
    rw [List.mem_cons, not_or] at back
    have next := ih (history.call before.recording.output call called (Ne.symm back.1)) rest back.2
    simpa using next

theorem Consistent.onto (consistent : before.Consistent) (output : Output) :
    (before.onto output).Consistent :=
  ⟨consistent.settled, consistent.ready, consistent.empty⟩

/-- A session is consistent after any calls. -/
theorem History.consistent {format : ImageFormat} {options : Options} {policy : Sink.Policy}
    (started : start format options policy = .ok initial)
    (history : History initial past after) : after.Consistent := by
  induction history with
  | new =>
    obtain ⟨_, rfl⟩ := start_ok.mp started
    exact ⟨by simp [fresh], by simp [fresh], fun _ => rfl⟩
  | call history output call called back ih => exact (ih.onto output).kept back called

end Session

end NutContainer
