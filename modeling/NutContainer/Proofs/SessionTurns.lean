import NutContainer.Proofs.SessionHistory
import NutContainer.Proofs.SessionOutput

/-! What a session allows, over all histories of calls. Calls that go well come in one
order: headers, frames, the end. A call that fails ends the session, and one that is
refused for any reason but its sink has changed nothing that matters to the file. A supply
is the exception to the rule that a fault ends the session: its own faults are passed on,
and a session whose supply breaks off still takes frames. -/
namespace NutContainer

/-- The call brings a frame. -/
def Call.feeds : Call → Bool
  | writeFrame _ | accept .. => true
  | _ => false

namespace Session

/-- The calls that went well, in order. -/
def successes (past : List (Call × Outcome)) : List Call :=
  (past.filter (·.2.isOk)).map (·.1)

/-- What has gone well while a session has come to a phase. -/
def Stage (made : List Call) : Phase → Prop
  | .created => made = []
  | .accepting => ∃ streams feeds, (∀ call ∈ feeds, call.feeds) ∧ made = .writeHeaders streams :: feeds
  | .closed => ∃ streams feeds, (∀ call ∈ feeds, call.feeds) ∧
      made = .writeHeaders streams :: feeds ++ [.close]
  | .closing => False
  | .failed => made = [] ∨ ∃ streams feeds, (∀ call ∈ feeds, call.feeds) ∧
      made = .writeHeaders streams :: feeds

variable {format : ImageFormat} {options : Options} {policy : Sink.Policy}
  {initial session after : Session} {past : List (Call × Outcome)} {call : Call} {outcome : Outcome}

private theorem Stage.broken {made : List Call} {phase : Phase} (stage : Stage made phase)
    (unclosed : phase ≠ .closed) : Stage made .failed := by
  cases phase with
  | created => exact .inl stage
  | accepting => exact .inr stage
  | closing => exact stage.elim
  | closed => exact absurd rfl unclosed
  | failed => exact stage

private theorem Stage.fed {made : List Call} (stage : Stage made .accepting)
    (feeds : call.feeds) : Stage (made ++ [call]) .accepting := by
  obtain ⟨streams, fed, each, rfl⟩ := stage
  refine ⟨streams, fed ++ [call], ?_, by simp⟩
  intro other member
  rcases List.mem_append.mp member with member | member
  · exact each other member
  · cases List.mem_singleton.mp member
    exact feeds

/-- Whatever the phase, what has gone well is headers, then frames, then one end. -/
theorem Stage.order {made : List Call} {phase : Phase} (stage : Stage made phase) :
    made = [] ∨ ∃ streams feeds, (∀ call ∈ feeds, call.feeds) ∧
      (made = .writeHeaders streams :: feeds ∨ made = .writeHeaders streams :: feeds ++ [.close]) := by
  cases phase with
  | created => exact .inl stage
  | accepting =>
    obtain ⟨streams, feeds, each, made⟩ := stage
    exact .inr ⟨streams, feeds, each, .inl made⟩
  | closing => exact stage.elim
  | closed =>
    obtain ⟨streams, feeds, each, made⟩ := stage
    exact .inr ⟨streams, feeds, each, .inr made⟩
  | failed =>
    rcases stage with none | ⟨streams, feeds, each, made⟩
    · exact .inl none
    · exact .inr ⟨streams, feeds, each, .inl made⟩

/-- A call that is refused adds nothing to what has gone well. -/
private theorem Answered.stage_of_refused {made : List Call} {fault : Fault}
    (answered : Answered call session (.error (.refused fault)) after)
    (stage : Stage made session.phase) :
    Stage made after.phase := by
  rcases answered.phase_of_refused with ⟨unclosed, failed⟩ | ⟨closed, same⟩
  · rw [failed]
    exact stage.broken unclosed
  · rwa [same, ← closed]

/-- A call that goes well comes next in the order of calls. -/
private theorem Answered.stage_of_ok {made : List Call} {told : Option Summary}
    (single : call.isSingle) (answered : Answered call session (.ok told) after)
    (stage : Stage made session.phase) : Stage (made ++ [call]) after.phase := by
  cases answered with
  | done turn phase =>
    rw [phase]
    rw [turn] at stage
    cases call with
    | writeHeaders streams =>
      cases stage
      exact ⟨streams, [], by simp, rfl⟩
    | writeFrame frame => exact Stage.fed stage rfl
    | accept stream pts payload => exact Stage.fed stage rfl
    | close =>
      obtain ⟨streams, feeds, each, rfl⟩ := stage
      exact ⟨streams, feeds, each, rfl⟩
    | mux supply => cases single

theorem History.stage (started : start format options policy = .ok initial)
    (history : History initial past session) (single : ∀ entry ∈ past, entry.1.isSingle) :
    Stage (successes past) session.phase := by
  induction history with
  | new =>
    obtain ⟨_, rfl⟩ := start_ok.mp started
    rfl
  | @call past before after outcome history output call called back ih =>
    have earlier := ih fun entry member => single entry (by simp [member])
    have single := single (call, outcome) (by simp)
    have answered := ((history.consistent started).onto output).answered single called
    match outcome with
    | .error .crash => exact absurd rfl back
    | .error (.refused fault) =>
      have same : successes (past ++ [(call, .error (.refused fault))]) = successes past := by
        simp [successes, Except.isOk, Except.toBool]
      rw [same]
      exact answered.stage_of_refused earlier
    | .ok told =>
      have more : successes (past ++ [(call, .ok told)]) = successes past ++ [call] := by
        simp [successes, Except.isOk, Except.toBool]
      rw [more]
      exact answered.stage_of_ok single earlier

/-- Calls take turns. What goes well is one writing of headers, then frames, then one
close, and nothing else. A call that fails ends the session; from there on, and when the
file is closed, every call is refused and changes nothing. An accepting session has its
headers and a closed one has no frame left, and no call that is in turn is ever refused as
out of turn, unless a picture coding of the user's says so. -/
theorem calls_take_turns (started : start format options policy = .ok initial)
    (history : History initial past session) (single : ∀ entry ∈ past, entry.1.isSingle) :
    (successes past = [] ∨ ∃ streams feeds, (∀ call ∈ feeds, call.feeds) ∧
      (successes past = .writeHeaders streams :: feeds ∨
        successes past = .writeHeaders streams :: feeds ++ [.close])) ∧
    session.phase ≠ .closing ∧
    (session.phase = .accepting → session.headers.isSome) ∧
    (session.phase = .closed → session.buffer.frames = []) ∧
    ∀ output call outcome after, call.isSingle →
      (session.onto output).call call = (outcome, after) →
      (∀ fault, outcome = .error (.refused fault) →
        after.phase = .failed ∨ session.phase = .closed ∧ after.phase = .closed) ∧
      (session.phase = .failed ∨ session.phase = .closed →
        outcome = .error (.refused (.wrongPhase call.operation session.phase.name)) ∧
          after = session.onto output) ∧
      (∀ operation phase, session.phase = call.turn →
        outcome = .error (.refused (.wrongPhase operation phase)) →
          call.RefusedByCoding session (.wrongPhase operation phase)) := by
  have consistent := history.consistent started
  refine ⟨(history.stage started single).order, consistent.settled, ?_,
    fun closed => consistent.empty (.inr closed), ?_⟩
  · intro accepting
    obtain ⟨headers, known, _⟩ := consistent.ready accepting
    simp [known]
  · intro output call outcome after single called
    have answered := (consistent.onto output).answered single called
    refine ⟨?_, fun ended => ?_, ?_⟩
    · rintro fault rfl
      exact answered.phase_of_refused.imp And.right id
    · have ended : (session.onto output).phase = .failed ∨ (session.onto output).phase = .closed :=
        ended
      rw [call_of_ended single ended] at called
      cases called
      exact ⟨rfl, rfl⟩
    · rintro operation phase turn rfl
      have coding := answered.coding_of_wrongPhase turn
      cases call <;> exact coding

private theorem sample_started :
    start (.packed .bgr24) { windowMillis := 10 } .memory = .ok sample :=
  start_ok.mpr ⟨rfl, rfl⟩

theorem calls_take_turns_sample :
    ∃ final, sample.Completes sampleStreams sampleFeeds sampleSummary final ∧
      final.buffer.frames = [] ∧
        final.call .close = (.error (.refused (.wrongPhase "close" "closed")), final) := by
  obtain ⟨final, completes, closed⟩ : ∃ final,
      sample.Completes sampleStreams sampleFeeds sampleSummary final ∧ final.phase = .closed :=
    ⟨_, completes_run (by decide +kernel), by decide +kernel⟩
  obtain ⟨_, _, _, empty, refuses⟩ :=
    calls_take_turns sample_started (History.new.run completes (by decide)) (by decide)
  obtain ⟨_, refused, _⟩ :=
    refuses final.recording.output .close _ _ rfl (call_of_outcome rfl)
  obtain ⟨outcome, same⟩ := refused (.inr closed)
  rw [closed] at outcome
  exact ⟨final, completes, empty closed, Prod.ext outcome same⟩

/-- A call that is refused for any reason but its sink leaves the sink, the waiting
frames, the high-water mark and the books of the file as they are. -/
theorem refused_call_changes_nothing (started : start format options policy = .ok initial)
    (history : History initial past session) (output : Output) (single : call.isSingle)
    {fault : Fault} (called : (session.onto output).call call = (.error (.refused fault), after))
    (kind : fault.category ≠ .output) :
    after.recording.output.sink = output.sink ∧
    after.buffer = session.buffer ∧
    after.recording.ledger = session.recording.ledger ∧
    after.headers = session.headers ∧
    after.lastMillis = session.lastMillis ∧
    after.late = session.late := by
  have consistent := (history.consistent started).onto output
  cases consistent.answered single called with
  | misplaced turn => exact ⟨rfl, rfl, rfl, rfl, rfl, rfl⟩
  | refused turn failed untouched cause =>
    obtain ⟨phase, journal, rfl⟩ := untouched
    exact ⟨rfl, rfl, rfl, rfl, rfl, rfl⟩
  | broken turn failed sink => exact absurd sink kind

theorem refused_call_changes_nothing_sample :
    ∃ reached, sample.Opens sampleStreams sampleFeeds reached ∧ reached.buffer.size = 1 ∧
      ∃ after, reached.call (.accept 9 0 []) = (.error (.refused (.unknownStream 9)), after) ∧
        after.recording.output.sink = reached.recording.output.sink ∧
        after.buffer = reached.buffer := by
  obtain ⟨reached, opens, waiting, refused⟩ : ∃ reached,
      sample.Opens sampleStreams sampleFeeds reached ∧ reached.buffer.size = 1 ∧
        (reached.call (.accept 9 0 [])).1 = .error (.refused (.unknownStream 9)) :=
    ⟨_, opens_run (by decide +kernel), by decide +kernel, by decide +kernel⟩
  have called := call_of_outcome refused
  obtain ⟨sink, buffer, _⟩ := refused_call_changes_nothing sample_started
    (History.new.run opens (by decide)) reached.recording.output rfl called (by decide)
  exact ⟨reached, opens, waiting, _, called, sink, buffer⟩

/-- Every call is refused and changes nothing. A supply that does not name its streams never
comes to the session, so it is left out. -/
def RefusesAll (session : Session) : Prop :=
  ∀ output call outcome after,
    (∀ supply, call = .mux supply → ∃ streams, supply.streams = .ok streams) →
    (session.onto output).call call = (outcome, after) →
      (∃ operation, outcome = .error (.refused (.wrongPhase operation session.phase.name))) ∧
        after = session.onto output

theorem refusesAll_of_ended (ended : session.phase = .failed ∨ session.phase = .closed) :
    session.RefusesAll := by
  intro output call outcome after named made
  have ended : (session.onto output).phase = .failed ∨ (session.onto output).phase = .closed := ended
  exact refused_of_ended ended named made

/-- A mux that fails through a call of its own ends the session for good. A fault of the
supply itself is passed on instead: a session that was refused its streams is as it was,
and one whose supply breaks off stays open with all frames taken in. -/
theorem failed_mux_ends_session_or_supply_failed
    (started : start format options policy = .ok initial)
    (history : History initial past session) (output : Output) {supply : FrameSupply}
    {fault : Fault}
    (called : (session.onto output).call (.mux supply) = (.error (.refused fault), after)) :
    supply.streams = .error fault ∧ after = session.onto output ∨
    (∃ streams, supply.streams = .ok streams ∧ supply.ending = some fault ∧
      GoesWell (session.onto output) (.writeHeaders streams :: supply.frames.map .writeFrame) after ∧
      after.phase = .accepting) ∨
    (after.phase = .failed ∨ session.phase = .closed ∧ after = session.onto output) ∧
      after.RefusesAll := by
  have consistent := (history.consistent started).onto output
  cases consistent.stopped called with
  | unnamed refused => exact .inl ⟨refused, rfl⟩
  | brokenOff named ending turn taken phase ready =>
    exact .inr (.inl ⟨_, named, ending, taken, phase⟩)
  | misplaced named turn same =>
    by_cases closed : session.phase = .closed
    · have same := misused_of_ended (.inr closed : (session.onto output).phase = .failed ∨ _)
      rw [same]
      exact .inr (.inr ⟨.inr ⟨closed, rfl⟩, refusesAll_of_ended (.inr closed)⟩)
    · have failed := Phase.afterMisuse_eq closed
      exact .inr (.inr ⟨.inl failed, refusesAll_of_ended (.inl failed)⟩)
  | failed named turn failed => exact .inr (.inr ⟨.inl failed, refusesAll_of_ended (.inl failed)⟩)

/-- A supply whose second frame is refused. -/
def sampleSupply : FrameSupply where
  streams := .ok sampleStreams
  frames := [⟨0, 20, .samples [1]⟩, ⟨0, -1, .samples [2]⟩]
  ending := none

theorem failed_mux_ends_session_or_supply_failed_sample :
    ∃ after, sample.call (.mux sampleSupply) = (.error (.refused (.invalidTimestamp 0 (-1))), after) ∧
      after.phase = .failed ∧ (after.call .close).2 = after := by
  obtain ⟨after, called⟩ : ∃ after,
      sample.call (.mux sampleSupply) = (.error (.refused (.invalidTimestamp 0 (-1))), after) :=
    ⟨_, call_of_outcome (by decide +kernel)⟩
  obtain ⟨refused, _⟩ | ⟨streams, named, ending, _⟩ | ⟨failed | ⟨closed, _⟩, refuses⟩ :=
    failed_mux_ends_session_or_supply_failed sample_started History.new sample.recording.output called
  · cases refused
  · cases ending
  · have closing := refuses after.recording.output .close _ _ (by simp) (call_of_outcome rfl)
    exact ⟨after, called, failed, closing.2⟩
  · cases closed

/-- A supply that breaks off behind its first frame. -/
def brokenSupply : FrameSupply where
  streams := .ok sampleStreams
  frames := [⟨0, 20, .samples [1]⟩]
  ending := some (.invalidArgument (.other "input lost"))

/-- Not every mux that fails ends its session. -/
theorem broken_supply_leaves_session_open :
    ∃ fault after, sample.call (.mux brokenSupply) = (.error (.refused fault), after) ∧
      ¬ (after.phase = .failed ∨ sample.phase = .closed ∧ after.phase = .closed) ∧
      (after.call (.accept 0 25 [])).1 = .ok none := by
  have called := call_of_outcome (show (sample.call (.mux brokenSupply)).1 =
    .error (.refused (.invalidArgument (.other "input lost"))) by decide +kernel)
  exact ⟨_, _, called, by decide +kernel, by decide +kernel⟩

end Session

end NutContainer
