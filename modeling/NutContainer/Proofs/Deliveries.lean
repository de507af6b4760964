import NutContainer.Proofs.SessionGrounds
import NutContainer.Proofs.SessionOutput

/-! Which histories of calls make a file. The headers may be asked for by a call of their own or
drawn from a supply, frames may come one by one or with a supply, and some calls may fail in
between: a supply that does not name its streams has not touched the session, and one that breaks
off leaves it open with the frames it had brought. Whatever the history, the file is the one that
plain calls make for the same streams and the same frames. -/
namespace NutContainer

/-- The frames that a call brings, each as a call of its own. A supply that does not name its
streams never comes to its frames. -/
def Call.offers : Call → List Call
  | writeHeaders _ | close => []
  | writeFrame frame => [writeFrame frame]
  | accept stream pts payload => [accept stream pts payload]
  | mux supply =>
    match supply.streams with
    | .ok _ => supply.frames.map writeFrame
    | .error _ => []

namespace Session

/-- The last one of some calls sums up a file. Its streams are the first that the calls name and
its frames all that they bring. What came of the other calls is left open, but none has crashed. -/
def Delivers (start : Session) (streams : List StreamDescriptor) (feeds : List Call)
    (summary : Summary) (final : Session) : Prop :=
  ∃ calls told, start.run calls = (told ++ [.ok (some summary)], final) ∧
    .error .crash ∉ told ∧ calls.findSome? Call.streams? = some streams ∧
    calls.flatMap Call.offers = feeds

/-- What calls have come to before the file is summed up. -/
inductive Underway (initial : Session) (calls : List Call) : Session → Prop where
  /-- No call has reached the session. -/
  | untouched (unnamed : calls.findSome? Call.streams? = none)
    (unfed : calls.flatMap Call.offers = []) : Underway initial calls initial
  /-- The session is as plain calls for the same frames would have left it. -/
  | fed (streams : List StreamDescriptor) {session : Session}
    (named : calls.findSome? Call.streams? = some streams)
    (opens : initial.Opens streams (calls.flatMap Call.offers) session) :
    Underway initial calls session
  /-- The session takes no more calls. -/
  | ended {session : Session} (ended : session.phase = .failed ∨ session.phase = .closed) :
    Underway initial calls session

variable {format : ImageFormat} {options : Options} {policy : Sink.Policy}
  {initial before after : Session} {call : Call} {outcome : Outcome}

theorem GoesWell.concat {calls : List Call} (well : GoesWell initial calls before)
    (called : before.call call = (.ok none, after)) : GoesWell initial (calls ++ [call]) after := by
  rw [GoesWell, List.map_append, run_append_iff (List.length_map ..)]
  exact ⟨before, well, goesWell_cons.mpr ⟨after, called, rfl⟩⟩

/-- A session that has ended is not begun again. -/
theorem Consistent.still_ended (consistent : before.Consistent)
    (ended : before.phase = .failed ∨ before.phase = .closed) (back : outcome ≠ .error .crash)
    (called : before.call call = (outcome, after)) :
    (∃ fault, outcome = .error (.refused fault)) ∧
      (after.phase = .failed ∨ after.phase = .closed) := by
  obtain single | ⟨supply, rfl⟩ := call.isSingle_or_mux
  · rw [call_of_ended single ended] at called
    cases called
    exact ⟨⟨_, rfl⟩, ended⟩
  · have old : before.phase ≠ .created := by rcases ended with ended | ended <;> simp [ended]
    match outcome with
    | .ok told => exact absurd (consistent.through called).1 old
    | .error .crash => exact absurd rfl back
    | .error (.refused fault) =>
      refine ⟨⟨fault, rfl⟩, ?_⟩
      cases consistent.stopped called with
      | unnamed refused => exact ended
      | brokenOff named ending turn => exact absurd turn old
      | misplaced named turn same => rwa [misused_of_ended ended]
      | failed named turn failed => exact .inl failed

/-- Only the two calls that end a file tell anything. -/
theorem told_of_call {told : Option Summary} (called : before.call call = (.ok told, after)) :
    told = none ∨ call.leads = .closed := by
  cases call with
  | writeHeaders streams =>
    obtain ⟨_, _, _, done⟩ := Act.bind_ok.mp (call_ok.mp called)
    exact .inl (Act.pure_ok.mp done).1.symm
  | writeFrame frame =>
    obtain ⟨_, _, _, done⟩ := Act.bind_ok.mp (call_ok.mp called)
    exact .inl (Act.pure_ok.mp done).1.symm
  | accept stream pts payload =>
    obtain ⟨_, _, _, done⟩ := Act.bind_ok.mp (call_ok.mp called)
    exact .inl (Act.pure_ok.mp done).1.symm
  | close => exact .inr rfl
  | mux supply => exact .inr rfl

/-- What a single call makes of a session that nothing was asked of. -/
private theorem untouched_single {past : List Call} (consistent : initial.Consistent)
    (new : initial.phase = .created) (unnamed : past.findSome? Call.streams? = none)
    (unfed : past.flatMap Call.offers = []) (single : call.isSingle)
    (back : outcome ≠ .error .crash) (called : initial.call call = (outcome, after)) :
    Underway initial (past ++ [call]) after := by
  cases consistent.answered single called with
  | misplaced turn => exact .ended (.inl (by rw [new]; rfl))
  | refused turn failed => exact .ended (.inl failed)
  | broken turn failed => exact .ended (.inl failed)
  | crashed turn => exact absurd rfl back
  | done turn phase =>
    rw [new] at turn
    cases call with
    | writeHeaders streams =>
      obtain rfl | leads := told_of_call called
      · refine .fed streams (by simp [unnamed, Call.streams?]) ?_
        rw [List.flatMap_append, unfed]
        exact goesWell_cons.mpr ⟨after, called, rfl⟩
      · cases leads
    | mux supply => cases single
    | _ => cases turn

/-- What a single call makes of a session with headers. -/
private theorem fed_single {past : List Call} {streams : List StreamDescriptor}
    (consistent : before.Consistent) (accepting : before.phase = .accepting)
    (named : past.findSome? Call.streams? = some streams)
    (opens : initial.Opens streams (past.flatMap Call.offers) before) (single : call.isSingle)
    (back : outcome ≠ .error .crash) (called : before.call call = (outcome, after)) :
    Underway initial (past ++ [call]) after := by
  have still : (past ++ [call]).findSome? Call.streams? = some streams := by
    simp [List.findSome?_append, named]
  have fed (more : call.offers = [call]) (well : before.call call = (.ok none, after)) :
      Underway initial (past ++ [call]) after := by
    refine .fed streams still ?_
    rw [Opens, List.flatMap_append, List.flatMap_singleton, more, ← List.cons_append]
    exact opens.concat well
  cases consistent.answered single called with
  | misplaced turn => exact .ended (.inl (by rw [accepting]; rfl))
  | refused turn failed => exact .ended (.inl failed)
  | broken turn failed => exact .ended (.inl failed)
  | crashed turn => exact absurd rfl back
  | done turn phase =>
    rw [accepting] at turn
    obtain rfl | closing := told_of_call called
    · cases call with
      | writeFrame frame => exact fed rfl called
      | accept stream pts payload => exact fed rfl called
      | close => exact .ended (.inr phase)
      | _ => cases turn
    · exact .ended (.inr (phase.trans closing))

/-- What a supply makes of a session that nothing was asked of. -/
private theorem untouched_supply {past : List Call} {supply : FrameSupply}
    (consistent : initial.Consistent) (new : initial.phase = .created)
    (unnamed : past.findSome? Call.streams? = none) (unfed : past.flatMap Call.offers = [])
    (back : outcome ≠ .error .crash) (called : initial.call (.mux supply) = (outcome, after)) :
    Underway initial (past ++ [.mux supply]) after := by
  match outcome with
  | .ok told => exact .ended (.inr (consistent.through called).2.1)
  | .error .crash => exact absurd rfl back
  | .error (.refused fault) =>
    cases consistent.stopped called with
    | unnamed refused =>
      refine .untouched ?_ ?_
      · simp [unnamed, Call.streams?, refused, Except.toOption]
      · simp [unfed, Call.offers, refused]
    | @brokenOff streams after named ending turn taken =>
      refine .fed streams ?_ ?_
      · simp [unnamed, Call.streams?, named, Except.toOption]
      · rw [Opens, List.flatMap_append, unfed]
        simpa [Call.offers, named] using taken
    | misplaced named turn => exact absurd new turn
    | failed named turn failed => exact .ended (.inl failed)

/-- What a supply makes of a session with headers. -/
private theorem fed_supply {past : List Call} {supply : FrameSupply}
    {streams : List StreamDescriptor} (consistent : before.Consistent)
    (accepting : before.phase = .accepting)
    (named : past.findSome? Call.streams? = some streams)
    (opens : initial.Opens streams (past.flatMap Call.offers) before)
    (back : outcome ≠ .error .crash) (called : before.call (.mux supply) = (outcome, after)) :
    Underway initial (past ++ [.mux supply]) after := by
  have old : before.phase ≠ .created := by simp [accepting]
  match outcome with
  | .ok told => exact absurd (consistent.through called).1 old
  | .error .crash => exact absurd rfl back
  | .error (.refused fault) =>
    cases consistent.stopped called with
    | unnamed refused =>
      refine .fed streams ?_ ?_
      · simp [List.findSome?_append, named]
      · simpa [Opens, Call.offers, refused] using opens
    | brokenOff named ending turn => exact absurd turn old
    | misplaced named turn => exact .ended (.inl (by rw [accepting]; rfl))
    | failed named turn => exact absurd turn old

/-- A call adds to what a session under way has come to. -/
theorem Underway.step {past : List Call} (started : start format options policy = .ok initial)
    (underway : Underway initial past before) (consistent : before.Consistent)
    (back : outcome ≠ .error .crash) (called : before.call call = (outcome, after)) :
    Underway initial (past ++ [call]) after := by
  cases underway with
  | untouched unnamed unfed =>
    have new : initial.phase = .created := by
      obtain ⟨_, rfl⟩ := start_ok.mp started
      rfl
    obtain single | ⟨supply, rfl⟩ := call.isSingle_or_mux
    · exact untouched_single consistent new unnamed unfed single back called
    · exact untouched_supply consistent new unnamed unfed back called
  | fed streams named opens =>
    obtain ⟨_, _, _, running⟩ := opens.running started
    obtain single | ⟨supply, rfl⟩ := call.isSingle_or_mux
    · exact fed_single consistent running.phase named opens single back called
    · exact fed_supply consistent running.phase named opens back called
  | ended ended => exact .ended (consistent.still_ended ended back called).2

theorem Underway.run {past calls : List Call} {outcomes : List Outcome}
    (started : start format options policy = .ok initial)
    (underway : Underway initial past before) (consistent : before.Consistent)
    (back : .error .crash ∉ outcomes) (ran : before.run calls = (outcomes, after)) :
    Underway initial (past ++ calls) after ∧ after.Consistent := by
  induction calls generalizing past before outcomes with
  | nil =>
    cases ran
    simpa using ⟨underway, consistent⟩
  | cons call others ih =>
    obtain ⟨outcome, middle, told, called, rest, rfl⟩ := run_cons ran
    rw [List.mem_cons, not_or] at back
    have first : outcome ≠ .error .crash := Ne.symm back.1
    have next := ih (underway.step started consistent first called) (consistent.kept first called)
      back.2 rest
    simpa using next

/-- A call that sums up a file ends one that is under way, or makes it at once. -/
private theorem Underway.last {past : List Call} {summary : Summary}
    (started : start format options policy = .ok initial)
    (underway : Underway initial past before) (consistent : before.Consistent)
    (called : before.call call = (.ok (some summary), after)) :
    ∃ streams, (past ++ [call]).findSome? Call.streams? = some streams ∧
      initial.Completes streams ((past ++ [call]).flatMap Call.offers) summary after := by
  have ends : call = .close ∨ ∃ supply, call = .mux supply := by
    obtain none | leads := told_of_call called
    · cases none
    · cases call with
      | close => exact .inl rfl
      | mux supply => exact .inr ⟨supply, rfl⟩
      | _ => cases leads
  cases underway with
  | untouched unnamed unfed =>
    obtain rfl | ⟨supply, rfl⟩ := ends
    · cases consistent.answered rfl called with
      | done turn =>
        obtain ⟨_, rfl⟩ := start_ok.mp started
        cases turn
    · obtain ⟨streams, named, completes⟩ := completes_of_mux called
      refine ⟨streams, ?_, ?_⟩
      · simp [unnamed, Call.streams?, named, Except.toOption]
      · simpa [unfed, Call.offers, named] using completes
  | fed streams named opens =>
    obtain ⟨_, _, _, running⟩ := opens.running started
    obtain rfl | ⟨supply, rfl⟩ := ends
    · refine ⟨streams, by simp [List.findSome?_append, named], ?_⟩
      rw [List.flatMap_append]
      simpa [Call.offers] using completes_iff.mpr ⟨before, opens, called⟩
    · cases running.phase.symm.trans (consistent.through called).1
  | ended ended =>
    have back : (.ok (some summary) : Outcome) ≠ .error .crash := by simp
    obtain ⟨⟨fault, refused⟩, _⟩ := consistent.still_ended ended back called
    cases refused

/-- Calls of which the last one sums up a file have named its streams, and plain calls make the same
file of the same frames. -/
theorem completes_of_run {calls : List Call} {told : List Outcome} {summary : Summary}
    (started : start format options policy = .ok initial) (back : .error .crash ∉ told)
    (ran : initial.run calls = (told ++ [.ok (some summary)], after)) :
    ∃ streams, calls.findSome? Call.streams? = some streams ∧
      initial.Completes streams (calls.flatMap Call.offers) summary after := by
  have length := congrArg List.length (congrArg Prod.fst ran)
  rw [length_run, List.length_append, List.length_singleton] at length
  obtain ⟨past, call, rfl⟩ := (List.eq_nil_or_concat calls).resolve_left (by
    rintro rfl
    cases length)
  rw [List.concat_eq_append] at *
  rw [List.length_append, List.length_singleton] at length
  obtain ⟨middle, front, ending⟩ := (run_append_iff (Nat.succ.inj length).symm).mp ran
  obtain ⟨outcome, last, others, called, rest, same⟩ := run_cons ending
  cases rest
  cases same
  obtain ⟨underway, consistent⟩ := (Underway.untouched rfl rfl : Underway initial [] initial).run
    started (History.new.consistent started) back front
  exact underway.last started consistent called

theorem Delivers.completes {streams : List StreamDescriptor} {feeds : List Call}
    {summary : Summary} (started : start format options policy = .ok initial)
    (delivers : initial.Delivers streams feeds summary after) :
    initial.Completes streams feeds summary after := by
  obtain ⟨calls, told, ran, back, named, rfl⟩ := delivers
  obtain ⟨found, first, completes⟩ := completes_of_run started back ran
  cases named.symm.trans first
  exact completes

/-- A call puts its frame where the headers place it. -/
theorem placement_of_admission {converter : Converter} {headers : Headers} {arrival : Nat}
    {frame : WaitingFrame} (admitted : call.admission? converter headers arrival = some frame) :
    placement headers frame.stream frame.pts = .ok frame.millis := by
  have found {stream : UInt32} {pts millis : Int}
      (placed : (placement headers stream pts).toOption = some millis) :
      placement headers stream pts = .ok millis := by
    cases settled : placement headers stream pts with
    | error fault => simp [settled, Except.toOption] at placed
    | ok other => simpa [settled, Except.toOption] using placed
  cases call with
  | accept stream pts payload =>
    obtain ⟨millis, placed, same⟩ := Option.bind_eq_some_iff.mp admitted
    cases same
    exact found placed
  | writeFrame content =>
    obtain ⟨header, _, admitted⟩ := Option.bind_eq_some_iff.mp admitted
    obtain ⟨converted, _, admitted⟩ := Option.bind_eq_some_iff.mp admitted
    obtain ⟨millis, placed, same⟩ := Option.bind_eq_some_iff.mp admitted
    cases same
    exact found placed
  | _ => cases admitted

/-- What a session has come to that has delivered a file. -/
theorem Delivers.closed {streams : List StreamDescriptor} {feeds : List Call}
    {summary : Summary} (started : start format options policy = .ok initial)
    (delivers : initial.Delivers streams feeds summary after) :
    ∃ headers reached, initial.plan.build streams = .ok headers ∧
      (after.arrivals feeds).length = feeds.length ∧
      Running initial headers (after.arrivals feeds) reached ∧
      Closed initial headers (after.arrivals feeds) summary after ∧
      ∀ frame ∈ after.arrivals feeds, placement headers frame.stream frame.pts = .ok frame.millis := by
  have completes := delivers.completes started
  obtain ⟨headers, reached, built, count, running, closed⟩ := completes.closed started
  refine ⟨headers, reached, built, count, running, closed, fun frame member => ?_⟩
  obtain ⟨_, opens, called⟩ := completes_iff.mp completes
  obtain ⟨others, rebuilt, _, open_still⟩ := opens.running started
  cases built.symm.trans rebuilt
  obtain ⟨_, known, _⟩ := open_still.close called
  simp only [arrivals, known, admissions] at member
  obtain ⟨_, _, admitted⟩ := List.mem_filterMap.mp member
  exact placement_of_admission admitted

/-- A supply that breaks off behind its first frame. -/
def interruptedSupply : FrameSupply where
  streams := .ok sampleStreams
  frames := [⟨0, 20, .samples [1]⟩]
  ending := some (.invalidArgument (.other "input lost"))

/-- Two more frames and the end, behind a supply that breaks off and one that has no streams. The
last frame comes too late for its place. -/
def interruptedCalls : List Call :=
  [.mux interruptedSupply, .mux { interruptedSupply with streams := .error .noStreams },
    .accept 0 40 [7], .accept 0 5 [], .close]

def interruptedFeeds : List Call :=
  [.writeFrame ⟨0, 20, .samples [1]⟩, .accept 0 40 [7], .accept 0 5 []]

def interruptedArrived : List WaitingFrame :=
  [⟨0, 20, 20, 0, [0, 0, 0, 1]⟩, ⟨0, 40, 40, 1, [7]⟩, ⟨0, 5, 5, 2, []⟩]

def interruptedSummary : Summary := ⟨3, [3], 1, 181, true, 1⟩

theorem interrupted_delivers : ∃ final,
    sample.Delivers sampleStreams interruptedFeeds interruptedSummary final ∧
      final.arrivals interruptedFeeds = interruptedArrived := by
  have delivers : sample.Delivers sampleStreams interruptedFeeds interruptedSummary
      (sample.run interruptedCalls).2 :=
    ⟨interruptedCalls, [.error (.refused (.invalidArgument (.other "input lost"))),
      .error (.refused .noStreams), .ok none, .ok none], run_of_outcomes (by decide +kernel),
      by decide, rfl, rfl⟩
  exact ⟨_, delivers, by decide +kernel⟩

end Session

end NutContainer
