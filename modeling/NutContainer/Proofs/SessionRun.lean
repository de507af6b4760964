import NutContainer.Proofs.SessionSteps

/-! What a whole history of calls comes to when all of them go well. The frames that
were taken in are found in the calls themselves, with the times that the headers
give them; the buffer is the one that these frames lead to, the file is the layout
of what has left it, and closing adds what was still waiting. -/
namespace NutContainer

namespace Call

/-- The frame that a call puts in the line, behind `arrival` others. -/
def admission? (converter : Converter) (headers : Headers) (arrival : Nat) :
    Call → Option WaitingFrame
  | accept stream pts payload => do
    let millis ← (Session.placement headers stream pts).toOption
    return ⟨stream, pts, millis, arrival, payload⟩
  | writeFrame frame => do
    let header ← headers.stream? frame.stream
    let converted ← (converter.convert header frame).toOption
    let millis ← (Session.placement headers frame.stream frame.pts).toOption
    return ⟨frame.stream, frame.pts, millis, arrival, converted.bytes⟩
  | _ => none

end Call

namespace Session

/-- The frames that calls put in the line, one behind the other. -/
def admissions (converter : Converter) (headers : Headers) (first : Nat) (calls : List Call) :
    List WaitingFrame :=
  (calls.zipIdx first).filterMap fun (call, arrival) => call.admission? converter headers arrival

variable {start before after : Session} {headers : Headers} {arrived : List WaitingFrame}

/-- A session in which frames have arrived and none has failed. -/
structure Running (start : Session) (headers : Headers) (arrived : List WaitingFrame)
    (session : Session) : Prop where
  converter : session.converter = start.converter
  options : session.options = start.options
  phase : session.phase = .accepting
  known : session.headers = some headers
  buffer : session.buffer = (OrderingBuffer.release start.options.windowMillis arrived).2
  recording : session.recording.Holds ((Draft.opened headers).putFrames headers
    (OrderingBuffer.release start.options.windowMillis arrived).1)
  writable : ∀ frame ∈ (OrderingBuffer.release start.options.windowMillis arrived).1,
    frame.Writable headers
  counts : (session.lastMillis, session.late) =
    WaitingFrame.tally (OrderingBuffer.release start.options.windowMillis arrived).1
  numbered : WaitingFrame.Numbered arrived
  early : ∀ frame ∈ arrived, 0 ≤ frame.millis

theorem millis?_nonneg {pts millis : Int} {base : Ratio} (sign : 0 ≤ pts)
    (found : Timestamp.millis? ⟨pts, base⟩ = some millis) : 0 ≤ millis := by
  unfold Timestamp.millis? Timestamp.rescale? at found
  split at found
  · dsimp only at found
    split at found
    · cases found
      refine Int.ediv_nonneg ?_ (Int.mul_nonneg (Int.natCast_nonneg _) (Int.natCast_nonneg _))
      exact Int.mul_nonneg (Int.mul_nonneg sign (Int.natCast_nonneg _)) (Int.natCast_nonneg _)
    · cases found
  · cases found

theorem placement_nonneg {stream : UInt32} {pts millis : Int}
    (placed : placement headers stream pts = .ok millis) : 0 ≤ millis := by
  unfold placement at placed
  split at placed
  · cases placed
  · split at placed
    · cases placed
    · rename_i header known writable
      split at placed
      · rename_i found
        cases placed
        exact millis?_nonneg (by omega) found
      · cases placed

theorem call_ok {call : Call} {told : Option Summary} :
    before.call call = (.ok told, after) ↔ call.act before = .ok told after := by
  unfold Session.call
  cases ran : call.act before with
  | ok value middle => simp
  | error fault middle => simp

/-- A session that nothing was asked of. -/
def fresh (format : ImageFormat) (options : Options) (policy : Sink.Policy) : Session where
  converter := ⟨format, options.generateImages⟩
  options := options
  phase := .created
  headers := none
  buffer := .empty options.windowMillis
  recording := .fresh policy 0
  lastMillis := none
  late := 0

theorem start_ok {format : ImageFormat} {options : Options} {policy : Sink.Policy} :
    Session.start format options policy = .ok start ↔
      options.validate = .ok () ∧ start = fresh format options policy := by
  unfold Session.start
  rw [except_bind_ok]
  constructor
  · rintro ⟨_, valid, started⟩
    cases started
    exact ⟨valid, rfl⟩
  · rintro ⟨valid, rfl⟩
    exact ⟨(), valid, rfl⟩

/-- A session on which nothing was done has its headers written. -/
theorem running_of_writeHeaders {format : ImageFormat} {options : Options} {policy : Sink.Policy}
    {streams : List StreamDescriptor} (started : Session.start format options policy = .ok start)
    (called : start.call (.writeHeaders streams) = (.ok none, after)) :
    ∃ headers, start.plan.build streams = .ok headers ∧ Running start headers [] after := by
  obtain ⟨_, rfl⟩ := start_ok.mp started
  obtain ⟨_, _, ran, done⟩ := Act.bind_ok.mp (call_ok.mp called)
  obtain ⟨_, rfl⟩ := Act.pure_ok.mp done
  obtain ⟨headers, built, recording, opened, rfl⟩ := writeHeaders_ok ran ⟨rfl, rfl⟩
  refine ⟨headers, built, rfl, rfl, rfl, rfl, rfl, opened, ?_, rfl, ?_, ?_⟩
  · intro frame member
    cases member
  · intro place frame found
    cases found
  · intro frame member
    cases member

/-- Taking a frame in puts it at the end of those that have arrived. -/
theorem Running.accept {stream : UInt32} {pts : Int} {payload : Bytes} {value : Unit}
    (running : Running start headers arrived before)
    (ran : Session.accept stream pts payload before = .ok value after) :
    ∃ millis, placement headers stream pts = .ok millis ∧
      Running start headers (arrived ++ [⟨stream, pts, millis, arrived.length, payload⟩]) after := by
  obtain ⟨millis, placed, writable, recording, laid, rfl⟩ :=
    accept_ok ran running.known running.recording
  rw [emitted, running.counts, running.buffer] at *
  have released := OrderingBuffer.release_concat start.options.windowMillis arrived
    ⟨stream, pts, millis, arrived.length, payload⟩
  refine ⟨millis, placed, running.converter, running.options, running.phase, running.known, ?_, ?_,
    ?_, ?_, ?_, ?_⟩
  · rw [released]
  · rw [released]
    rwa [Draft.putFrames_append]
  · rw [released]
    intro frame member
    rcases List.mem_append.mp member with member | member
    · exact running.writable frame member
    · exact writable frame member
  · rw [released, WaitingFrame.tally_append]
  · exact WaitingFrame.numbered_concat.mpr ⟨running.numbered, rfl⟩
  · intro frame member
    rcases List.mem_append.mp member with member | member
    · exact running.early frame member
    · cases List.mem_singleton.mp member
      exact placement_nonneg placed

/-- A call that goes well on a session in which frames are accepted puts one frame
in the line. -/
theorem Running.call {call : Call} (running : Running start headers arrived before)
    (called : before.call call = (.ok none, after)) :
    ∃ frame, call.admission? start.converter headers arrived.length = some frame ∧
      Running start headers (arrived ++ [frame]) after := by
  cases call with
  | writeHeaders streams =>
    obtain ⟨_, _, ran, _⟩ := Act.bind_ok.mp (call_ok.mp called)
    obtain ⟨_, _, expected, _⟩ := Act.bind_ok.mp ran
    obtain ⟨created, _⟩ := expect_ok.mp expected
    cases running.phase.symm.trans created
  | writeFrame frame =>
    obtain ⟨_, _, ran, done⟩ := Act.bind_ok.mp (call_ok.mp called)
    obtain ⟨_, rfl⟩ := Act.pure_ok.mp done
    obtain ⟨header, converted, found, converts, recording, held, ran⟩ :=
      writeFrame_ok ran running.known running.recording
    have noted : Running start headers arrived { before with recording } :=
      { running with recording := held }
    obtain ⟨millis, placed, running⟩ := noted.accept ran
    refine ⟨_, ?_, running⟩
    rw [noted.converter] at converts
    simp [Call.admission?, found, converts, placed, Except.toOption]
  | accept stream pts payload =>
    obtain ⟨_, _, ran, done⟩ := Act.bind_ok.mp (call_ok.mp called)
    obtain ⟨_, rfl⟩ := Act.pure_ok.mp done
    obtain ⟨millis, placed, running⟩ := running.accept ran
    refine ⟨_, ?_, running⟩
    simp [Call.admission?, placed, Except.toOption]
  | close =>
    obtain ⟨_, _, told⟩ := Act.map_ok.mp (call_ok.mp called)
    cases told
  | mux supply =>
    obtain ⟨_, _, told⟩ := Act.map_ok.mp (call_ok.mp called)
    cases told

/-- Every one of these calls goes well, and none of them tells anything. -/
def GoesWell (before : Session) (calls : List Call) (after : Session) : Prop :=
  before.run calls = (calls.map fun _ => .ok none, after)

theorem goesWell_cons {call : Call} {calls : List Call} : GoesWell before (call :: calls) after ↔
    ∃ middle, before.call call = (.ok none, middle) ∧ GoesWell middle calls after := by
  rcases called : before.call call with ⟨outcome, middle⟩
  simp only [GoesWell, run, called, List.map_cons, Prod.mk.injEq, List.cons.injEq]
  constructor
  · rintro ⟨⟨rfl, others⟩, rest⟩
    exact ⟨middle, ⟨rfl, rfl⟩, Prod.ext others rest⟩
  · rintro ⟨_, ⟨rfl, rfl⟩, well⟩
    simp [well]

/-- Calls that go well put their frames in the line, one frame each. -/
theorem Running.run {calls : List Call} (running : Running start headers arrived before)
    (well : GoesWell before calls after) :
    (admissions start.converter headers arrived.length calls).length = calls.length ∧
      Running start headers
        (arrived ++ admissions start.converter headers arrived.length calls) after := by
  induction calls generalizing arrived before with
  | nil =>
    cases well
    exact ⟨rfl, by simpa [admissions] using running⟩
  | cons call others ih =>
    obtain ⟨middle, called, well⟩ := goesWell_cons.mp well
    obtain ⟨frame, admitted, next⟩ := running.call called
    obtain ⟨count, rest⟩ := ih next well
    have split : admissions start.converter headers arrived.length (call :: others) =
        frame :: admissions start.converter headers (arrived.length + 1) others := by
      simp [admissions, admitted]
    rw [List.length_append, List.length_singleton] at count rest
    rw [split]
    exact ⟨congrArg (· + 1) count, by simpa using rest⟩

/-- The bytes of the file so far. -/
def file (session : Session) : Bytes := session.recording.output.sink.stored.toList

/-- The frames that calls have put in the line of a session with headers. -/
def arrivals (session : Session) (calls : List Call) : List WaitingFrame :=
  match session.headers with
  | none => []
  | some headers => admissions session.converter headers 0 calls

/-- Headers are written, frames are taken in, and every call goes well. -/
def Opens (start : Session) (streams : List StreamDescriptor) (feeds : List Call)
    (reached : Session) : Prop :=
  GoesWell start (.writeHeaders streams :: feeds) reached

/-- Headers are written, frames are taken in, the file is closed, and every call goes
well. -/
def Completes (start : Session) (streams : List StreamDescriptor) (feeds : List Call)
    (summary : Summary) (final : Session) : Prop :=
  start.run (.writeHeaders streams :: feeds ++ [.close]) =
    (.ok none :: feeds.map (fun _ => .ok none) ++ [.ok (some summary)], final)

theorem length_run (session : Session) (calls : List Call) :
    (session.run calls).1.length = calls.length := by
  induction calls generalizing session with
  | nil => rfl
  | cons call others ih => simp [run, ih]

theorem run_append_iff {front back : List Call} {first second : List Outcome}
    (width : first.length = front.length) :
    before.run (front ++ back) = (first ++ second, after) ↔
      ∃ middle, before.run front = (first, middle) ∧ middle.run back = (second, after) := by
  have length := length_run before front
  rcases opened : before.run front with ⟨outcomes, middle⟩
  rcases rest : middle.run back with ⟨others, final⟩
  rw [opened] at length
  simp only [run_append, opened, rest, Prod.mk.injEq]
  constructor
  · rintro ⟨joined, rfl⟩
    obtain ⟨rfl, rfl⟩ := List.append_inj joined (length.trans width.symm)
    exact ⟨middle, ⟨rfl, rfl⟩, rest⟩
  · rintro ⟨_, ⟨rfl, rfl⟩, last⟩
    cases rest.symm.trans last
    exact ⟨rfl, rfl⟩

theorem completes_iff {streams : List StreamDescriptor} {feeds : List Call} {summary : Summary} :
    start.Completes streams feeds summary after ↔
      ∃ reached, start.Opens streams feeds reached ∧
        reached.call .close = (.ok (some summary), after) := by
  have width : ((.ok none :: feeds.map fun _ => .ok none : List Outcome)).length =
      (Call.writeHeaders streams :: feeds).length := by simp
  have single {reached : Session} : reached.run [.close] = ([.ok (some summary)], after) ↔
      reached.call .close = (.ok (some summary), after) := by
    rcases closed : reached.call .close with ⟨outcome, final⟩
    simp [run, closed]
  unfold Completes
  rw [run_append_iff width]
  simp only [single]
  rfl

theorem opens_run {streams : List StreamDescriptor} {feeds : List Call}
    (outcomes : (start.run (.writeHeaders streams :: feeds)).1 =
      .ok none :: feeds.map fun _ => .ok none) :
    start.Opens streams feeds (start.run (.writeHeaders streams :: feeds)).2 :=
  Prod.ext outcomes rfl

theorem completes_run {streams : List StreamDescriptor} {feeds : List Call} {summary : Summary}
    (outcomes : (start.run (.writeHeaders streams :: feeds ++ [.close])).1 =
      .ok none :: feeds.map (fun _ => .ok none) ++ [.ok (some summary)]) :
    start.Completes streams feeds summary
      (start.run (.writeHeaders streams :: feeds ++ [.close])).2 :=
  Prod.ext outcomes rfl

theorem goesWell_writeFrames {frames : List Frame} {value : Unit}
    (ran : frames.forM writeFrame before = .ok value after) :
    GoesWell before (frames.map .writeFrame) after := by
  induction frames generalizing before with
  | nil =>
    obtain ⟨_, rfl⟩ := Act.pure_ok.mp ran
    rfl
  | cons frame others ih =>
    obtain ⟨done, middle, wrote, ran⟩ := Act.bind_ok.mp ran
    have called : before.call (.writeFrame frame) = (.ok none, middle) :=
      call_ok.mpr (Act.bind_ok.mpr ⟨done, middle, wrote, rfl⟩)
    exact goesWell_cons.mpr ⟨middle, called, ih ran⟩

/-- A file that is made at once is the one that is made call by call. -/
theorem completes_of_mux {supply : FrameSupply} {summary : Summary}
    (called : start.call (.mux supply) = (.ok (some summary), after)) :
    ∃ streams, supply.streams = .ok streams ∧
      start.Completes streams (supply.frames.map .writeFrame) summary after := by
  obtain ⟨told, ran, same⟩ := Act.map_ok.mp (call_ok.mp called)
  cases same
  obtain ⟨streams, _, settled, ran⟩ := Act.bind_ok.mp ran
  obtain ⟨named, rfl⟩ := settle_ok.mp settled
  rw [Failure.ofRefusal_eq_ok] at named
  obtain ⟨value, opened, wrote, ran⟩ := Act.bind_ok.mp ran
  obtain ⟨_, fed, taken, ran⟩ := Act.bind_ok.mp ran
  have opens : start.Opens streams (supply.frames.map .writeFrame) fed :=
    goesWell_cons.mpr ⟨opened, call_ok.mpr (Act.bind_ok.mpr ⟨value, opened, wrote, rfl⟩),
      goesWell_writeFrames taken⟩
  cases ending : supply.ending with
  | some fault =>
    rw [ending] at ran
    exact absurd ran Act.not_refuse_ok
  | none =>
    rw [ending] at ran
    exact ⟨streams, named,
      completes_iff.mpr ⟨fed, opens, call_ok.mpr (Act.map_ok.mpr ⟨_, ran, rfl⟩)⟩⟩

/-- Headers are written, frames are taken in and the file is closed, by a call for each or by one
call for all, and every call goes well. -/
def Finishes (start : Session) (feeds : List Call) (summary : Summary) (final : Session) : Prop :=
  (∃ streams, start.Completes streams feeds summary final) ∨
    ∃ supply, start.call (.mux supply) = (.ok (some summary), final) ∧
      feeds = supply.frames.map .writeFrame

theorem Finishes.completes {feeds : List Call} {summary : Summary}
    (finishes : start.Finishes feeds summary after) :
    ∃ streams, start.Completes streams feeds summary after := by
  obtain completes | ⟨supply, called, rfl⟩ := finishes
  · exact completes
  · obtain ⟨streams, _, completes⟩ := completes_of_mux called
    exact ⟨streams, completes⟩

/-- What an open session has come to. -/
theorem Opens.running {format : ImageFormat} {options : Options} {policy : Sink.Policy}
    {streams : List StreamDescriptor} {feeds : List Call}
    (started : Session.start format options policy = .ok start)
    (opens : start.Opens streams feeds after) :
    ∃ headers, start.plan.build streams = .ok headers ∧
      (after.arrivals feeds).length = feeds.length ∧
      Running start headers (after.arrivals feeds) after := by
  obtain ⟨middle, called, well⟩ := goesWell_cons.mp opens
  obtain ⟨headers, built, running⟩ := running_of_writeHeaders started called
  obtain ⟨count, running⟩ := running.run well
  have found : after.arrivals feeds = admissions start.converter headers 0 feeds := by
    simp only [arrivals, running.known, running.converter]
  rw [found]
  exact ⟨headers, built, count, running⟩

/-- The layout of the file that a session makes of frames. -/
def layout (start : Session) (headers : Headers) (arrived : List WaitingFrame) : Draft :=
  ((Draft.opened headers).putFrames headers
    (OrderingBuffer.releaseOrder start.options.windowMillis arrived)).ended headers
      start.options.writeIndex

/-- A session that has made its file. -/
structure Closed (start : Session) (headers : Headers) (arrived : List WaitingFrame)
    (summary : Summary) (session : Session) : Prop where
  writable : ∀ frame ∈ OrderingBuffer.releaseOrder start.options.windowMillis arrived,
    frame.Writable headers
  file : session.file = (start.layout headers arrived).bytes
  summed : summary = (start.layout headers arrived).summary start.options.writeIndex
    (WaitingFrame.tally (OrderingBuffer.releaseOrder start.options.windowMillis arrived)).2

theorem Running.close {summary : Summary} (running : Running start headers arrived before)
    (called : before.call .close = (.ok (some summary), after)) :
    Closed start headers arrived summary after ∧ after.headers = some headers ∧
      after.converter = start.converter := by
  obtain ⟨_, ran, told⟩ := Act.map_ok.mp (call_ok.mp called)
  cases told
  obtain ⟨writable, sums, known, converter, held⟩ := close_ok ran running.known running.recording
  rw [running.buffer, running.options, ← Draft.putFrames_append] at held sums
  rw [running.buffer] at writable
  rw [running.counts, ← WaitingFrame.tally_append] at sums
  refine ⟨⟨?_, held.output.1, sums⟩, known, converter.trans running.converter⟩
  intro frame member
  rcases List.mem_append.mp member with member | member
  · exact running.writable frame member
  · exact writable frame member

/-- What a session has come to that is closed. -/
theorem Completes.closed {format : ImageFormat} {options : Options} {policy : Sink.Policy}
    {streams : List StreamDescriptor} {feeds : List Call} {summary : Summary}
    (started : Session.start format options policy = .ok start)
    (completes : start.Completes streams feeds summary after) :
    ∃ headers reached, start.plan.build streams = .ok headers ∧
      (after.arrivals feeds).length = feeds.length ∧
      Running start headers (after.arrivals feeds) reached ∧
      Closed start headers (after.arrivals feeds) summary after := by
  obtain ⟨reached, opens, called⟩ := completes_iff.mp completes
  obtain ⟨headers, built, count, running⟩ := opens.running started
  obtain ⟨closed, known, converter⟩ := running.close called
  have same : after.arrivals feeds = reached.arrivals feeds := by
    simp only [arrivals, running.known, running.converter, known, converter]
  rw [same]
  exact ⟨headers, reached, built, count, running, closed⟩

/-- Frames whose times leave room at the top of the range can be put in order. -/
theorem Running.admissible (running : Running start headers arrived before)
    (below : ∀ frame ∈ arrived, frame.millis < Signed64.greatest) :
    OrderingBuffer.Admissible arrived :=
  ⟨running.numbered, fun frame member => ⟨running.early frame member, below frame member⟩⟩

end Session

end NutContainer
