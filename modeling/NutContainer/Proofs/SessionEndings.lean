import NutContainer.Proofs.DescriptionChecks
import NutContainer.Proofs.SessionRun

/-! How the calls of a session end, each made in turn. What is refused is refused before
anything is changed: a frame is only pushed when it has been tested for all that could be
wrong with it later, so from there on nothing but the sink can fail. That is stated here
once for every call, with the state that each ending leaves. -/
namespace NutContainer

namespace Converter

/-- A picture is refused for its size, or by the coding. -/
theorem convertImage_error {converter : Converter} {header : StreamHeader} {width height : UInt32}
    {expected : Nat} {picture : Image} {fault : Fault}
    (refused : converter.convertImage header width height expected picture = .error fault) :
    fault.category = .conversion ∨ converter.format.encode picture = .error fault := by
  unfold convertImage at refused
  split at refused
  · rcases except_bind_error.mp refused with coding | ⟨bytes, _, refused⟩
    · exact .inr coding
    · split at refused
      · cases refused
      · cases refused
        exact .inl rfl
  · cases refused
    exact .inl rfl

/-- Samples are never refused for their number. -/
theorem sampleNotices_ne_refused {header : StreamHeader} {count : Nat} {fault : Fault} :
    sampleNotices header count ≠ .error (.refused fault) := by
  unfold sampleNotices
  cases header.params with
  | video width height => simp
  | audio rate channels =>
    dsimp only
    split
    · simp
    · split <;> simp

/-- A frame is refused for what it is, or the coding refuses its picture. -/
theorem convert_error {converter : Converter} {header : StreamHeader} {frame : Frame}
    {fault : Fault} (refused : converter.convert header frame = .error (.refused fault)) :
    fault.category = .conversion ∨ ∃ picture, frame.payload = .image picture ∧
      converter.format.encode picture = .error fault := by
  obtain ⟨stream, pts, payload⟩ := frame
  unfold convert at refused
  cases kind : header.kind with
  | audio =>
    rw [kind] at refused
    cases payload with
    | samples sound =>
      rcases except_bind_error.mp refused with uneven | ⟨notices, _, done⟩
      · exact absurd uneven sampleNotices_ne_refused
      · cases done
    | _ =>
      cases refused
      exact .inl rfl
  | video =>
    rw [kind] at refused
    dsimp only at refused
    unfold convertVideo at refused
    dsimp only at refused
    split at refused
    · rename_i picture _
      rcases except_bind_error.mp refused with large | ⟨size, _, refused⟩
      · exact absurd large Failure.inWord_ne_refused
      · obtain ⟨_, coding, same⟩ := Failure.ofRefusal_eq_error.mp refused
        cases same
        exact (convertImage_error coding).imp id fun refused => ⟨picture, rfl, refused⟩
    · rcases except_bind_error.mp refused with large | ⟨size, _, done⟩
      · exact absurd large Failure.inWord_ne_refused
      · cases done
    · cases refused
      exact .inl rfl

end Converter

namespace Session

variable {before after : Session} {headers : Headers} {α : Type} {good : α → Session → Prop}
  {broken : Failure → Session → Prop} {bad : Fault → Session → Prop}

theorem comes_onRecording {act : Act Recording α} : (onRecording act).Comes good broken before ↔
    act.Comes (fun value recording => good value { before with recording })
      (fun failure recording => broken failure { before with recording }) before.recording := by
  obtain ⟨converter, options, phase, headers, buffer, recording, lastMillis, late⟩ := before
  cases ran : act recording with
  | ok value middle => simp [Act.Comes, onRecording, ran]
  | error failure middle => simp [Act.Comes, onRecording, ran]

theorem ends_onRecording {act : Act Recording α} : (onRecording act).Ends good bad before ↔
    act.Ends (fun value recording => good value { before with recording })
      (fun fault recording => bad fault { before with recording }) before.recording :=
  comes_onRecording

theorem comes_expect {phase : Phase} {operation : String} {good : Unit → Session → Prop} :
    (expect phase operation).Comes good broken before ↔
      (before.phase = phase → good () before) ∧
        (before.phase ≠ phase → broken (.refused (.wrongPhase operation before.phase.name))
          { before with phase := before.phase.afterMisuse }) := by
  by_cases turn : before.phase = phase
  · simp [Act.Comes, expect, turn]
  · simp [Act.Comes, expect, turn]

theorem ends_expect {phase : Phase} {operation : String} {good : Unit → Session → Prop} :
    (expect phase operation).Ends good bad before ↔
      (before.phase = phase → good () before) ∧
        (before.phase ≠ phase → bad (.wrongPhase operation before.phase.name)
          { before with phase := before.phase.afterMisuse }) := by
  unfold Act.Ends
  rw [comes_expect, Act.told_refused]

/-- What a failure makes of a session that ends with a refusal. -/
def afterFailure : Failure → Session → Session
  | .refused _, session => { session with phase := .failed }
  | .crash, session => session

theorem comes_orFail {act : Act Session α} : (orFail act).Comes good broken before ↔
    act.Comes good (fun failure after => broken failure (afterFailure failure after)) before := by
  unfold Act.Comes orFail
  cases act before with
  | ok value middle => rfl
  | error failure middle => cases failure <;> rfl

theorem ends_orFail {act : Act Session α} : (orFail act).Ends good bad before ↔
    act.Ends good (fun fault after => bad fault { after with phase := .failed }) before := by
  unfold Act.Ends
  rw [comes_orFail]
  constructor <;>
  · refine fun comes => comes.imp (fun _ _ known => known) ?_
    rintro (fault | _) middle known
    · exact Act.told_refused.mpr (Act.told_refused.mp known)
    · exact Act.told_crash _

theorem ends_settle {result : Except Failure α} : (settle result).Ends good bad before ↔
    (∀ value, result = .ok value → good value before) ∧
      ∀ fault, result = .error (.refused fault) → bad fault before := by
  cases result with
  | ok value => simp [settle, Act.ends_pure]
  | error failure =>
    change Act.told bad failure before ↔ _
    simp [Act.told]

theorem ends_settle_ofRefusal {result : Except Fault α} :
    (settle (Failure.ofRefusal result)).Ends good bad before ↔
      (∀ value, result = .ok value → good value before) ∧
        ∀ fault, result = .error fault → bad fault before := by
  rw [ends_settle]
  cases result with
  | ok value => simp
  | error fault => simp

theorem comes_headersFor {good : Headers → Session → Prop} {operation : String}
    (known : before.headers = some headers) :
    (headersFor operation).Comes good broken before ↔ good headers before := by
  simp [Act.Comes, headersFor, known]

theorem ends_headersFor {good : Headers → Session → Prop} {operation : String}
    (known : before.headers = some headers) :
    (headersFor operation).Ends good bad before ↔ good headers before := comes_headersFor known

/-- What no writing of frames changes. -/
structure Carried (before after : Session) : Prop where
  converter : after.converter = before.converter
  options : after.options = before.options
  phase : after.phase = before.phase
  headers : after.headers = before.headers

theorem Carried.refl (session : Session) : session.Carried session := ⟨rfl, rfl, rfl, rfl⟩

theorem Carried.trans {middle : Session} (first : before.Carried middle)
    (second : middle.Carried after) : before.Carried after :=
  ⟨second.converter.trans first.converter, second.options.trans first.options,
    second.phase.trans first.phase, second.headers.trans first.headers⟩

/-- The remark on a frame that comes behind a later one. -/
def remark (frame : WaitingFrame) : Act Session Unit := do
  let session ← get
  match session.lastMillis with
  | some last =>
    if frame.millis < last then
      modify fun session => { session with late := session.late + 1 }
      note (.frameLate frame.stream frame.pts frame.millis last session.buffer.window)
  | none => pure ()

/-- A frame goes into the file, and its time is remembered. -/
def lay (headers : Headers) (frame : WaitingFrame) : Act Session Unit := do
  if frame.pts < 0 then
    Act.refuse (.invalidTimestamp frame.stream frame.pts)
  let _ ← onRecording (Recording.writeFrame headers frame.stream frame.pts.toNat frame.payload)
  modify fun session =>
    { session with lastMillis := some (session.lastMillis.elim frame.millis (max · frame.millis)) }

theorem emit_eq (frame : WaitingFrame) : emit frame = (do
    let headers ← headersFor "emit"
    remark frame
    lay headers frame) := by
  unfold emit remark lay
  simp only [bind_assoc]
  refine bind_congr fun headers => bind_congr fun session => ?_
  cases session.lastMillis with
  | none => simp
  | some last =>
    by_cases late : frame.millis < last
    · simp [late]
    · simp [late]

theorem note_ends (notice : Notice) : (note notice).Ends
    (fun _ after => ∃ recording, after = { before with recording }) (fun _ _ => False) before := by
  rw [note, ends_onRecording, Recording.ends_onOutput]
  exact ⟨_, rfl⟩

theorem remark_ends (frame : WaitingFrame) : (remark frame).Ends
    (fun _ after => before.Carried after ∧ after.buffer = before.buffer) (fun _ _ => False)
    before := by
  unfold remark
  rw [Act.ends_bind, Act.ends_get]
  cases before.lastMillis with
  | none => exact ⟨.refl before, rfl⟩
  | some last =>
    dsimp only
    split
    · rw [Act.ends_bind, Act.ends_modify]
      refine (note_ends _).imp ?_ fun _ _ fault => fault
      rintro _ _ ⟨recording, rfl⟩
      exact ⟨⟨rfl, rfl, rfl, rfl⟩, rfl⟩
    · exact ⟨.refl before, rfl⟩

/-- A frame that can be written is refused by nothing but the sink. -/
theorem emit_ends {frame : WaitingFrame} (known : before.headers = some headers)
    (writable : frame.Writable headers) :
    (emit frame).Ends (fun _ after => before.Carried after ∧ after.buffer = before.buffer)
      (fun fault after => fault.category = .output ∧ before.Carried after) before := by
  obtain ⟨sign, admits⟩ := writable
  have timely : ¬ frame.pts < 0 := by omega
  rw [emit_eq, Act.ends_bind, ends_headersFor known, Act.ends_bind]
  refine (remark_ends frame).imp ?_ fun _ _ fault => fault.elim
  rintro _ middle ⟨carried, buffer⟩
  unfold lay
  simp only [timely, if_false]
  rw [Act.ends_bind, ends_onRecording]
  refine (Recording.failsBySink_writeFrame admits frame.payload _).imp ?_ ?_
  · intro size recording _
    exact ⟨⟨carried.converter, carried.options, carried.phase, carried.headers⟩, buffer⟩
  · intro fault recording sink
    exact ⟨sink, carried.converter, carried.options, carried.phase, carried.headers⟩

/-- Frames that can be written leave the buffer until the sink refuses one. -/
theorem emitBy_ends {pop? : OrderingBuffer → Option (WaitingFrame × OrderingBuffer)} {count : Nat}
    (known : before.headers = some headers)
    (writable : ∀ frame ∈ (OrderingBuffer.popUpTo pop? count before.buffer).1,
      frame.Writable headers) :
    (emitBy pop? count).Ends
      (fun _ after => before.Carried after ∧
        after.buffer = (OrderingBuffer.popUpTo pop? count before.buffer).2)
      (fun fault after => fault.category = .output ∧ before.Carried after) before := by
  induction count generalizing before with
  | zero => exact ⟨.refl before, rfl⟩
  | succ count ih =>
    unfold emitBy
    rw [Act.ends_bind, Act.ends_get]
    cases popped : pop? before.buffer with
    | none =>
      simp only [OrderingBuffer.popUpTo, popped]
      exact ⟨.refl before, rfl⟩
    | some next =>
      obtain ⟨frame, buffer⟩ := next
      simp only [OrderingBuffer.popUpTo, popped, List.mem_cons, forall_eq_or_imp] at writable ⊢
      obtain ⟨first, others⟩ := writable
      have ready : Session.headers { before with buffer } = some headers := known
      rw [Act.ends_bind, Act.ends_set, Act.ends_bind]
      refine (emit_ends ready first).imp ?_ ?_
      · rintro _ middle ⟨carried, same⟩
        have moved : before.Carried middle :=
          ⟨carried.converter, carried.options, carried.phase, carried.headers⟩
        refine (ih (moved.headers.trans known) (same ▸ others)).imp ?_ ?_
        · rintro _ after ⟨further, rest⟩
          exact ⟨moved.trans further, rest.trans (by rw [same])⟩
        · rintro fault after ⟨sink, further⟩
          exact ⟨sink, moved.trans further⟩
      · rintro fault middle ⟨sink, carried⟩
        exact ⟨sink, carried.converter, carried.options, carried.phase, carried.headers⟩

/-- The session with another output in the place of its own. -/
def onto (session : Session) (output : Output) : Session :=
  { session with recording := { session.recording with output } }

/-- Only the phase and the journal may have changed. -/
def Untouched (before after : Session) : Prop :=
  ∃ phase journal, after = { before.onto { before.recording.output with journal } with phase }

/-- Every frame that waits can be written. -/
def Ready (session : Session) : Prop :=
  ∃ headers, session.headers = some headers ∧
    ∀ frame ∈ session.buffer.frames, frame.Writable headers

theorem writable_of_placement {stream : UInt32} {pts millis : Int} {arrival : Nat} {payload : Bytes}
    (placed : placement headers stream pts = .ok millis) :
    WaitingFrame.Writable headers ⟨stream, pts, millis, arrival, payload⟩ := by
  unfold placement at placed
  cases found : headers.stream? stream with
  | none =>
    rw [found] at placed
    cases placed
  | some header =>
    rw [found] at placed
    dsimp only at placed
    split at placed
    · cases placed
    · rename_i fits
      obtain ⟨sign, coded⟩ := not_or.mp fits
      refine ⟨Int.not_lt.mp sign, (Draft.admits_iff found).mpr ?_⟩
      simpa [Option.isSome_iff_ne_none] using coded

theorem placement_error {stream : UInt32} {pts : Int} {fault : Fault}
    (refused : placement headers stream pts = .error fault) : fault.category = .conversion := by
  unfold placement at refused
  split at refused
  · cases refused
    rfl
  · split at refused
    · cases refused
      rfl
    · split at refused
      · cases refused
      · cases refused
        rfl

/-- A frame that was placed can be written with all the others. -/
theorem Ready.push {stream : UInt32} {pts millis : Int} (ready : before.Ready)
    (known : before.headers = some headers) (placed : placement headers stream pts = .ok millis)
    (payload : Bytes) :
    Ready { before with buffer := before.buffer.push stream pts millis payload } := by
  obtain ⟨_, own, writable⟩ := ready
  cases own.symm.trans known
  refine ⟨headers, known, fun frame member => ?_⟩
  rcases List.mem_cons.mp ((WaitingFrame.insertInto_perm _ _).mem_iff.mp member) with rfl | member
  · exact writable_of_placement placed
  · exact writable frame member

/-- Writing what is ready fails by the sink alone, and what stays can still be written. -/
theorem tick_ends (ready : before.Ready) :
    tick.Ends (fun _ after => before.Carried after ∧ after.Ready)
      (fun fault after => fault.category = .output ∧ before.Carried after) before := by
  obtain ⟨headers, known, writable⟩ := ready
  obtain ⟨line, _⟩ := before.buffer.drainReady_frames
  unfold tick
  rw [Act.ends_bind, Act.ends_get]
  apply (emitBy_ends known fun frame member => writable frame ?_).imp
  · rintro _ after ⟨carried, rest⟩
    refine ⟨carried, headers, carried.headers.trans known, fun frame member => ?_⟩
    apply writable
    rw [← line]
    rw [rest] at member
    exact List.mem_append_right _ member
  · exact fun _ _ fault => fault
  · rw [← line]
    exact List.mem_append_left _ member

/-- A frame that comes in turn goes where its placement says: into the buffer, from where
writing goes on, or back to the caller. -/
theorem ends_accept {stream : UInt32} {pts : Int} {payload : Bytes}
    {good : Unit → Session → Prop} (turn : before.phase = .accepting)
    (known : before.headers = some headers) :
    (accept stream pts payload).Ends good bad before ↔
      (∀ millis, placement headers stream pts = .ok millis →
        tick.Ends good (fun fault after => bad fault { after with phase := .failed })
          { before with buffer := before.buffer.push stream pts millis payload }) ∧
      ∀ fault, placement headers stream pts = .error fault →
        bad fault { before with phase := .failed } := by
  unfold accept
  rw [Act.ends_bind, ends_expect, ends_orFail, Act.ends_bind, ends_headersFor known, Act.ends_bind,
    ends_settle_ofRefusal]
  simp only [Act.ends_bind, Act.ends_modify]
  exact ⟨fun ends => ends.1 turn, fun ends => ⟨fun _ => ends, fun other => absurd turn other⟩⟩

/-- A frame that comes in turn is taken in, or refused before anything changes, or its
sink fails. -/
theorem accept_ends {stream : UInt32} {pts : Int} {payload : Bytes}
    (turn : before.phase = .accepting) (ready : before.Ready) :
    (accept stream pts payload).Ends (fun _ after => after.phase = .accepting ∧ after.Ready)
      (fun fault after => after.phase = .failed ∧
        (fault.category = .output ∨ fault.category = .conversion ∧ before.Untouched after))
      before := by
  obtain ⟨headers, known, _⟩ := id ready
  rw [ends_accept turn known]
  constructor
  · intro millis placed
    apply (tick_ends (ready.push known placed payload)).imp
    · rintro _ after ⟨carried, ready⟩
      exact ⟨carried.phase.trans turn, ready⟩
    · rintro fault after ⟨sink, _⟩
      exact ⟨rfl, .inl sink⟩
  · intro fault refused
    exact ⟨rfl, .inr ⟨placement_error refused, .failed, _, rfl⟩⟩

theorem notes_ends (notices : List Notice) : (notices.forM note).Ends
    (fun _ after => before.Untouched after ∧ after.phase = before.phase) (fun _ _ => False)
    before := by
  refine Act.ends_forM (fun notice _ middle held => ?_) ⟨⟨before.phase, _, rfl⟩, rfl⟩
  obtain ⟨⟨phase, journal, rfl⟩, same⟩ := held
  rw [note, ends_onRecording, Recording.ends_onOutput]
  exact ⟨⟨phase, _, rfl⟩, same⟩

/-- A frame that comes in turn is taken in, or refused before anything changes, or its
sink fails. -/
theorem writeFrame_ends {frame : Frame} (turn : before.phase = .accepting) (ready : before.Ready) :
    (writeFrame frame).Ends (fun _ after => after.phase = .accepting ∧ after.Ready)
      (fun fault after => after.phase = .failed ∧
        (fault.category = .output ∨ before.Untouched after ∧
          (fault.category = .conversion ∨ ∃ picture, frame.payload = .image picture ∧
            before.converter.format.encode picture = .error fault))) before := by
  obtain ⟨headers, known, writable⟩ := ready
  unfold writeFrame
  rw [Act.ends_bind, ends_expect]
  refine ⟨fun _ => ?_, fun other => absurd turn other⟩
  rw [Act.ends_bind, Act.ends_get, Act.ends_bind, ends_orFail, Act.ends_bind, ends_headersFor known]
  cases found : headers.stream? frame.stream with
  | none => exact Act.ends_refuse.mpr ⟨rfl, .inr ⟨⟨.failed, _, rfl⟩, .inl rfl⟩⟩
  | some header =>
    refine ends_settle.mpr ⟨fun converted converts => ?_, fun fault refused => ?_⟩
    · rw [Act.ends_bind]
      refine (notes_ends converted.notices).imp ?_ fun _ _ fault => fault.elim
      rintro _ middle ⟨⟨phase, journal, rfl⟩, same⟩
      refine (accept_ends (same.trans turn) ⟨headers, known, writable⟩).imp (fun _ _ taken => taken) ?_
      rintro fault after ⟨failed, sink | ⟨conversion, phase, journal, rfl⟩⟩
      · exact ⟨failed, .inl sink⟩
      · exact ⟨failed, .inr ⟨⟨phase, journal, rfl⟩, .inl conversion⟩⟩
    · exact ⟨rfl, .inr ⟨⟨.failed, _, rfl⟩, Converter.convert_error refused⟩⟩

/-- Headers that come in turn are written, or refused before anything changes, or their
sink fails. -/
theorem writeHeaders_ends {streams : List StreamDescriptor} (turn : before.phase = .created)
    (empty : before.buffer.frames = []) :
    (writeHeaders streams).Ends (fun _ after => after.phase = .accepting ∧ after.Ready)
      (fun fault after => after.phase = .failed ∧
        (fault.category = .output ∨ before.Untouched after ∧ fault.category = .validation))
      before := by
  unfold writeHeaders
  rw [Act.ends_bind, ends_expect]
  refine ⟨fun _ => ?_, fun other => absurd turn other⟩
  rw [Act.ends_bind, Act.ends_get, ends_orFail, Act.ends_bind, ends_settle_ofRefusal]
  refine ⟨fun headers _ => ?_, fun fault refused => ?_⟩
  · have fails : Act.FailsBySink (do
        Recording.book fun _ => .empty headers.streams.length
        Recording.writeHeaders headers) :=
      (Recording.failsBySink_book _).bind fun _ => Recording.failsBySink_writeHeaders headers
    rw [Act.ends_bind, ends_onRecording]
    refine (fails _).imp ?_ ?_
    · intro _ recording _
      refine ⟨rfl, headers, rfl, ?_⟩
      intro frame member
      change frame ∈ before.buffer.frames at member
      rw [empty] at member
      cases member
    · intro fault recording sink
      exact ⟨rfl, .inl sink⟩
  · exact ⟨rfl, .inr ⟨⟨.failed, _, rfl⟩, (HeaderPlan.build_error_iff.mp refused).category⟩⟩

/-- The index goes into the file, if there is to be one. -/
def layIndex (headers : Headers) : Act Session Bool := do
  let session ← get
  if session.options.writeIndex then onRecording (Recording.writeIndex headers) else pure false

/-- The file is let go of and summed up. -/
def sumUp (pending : Nat) (indexed : Bool) : Act Session Summary := do
  onRecording (Recording.onOutput Output.flush)
  note (.drained pending)
  let session ← get
  let ledger := session.recording.ledger
  return {
    frames := ledger.frameTotal
    frameCounts := ledger.frameCounts
    syncpoints := ledger.intervals.length
    size := session.recording.output.sink.position
    indexed
    late := session.late }

theorem finish_eq : finish = (do
    let session ← get
    drain
    let headers ← headersFor "close"
    let indexed ← layIndex headers
    sumUp session.buffer.size indexed) := by
  unfold finish layIndex sumUp
  simp only [bind_assoc]
  refine bind_congr fun session => bind_congr fun _ => bind_congr fun headers =>
    bind_congr fun session => ?_
  split
  · rfl
  · rfl

private theorem layIndex_ends (headers : Headers) :
    (layIndex headers).Ends (fun _ after => after.buffer = before.buffer)
      (fun fault _ => fault.category = .output) before := by
  unfold layIndex
  rw [Act.ends_bind, Act.ends_get]
  split
  · rw [ends_onRecording]
    exact (Recording.failsBySink_writeIndex headers _).imp (fun _ _ _ => rfl) fun _ _ sink => sink
  · rfl

private theorem sumUp_ends (pending : Nat) (indexed : Bool) :
    (sumUp pending indexed).Ends (fun _ after => after.buffer = before.buffer)
      (fun fault _ => fault.category = .output) before := by
  unfold sumUp
  rw [Act.ends_bind, ends_onRecording]
  refine (Recording.failsBySink_onOutput Output.failsBySink_flush _).imp (fun _ _ _ => ?_)
    fun _ _ sink => sink
  rw [Act.ends_bind]
  refine (note_ends _).imp ?_ fun _ _ fault => fault.elim
  rintro _ _ ⟨recording, rfl⟩
  rfl

/-- A file that is ended in turn has no frame left to write, or its sink fails. -/
theorem close_ends (turn : before.phase = .accepting) (ready : before.Ready) :
    close.Ends (fun _ after => after.phase = .closed ∧ after.buffer.frames = [])
      (fun fault after => after.phase = .failed ∧ fault.category = .output) before := by
  obtain ⟨headers, known, writable⟩ := ready
  obtain ⟨whole, none⟩ := Prod.ext_iff.mp before.buffer.drainAll_eq
  unfold close
  rw [Act.ends_bind, ends_expect]
  refine ⟨fun _ => ?_, fun other => absurd turn other⟩
  rw [Act.ends_bind, Act.ends_modify, Act.ends_bind, ends_orFail, finish_eq, Act.ends_bind,
    Act.ends_get, Act.ends_bind]
  unfold drain
  rw [Act.ends_bind, Act.ends_get]
  have known : Session.headers { before with phase := .closing } = some headers := known
  refine (emitBy_ends known fun frame member => ?_).imp ?_ fun _ _ fault => ⟨rfl, fault.1⟩
  · change frame ∈ before.buffer.drainAll.1 at member
    rw [whole] at member
    exact writable frame member
  · rintro _ middle ⟨carried, rest⟩
    change middle.buffer = before.buffer.drainAll.2 at rest
    rw [Act.ends_bind, ends_headersFor (carried.headers.trans known), Act.ends_bind]
    refine (layIndex_ends headers).imp (fun indexed after same => ?_) fun _ _ sink => ⟨rfl, sink⟩
    refine (sumUp_ends _ indexed).imp (fun summary last kept => ?_) fun _ _ sink => ⟨rfl, sink⟩
    rw [Act.ends_bind, Act.ends_modify, Act.ends_bind]
    refine (note_ends _).imp ?_ fun _ _ fault => fault.elim
    rintro _ _ ⟨recording, rfl⟩
    refine ⟨rfl, ?_⟩
    change last.buffer.frames = []
    rw [kept, same, rest, none]

end Session

end NutContainer
