import NutContainer.Proofs.AmpleSink
import NutContainer.Proofs.SessionHistory
import NutContainer.Proofs.SessionOutput

/-! What is left when a sink fails. The same calls are made on a sink that may fail at any
byte and on memory; the two runs are followed side by side, call by call. They go the same
way until the sink fails. That call ends the session, so nothing is added afterwards, while
the file in memory only grows: what the sink has is the front of it, then and ever after. -/
namespace NutContainer

/-- Every call that asks one thing does on any sink what it does on an ample one, or fails by
the sink. -/
theorem Call.tracks {call : Call} (single : call.isSingle) : call.act.Tracks := by
  cases call with
  | writeHeaders streams => exact (Session.tracks_writeHeaders streams).bind fun _ => Act.tracks_pure _
  | writeFrame frame => exact (Session.tracks_writeFrame frame).bind fun _ => Act.tracks_pure _
  | accept stream pts payload =>
    exact (Session.tracks_accept stream pts payload).bind fun _ => Act.tracks_pure _
  | close => exact Session.tracks_close.map some
  | mux supply => cases single

namespace Session

/-- The call came to a fault of the sink. -/
def FellToSink (outcome : Outcome) : Prop :=
  ∃ fault, outcome = .error (.refused fault) ∧ fault.category = .output

/-- The call was refused by a session that has failed. -/
def RefusedAfterFailure (outcome : Outcome) : Prop :=
  ∃ operation, outcome = .error (.refused (.wrongPhase operation "failed"))

variable {before after : Session} {call : Call} {calls : List Call} {outcome : Outcome}
  {outcomes : List Outcome}

theorem call_after (before : Session) (call : Call) :
    (before.call call).2 = call.act.after before := by
  unfold Session.call Act.after
  cases call.act before with
  | ok told after => rfl
  | error fault after => rfl

theorem run_grows (single : ∀ call ∈ calls, call.isSingle)
    (ran : before.run calls = (outcomes, after)) :
    before.recording.output.sink.Grows after.recording.output.sink := by
  induction calls generalizing before outcomes with
  | nil =>
    cases ran
    exact .refl _
  | cons call others ih =>
    obtain ⟨outcome, middle, told, called, rest, rfl⟩ := run_cons ran
    obtain ⟨one, alone⟩ := List.forall_mem_cons.mp single
    have grows := (Call.tracks one).after before
    rw [← call_after, called] at grows
    exact grows.trans (ih alone rest)

/-- A refusal by the sink ends the session. -/
def EndsBySink (act : Act Session α) : Prop :=
  ∀ before, act.Ends (fun _ _ => True)
    (fun fault after => fault.category = .output → after.phase = .failed) before

theorem EndsBySink.bind {first : Act Session β} {next : β → Act Session α} (one : EndsBySink first)
    (other : ∀ value, EndsBySink (next value)) : EndsBySink (first >>= next) := by
  intro before
  rw [Act.ends_bind]
  exact (one before).imp (fun value middle _ => other value middle) fun _ _ ended => ended

theorem endsBySink_pure (value : α) : EndsBySink (pure value) := fun _ => trivial

theorem endsBySink_expect (phase : Phase) (operation : String) :
    EndsBySink (expect phase operation) :=
  fun _ => ends_expect.mpr ⟨fun _ => trivial, fun _ sink => nomatch sink⟩

theorem endsBySink_orFail (act : Act Session α) : EndsBySink (orFail act) := by
  intro before
  refine ends_orFail.mpr ((Act.comes_self act before).imp (fun _ _ _ => trivial) ?_)
  exact fun _ _ _ _ _ _ => rfl

theorem endsBySink_note (notice : Notice) : EndsBySink (note notice) :=
  fun _ => (note_ends notice).imp (fun _ _ _ => trivial) fun _ _ => False.elim

theorem endsBySink_notes (notices : List Notice) : EndsBySink (notices.forM note) :=
  fun _ => (notes_ends notices).imp (fun _ _ _ => trivial) fun _ _ => False.elim

theorem endsBySink_accept (stream : UInt32) (pts : Int) (payload : Bytes) :
    EndsBySink (accept stream pts payload) :=
  (endsBySink_expect _ _).bind fun _ => endsBySink_orFail _

/-- Every call that asks one thing ends the session where the sink refuses it, whatever state
the session was in. -/
theorem endsBySink_call (single : call.isSingle) : EndsBySink call.act := by
  cases call with
  | writeHeaders streams =>
    refine EndsBySink.bind ((endsBySink_expect _ _).bind fun _ => ?_) fun _ => endsBySink_pure _
    exact EndsBySink.bind (fun _ => trivial) fun _ => endsBySink_orFail _
  | writeFrame frame =>
    refine EndsBySink.bind ((endsBySink_expect _ _).bind fun _ => ?_) fun _ => endsBySink_pure _
    refine EndsBySink.bind (fun _ => trivial) fun _ => (endsBySink_orFail _).bind fun _ => ?_
    exact (endsBySink_notes _).bind fun _ => endsBySink_accept _ _ _
  | accept stream pts payload => exact (endsBySink_accept _ _ _).bind fun _ => endsBySink_pure _
  | close =>
    refine fun before => Act.ends_map.mpr (EndsBySink.bind ?_ ?_ before)
    · exact endsBySink_expect _ _
    · refine fun _ => EndsBySink.bind (fun _ => trivial) fun _ => ?_
      refine (endsBySink_orFail _).bind fun _ => EndsBySink.bind (fun _ => trivial) fun _ => ?_
      exact (endsBySink_note _).bind fun _ => endsBySink_pure _
  | mux supply => cases single

/-- A call comes to the same on an ample sink, or it fails by the sink with a part of the
file. -/
theorem call_beside (single : call.isSingle)
    (called : before.call call = (outcome, after)) :
    (OwnsSink.ample before).call call = (outcome, OwnsSink.ample after) ∨
      FellToSink outcome ∧ after.phase = .failed ∧
        after.file <+: ((OwnsSink.ample before).call call).2.file := by
  have beside := (Call.tracks single).beside before
  cases outcome with
  | ok told => exact .inl (call_ok.mpr (beside.ok (call_ok.mp called)))
  | error failure =>
    rcases beside.error (call_error.mp called) with same | ⟨⟨fault, rfl, category⟩, part⟩
    · exact .inl (call_error.mpr same)
    · exact .inr ⟨⟨fault, rfl, category⟩,
        (endsBySink_call single before).error (call_error.mp called) category,
        by rwa [call_after]⟩

/-- A session that has failed refuses all calls and keeps what it has. -/
theorem run_of_failed (failed : before.phase = .failed)
    (single : ∀ call ∈ calls, call.isSingle) (ran : before.run calls = (outcomes, after)) :
    after = before ∧ ∀ outcome ∈ outcomes, RefusedAfterFailure outcome := by
  induction calls generalizing outcomes with
  | nil =>
    cases ran
    simp
  | cons call others ih =>
    obtain ⟨outcome, middle, told, called, rest, rfl⟩ := run_cons ran
    obtain ⟨one, alone⟩ := List.forall_mem_cons.mp single
    rw [call_of_ended one (.inl failed)] at called
    cases called
    obtain ⟨same, refused⟩ := ih alone rest
    refine ⟨same, ?_⟩
    intro outcome member
    rcases List.mem_cons.mp member with rfl | member
    · exact ⟨call.operation, by rw [failed, Phase.name]⟩
    · exact refused outcome member

/-- As long as the sink does not fail, both runs come to the same. -/
theorem run_agrees (single : ∀ call ∈ calls, call.isSingle) (ran : before.run calls = (outcomes, after))
    {agreed rest : List Outcome} (split : outcomes = agreed ++ rest)
    (held : ∀ outcome ∈ agreed, ¬ FellToSink outcome) :
    agreed <+: ((OwnsSink.ample before).run calls).1 := by
  induction calls generalizing before outcomes agreed with
  | nil =>
    cases ran
    rw [(List.nil_eq_append_iff.mp split).1]
    exact List.nil_prefix
  | cons call others ih =>
    obtain ⟨outcome, middle, told, called, rest, rfl⟩ := run_cons ran
    obtain ⟨one, alone⟩ := List.forall_mem_cons.mp single
    cases agreed with
    | nil => exact List.nil_prefix
    | cons first agreed =>
      obtain ⟨rfl, tails⟩ := List.cons.inj split
      rcases call_beside one called with same | ⟨fell, _⟩
      · simp only [run, same, List.cons_prefix_cons, true_and]
        exact ih alone rest tails
          fun outcome member => held outcome (by simp [member])
      · exact absurd fell (held _ (by simp))

/-- From a fault of the sink on, every call is refused. -/
theorem run_refuses (single : ∀ call ∈ calls, call.isSingle) (ran : before.run calls = (outcomes, after))
    {earlier later : List Outcome} {fallen : Outcome} (split : outcomes = earlier ++ fallen :: later)
    (fell : FellToSink fallen) : ∀ outcome ∈ later, RefusedAfterFailure outcome := by
  induction calls generalizing before outcomes earlier with
  | nil =>
    cases ran
    simp at split
  | cons call others ih =>
    obtain ⟨outcome, middle, told, called, rest, rfl⟩ := run_cons ran
    obtain ⟨one, alone⟩ := List.forall_mem_cons.mp single
    cases earlier with
    | nil =>
      obtain ⟨rfl, rfl⟩ := List.cons.inj split
      obtain ⟨fault, rfl, category⟩ := fell
      have failed := (endsBySink_call one before).error (call_error.mp called) category
      exact (run_of_failed failed alone rest).2
    | cons first earlier =>
      obtain ⟨rfl, tails⟩ := List.cons.inj split
      exact ih alone rest tails

/-- What the sink has is the front of what an ample one has. -/
theorem run_part (single : ∀ call ∈ calls, call.isSingle) (ran : before.run calls = (outcomes, after)) :
    after.file <+: ((OwnsSink.ample before).run calls).2.file := by
  induction calls generalizing before outcomes with
  | nil =>
    cases ran
    exact List.prefix_rfl
  | cons call others ih =>
    obtain ⟨outcome, middle, told, called, rest, rfl⟩ := run_cons ran
    obtain ⟨one, alone⟩ := List.forall_mem_cons.mp single
    rcases call_beside one called with same | ⟨_, failed, part⟩
    · simp only [run, same]
      exact ih alone rest
    · -- nothing is added here any more, while the ample file still grows
      obtain ⟨rfl, _⟩ := run_of_failed failed alone rest
      exact part.trans (run_grows alone rfl).stored

/-- The same calls on a sink that may fail and on memory. All outcomes agree up to the first
fault of the sink, and all that come after it are refusals. After any calls, the sink has the
front of what memory has; and the position is the number of its bytes, if it stores
nothing of a write that it refuses. -/
theorem failing_sink_leaves_prefix {format : ImageFormat} {options : Options}
    {policy : Sink.Policy} {roomy scarce full left : Session} {wanted : List Outcome}
    (roomyStarted : start format options .memory = .ok roomy)
    (scarceStarted : start format options policy = .ok scarce)
    (single : ∀ call ∈ calls, call.isSingle)
    (roomyRan : roomy.run calls = (wanted, full)) (scarceRan : scarce.run calls = (outcomes, left)) :
    (∀ agreed rest, outcomes = agreed ++ rest → (∀ outcome ∈ agreed, ¬ FellToSink outcome) →
      agreed <+: wanted) ∧
    (∀ earlier fallen later, outcomes = earlier ++ fallen :: later → FellToSink fallen →
      ∀ outcome ∈ later, RefusedAfterFailure outcome) ∧
    left.file <+: full.file ∧
    (policy.StoresWhole → left.recording.output.sink.position = left.file.length) := by
  obtain ⟨_, rfl⟩ := start_ok.mp scarceStarted
  obtain ⟨_, rfl⟩ := start_ok.mp roomyStarted
  -- the sink's manner is all that tells the two sessions apart
  have same : fresh format options .memory = OwnsSink.ample (fresh format options policy) := rfl
  rw [same] at roomyRan
  refine ⟨fun agreed rest split held => ?_, fun earlier fallen later split fell => ?_, ?_, ?_⟩
  · have agrees := run_agrees single scarceRan split held
    rwa [roomyRan] at agrees
  · exact run_refuses single scarceRan split fell
  · have part := run_part single scarceRan
    rwa [roomyRan] at part
  · intro whole
    have even := (run_grows single scarceRan).even whole rfl
    rw [even, file, Array.length_toList]

/-- A session like the sample, into room for 140 bytes. -/
def tightSample : Session :=
  fresh (.packed .bgr24) { windowMillis := 10 } (.wholeOrNothing (some 140) "full" none)

/-- The calls that make the sample's file. -/
def sampleCalls : List Call := .writeHeaders sampleStreams :: sampleFeeds ++ [.close]

theorem failing_sink_leaves_prefix_sample :
    ∃ full left, sample.run sampleCalls =
        ([.ok none, .ok none, .ok none, .ok none, .ok (some sampleSummary)], full) ∧
      tightSample.run sampleCalls =
        ([.ok none, .ok none, .ok none, .error (.refused (.output "full")),
          .error (.refused (.wrongPhase "close" "failed"))], left) ∧
      left.file <+: full.file ∧ left.recording.output.sink.position = left.file.length := by
  obtain ⟨full, roomy⟩ : ∃ full, sample.run sampleCalls =
      ([.ok none, .ok none, .ok none, .ok none, .ok (some sampleSummary)], full) :=
    ⟨_, run_of_outcomes (by decide +kernel)⟩
  obtain ⟨left, tight⟩ : ∃ left, tightSample.run sampleCalls =
      ([.ok none, .ok none, .ok none, .error (.refused (.output "full")),
        .error (.refused (.wrongPhase "close" "failed"))], left) :=
    ⟨_, run_of_outcomes (by decide +kernel)⟩
  obtain ⟨_, _, part, even⟩ := failing_sink_leaves_prefix (start_ok.mpr ⟨rfl, rfl⟩)
    (start_ok.mpr ⟨rfl, rfl⟩) (by decide) roomy tight
  exact ⟨full, left, roomy, tight, part, even (Sink.Policy.storesWhole_wholeOrNothing _ _ _)⟩

end Session

end NutContainer
