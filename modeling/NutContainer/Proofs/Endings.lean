import NutContainer.Proofs.Draft
import NutContainer.Proofs.Success

/-! How an action can end: well, in a refusal or in a crash. All endings are stated
together, as what is known of the state that is left behind, so that a longer action is
taken apart step by step and no proof has to follow a failure out by hand. Mostly nothing
is to be said of a crash, which has a form of its own. Here it is also said once which
faults laying down a file can end in: only those of the sink. -/
namespace NutContainer

/-- Two results one after the other are a fault when one of them is. -/
theorem except_bind_error {first : Except ε α} {next : α → Except ε β} {fault : ε} :
    first >>= next = .error fault ↔
      first = .error fault ∨ ∃ value, first = .ok value ∧ next value = .error fault := by
  cases first with
  | error other => simp [bind, Except.bind]
  | ok value => simp [bind, Except.bind]

namespace Act

variable {σ τ α β : Type} {good : α → σ → Prop} {broken : Failure → σ → Prop}
  {bad : Fault → σ → Prop} {before : σ}

/-- Started in this state, the action comes to what is good or breaks off in what is
broken. -/
def Comes (act : Act σ α) (good : α → σ → Prop) (broken : Failure → σ → Prop) (before : σ) : Prop :=
  match act before with
  | .ok value after => good value after
  | .error failure after => broken failure after

/-- What is known behind a refusal. Behind a crash nothing is. -/
def told (bad : Fault → σ → Prop) (failure : Failure) (after : σ) : Prop :=
  ∀ fault, failure = .refused fault → bad fault after

/-- Started in this state, the action ends well in what is good or in a fault in what is
bad, unless it crashes. -/
def Ends (act : Act σ α) (good : α → σ → Prop) (bad : Fault → σ → Prop) (before : σ) : Prop :=
  act.Comes good (told bad) before

/-- The state that an action leaves behind, whichever way it ends. -/
def after (act : Act σ α) (before : σ) : σ :=
  match act before with
  | .ok _ after => after
  | .error _ after => after

theorem bind_of_ok {first : Act σ β} {next : β → Act σ α} {value : β} {before middle : σ}
    (ran : first before = .ok value middle) : (first >>= next) before = next value middle := by
  change EStateM.bind first next before = _
  rw [EStateM.bind, ran]

theorem bind_of_error {first : Act σ β} {next : β → Act σ α} {failure : Failure} {before after : σ}
    (ran : first before = .error failure after) :
    (first >>= next) before = .error failure after := by
  change EStateM.bind first next before = _
  rw [EStateM.bind, ran]

theorem map_of_error {change : β → α} {act : Act σ β} {failure : Failure} {before after : σ}
    (ran : act before = .error failure after) : (change <$> act) before = .error failure after := by
  change EStateM.map change act before = _
  rw [EStateM.map, ran]

theorem after_of_ok {act : Act σ α} {value : α} {before after : σ}
    (ran : act before = .ok value after) : act.after before = after := by
  rw [Act.after, ran]

theorem after_of_error {act : Act σ α} {failure : Failure} {before after : σ}
    (ran : act before = .error failure after) : act.after before = after := by
  rw [Act.after, ran]

theorem Comes.imp {act : Act σ α} (comes : act.Comes good broken before)
    {better : α → σ → Prop} {worse : Failure → σ → Prop}
    (well : ∀ value after, good value after → better value after)
    (badly : ∀ failure after, broken failure after → worse failure after) :
    act.Comes better worse before := by
  unfold Comes at comes ⊢
  cases ran : act before with
  | ok value after =>
    rw [ran] at comes
    exact well value after comes
  | error failure after =>
    rw [ran] at comes
    exact badly failure after comes

theorem Comes.ok {act : Act σ α} (comes : act.Comes good broken before) {value : α} {after : σ}
    (ran : act before = .ok value after) : good value after := by
  rwa [Comes, ran] at comes

theorem Comes.error {act : Act σ α} (comes : act.Comes good broken before) {failure : Failure}
    {after : σ} (ran : act before = .error failure after) : broken failure after := by
  rwa [Comes, ran] at comes

/-- An action comes to what it comes to. -/
theorem comes_self (act : Act σ α) (before : σ) :
    act.Comes (fun value after => act before = .ok value after)
      (fun failure after => act before = .error failure after) before := by
  unfold Comes
  cases act before with
  | ok value after => rfl
  | error failure after => rfl

/-- Beside what is known of its ending, the action is known to have come to it. -/
theorem Comes.ran {act : Act σ α} (comes : act.Comes good broken before) :
    act.Comes (fun value after => act before = .ok value after ∧ good value after)
      (fun failure after => act before = .error failure after ∧ broken failure after) before := by
  unfold Comes at comes ⊢
  cases ran : act before with
  | ok value after =>
    rw [ran] at comes
    exact ⟨rfl, comes⟩
  | error failure after =>
    rw [ran] at comes
    exact ⟨rfl, comes⟩

theorem comes_bind {first : Act σ β} {next : β → Act σ α} :
    Comes (first >>= next) good broken before ↔
      first.Comes (fun value middle => (next value).Comes good broken middle) broken before := by
  change Comes (EStateM.bind first next) good broken before ↔ _
  cases ran : first before with
  | ok value middle => simp [Comes, EStateM.bind, ran]
  | error failure middle => simp [Comes, EStateM.bind, ran]

theorem comes_map {change : β → α} {act : Act σ β} :
    Comes (change <$> act) good broken before ↔
      act.Comes (fun value after => good (change value) after) broken before := by
  change Comes (EStateM.map change act) good broken before ↔ _
  cases ran : act before with
  | ok value middle => simp [Comes, EStateM.map, ran]
  | error failure middle => simp [Comes, EStateM.map, ran]

theorem comes_get {good : σ → σ → Prop} : Comes get good broken before ↔ good before before :=
  Iff.rfl

theorem comes_set {good : PUnit → σ → Prop} {value : σ} :
    Comes (set value) good broken before ↔ good ⟨⟩ value := Iff.rfl

theorem comes_modify {good : PUnit → σ → Prop} {change : σ → σ} :
    Comes (modify change) good broken before ↔ good ⟨⟩ (change before) := Iff.rfl

/-- What is insisted on holds behind it, and without it there is a crash. -/
theorem comes_insist {condition : Prop} [Decidable condition] {good : Unit → σ → Prop} :
    Comes (insist condition) good broken before ↔
      (condition → good () before) ∧ (¬ condition → broken .crash before) := by
  unfold insist
  by_cases holds : condition
  · rw [if_pos holds]
    exact ⟨fun comes => ⟨fun _ => comes, fun fails => absurd holds fails⟩,
      fun comes => comes.1 holds⟩
  · rw [if_neg holds]
    exact ⟨fun comes => ⟨fun met => absurd met holds, fun _ => comes⟩,
      fun comes => comes.2 holds⟩

theorem told_refused {fault : Fault} {after : σ} :
    told bad (.refused fault) after ↔ bad fault after := by
  simp [told]

theorem told_crash (after : σ) : told bad .crash after := fun _ same => nomatch same

theorem Ends.imp {act : Act σ α} (ends : act.Ends good bad before)
    {better : α → σ → Prop} {worse : Fault → σ → Prop}
    (well : ∀ value after, good value after → better value after)
    (badly : ∀ fault after, bad fault after → worse fault after) : act.Ends better worse before :=
  Comes.imp ends well fun _ after known fault same => badly fault after (known fault same)

theorem Ends.ok {act : Act σ α} (ends : act.Ends good bad before) {value : α} {after : σ}
    (ran : act before = .ok value after) : good value after :=
  Comes.ok ends ran

theorem Ends.error {act : Act σ α} (ends : act.Ends good bad before) {fault : Fault} {after : σ}
    (ran : act before = .error (.refused fault) after) : bad fault after :=
  Comes.error ends ran fault rfl

/-- Beside what is known of its ending, the action is known to have ended so. -/
theorem Ends.ran {act : Act σ α} (ends : act.Ends good bad before) :
    act.Ends (fun value after => act before = .ok value after ∧ good value after)
      (fun fault after => act before = .error (.refused fault) after ∧ bad fault after) before := by
  refine (Comes.ran ends).imp (fun _ _ known => known) ?_
  rintro _ after ⟨ran, known⟩ fault rfl
  exact ⟨ran, known fault rfl⟩

theorem ends_bind {first : Act σ β} {next : β → Act σ α} :
    Ends (first >>= next) good bad before ↔
      first.Ends (fun value middle => (next value).Ends good bad middle) bad before :=
  comes_bind

theorem ends_map {change : β → α} {act : Act σ β} :
    Ends (change <$> act) good bad before ↔
      act.Ends (fun value after => good (change value) after) bad before :=
  comes_map

theorem ends_pure {value : α} : Ends (pure value) good bad before ↔ good value before := Iff.rfl

theorem ends_refuse {fault : Fault} : Ends (refuse fault) good bad before ↔ bad fault before :=
  told_refused

theorem ends_insist {condition : Prop} [Decidable condition] {good : Unit → σ → Prop} :
    Ends (insist condition) good bad before ↔ (condition → good () before) :=
  comes_insist.trans (and_iff_left fun _ => told_crash before)

theorem ends_get {good : σ → σ → Prop} : Ends get good bad before ↔ good before before :=
  comes_get

theorem ends_set {good : PUnit → σ → Prop} {value : σ} :
    Ends (set value) good bad before ↔ good ⟨⟩ value := comes_set

theorem ends_modify {good : PUnit → σ → Prop} {change : σ → σ} :
    Ends (modify change) good bad before ↔ good ⟨⟩ (change before) := comes_modify

/-- What holds between steps of a list of actions holds at its end. -/
theorem comes_forM {items : List β} {act : β → Act σ PUnit} {Holds : σ → Prop}
    (step : ∀ item ∈ items, ∀ before, Holds before →
      (act item).Comes (fun _ => Holds) broken before)
    (holds : Holds before) : (items.forM act).Comes (fun _ => Holds) broken before := by
  induction items generalizing before with
  | nil => exact holds
  | cons item others ih =>
    change Comes (act item >>= fun _ => others.forM act) _ broken before
    rw [comes_bind]
    refine (step item (by simp) before holds).imp (fun _ middle kept => ?_) fun _ _ known => known
    exact ih (fun other member => step other (by simp [member])) kept

theorem ends_forM {items : List β} {act : β → Act σ PUnit} {Holds : σ → Prop}
    (step : ∀ item ∈ items, ∀ before, Holds before → (act item).Ends (fun _ => Holds) bad before)
    (holds : Holds before) : (items.forM act).Ends (fun _ => Holds) bad before :=
  comes_forM step holds

/-- The action fails only where its sink does. -/
def FailsBySink (act : Act σ α) : Prop :=
  ∀ before, act.Ends (fun _ _ => True) (fun fault _ => fault.category = .output) before

theorem FailsBySink.bind {first : Act σ β} {next : β → Act σ α} (one : first.FailsBySink)
    (other : ∀ value, (next value).FailsBySink) : FailsBySink (first >>= next) := by
  intro before
  rw [ends_bind]
  exact (one before).imp (fun value middle _ => other value middle) fun _ _ sink => sink

theorem failsBySink_pure (value : α) : FailsBySink (pure value : Act σ α) := fun _ => trivial

theorem failsBySink_insist (condition : Prop) [Decidable condition] :
    FailsBySink (insist condition : Act σ Unit) := fun _ => ends_insist.mpr fun _ => trivial

theorem failsBySink_forM {items : List β} {act : β → Act σ PUnit}
    (each : ∀ item, (act item).FailsBySink) : (items.forM act).FailsBySink := by
  intro before
  exact ends_forM (fun item _ before _ => each item before) trivial

end Act

namespace Output

theorem comes_onSink {act : Act Sink α} {good : α → Output → Prop}
    {broken : Failure → Output → Prop} {before : Output} :
    (onSink act).Comes good broken before ↔
      act.Comes (fun value sink => good value ⟨sink, before.journal⟩)
        (fun failure sink => broken failure ⟨sink, before.journal⟩) before.sink := by
  obtain ⟨sink, journal⟩ := before
  cases ran : act sink with
  | ok value middle => simp [Act.Comes, onSink, ran]
  | error failure middle => simp [Act.Comes, onSink, ran]

theorem ends_onSink {act : Act Sink α} {good : α → Output → Prop} {bad : Fault → Output → Prop}
    {before : Output} : (onSink act).Ends good bad before ↔
      act.Ends (fun value sink => good value ⟨sink, before.journal⟩)
        (fun fault sink => bad fault ⟨sink, before.journal⟩) before.sink :=
  comes_onSink

theorem failsBySink_write (bytes : Bytes) : (write bytes).FailsBySink := by
  intro before
  rw [write, Act.Ends, comes_onSink, Act.Comes, Sink.write]
  cases before.sink.policy.reply before.sink.calls before.sink.stored.size bytes.length with
  | taken => trivial
  | refused kept => exact Act.told_refused.mpr rfl

theorem failsBySink_flush : flush.FailsBySink := by
  intro before
  rw [flush, Act.Ends, comes_onSink, Act.Comes, Sink.flush]
  cases before.sink.policy.flushRefusal with
  | none => trivial
  | some reason => exact Act.told_refused.mpr rfl

theorem failsBySink_note (notice : Notice) : (note notice).FailsBySink := fun _ => trivial

theorem failsBySink_position : position.FailsBySink := fun _ => trivial

theorem failsBySink_writePacket (packet : Packet) : (writePacket packet).FailsBySink :=
  (failsBySink_write _).bind fun _ => (failsBySink_write _).bind fun _ =>
    (failsBySink_write _).bind fun _ => Act.failsBySink_pure _

end Output

namespace Recording

theorem comes_onOutput {act : Act Output α} {good : α → Recording → Prop}
    {broken : Failure → Recording → Prop} {before : Recording} :
    (onOutput act).Comes good broken before ↔
      act.Comes (fun value output => good value ⟨before.ledger, output⟩)
        (fun failure output => broken failure ⟨before.ledger, output⟩) before.output := by
  obtain ⟨ledger, output⟩ := before
  cases ran : act output with
  | ok value middle => simp [Act.Comes, onOutput, ran]
  | error failure middle => simp [Act.Comes, onOutput, ran]

theorem ends_onOutput {act : Act Output α} {good : α → Recording → Prop}
    {bad : Fault → Recording → Prop} {before : Recording} :
    (onOutput act).Ends good bad before ↔
      act.Ends (fun value output => good value ⟨before.ledger, output⟩)
        (fun fault output => bad fault ⟨before.ledger, output⟩) before.output :=
  comes_onOutput

theorem comes_position {good : Nat → Recording → Prop} {broken : Failure → Recording → Prop}
    {before : Recording} :
    (onOutput Output.position).Comes good broken before ↔
      good before.output.sink.position before := Iff.rfl

theorem comes_books {good : Ledger → Recording → Prop} {broken : Failure → Recording → Prop}
    {before : Recording} : books.Comes good broken before ↔ good before.ledger before := Iff.rfl

theorem comes_book {change : Ledger → Ledger} {good : Unit → Recording → Prop}
    {broken : Failure → Recording → Prop} {before : Recording} :
    (book change).Comes good broken before ↔ good () ⟨change before.ledger, before.output⟩ := Iff.rfl

theorem failsBySink_onOutput {act : Act Output α} (fails : act.FailsBySink) :
    (onOutput act).FailsBySink := by
  intro before
  rw [ends_onOutput]
  exact fails before.output

theorem failsBySink_book (change : Ledger → Ledger) : (book change).FailsBySink := fun _ => trivial

theorem failsBySink_books : books.FailsBySink := fun _ => trivial

theorem failsBySink_writeHeaders (headers : Headers) : (writeHeaders headers).FailsBySink := by
  refine failsBySink_onOutput ?_
  refine (Output.failsBySink_write _).bind fun _ => ?_
  refine (Output.failsBySink_writePacket _).bind fun _ => ?_
  refine Act.FailsBySink.bind (Act.failsBySink_forM fun stream => ?_) fun _ => ?_
  · exact (Output.failsBySink_writePacket _).bind fun _ => Act.failsBySink_pure _
  · exact Output.failsBySink_position.bind fun _ => Output.failsBySink_note _

theorem failsBySink_writeSyncpoint (headers : Headers) (stream : UInt32) (pts : Nat) :
    (writeSyncpoint headers stream pts).FailsBySink := by
  refine (failsBySink_onOutput Output.failsBySink_position).bind fun _ => ?_
  refine failsBySink_books.bind fun _ => (Act.failsBySink_insist _).bind fun _ => ?_
  refine (failsBySink_onOutput (Output.failsBySink_writePacket _)).bind fun _ => ?_
  exact (failsBySink_book _).bind fun _ => failsBySink_onOutput (Output.failsBySink_note _)

theorem failsBySink_writeRecord (headers : Headers) (header : StreamHeader) (stream : UInt32)
    (pts : Nat) (payload : Bytes) : (writeRecord headers header stream pts payload).FailsBySink := by
  refine (failsBySink_onOutput Output.failsBySink_position).bind fun _ => ?_
  refine (failsBySink_onOutput (Output.failsBySink_write _)).bind fun _ => ?_
  refine (failsBySink_onOutput (Output.failsBySink_write _)).bind fun _ => ?_
  refine (failsBySink_book _).bind fun _ => ?_
  refine (failsBySink_onOutput (Output.failsBySink_note _)).bind fun _ => ?_
  exact (failsBySink_onOutput Output.failsBySink_position).bind fun _ => Act.failsBySink_pure _

/-- A frame that the file admits is refused by nothing but the sink. -/
theorem failsBySink_writeFrame {headers : Headers} {stream : UInt32} {pts : Nat}
    (admits : headers.Admits stream pts) (payload : Bytes) :
    (writeFrame headers stream pts payload).FailsBySink := by
  obtain ⟨header, found⟩ := admits.header
  have coded : ¬ (codedTime? pts stream.toNat headers.clockCount).isNone := by
    simpa using Option.isSome_iff_ne_none.mp admits.2
  unfold writeFrame
  rw [found]
  dsimp only
  rw [if_neg coded]
  refine (Act.failsBySink_insist _).bind fun _ => ?_
  refine (failsBySink_onOutput Output.failsBySink_position).bind fun _ => ?_
  refine failsBySink_books.bind fun ledger => ?_
  split
  · exact (failsBySink_writeSyncpoint _ _ _).bind fun _ => failsBySink_writeRecord _ _ _ _ _
  · exact failsBySink_writeRecord _ _ _ _ _

theorem failsBySink_writeIndex (headers : Headers) : (writeIndex headers).FailsBySink := by
  refine failsBySink_books.bind fun ledger => ?_
  split
  · exact Act.failsBySink_pure _
  · refine (Act.failsBySink_insist _).bind fun _ => ?_
    refine (failsBySink_onOutput (Output.failsBySink_writePacket _)).bind fun _ => ?_
    exact (failsBySink_onOutput (Output.failsBySink_note _)).bind fun _ => Act.failsBySink_pure _

end Recording

end NutContainer
