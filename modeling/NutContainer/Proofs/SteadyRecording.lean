import NutContainer.Proofs.HeaderCodec
import NutContainer.Proofs.LedgerRows
import NutContainer.Proofs.WriterTurns

/-! When a file in the making does not crash. Distances are taken at every sync point, back to the
one before it, and at the index, between all of them. None is missing as long as the sync points do
not fall and the output does not stand in front of the last of them. The first holds on any outputs,
also on exchanged ones, since a sync point out of order crashes before it is entered. The second
holds on one output, because its position never moves back. -/
namespace NutContainer

namespace Act

variable {σ α β : Type} {Holds : σ → Prop} {before : σ}

/-- What holds before the action holds behind it, however it ends. -/
def Keeps (act : Act σ α) (Holds : σ → Prop) : Prop :=
  ∀ before, Holds before → act.Comes (fun _ after => Holds after) (fun _ after => Holds after) before

theorem Keeps.bind {first : Act σ β} {next : β → Act σ α} (one : first.Keeps Holds)
    (other : ∀ value, (next value).Keeps Holds) : (first >>= next).Keeps Holds := by
  intro before holds
  rw [comes_bind]
  apply (one before holds).imp
  · intro value middle still
    exact other value middle still
  · exact fun _ _ still => still

theorem keeps_pure (value : α) : (pure value : Act σ α).Keeps Holds := fun _ holds => holds

theorem keeps_throw (failure : Failure) : (throw failure : Act σ α).Keeps Holds :=
  fun _ holds => holds

theorem keeps_refuse (fault : Fault) : (refuse fault : Act σ α).Keeps Holds := keeps_throw _

theorem keeps_get : (get : Act σ σ).Keeps Holds := fun _ holds => holds

theorem keeps_modify {change : σ → σ} (kept : ∀ state, Holds state → Holds (change state)) :
    (modify change : Act σ PUnit).Keeps Holds := fun before holds => kept before holds

theorem keeps_forM {items : List β} {act : β → Act σ PUnit}
    (each : ∀ item ∈ items, (act item).Keeps Holds) : (items.forM act).Keeps Holds := by
  induction items with
  | nil => exact keeps_pure _
  | cons item others ih =>
    obtain ⟨one, rest⟩ := List.forall_mem_cons.mp each
    exact one.bind fun _ => ih rest

theorem Keeps.map {act : Act σ β} (keeps : act.Keeps Holds) (change : β → α) :
    (change <$> act).Keeps Holds := by
  intro before holds
  rw [comes_map]
  exact keeps before holds

/-- What holds before the action holds behind it if it ends well, and if it fails it does not
crash. -/
def Withstands (act : Act σ α) (Holds : σ → Prop) : Prop :=
  ∀ before, Holds before →
    act.Comes (fun _ after => Holds after) (fun failure _ => failure ≠ .crash) before

theorem Withstands.bind {first : Act σ β} {next : β → Act σ α} (one : first.Withstands Holds)
    (other : ∀ value, (next value).Withstands Holds) : (first >>= next).Withstands Holds := by
  intro before holds
  rw [comes_bind]
  apply (one before holds).imp
  · intro value middle still
    exact other value middle still
  · exact fun _ _ refused => refused

end Act

namespace Output

/-- The action takes nothing back and does not crash. -/
def Sturdy (act : Act Output α) : Prop :=
  ∀ before, act.Comes (fun _ after => before.Takes [] after) (fun failure _ => failure ≠ .crash)
    before

theorem Sturdy.bind {first : Act Output β} {next : β → Act Output α} (one : Sturdy first)
    (other : ∀ value, Sturdy (next value)) : Sturdy (first >>= next) := by
  intro before
  rw [Act.comes_bind]
  refine (one before).imp (fun value middle takes => ?_) fun _ _ refused => refused
  exact (other value middle).imp (fun _ _ more => takes.trans more) fun _ _ refused => refused

theorem sturdy_write (bytes : Bytes) : Sturdy (write bytes) := by
  intro before
  rw [write, comes_onSink, Act.Comes, Sink.write]
  cases before.sink.policy.reply before.sink.calls before.sink.stored.size bytes.length with
  | taken => exact ⟨by simp, Nat.le_add_right _ _⟩
  | refused kept => rintro ⟨⟩

theorem sturdy_writePacket (packet : Packet) : Sturdy (writePacket packet) :=
  (sturdy_write _).bind fun _ => (sturdy_write _).bind fun _ => (sturdy_write _).bind fun _ =>
    fun before => Takes.refl before

end Output

/-- No sync point lies in front of the one before it. -/
def Ledger.Rises (ledger : Ledger) : Prop := ledger.syncpoints.Pairwise (· ≤ ·)

theorem Ledger.Rises.le_last {ledger : Ledger} (rises : ledger.Rises) {last : Nat}
    (found : ledger.lastSyncpoint? = some last) : ∀ position ∈ ledger.syncpoints, position ≤ last := by
  intro position member
  obtain ⟨front, same⟩ := List.getLast?_eq_some_iff.mp ((getLast?_syncpoints ledger).trans found)
  change ledger.syncpoints = front ++ [last] at same
  rw [Rises, same, List.pairwise_append] at rises
  rw [same] at member
  rcases List.mem_append.mp member with early | final
  · exact rises.2.2 position early last (by simp)
  · exact Nat.le_of_eq (List.mem_singleton.mp final)

namespace Recording

variable {headers : Headers} {before after : Recording} {Laid : Recording → Prop}

/-- The output does not stand in front of the last sync point. -/
def Behind (recording : Recording) : Prop :=
  ∀ last ∈ recording.ledger.lastSyncpoint?, last ≤ recording.output.sink.position

/-- Whatever is laid down next, this stays. -/
structure Stable (Laid : Recording → Prop) : Prop where
  fresh : ∀ count output, Laid ⟨.empty count, output⟩
  aside : ∀ {before after : Recording}, before.Aside after → Laid before → Laid after
  opened : ∀ {before after : Recording}, before.Behind →
    after.ledger = before.ledger.addSyncpoint before.output.sink.position →
    before.output.Takes [] after.output → Laid before → Laid after
  entered : ∀ {before after : Recording} {clocks : List Ratio} {stream : UInt32} {pts : Nat},
    after.ledger = before.ledger.addFrame clocks stream pts →
    before.output.Takes [] after.output → Laid before → Laid after

theorem Stable.turn (stable : Stable Laid) {call : Call} {outcome : Outcome}
    (turn : Turn headers before call outcome after) (laid : Laid before) : Laid after := by
  have prepare {stream : UInt32} {pts : Nat} {middle : Recording}
      (prepared : Prepared headers before stream pts middle) : Laid middle := by
    cases prepared with
    | plain aside => exact stable.aside aside laid
    | synced behind opened took => exact stable.opened behind opened took.weaken laid
  cases turn with
  | other _ aside => exact stable.aside aside laid
  | cut prepared => exact prepare prepared
  | complete _ prepared entered took => exact stable.entered entered took.weaken (prepare prepared)

theorem Stable.keeps_onOutput (stable : Stable Laid) {act : Act Output α}
    (advances : Output.Advances act) : (onOutput act).Keeps Laid := fun before laid =>
  (leavesBooks_onOutput advances before).imp (fun _ _ aside => stable.aside aside laid)
    fun _ _ aside => stable.aside aside laid

theorem Stable.keeps_writeHeaders (stable : Stable Laid) (headers : Headers) (count : Nat) :
    Act.Keeps (do
      book fun _ => .empty count
      writeHeaders headers) Laid := fun before _ =>
  (leavesBooks_writeHeaders headers _).imp
    (fun _ _ aside => stable.aside aside (stable.fresh count before.output))
    fun _ _ aside => stable.aside aside (stable.fresh count before.output)

theorem Stable.keeps_writeFrame (stable : Stable Laid) (headers : Headers) (stream : UInt32)
    (pts : Nat) (payload : Bytes) : (writeFrame headers stream pts payload).Keeps Laid :=
  fun before laid => (writeFrame_comes headers stream pts payload before).imp
    (fun _ _ turn => stable.turn turn laid) fun _ _ turn => stable.turn turn laid

theorem Stable.keeps_writeIndex (stable : Stable Laid) (headers : Headers) :
    (writeIndex headers).Keeps Laid := fun before laid =>
  (leavesBooks_writeIndex headers before).imp (fun _ _ aside => stable.aside aside laid)
    fun _ _ aside => stable.aside aside laid

theorem rises_opened (rises : before.ledger.Rises) (behind : before.Behind)
    (opened : after.ledger = before.ledger.addSyncpoint before.output.sink.position) :
    after.ledger.Rises := by
  rw [Ledger.Rises, opened, Ledger.syncpoints_addSyncpoint, List.pairwise_append]
  refine ⟨rises, List.pairwise_singleton _ _, fun position member other final => ?_⟩
  rw [List.mem_singleton.mp final]
  cases found : before.ledger.lastSyncpoint? with
  | none =>
    have empty : before.ledger.syncpoints = [] :=
      List.getLast?_eq_none_iff.mp ((Ledger.getLast?_syncpoints before.ledger).trans found)
    rw [empty] at member
    cases member
  | some last => exact Nat.le_trans (rises.le_last found position member) (behind last found)

/-- Sync points do not fall, on whatever outputs they stand. -/
theorem stable_rises : Stable fun recording => recording.ledger.Rises where
  fresh _ _ := .nil
  aside aside rises := aside.kept ▸ rises
  opened behind opened _ rises := rises_opened rises behind opened
  entered entered _ rises := by
    rw [Ledger.Rises, entered, Ledger.syncpoints_addFrame]
    exact rises

end Recording

end NutContainer
