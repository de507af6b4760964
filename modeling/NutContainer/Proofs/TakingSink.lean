import NutContainer.Proofs.AmpleSink

/-! Actions on a sink that takes every write. Such a sink is never the reason for a fault, so
what is left are the reasons that lie in the call itself. As with sinks that fail, this is
proved of every action from its parts, and a single write is the only part at which anything
about the sink is used. -/
namespace NutContainer

/-- No write is refused. -/
def Sink.Policy.TakesAll (policy : Sink.Policy) : Prop :=
  ∀ calls stored offered, policy.reply calls stored offered = .taken

theorem Sink.Policy.takesAll_memory : Sink.Policy.memory.TakesAll := fun _ _ _ => rfl

namespace Act

open OwnsSink

variable {σ τ α β : Type} [OwnsSink σ] [OwnsSink τ]

/-- On a sink that takes every write, no fault of the action is the sink's. -/
def Spares (act : Act σ α) : Prop :=
  ∀ before, (sink before).policy.TakesAll →
    act.Ends (fun _ after => (sink after).policy.TakesAll) (fun fault _ => fault.category ≠ .output)
      before

theorem Spares.bind {first : Act σ β} {next : β → Act σ α} (one : first.Spares)
    (other : ∀ value, (next value).Spares) : Spares (first >>= next) := by
  intro before takes
  rw [ends_bind]
  apply (one before takes).imp
  · intro value middle still
    exact other value middle still
  · exact fun _ _ fault => fault

theorem spares_pure (value : α) : Spares (pure value : Act σ α) := fun _ takes => takes

/-- What an action of a part of the state is spared, the action of the whole is. -/
theorem Spares.lift {inner : Act τ α} {outer : Act σ α} {part : σ → τ} {put : σ → τ → σ}
    (spares : inner.Spares)
    (ends : ∀ {good bad before}, outer.Ends good bad before ↔
      inner.Ends (fun value after => good value (put before after))
        (fun fault after => bad fault (put before after)) (part before))
    (reads : ∀ before, sink before = sink (part before))
    (gets : ∀ before after, part (put before after) = after) : outer.Spares := by
  intro before takes
  rw [reads] at takes
  simp only [ends, reads, gets]
  exact spares (part before) takes

end Act

namespace Output

theorem spares_write (bytes : Bytes) : (write bytes).Spares := by
  intro before takes
  have taken : before.sink.policy.reply before.sink.calls before.sink.stored.size bytes.length =
      .taken := takes _ _ _
  rw [write, ends_onSink, Act.Ends, Act.Comes, Sink.write, taken]
  exact takes

theorem spares_writePacket (packet : Packet) : (writePacket packet).Spares :=
  (spares_write _).bind fun _ => (spares_write _).bind fun _ => (spares_write _).bind fun _ =>
    Act.spares_pure _

end Output

namespace Recording

end Recording

namespace Session

end Session

end NutContainer
