import Mathlib.Data.List.Forall2
import NutContainer.Sink

/-! What a chain of steps that ended well is made of: every step ended well, each
from where the one before it had come to. A step that can fail is taken apart here
once, so that no proof about a longer action has to look at its failures. -/
namespace NutContainer

/-- Two results one after the other are a success when both are. -/
theorem except_bind_ok {first : Except ε α} {next : α → Except ε β} {result : β} :
    first >>= next = .ok result ↔ ∃ value, first = .ok value ∧ next value = .ok result := by
  cases first with
  | error fault => simp [bind, Except.bind]
  | ok value => simp [bind, Except.bind]

/-- A list of results is a success when every one of them is. -/
theorem except_mapM_ok {f : α → Except ε β} {items : List α} {results : List β}
    (mapped : items.mapM f = .ok results) :
    List.Forall₂ (fun item result => f item = .ok result) items results := by
  induction items generalizing results with
  | nil =>
    cases mapped
    exact .nil
  | cons item items ih =>
    rw [List.mapM_cons] at mapped
    obtain ⟨result, first, mapped⟩ := except_bind_ok.mp mapped
    obtain ⟨others, rest, mapped⟩ := except_bind_ok.mp mapped
    cases mapped
    exact .cons first (ih rest)

/-- If every result of a list is a success, the list of them is one. -/
theorem except_mapM_of_ok {f : α → Except ε β} {result : α → β} {items : List α}
    (each : ∀ item ∈ items, f item = .ok (result item)) :
    items.mapM f = .ok (items.map result) := by
  induction items with
  | nil => rfl
  | cons item items ih =>
    rw [List.mapM_cons, each item (by simp), ih fun item member => each item (by simp [member])]
    rfl

namespace Failure

theorem ofRefusal_eq_ok {result : Except Fault α} {value : α} :
    ofRefusal result = .ok value ↔ result = .ok value := by
  cases result <;> simp

theorem ofRefusal_eq_error {result : Except Fault α} {failure : Failure} :
    ofRefusal result = .error failure ↔ ∃ fault, result = .error fault ∧ .refused fault = failure := by
  cases result <;> simp

/-- A number for a word is never refused: it fits, or there is a crash. -/
theorem inWord_ne_refused {number : Nat} {fault : Fault} :
    inWord number ≠ .error (.refused fault) := by
  unfold inWord
  split <;> simp

end Failure

namespace Act

variable {σ τ α β : Type}

/-- Two actions one after the other are a success when both are. -/
theorem bind_ok {first : Act σ α} {next : α → Act σ β} {before after : σ} {result : β} :
    (first >>= next) before = .ok result after ↔
      ∃ value middle, first before = .ok value middle ∧ next value middle = .ok result after := by
  change EStateM.bind first next before = _ ↔ _
  cases ran : first before with
  | error fault middle => simp [EStateM.bind, ran]
  | ok value middle => simp [EStateM.bind, ran]

theorem pure_ok {value result : α} {before after : σ} :
    (pure value : Act σ α) before = .ok result after ↔ value = result ∧ before = after := by
  change EStateM.Result.ok value before = _ ↔ _
  simp

/-- A success shows in the value alone. -/
theorem value_eq_some {act : Act σ α} {before : σ} {value : α} :
    EStateM.run' act before = some value ↔ ∃ after, act before = .ok value after := by
  unfold EStateM.run' EStateM.run
  cases act before with
  | error fault after => simp
  | ok result after => simp

theorem map_ok {change : α → β} {act : Act σ α} {before after : σ} {result : β} :
    (change <$> act) before = .ok result after ↔
      ∃ value, act before = .ok value after ∧ change value = result := by
  change EStateM.map change act before = _ ↔ _
  cases ran : act before with
  | error fault middle => simp [EStateM.map, ran]
  | ok value middle => simp [EStateM.map, ran, and_comm]

theorem get_ok {before after result : σ} :
    (get : Act σ σ) before = .ok result after ↔ before = result ∧ before = after := by
  change EStateM.Result.ok before before = _ ↔ _
  simp

theorem set_ok {before after value : σ} {result : PUnit} :
    (set value : Act σ PUnit) before = .ok result after ↔ value = after := by
  change EStateM.Result.ok PUnit.unit value = _ ↔ _
  simp

theorem modify_ok {change : σ → σ} {before after : σ} {result : PUnit} :
    (modify change : Act σ PUnit) before = .ok result after ↔ change before = after := by
  change EStateM.Result.ok PUnit.unit (change before) = _ ↔ _
  simp

theorem not_throw_ok {failure : Failure} {before after : σ} {result : α} :
    ¬ (throw failure : Act σ α) before = .ok result after := by
  change ¬ EStateM.Result.error failure before = _
  simp

theorem not_refuse_ok {fault : Fault} {before after : σ} {result : α} :
    ¬ (refuse fault : Act σ α) before = .ok result after := not_throw_ok

/-- What is insisted on holds where the action goes on. -/
theorem insist_ok {condition : Prop} [Decidable condition] {before after : σ} {result : Unit} :
    (insist condition : Act σ Unit) before = .ok result after ↔ condition ∧ before = after := by
  unfold insist
  by_cases holds : condition
  · rw [if_pos holds, pure_ok]
    simp [holds]
  · rw [if_neg holds]
    simp [holds, not_throw_ok]

end Act

end NutContainer
