import NutContainer.Proofs.PriorityQueue

/-! When the first of the frames that wait may leave. It is due when it is a whole window behind
the mark. The buffer tests for this with numbers that are held at the end of the range of times:
first the window, then the sum of a time and the window. A frame that is due always passes, since
what is held is never more than what is meant. A frame that is not due passes too where the mark
stands at the very end of the range, and where the window is longer than the range of times from
zero on and the frame's time is negative. Everywhere else the test is the rule. -/
namespace NutContainer

namespace OrderingBuffer

open WaitingFrame Signed64

/-- The time of a frame that is pushed is in range. -/
def Operation.InRange : Operation → Prop
  | .push _ _ millis _ => Fits millis
  | .popReady | .popOldest => True

instance (operation : Operation) : Decidable operation.InRange :=
  match operation with
  | .push _ _ millis _ => inferInstanceAs (Decidable (Fits millis))
  | .popReady | .popOldest => inferInstanceAs (Decidable True)

variable {operations : List Operation} {operation : Operation} {reply : Reply}
  {buffer next : OrderingBuffer} {first : WaitingFrame} {rest : List WaitingFrame} {top : Int}

theorem Step.window_eq (step : Step buffer operation reply next) : next.window = buffer.window := by
  cases step with
  | push stream pts millis payload => rfl
  | go pops first => rfl
  | stay pops empty => rfl

/-- No operation changes the window. -/
theorem window_run (buffer : OrderingBuffer) (operations : List Operation) :
    (buffer.run operations).2.window = buffer.window := by
  induction operations generalizing buffer with
  | nil => rfl
  | cons operation later ih =>
    have done : buffer.operate operation = (_, _) := rfl
    exact (ih _).trans (step_of_operate done).window_eq

theorem fits_pushed (inRange : ∀ operation ∈ operations, operation.InRange) :
    ∀ frame ∈ pushed operations, Fits frame.millis := by
  induction operations using List.reverseRecOn with
  | nil => simp [pushed]
  | append_singleton earlier operation ih =>
    have before := ih fun operation member => inRange operation (by simp [member])
    have last := inRange operation (by simp)
    rw [pushed_concat]
    cases operation with
    | push stream pts millis payload =>
      intro frame member
      rcases List.mem_append.mp member with member | member
      · exact before frame member
      · cases List.mem_singleton.mp member
        exact last
    | popReady => exact before
    | popOldest => exact before

theorem popReady?_empty (empty : buffer.frames = []) : buffer.popReady? = none := by
  cases level : buffer.highWater <;> simp [popReady?, level, empty]

/-- The first frame leaves if it passes the test, and none otherwise. -/
theorem popReady?_cons (frames : buffer.frames = first :: rest)
    (level : buffer.highWater = some top) :
    buffer.popReady? = if IsReady buffer.window top first
      then some (first, { buffer with frames := rest }) else none := by
  simp only [popReady?, level, frames]

/-- A buffer that holds frames has a mark. -/
theorem Balanced.exists_level {arrived left : List WaitingFrame}
    (balanced : Balanced arrived left buffer) (frames : buffer.frames = first :: rest) :
    first ∈ arrived ∧ ∃ top, buffer.highWater = some top ∧ highest? arrived = some top := by
  have known : first ∈ arrived := balanced.whole.mem_iff.mp (by simp [frames])
  refine ⟨known, ?_⟩
  cases found : highest? arrived with
  | none =>
    have nothing := List.map_eq_nil_iff.mp (List.max?_eq_none_iff.mp found)
    simp [nothing] at known
  | some top => exact ⟨top, balanced.level.trans found, rfl⟩

/-- Whatever was pushed and popped before, an empty buffer releases nothing, and another one
releases nothing but the first frame. It does so if that frame is a whole window behind the latest
time, in numbers without end, or if the numbers that it compares are held at the end of the range.
Where the latest time is below the end and no frame with a negative time meets a window beyond it,
the first of these alone decides. -/
theorem released_if_due_or_held (window : Nat) {operations : List Operation}
    (inRange : ∀ operation ∈ operations, operation.InRange) :
    ∃ replies buffer, (empty window).run operations = (replies, buffer) ∧
      (buffer.frames = [] → buffer.popReady? = none) ∧
      ∀ first rest, buffer.frames = first :: rest →
        first.IsFirstOf buffer.frames ∧
        (∀ frame next, buffer.popReady? = some (frame, next) →
          frame = first ∧ next = { buffer with frames := rest }) ∧
        ∃ top, buffer.highWater = some top ∧ highest? (pushed operations) = some top ∧
          (buffer.popReady?.isSome ↔
            first.millis + window ≤ top ∨ PassesAtEnd window top first.millis) ∧
          (top < greatest → (window : Int) ≤ greatest ∨ 0 ≤ first.millis →
            (buffer.popReady?.isSome ↔ first.millis + window ≤ top)) := by
  obtain ⟨balanced, _⟩ := answered_run window operations
  have width := window_run (empty window) operations
  generalize ran : (empty window).run operations = result at balanced width
  obtain ⟨replies, buffer⟩ := result
  dsimp only at balanced width
  refine ⟨replies, buffer, rfl, popReady?_empty, fun first rest frames => ?_⟩
  obtain ⟨known, top, level, highest⟩ := balanced.exists_level frames
  -- The mark is the time of a frame that was pushed, and so it is in range as well.
  obtain ⟨latest, among, same⟩ := exists_of_highest? highest
  have fits := fits_pushed inRange
  have time := fits first known
  have mark : Fits top := same ▸ fits latest among
  have released : buffer.popReady?.isSome ↔
      first.millis + window ≤ top ∨ PassesAtEnd window top first.millis := by
    rw [popReady?_cons frames level, width, empty, ← isReady_held_iff time mark]
    split <;> simp [*]
  refine ⟨balanced.first frames, fun frame next gone => ?_, top, level, highest, released,
    fun below usual => ?_⟩
  · obtain ⟨_, _, _, line, left⟩ := popReady?_some gone
    obtain ⟨rfl, rfl⟩ := List.cons.inj (frames.symm.trans line)
    exact ⟨rfl, left⟩
  · rw [released, or_iff_left (not_passesAtEnd below usual)]

/-- A frame with a negative time leaves as soon as the latest one is the window ahead of it. -/
theorem released_if_due_or_held_sample :
    ((empty 3).run [.push 0 0 (-2) [1], .push 1 0 0 [], .push 1 9 1 [2, 2]]).2.popReady?.isSome ∧
      ¬ ((empty 3).run [.push 0 0 (-2) [1], .push 1 0 0 []]).2.popReady?.isSome := by
  have whole : ∀ operation ∈ [Operation.push 0 0 (-2) [1], .push 1 0 0 [], .push 1 9 1 [2, 2]],
      operation.InRange := by decide
  have front : ∀ operation ∈ [Operation.push 0 0 (-2) [1], .push 1 0 0 []],
      operation.InRange := by decide
  obtain ⟨_, _, ran, _, leaves⟩ := released_if_due_or_held 3 whole
  obtain ⟨_, _, before, _, waits⟩ := released_if_due_or_held 3 front
  cases ran
  cases before
  obtain ⟨_, _, _, level, _, _, due⟩ := leaves _ _ rfl
  obtain ⟨_, _, _, mark, _, _, near⟩ := waits _ _ rfl
  cases level
  cases mark
  refine ⟨(due (by decide) (by decide)).mpr (by decide), fun gone => ?_⟩
  exact absurd ((near (by decide) (by decide)).mp gone) (by decide)

/-- A frame is released half a window behind a latest time that is the last of the range. -/
theorem released_before_due :
    ∃ frame next, (∀ operation ∈ [Operation.push 0 0 9223372036854775802 [1],
          .push 0 1 9223372036854775807 [2]], operation.InRange) ∧
      ((empty 10).run [.push 0 0 9223372036854775802 [1],
          .push 0 1 9223372036854775807 [2]]).2.popReady? = some (frame, next) ∧
      next.highWater = some 9223372036854775807 ∧
      ¬ frame.millis + 10 ≤ 9223372036854775807 :=
  ⟨_, _, by decide, rfl, rfl, by decide⟩

end OrderingBuffer

end NutContainer
