import Mathlib.Algebra.Ring.Nat
import NutContainer.OrderingBuffer.Operation
import NutContainer.Proofs.ReleaseOrder

/-! The buffer as a queue. The history of its operations alone says which frames it
holds: those that were pushed and not popped. A pop takes the first of them, by time
and then by number, and nothing else is ever compared: a frame may come in long after
later ones have left, and still goes before all that wait. -/
namespace NutContainer

/-- The frame is one of these, and each other one is later, or as late and numbered after it. -/
def WaitingFrame.IsFirstOf (frame : WaitingFrame) (frames : List WaitingFrame) : Prop :=
  frame ∈ frames ∧ ∀ other ∈ frames, other ≠ frame →
    frame.millis < other.millis ∨ frame.millis = other.millis ∧ frame.arrival < other.arrival

theorem WaitingFrame.IsFirstOf.perm {frame : WaitingFrame} {frames others : List WaitingFrame}
    (first : frame.IsFirstOf frames) (same : frames.Perm others) : frame.IsFirstOf others :=
  ⟨same.mem_iff.mp first.1, fun other member => first.2 other (same.mem_iff.mpr member)⟩

namespace OrderingBuffer

open WaitingFrame

/-- Adds the frame that an operation pushes, numbered by those before it. -/
def Operation.addTo (frames : List WaitingFrame) : Operation → List WaitingFrame
  | .push stream pts millis payload => frames ++ [⟨stream, pts, millis, frames.length, payload⟩]
  | .popReady | .popOldest => frames

/-- The frames that operations push. -/
def pushed (operations : List Operation) : List WaitingFrame := operations.foldl Operation.addTo []

/-- The numbers that pushes were answered with. -/
def numbers (replies : List Reply) : List Nat :=
  replies.filterMap fun
    | .taken arrival => some arrival
    | .popped _ => none

/-- The frames that pops were answered with. -/
def popped (replies : List Reply) : List WaitingFrame :=
  replies.filterMap fun
    | .taken _ => none
    | .popped frame => frame

/-- Everything that an operation can do. -/
inductive Step (buffer : OrderingBuffer) : Operation → Reply → OrderingBuffer → Prop where
  | push (stream : UInt32) (pts millis : Int) (payload : Bytes) :
    Step buffer (.push stream pts millis payload) (.taken buffer.arrivals)
      (buffer.push stream pts millis payload)
  /-- A pop lets the first frame go. -/
  | go {pop : Operation} {frame : WaitingFrame} {rest : List WaitingFrame}
    (pops : ∀ frames, pop.addTo frames = frames) (first : buffer.frames = frame :: rest) :
    Step buffer pop (.popped (some frame)) { buffer with frames := rest }
  /-- A pop lets nothing go. -/
  | stay {pop : Operation} (pops : ∀ frames, pop.addTo frames = frames)
    (empty : pop = .popOldest → buffer.frames = []) : Step buffer pop (.popped none) buffer

/-- The books agree with the buffer, and the pushes were told the numbers in turn. -/
structure Answered (operations : List Operation) (replies : List Reply)
    (buffer : OrderingBuffer) : Prop where
  balanced : Balanced (pushed operations) (popped replies) buffer
  inTurn : numbers replies = List.range (pushed operations).length

variable {operations : List Operation} {operation : Operation} {replies : List Reply}
  {reply : Reply} {buffer next : OrderingBuffer} {arrived left : List WaitingFrame}

theorem pushed_concat (operations : List Operation) (operation : Operation) :
    pushed (operations ++ [operation]) = operation.addTo (pushed operations) := by
  simp [pushed]

theorem numbers_append (front back : List Reply) :
    numbers (front ++ back) = numbers front ++ numbers back := List.filterMap_append

theorem popped_append (front back : List Reply) :
    popped (front ++ back) = popped front ++ popped back := List.filterMap_append

theorem popOldest?_eq_none : buffer.popOldest? = none ↔ buffer.frames = [] := by
  unfold popOldest?
  split <;> simp [*]

/-- What is answered to a pop that can only let the first frame go. -/
theorem step_of_answer {pop : Operation} {found : Option (WaitingFrame × OrderingBuffer)}
    (pops : ∀ frames, pop.addTo frames = frames)
    (first : ∀ frame rest, found = some (frame, rest) →
      buffer.frames = frame :: rest.frames ∧ rest = { buffer with frames := rest.frames })
    (empty : found = none → pop = .popOldest → buffer.frames = [])
    (done : buffer.answer found = (reply, next)) : Step buffer pop reply next := by
  cases found with
  | none =>
    cases done
    exact .stay pops (empty rfl)
  | some taken =>
    obtain ⟨frame, rest⟩ := taken
    obtain ⟨frames, same⟩ := first frame rest rfl
    cases done
    rw [same]
    exact .go pops frames

/-- No operation does anything else. -/
theorem step_of_operate (done : buffer.operate operation = (reply, next)) :
    Step buffer operation reply next := by
  cases operation with
  | push stream pts millis payload =>
    cases done
    exact .push stream pts millis payload
  | popReady =>
    refine step_of_answer (fun _ => rfl) (fun frame rest taken => ?_) (fun _ => nofun) done
    obtain ⟨_, _, _, frames, same⟩ := popReady?_some taken
    exact ⟨frames, same⟩
  | popOldest =>
    exact step_of_answer (fun _ => rfl) (fun _ _ => popOldest?_some)
      (fun none _ => popOldest?_eq_none.mp none) done

theorem Balanced.step (balanced : Balanced arrived left buffer)
    (step : Step buffer operation reply next) :
    Balanced (operation.addTo arrived) (left ++ popped [reply]) next := by
  cases step with
  | push stream pts millis payload =>
    let frame : WaitingFrame := ⟨stream, pts, millis, arrived.length, payload⟩
    have grown := balanced.push (rfl : frame.arrival = arrived.length)
    simpa [popped, Operation.addTo] using grown
  | go pops first =>
    rw [pops]
    exact balanced.pop first rfl
  | stay pops empty =>
    rw [pops]
    simpa [popped] using balanced

theorem Answered.step (answered : Answered operations replies buffer)
    (step : Step buffer operation reply next) :
    Answered (operations ++ [operation]) (replies ++ [reply]) next := by
  refine ⟨?_, ?_⟩
  · rw [pushed_concat, popped_append]
    exact answered.balanced.step step
  · rw [pushed_concat, numbers_append, answered.inTurn]
    cases step with
    | push stream pts millis payload =>
      simp [numbers, Operation.addTo, answered.balanced.counted, List.range_succ]
    | go pops first => simp [numbers, pops]
    | stay pops empty => simp [numbers, pops]

theorem answered_run (window : Nat) (operations : List Operation) :
    Answered operations ((empty window).run operations).1 ((empty window).run operations).2 := by
  induction operations using List.reverseRecOn with
  | nil => exact ⟨balanced_empty window, rfl⟩
  | append_singleton earlier operation ih =>
    have done : ((empty window).run earlier).2.operate operation = (_, _) := rfl
    rw [run_append]
    exact ih.step (step_of_operate done)

theorem Balanced.first (balanced : Balanced arrived left buffer) {frame : WaitingFrame}
    {rest : List WaitingFrame} (first : buffer.frames = frame :: rest) :
    frame.IsFirstOf buffer.frames := by
  have sorted := balanced.sorted
  rw [first] at sorted ⊢
  refine ⟨List.mem_cons_self, fun other member differs => ?_⟩
  have behind := (List.mem_cons.mp member).resolve_left differs
  exact precedes_iff.mp (List.rel_of_pairwise_cons sorted behind)

end OrderingBuffer

end NutContainer
