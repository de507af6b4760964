import NutContainer.Recording

/-!
What can be asked of a file in the making, as a value, so that whole histories of calls
can be spoken of. A call that fails leaves a recording behind like any other, and the
next call goes on from there.
-/
namespace NutContainer

/-- What comes of an action, and the state that it leaves behind either way. -/
def attempt (act : EStateM ε σ α) (state : σ) : Except ε α × σ :=
  match act state with
  | .ok value state => (.ok value, state)
  | .error failure state => (.error failure, state)

/-- Makes calls one after the other, whatever comes of them, and keeps each with what
came of it. -/
def attemptAll (act : κ → EStateM ε σ α) (state : σ) : List κ → List (κ × Except ε α) × σ
  | [] => ([], state)
  | call :: rest =>
    let (outcome, state) := attempt (act call) state
    let (outcomes, state) := attemptAll act state rest
    ((call, outcome) :: outcomes, state)

theorem attemptAll_append (act : κ → EStateM ε σ α) (state : σ) (front back : List κ) :
    attemptAll act state (front ++ back) =
      let (first, state) := attemptAll act state front
      let (second, state) := attemptAll act state back
      (first ++ second, state) := by
  induction front generalizing state with
  | nil => rfl
  | cons next rest ih => simp [attemptAll, ih]

namespace Recording

/-- A call on a file in the making. -/
inductive Call where
  | headers
  | frame (stream : UInt32) (pts : Nat) (payload : Bytes)
  | index
  deriving DecidableEq, Repr

/-- What a call tells that goes well. -/
inductive Answer where
  | done
  /-- The size of a frame without its sync point. -/
  | size (bytes : Nat)
  /-- Whether there was anything to index. -/
  | indexed (written : Bool)
  deriving DecidableEq, Repr

/-- What came of a call. -/
abbrev Outcome := Except Failure Answer

/-- What a call does. -/
def Call.act (headers : Headers) : Call → Act Recording Answer
  | .headers => (fun _ => .done) <$> writeHeaders headers
  | .frame stream pts payload => .size <$> writeFrame headers stream pts payload
  | .index => .indexed <$> writeIndex headers

/-- Makes calls one after the other, whatever comes of them. -/
def run (headers : Headers) (recording : Recording) (calls : List Call) :
    List (Call × Outcome) × Recording :=
  attemptAll (Call.act headers) recording calls

/-- The stream whose frame a call asks to write. -/
def Call.stream? : Call → Option UInt32
  | .frame stream _ _ => some stream
  | .headers | .index => none

end Recording

end NutContainer
