import NutContainer.Session

/-!
What can be asked of a session, as a value, so that whole histories of calls can
be spoken of. A call always leaves a session behind, also when it fails; what a
history comes to is one outcome for each call and the session at the end.
-/
namespace NutContainer

/-- A call on a session. -/
inductive Call where
  | writeHeaders (streams : List StreamDescriptor)
  | writeFrame (frame : Frame)
  | accept (stream : UInt32) (pts : Int) (payload : Bytes)
  | close
  | mux (supply : FrameSupply)

namespace Call

/-- What a call does. The calls that end a file tell what was done. -/
def act : Call → Act Session (Option Summary)
  | writeHeaders streams => do
    Session.writeHeaders streams
    return none
  | writeFrame frame => do
    Session.writeFrame frame
    return none
  | accept stream pts payload => do
    Session.accept stream pts payload
    return none
  | close => some <$> Session.close
  | mux supply => some <$> Session.mux supply

end Call

namespace Session

/-- What came of a call: its summary, if it tells one, or its failure. -/
abbrev Outcome := Except Failure (Option Summary)

/-- Makes a call. -/
def call (session : Session) (call : Call) : Outcome × Session :=
  match call.act session with
  | .ok told session => (.ok told, session)
  | .error failure session => (.error failure, session)

/-- Makes calls one after the other, whatever comes of them. -/
def run (session : Session) : List Call → List Outcome × Session
  | [] => ([], session)
  | first :: rest =>
    let (outcome, session) := session.call first
    let (outcomes, session) := session.run rest
    (outcome :: outcomes, session)

theorem run_append (session : Session) (front back : List Call) :
    session.run (front ++ back) =
      let (first, session) := session.run front
      let (second, session) := session.run back
      (first ++ second, session) := by
  induction front generalizing session with
  | nil => rfl
  | cons next rest ih => simp [run, ih]

end Session

end NutContainer
