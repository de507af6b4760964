import NutContainer.Proofs.AmpleSink
import NutContainer.Proofs.SessionGrounds

/-! When a session does not crash. Behind the conversion of a frame there are only two reasons for
it to: a time that a frame header cannot spell out, and a distance between sync points that cannot
be taken. A frame with a time of a signed word gives no reason of the first kind, and an output that
goes on where the file is gives none of the second. -/
namespace NutContainer.Session

variable {headers : Headers} {before : Session} {α β : Type}

section
variable (agree : headers.Agree)
include agree

end

end NutContainer.Session
