import NutContainer.Notice
import NutContainer.Packet
import NutContainer.Sink

/-!
A sink together with the journal of notices. Packets go out in three writes, so a
sink that fails can be left with a packet header alone or without the checksum at
the end.
-/
namespace NutContainer

/-- Where bytes and notices go. -/
structure Output where
  sink : Sink
  /-- Notices in order. -/
  journal : Array Notice

namespace Output

/-- An output that nothing was written to. -/
def fresh (policy : Sink.Policy) : Output := ⟨.fresh policy, #[]⟩

/-- Runs an action of the sink. -/
def onSink (act : Act Sink α) : Act Output α := fun ⟨sink, journal⟩ =>
  match act sink with
  | .ok value sink => .ok value ⟨sink, journal⟩
  | .error failure sink => .error failure ⟨sink, journal⟩

def write (bytes : Bytes) : Act Output Unit := onSink (Sink.write bytes)

def flush : Act Output Unit := onSink Sink.flush

/-- Adds a notice to the journal. -/
def note (notice : Notice) : Act Output Unit := fun ⟨sink, journal⟩ =>
  .ok () ⟨sink, journal.push notice⟩

/-- The position at which the next byte goes. -/
def position : Act Output Nat := fun output => .ok output.sink.position output

/-- Writes a packet and tells its size. -/
def writePacket (packet : Packet) : Act Output Nat := do
  write packet.header
  write packet.payload
  write packet.trailer
  return packet.encodedSize

end Output

end NutContainer
