import NutContainer.Checksum
import NutContainer.Field

/-!
Packets, the frame that headers, sync points and the index are put into: a
startcode, the distance to the end, the payload, and a checksum of the payload.
Where the distance is large, a reader that trusts it could skip far on a damaged
byte, so the packet header then carries a checksum of its own.
-/
namespace NutContainer

/-- What every file begins with: a line for people, ended by a zero. -/
def fileMark : Bytes :=
  ("nut/multimedia container".toList.map fun letter => UInt8.ofNat letter.toNat) ++ [0]

/-- A payload with the code that says what it is. -/
structure Packet where
  startcode : UInt64
  payload : Bytes
  deriving DecidableEq, Repr

namespace Startcode

/-- Begins the main header. -/
def mainHeader : UInt64 := 0x4E4D7A561F5F04AD

/-- Begins a stream header. -/
def streamHeader : UInt64 := 0x4E5311405BF2F9DB

/-- Begins a sync point. -/
def syncpoint : UInt64 := 0x4E4BE4ADEECA4569

/-- Begins the index. -/
def index : UInt64 := 0x4E58DD672F23E64E

end Startcode

namespace Packet

/-- The greatest distance that needs no checksum of its own. -/
def shortDistance : Nat := 4096

/-- From the end of the packet header to the end of the packet: payload and
checksum. -/
def distance (payloadSize : Nat) : Nat := payloadSize + 4

/-- What a packet of the given payload size takes in the file. -/
def size (payloadSize : Nat) : Nat :=
  let distance := distance payloadSize
  8 + Varint.size distance + (if shortDistance < distance then 4 else 0) + distance

/-- Startcode and distance. -/
def lead (packet : Packet) : Bytes :=
  Field.encodeAll [.word64 packet.startcode, .unsigned (distance packet.payload.length)]

/-- All that comes before the payload. -/
def header (packet : Packet) : Bytes :=
  if shortDistance < distance packet.payload.length then
    packet.lead ++ .ofWord32 (Checksum.ofBytes packet.lead)
  else packet.lead

/-- All that comes after the payload. -/
def trailer (packet : Packet) : Bytes := .ofWord32 (Checksum.ofBytes packet.payload)

/-- The packet as it stands in a file. -/
def encode (packet : Packet) : Bytes := packet.header ++ packet.payload ++ packet.trailer

/-- Reads the checksum that a packet header with a large distance ends in. -/
def skipHeaderSum? (distance : Nat) (bytes rest : Bytes) : Option Bytes :=
  if shortDistance < distance then do
    let (_, behind) ← Bytes.word32? rest
    if Checksum.IsIntact (bytes.take (bytes.length - behind.length)) then some behind else none
  else some rest

/-- Reads one packet, verifies its checksums and says what follows it. -/
def read? (bytes : Bytes) : Option (Packet × Bytes) := do
  let (startcode, rest) ← Bytes.word64? bytes
  let (distance, rest) ← Varint.read? rest
  let rest ← skipHeaderSum? distance bytes rest
  let (body, rest) ← Bytes.take? distance rest
  if 4 ≤ distance ∧ Checksum.IsIntact body then
    some (⟨startcode, body.take (distance - 4)⟩, rest)
  else none

/-- What the packet takes in the file, counted from its parts. -/
def encodedSize (packet : Packet) : Nat :=
  packet.header.length + distance packet.payload.length

theorem length_lead (packet : Packet) :
    packet.lead.length = 8 + Varint.size (distance packet.payload.length) := by
  simp [lead, Field.encode, Bytes.ofWord64, Varint.length_encode]

theorem length_header (packet : Packet) :
    packet.header.length = 8 + Varint.size (distance packet.payload.length) +
      if shortDistance < distance packet.payload.length then 4 else 0 := by
  unfold header
  split <;> simp [length_lead, Bytes.ofWord32]

theorem length_encode (packet : Packet) : packet.encode.length = size packet.payload.length := by
  simp [encode, length_header, trailer, Bytes.ofWord32, size, distance, Nat.add_assoc]

end Packet

end NutContainer
