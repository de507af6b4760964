import NutContainer.Proofs.PacketCodec
import NutContainer.Proofs.RecordingSteps
import NutContainer.Proofs.SteadyRecording
import NutContainer.Proofs.TakingSink

/-! Packets one behind the other. A packet takes the room that is foretold for it, which is also the
room that the writer tells and the room that the bytes in the sink take: three counts of their own
that agree for every payload. A reader takes the packets apart one by one, and since each of them
ends itself, no bytes are a stream of packets in two ways. -/
namespace NutContainer

namespace Packet

variable {packet other : Packet} {packets others : List Packet}

/-- What a reader meets of a packet: startcode and distance, a sum of these exactly when the
distance is a large one, and a body that ends in the payload's sum. -/
structure Parts (packet : Packet) (lead guard body : Bytes) : Prop where
  opens : lead = .ofWord64 packet.startcode ++ Varint.encode (packet.payload.length + 4)
  guarded : 4096 < packet.payload.length + 4 → guard.length = 4 ∧ Checksum.IsIntact (lead ++ guard)
  bare : packet.payload.length + 4 ≤ 4096 → guard = []
  sized : body.length = packet.payload.length + 4
  carries : body.take packet.payload.length = packet.payload
  intact : Checksum.IsIntact body

theorem parts_of_encode (packet : Packet) :
    ∃ lead guard body, packet.encode = lead ++ guard ++ body ∧ packet.Parts lead guard body := by
  refine ⟨packet.lead, packet.header.drop packet.lead.length, packet.payload ++ packet.trailer,
    ?_, lead_eq packet, ?_, ?_, packet.length_body, List.take_left,
    Checksum.isIntact_append_sum packet.payload⟩
  · rw [lead_append_drop, encode, List.append_assoc]
  · intro (long : shortDistance < distance packet.payload.length)
    rw [lead_append_drop, header, if_pos long, List.drop_left]
    exact ⟨Bytes.length_ofNat .., Checksum.isIntact_append_sum packet.lead⟩
  · intro (short : distance packet.payload.length ≤ shortDistance)
    rw [header, if_neg (Nat.not_lt.mpr short), List.drop_length]

/-- The size that is told is the size that is foretold. -/
theorem encodedSize_eq (packet : Packet) : packet.encodedSize = size packet.payload.length := by
  rw [encodedSize, length_header, size]

/-- The bytes are these packets and nothing else. -/
inductive Parses : Bytes → List Packet → Prop
  | done : Parses [] []
  | next {bytes rest : Bytes} {packet : Packet} {others : List Packet}
    (read : read? bytes = some (packet, rest)) (more : Parses rest others) :
    Parses bytes (packet :: others)

theorem parses_flatMap_encode (packets : List Packet) :
    Parses (packets.flatMap encode) packets := by
  induction packets with
  | nil => exact .done
  | cons packet others ih => exact .next (read?_encode_append packet _) ih

/-- Bytes are packets in one way at most. -/
theorem Parses.unique {bytes : Bytes} (one : Parses bytes packets) (two : Parses bytes others) :
    packets = others := by
  induction one generalizing others with
  | done =>
    cases two with
    | done => rfl
    | next read _ => cases read
  | next read _ ih =>
    cases two with
    | done => cases read
    | next again more =>
      obtain ⟨rfl, rfl⟩ := Prod.mk.inj (Option.some.inj (read.symm.trans again))
      rw [ih more]

theorem parses_iff : Parses (packets.flatMap encode) others ↔ others = packets := by
  constructor
  · exact fun parses => parses.unique (parses_flatMap_encode packets)
  · rintro rfl
    exact parses_flatMap_encode others

end Packet

namespace Output

variable {before : Output}

/-- A sink that takes every write takes a packet as it is encoded. -/
theorem writePacket_ok (takes : before.sink.policy.TakesAll) (packet : Packet) :
    ∃ after, writePacket packet before = .ok (Packet.size packet.payload.length) after ∧
      before.Adds packet.encode after ∧ after.sink.policy.TakesAll := by
  have spared := spares_writePacket packet before takes
  have failed := failsBySink_writePacket packet before
  have stands := sturdy_writePacket packet before
  cases ran : writePacket packet before with
  | error failure after =>
    cases failure with
    | refused fault => exact absurd (failed.error ran) (spared.error ran)
    | crash => exact absurd rfl (stands.error ran)
  | ok told after =>
    have size : told = packet.encodedSize := by
      obtain ⟨_, _, _, ran⟩ := Act.bind_ok.mp ran
      obtain ⟨_, _, _, ran⟩ := Act.bind_ok.mp ran
      obtain ⟨_, _, _, ran⟩ := Act.bind_ok.mp ran
      exact (Act.pure_ok.mp ran).1.symm
    rw [size, packet.encodedSize_eq]
    exact ⟨after, rfl, adds_writePacket ran, spared.ok ran⟩

theorem writePackets_ok (takes : before.sink.policy.TakesAll) (packets : List Packet) :
    ∃ after, packets.mapM writePacket before =
        .ok (packets.map fun packet => Packet.size packet.payload.length) after ∧
      before.Adds (packets.flatMap Packet.encode) after := by
  induction packets generalizing before with
  | nil => exact ⟨before, rfl, .none before⟩
  | cons packet others ih =>
    obtain ⟨middle, wrote, added, still⟩ := writePacket_ok takes packet
    obtain ⟨after, rest, adds⟩ := ih still
    refine ⟨after, ?_, added.trans adds⟩
    rw [List.mapM_cons, Act.bind_of_ok wrote, Act.bind_of_ok rest]
    rfl

/-- Whatever the startcode, the payload and its size: on a sink that works, a packet takes as many
bytes as are foretold, and this is what the writer tells. A reader gets back the same packet and is
left with the very bytes behind it; it finds a sum in the header exactly when the distance is a
large one, and all sums intact. What several packets add to the sink is therefore a stream of these
packets, and of no others. -/
theorem packets_parse_back (takes : before.sink.policy.TakesAll) (packets : List Packet) :
    (∀ packet : Packet, packet.encode.length = Packet.size packet.payload.length ∧
      (∃ after, writePacket packet before = .ok (Packet.size packet.payload.length) after ∧
        before.Adds packet.encode after) ∧
      (∃ lead guard body, packet.encode = lead ++ guard ++ body ∧ packet.Parts lead guard body) ∧
      ∀ following : Bytes,
        Packet.read? (packet.encode ++ following) = some (packet, following)) ∧
    (∃ after, packets.mapM writePacket before =
        .ok (packets.map fun packet => Packet.size packet.payload.length) after ∧
      before.Adds (packets.flatMap Packet.encode) after) ∧
    (∀ others, Packet.Parses (packets.flatMap Packet.encode) others ↔ others = packets) ∧
    ∀ others, others.flatMap Packet.encode = packets.flatMap Packet.encode → others = packets := by
  refine ⟨fun packet => ⟨packet.length_encode, ?_, packet.parts_of_encode,
    Packet.read?_encode_append packet⟩, writePackets_ok takes packets, fun _ => Packet.parses_iff, ?_⟩
  · obtain ⟨after, wrote, added, _⟩ := writePacket_ok takes packet
    exact ⟨after, wrote, added⟩
  · intro others same
    rw [← Packet.parses_iff, ← same]
    exact Packet.parses_flatMap_encode others

/-- A packet with nothing in it, and the first one that needs a sum in its header. -/
def samplePackets : List Packet := [⟨Startcode.index, []⟩, ⟨7, List.replicate 4093 0x4E⟩]

theorem packets_parse_back_sample :
    ∃ after, samplePackets.mapM writePacket (.fresh .memory) = .ok [13, 4111] after ∧
      (Output.fresh .memory).Adds (samplePackets.flatMap Packet.encode) after ∧
      Packet.Parses (samplePackets.flatMap Packet.encode) samplePackets := by
  obtain ⟨_, ⟨after, wrote, added⟩, parses, _⟩ := packets_parse_back
    (show (Output.fresh .memory).sink.policy.TakesAll from Sink.Policy.takesAll_memory) samplePackets
  have sizes : (samplePackets.map fun packet => Packet.size packet.payload.length) = [13, 4111] := by
    decide +kernel
  rw [sizes] at wrote
  exact ⟨after, wrote, added, (parses samplePackets).mpr rfl⟩

end Output

end NutContainer
