import NutContainer.Packet
import NutContainer.Proofs.ChecksumResidue

/-! A packet is read back whatever follows it. Its own bytes say where it ends, so
the reader stops exactly at the bytes behind it, and both checksums are found
intact on the way. -/
namespace NutContainer.Packet

/-- What a reader has behind it when these bytes are still to come. -/
theorem take_behind (front behind : Bytes) :
    (front ++ behind).take ((front ++ behind).length - behind.length) = front := by
  simp

theorem encode_pos (packet : Packet) : 0 < packet.encode.length := by
  rw [length_encode, size, distance]
  omega

theorem lead_eq (packet : Packet) :
    packet.lead = .ofWord64 packet.startcode ++ Varint.encode (distance packet.payload.length) := by
  simp [lead, Field.encode]

/-- A packet header of either kind is passed over, with its checksum verified where
it has one. -/
private theorem skipHeaderSum?_header (packet : Packet) (behind : Bytes) :
    skipHeaderSum? (distance packet.payload.length) (packet.header ++ behind)
      (packet.header.drop packet.lead.length ++ behind) = some behind := by
  unfold skipHeaderSum? header
  split
  · have intact := Checksum.isIntact_append_sum packet.lead
    rw [List.drop_left, Bytes.word32?_append]
    simp only [bind, Option.bind, take_behind, intact, if_true]
  · simp

theorem lead_append_drop (packet : Packet) :
    packet.lead ++ packet.header.drop packet.lead.length = packet.header := by
  unfold header
  split <;> simp

/-- Behind the header of a packet, a reader takes a body of the packet's size, and only one that is
intact. -/
theorem read?_header_append (packet : Packet) {body : Bytes}
    (width : body.length = distance packet.payload.length) (rest : Bytes) :
    read? (packet.header ++ (body ++ rest)) =
      if Checksum.IsIntact body then
        some (⟨packet.startcode, body.take packet.payload.length⟩, rest)
      else none := by
  have spelled : packet.header ++ (body ++ rest) =
      .ofWord64 packet.startcode ++ (Varint.encode (distance packet.payload.length) ++
        (packet.header.drop packet.lead.length ++ (body ++ rest))) := by
    rw [← List.append_assoc (Bytes.ofWord64 _), ← lead_eq, ← List.append_assoc packet.lead,
      lead_append_drop]
  have enough : 4 ≤ distance packet.payload.length := by simp [distance]
  have short : distance packet.payload.length - 4 = packet.payload.length := by simp [distance]
  unfold read?
  rw [show Bytes.word64? (packet.header ++ (body ++ rest)) = some (packet.startcode, _) from
    spelled ▸ Bytes.word64?_append _ _]
  simp only [bind, Option.bind, Varint.read?_append, skipHeaderSum?_header,
    Bytes.take?_append width, enough, short, true_and]

theorem length_body (packet : Packet) :
    (packet.payload ++ packet.trailer).length = distance packet.payload.length := by
  simp [trailer, Bytes.ofWord32, distance]

/-- Reading what was written gives the packet and all that follows it. -/
theorem read?_encode_append (packet : Packet) (rest : Bytes) :
    read? (packet.encode ++ rest) = some (packet, rest) := by
  have opened : packet.encode ++ rest =
      packet.header ++ (packet.payload ++ packet.trailer ++ rest) := by
    simp only [encode, List.append_assoc]
  have intact : Checksum.IsIntact (packet.payload ++ packet.trailer) :=
    Checksum.isIntact_append_sum packet.payload
  rw [opened, read?_header_append packet packet.length_body, if_pos intact, List.take_left]

end NutContainer.Packet
