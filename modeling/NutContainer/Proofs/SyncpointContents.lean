import NutContainer.Proofs.SyncpointSpacing

/-! What a sync point says. It states a time before the frame with that time is written, and how
far back the sync point before it stands, which is rounded to units on the way. So a reader who
starts at a sync point knows the clock at once, and one who follows the distance back arrives less
than a unit in front of the sync point that is meant and never behind its beginning. -/
namespace NutContainer

namespace Contents

/-- The packet of a sync point. -/
def syncpointPacket (headers : Headers) (pts clock back : Nat) : Packet :=
  ⟨Startcode.syncpoint, Field.encodeAll [.time pts clock headers.clockCount, .unsigned back]⟩

/-- The distance back from a place behind these elements to the last sync point among them. -/
def distanceBack (headers : Headers) (front : List Placed) (place : Nat) : Nat :=
  ((syncpoints ⟨headers, front⟩).getLast?.map fun last => (place - last) / Index.unit).getD 0

/-- At this place, behind these elements, stands a sync point that can be read. -/
structure StandsAt (headers : Headers) (bytes : Bytes) (start : Nat) (front : List Placed)
    (place pts clock back : Nat) : Prop where
  known : clock < headers.clockCount
  codable : (codedTime? pts clock headers.clockCount).isSome
  starts : start ≤ place
  inside : ∀ placed ∈ front, placed.offset ≤ place
  distance : back = distanceBack headers front place
  stands : ∃ behind, bytes.drop place = (syncpointPacket headers pts clock back).encode ++ behind

variable {headers : Headers} {bytes : Bytes} {start place pts clock back : Nat}
  {front body : List Placed}

theorem StandsAt.append (stands : StandsAt headers bytes start front place pts clock back)
    (more : Bytes) : StandsAt headers (bytes ++ more) start front place pts clock back := by
  obtain ⟨behind, found⟩ := stands.stands
  exact ⟨stands.known, stands.codable, stands.starts, stands.inside, stands.distance,
    behind ++ more, drop_append_of_stands (Packet.encode_pos _) found more⟩

/-- A reader takes the time with its clock from the packet, and the distance behind it. -/
theorem StandsAt.read? (stands : StandsAt headers bytes start front place pts clock back) :
    ∃ coded tail,
      Varint.read? (syncpointPacket headers pts clock back).payload = some (coded, tail) ∧
      Varint.read? tail = some (back, []) ∧
      coded < UInt64.size ∧ coded / headers.clockCount = pts ∧ coded % headers.clockCount = clock := by
  have fits := codedTime?_isSome.mp stands.codable
  obtain ⟨ticks, own⟩ := Index.split_time pts stands.known
  have payload : (syncpointPacket headers pts clock back).payload =
      Varint.encode (pts * headers.clockCount + clock) ++ (Varint.encode back ++ []) := by
    rw [syncpointPacket, Field.encodeAll_cons, Field.encode, Nat.mod_eq_of_lt fits]
    rfl
  rw [payload]
  exact ⟨_, _, Varint.read?_append _ _, Varint.read?_append back [], fits, ticks, own⟩

end Contents

namespace Draft

variable {headers : Headers} {draft : Draft} {stream : UInt32} {pts : Nat} {start : Nat}

/-- Sync points stand where they were put. -/
structure Standing (headers : Headers) (start : Nat) (draft : Draft) : Prop where
  booked : draft.Booked headers
  starts : start ≤ draft.bytes.length
  inside : ∀ placed ∈ draft.body, placed.offset ≤ draft.bytes.length
  points : ∀ front place pts clock back rest,
    draft.body = front ++ ⟨place, .syncpoint pts clock back⟩ :: rest →
      Contents.StandsAt headers draft.bytes start front place pts clock back

theorem Standing.putSyncpoint (standing : draft.Standing headers start) (agree : headers.Agree)
    (admits : headers.Admits stream pts) :
    (draft.putSyncpoint headers stream pts).Standing headers start where
  booked := standing.booked.putSyncpoint
  starts := by
    rw [Draft.putSyncpoint, put, List.length_append]
    exact Nat.le_add_right_of_le standing.starts
  inside := inside_put standing.inside _ _ _
  points := by
    intro front place pts clock back rest split
    obtain ⟨rfl, same, rfl⟩ | ⟨behind, rfl, old⟩ := split_concat split
    · cases same
      refine ⟨admits.clock agree, admits.2, standing.starts, standing.inside, ?_, [], ?_⟩
      · rw [Contents.distanceBack, ← standing.booked.lastSyncpoint?_getLast?]
        rfl
      · rw [Draft.putSyncpoint, put, List.drop_left, List.append_nil]
        rfl
    · exact (standing.points _ _ _ _ _ _ old).append _

theorem Standing.putRecord (standing : draft.Standing headers start)
    (begun : draft.ledger.intervals ≠ []) (header : StreamHeader) (stream : UInt32) (pts : Nat)
    (payload : Bytes) : (draft.putRecord headers header stream pts payload).Standing headers start where
  booked := standing.booked.putRecord begun header stream pts payload
  starts := by
    rw [Draft.putRecord, put, List.length_append]
    exact Nat.le_add_right_of_le standing.starts
  inside := inside_put standing.inside _ _ _
  points := by
    intro front place other clock back rest split
    obtain ⟨_, same, _⟩ | ⟨behind, rfl, old⟩ := split_concat split
    · cases same
    · exact (standing.points _ _ _ _ _ _ old).append _

end Draft

namespace Recording

variable {plan : HeaderPlan} {streams : List StreamDescriptor} {headers : Headers}
  {before after : Recording} {writes : List FrameWrite} {sizes : List Nat}

end Recording

end NutContainer
