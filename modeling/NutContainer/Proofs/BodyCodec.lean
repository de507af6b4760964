import NutContainer.Proofs.HeaderCodec
import NutContainer.Proofs.IndexCodec
import NutContainer.Recording

/-! The body of a file is read back element by element. Every packet begins with
the byte under which no frame code is usable and every frame with the generic
code, so the first byte tells the reader which of the two it has; from there each
element's own bytes say where it ends, and the reader goes on behind it. -/
namespace NutContainer

namespace Element

def isFrame : Element → Bool
  | frame .. => true
  | _ => false

def isIndex : Element → Bool
  | index .. => true
  | _ => false

end Element

/-- What a reader finds of a frame. The flag that defers to the frame header is
still among the flags. -/
def Element.ofFrame (stream : UInt32) (pts : Nat) (payload : Bytes) : Element :=
  .frame (FrameFlag.mask (.coded :: FrameRecord.statedFlags)) stream.toNat pts payload

/-- A frame as it stands in a file, behind any sync point of its own. -/
def FrameRecord.encode (header : StreamHeader) (code : FrameCode) (pts : Nat) (payload : Bytes) :
    Bytes :=
  FrameRecord.header header code pts payload.length ++ payload

/-- Packets with this startcode begin with the startcode byte. -/
def Startcode.Marked (startcode : UInt64) : Prop :=
  UInt8.ofNat (startcode.toNat >>> 56) = FrameCodeTable.startcodeByte

instance (startcode : UInt64) : Decidable (Startcode.Marked startcode) :=
  inferInstanceAs (Decidable (_ = _))

private theorem head?_encode (packet : Packet)
    (marked : Startcode.Marked packet.startcode) :
    packet.encode.head? = some FrameCodeTable.startcodeByte := by
  unfold Startcode.Marked at marked
  unfold Packet.encode Packet.header Packet.lead
  split <;> simpa [Field.encode, Bytes.ofWord64, Bytes.ofNat] using marked

theorem get_generic : FrameCodeTable.generic.get FrameCodeTable.genericCode = .generic := by
  simp [FrameCodeTable.generic, FrameCodeTable.get, Vector.get, FrameCodeTable.genericCode]
  rfl

theorem codedTime?_isSome {pts clock clocks : Nat} :
    (codedTime? pts clock clocks).isSome ↔ pts * clocks + clock < UInt64.size := by
  by_cases fits : pts * clocks + clock < UInt64.size
  · simp [codedTime?, fits]
  · simp [codedTime?, fits]

namespace Contents

private theorem readElement?_packet {headers : Headers} {startcode : UInt64}
    (marked : Startcode.Marked startcode) (payload : Bytes) (synced : Bool) (rest : Bytes) :
    readElement? headers synced (Packet.encode ⟨startcode, payload⟩ ++ rest) =
      readPacket? headers (Packet.encode ⟨startcode, payload⟩ ++ rest) := by
  have first := head?_encode ⟨startcode, payload⟩ marked
  obtain ⟨others, spelled⟩ := List.head?_eq_some_iff.mp first
  rw [spelled, List.cons_append, readElement?, if_pos rfl]

private theorem readSyncpoint?_payload {pts clock clocks : Nat} (back : Nat) (known : clock < clocks)
    (codable : (codedTime? pts clock clocks).isSome) :
    readSyncpoint? clocks (Field.encodeAll [.time pts clock clocks, .unsigned back]) =
      some (.syncpoint pts clock back) := by
  have time : Field.encodeAll [.time pts clock clocks, .unsigned back] =
      Varint.encode (pts * clocks + clock) ++ (Varint.encode back ++ []) := by
    rw [Field.encodeAll_cons, Field.encode, Nat.mod_eq_of_lt (codedTime?_isSome.mp codable)]
    rfl
  obtain ⟨ticks, own⟩ := Index.split_time pts known
  rw [time]
  simp only [readSyncpoint?, bind, Option.bind, Varint.read?_append, ticks, own, if_true]

/-- A sync point is read back, whatever follows it. -/
theorem readElement?_syncpoint {headers : Headers} {pts : Nat} {stream : UInt32}
    (known : stream.toNat < headers.clockCount)
    (codable : (codedTime? pts stream.toNat headers.clockCount).isSome) (back : Nat) (synced : Bool)
    (rest : Bytes) :
    readElement? headers synced
        (Packet.encode ⟨Startcode.syncpoint,
          Field.encodeAll [.time pts stream.toNat headers.clockCount, .unsigned back]⟩ ++ rest) =
      some (.syncpoint pts stream.toNat back, rest) := by
  have marked : Startcode.Marked Startcode.syncpoint := by decide
  have payload := readSyncpoint?_payload back known codable
  rw [readElement?_packet marked, readPacket?, Packet.read?_encode_append]
  simp only [bind, Option.bind, if_true, payload, pure]

/-- The index is read back, whatever follows it. -/
theorem readElement?_index {headers : Headers} {ledger : Ledger}
    (counted : ledger.streamCount = headers.streams.length)
    (codable : Index.LatestCodable ledger headers.clockCount)
    (ascending : Index.Ascending 0 (Index.places ledger)) (synced : Bool) (rest : Bytes) :
    readElement? headers synced ((Index.packet ledger headers.clockCount).encode ++ rest) =
      some (.index (Index.contents ledger headers.clockCount), rest) := by
  have marked : Startcode.Marked Startcode.index := by decide
  have other : Startcode.index ≠ Startcode.syncpoint := by decide
  have payload := Index.read?_packet codable ascending
  have whole : Index.packet ledger headers.clockCount =
      ⟨Startcode.index, (Index.packet ledger headers.clockCount).payload⟩ := rfl
  rw [whole, readElement?_packet marked, readPacket?, Packet.read?_encode_append, ← counted]
  simp only [bind, Option.bind, other, if_true, if_false, payload, pure]

/-- What a frame states about itself, when its header is not shifted and the code
is the generic one. -/
theorem stated_eq {header : StreamHeader} (unshifted : header.ptsShift = 0)
    (pts size : Nat) :
    Field.encodeAll (FrameRecord.fields header .generic pts size) =
      FrameCodeTable.genericCode :: (Varint.encode (FrameFlag.mask FrameRecord.statedFlags) ++
        (Varint.encode header.stream.toNat ++ (Varint.encode (pts + 1) ++ Varint.encode size))) := by
  simp [FrameRecord.fields, Field.encode, unshifted, FrameCode.generic]

/-- A frame is read back behind a sync point, whatever follows it. -/
theorem readElement?_frame {headers : Headers} (agree : headers.Agree) {stream : UInt32}
    {header : StreamHeader} (found : headers.stream? stream = some header) (pts : Nat)
    (payload rest : Bytes) :
    readElement? headers true
        (FrameRecord.encode header (headers.main.frameCodes.get FrameCodeTable.genericCode) pts
          payload ++ rest) =
      some (.ofFrame stream pts payload, rest) := by
  have number := (agree.numbered found).1
  have unshifted := agree.unshifted header (List.mem_of_getElem? found)
  have stated := stated_eq unshifted pts payload.length
  have intact := Checksum.isIntact_append_sum
    (Field.encodeAll (FrameRecord.fields header .generic pts payload.length))
  have frame : FrameCodeTable.genericCode ≠ FrameCodeTable.startcodeByte := by decide
  have usable : FrameCode.generic.isUsable = true := by decide
  have coded : states FrameCode.generic.flags [.coded] = true := by decide
  have joined : FrameCode.generic.flags ^^^ FrameFlag.mask FrameRecord.statedFlags =
      FrameFlag.mask (.coded :: FrameRecord.statedFlags) := by decide
  have all : states (FrameFlag.mask (.coded :: FrameRecord.statedFlags)) FrameRecord.statedFlags =
      true := by decide
  have entry : headers.main.frameCodes.get FrameCodeTable.genericCode = .generic := by
    rw [agree.codes, get_generic]
  rw [entry, FrameRecord.encode, FrameRecord.header]
  generalize Checksum.ofBytes
    (Field.encodeAll (FrameRecord.fields header .generic pts payload.length)) = sum at intact
  have taken (bytes : Bytes) : Bytes.take? 1 (FrameCodeTable.genericCode :: bytes) =
      some ([FrameCodeTable.genericCode], bytes) := rfl
  have whole : payload.length * FrameCode.generic.sizeMultiplier + FrameCode.generic.sizeLsb =
      payload.length := Nat.mul_one _
  have shift : 1 <<< header.ptsShift.toNat = 1 := by rw [unshifted]; rfl
  have listed : headers.streams[stream.toNat]? = some header := found
  have behind : Field.encodeAll (FrameRecord.fields header .generic pts payload.length) ++
      Bytes.ofWord32 sum ++ payload ++ rest =
      Field.encodeAll (FrameRecord.fields header .generic pts payload.length) ++
      Bytes.ofWord32 sum ++ (payload ++ rest) := List.append_assoc ..
  have skipped := Packet.take_behind
    (Field.encodeAll (FrameRecord.fields header .generic pts payload.length) ++ Bytes.ofWord32 sum)
    (payload ++ rest)
  rw [behind]
  rw [stated, number] at skipped intact ⊢
  simp only [List.cons_append, List.append_assoc] at skipped intact ⊢
  rw [readElement?, if_neg frame, if_pos rfl, readFrame?]
  simp only [bind, Option.bind, taken, List.headD_cons, entry, Varint.read?_append, joined, usable,
    coded, all, Bool.and_self, if_true, listed, Bytes.word32?_append, whole,
    Bytes.take?_append rfl, shift, skipped, intact, Nat.le_add_left, and_self,
    Nat.add_sub_cancel, Element.ofFrame, pure]

/-- A sync point is among the elements. -/
def Synced (body : List Placed) : Bool := body.any (syncs ·.element)

theorem synced_append (front back : List Placed) :
    Synced (front ++ back) = (Synced front || Synced back) := List.any_append

/-- The bytes spell these elements wherever a reader comes to them: it finds the
elements and goes on behind them with whatever follows. -/
def Spells (headers : Headers) (synced : Bool) (offset : Nat) (bytes : Bytes)
    (body : List Placed) : Prop :=
  ∀ rest, readBody? headers synced offset (bytes ++ rest) =
    (readBody? headers (synced || Synced body) (offset + bytes.length) rest).map (body ++ ·)

namespace Spells

variable {headers : Headers} {synced : Bool} {offset : Nat}

theorem nil : Spells headers synced offset [] [] := by
  intro rest
  simp [Synced]

theorem single {bytes : Bytes} {element : Element} (filled : 0 < bytes.length)
    (reads : ∀ rest, readElement? headers synced (bytes ++ rest) = some (element, rest)) :
    Spells headers synced offset bytes [⟨offset, element⟩] := by
  intro rest
  have some_left : bytes ++ rest ≠ [] := by
    intro empty
    rw [List.append_eq_nil_iff.mp empty |>.1] at filled
    exact Nat.lt_irrefl 0 filled
  have shorter : rest.length < (bytes ++ rest).length := by
    rw [List.length_append]
    omega
  have taken : (bytes ++ rest).length - rest.length = bytes.length := by simp
  rw [readBody?, if_neg some_left]
  simp only [reads, shorter, dite_true, taken, Synced, List.any_cons, List.any_nil, Bool.or_false]
  rfl

theorem append {front back : Bytes} {first second : List Placed}
    (left : Spells headers synced offset front first)
    (right : Spells headers (synced || Synced first) (offset + front.length) back second) :
    Spells headers synced offset (front ++ back) (first ++ second) := by
  intro rest
  rw [List.append_assoc, left, right, Option.map_map]
  simp [Function.comp_def, synced_append, Bool.or_assoc, Nat.add_assoc]

/-- Bytes that spell a body and nothing else are read as that body. -/
theorem readBody?_eq {bytes : Bytes} {body : List Placed}
    (spells : Spells headers synced offset bytes body) :
    readBody? headers synced offset bytes = some body := by
  have read := spells []
  rw [List.append_nil] at read
  rw [read, readBody?, if_pos rfl]
  simp

end Spells

private theorem readPacket?_isFrame {headers : Headers} {bytes rest : Bytes} {element : Element}
    (read : readPacket? headers bytes = some (element, rest)) : element.isFrame = false := by
  obtain ⟨⟨packet, behind⟩, _, read⟩ := Option.bind_eq_some_iff.mp read
  dsimp only at read
  split at read
  · obtain ⟨found, point, read⟩ := Option.bind_eq_some_iff.mp read
    cases read
    obtain ⟨⟨time, behind⟩, _, point⟩ := Option.bind_eq_some_iff.mp point
    obtain ⟨⟨back, behind⟩, _, point⟩ := Option.bind_eq_some_iff.mp point
    dsimp only at point
    split at point
    · cases point
      rfl
    · cases point
  · split at read
    · obtain ⟨contents, _, read⟩ := Option.bind_eq_some_iff.mp read
      cases read
      rfl
    · cases read

theorem synced_of_readElement? {headers : Headers} {synced : Bool} {bytes rest : Bytes}
    {element : Element} (read : readElement? headers synced bytes = some (element, rest))
    (frame : element.isFrame) : synced = true := by
  unfold readElement? at read
  split at read
  · cases read
  · split at read
    · rw [readPacket?_isFrame read] at frame
      cases frame
    · split at read
      · assumption
      · cases read

/-- A reader takes no frame that has no sync point somewhere before it. -/
theorem synced_of_readBody? {headers : Headers} {synced : Bool} {offset : Nat} {bytes : Bytes}
    {body front back : List Placed} {placed : Placed}
    (read : readBody? headers synced offset bytes = some body) (split : body = front ++ placed :: back)
    (frame : placed.element.isFrame) : (synced || Synced front) = true := by
  fun_induction readBody? headers synced offset bytes generalizing body front with
  | case1 synced offset =>
    cases read
    simp at split
  | case2 => cases read
  | case3 synced offset bytes filled element rest found shorter ih =>
    obtain ⟨others, behind, rfl⟩ := Option.map_eq_some_iff.mp read
    cases front with
    | nil =>
      obtain ⟨rfl, rfl⟩ := List.cons.inj split
      rw [synced_of_readElement? found frame, Bool.true_or]
    | cons first ahead =>
      obtain ⟨rfl, tail⟩ := List.cons.inj split
      have synced := ih behind tail
      rwa [Bool.or_assoc] at synced
  | case4 => cases read

end Contents

end NutContainer
