import NutContainer.Proofs.HeaderCodec

/-! What a payload keeps of a header. Headers are taken as they are here, whether or not any
description leads to them: the parts need not agree with each other, as long as the parameters of a
stream are those of its class. A payload has fields of many lengths in it and nothing between them,
so that it can be read at all, and in one way only, rests on every single field being read back with
anything behind it. -/
namespace NutContainer

namespace StreamHeader

/-- Payloads of stream headers are the same exactly if the headers differ at most in what no payload
has: the clock itself, which is filed by its number. -/
theorem encode_eq_iff {one other : StreamHeader} (matching : one.params.kind = one.kind)
    (likewise : other.params.kind = other.kind) :
    one.encode = other.encode ↔ one = { other with timeBase := one.timeBase } := by
  constructor
  · intro same
    have reads := read?_append matching (fun _ => one.timeBase) []
    have readsOther := read?_append likewise (fun _ => one.timeBase) []
    rw [List.append_nil, if_pos rfl] at reads readsOther
    rw [← same, reads] at readsOther
    exact Option.some.inj readsOther
  · intro same
    rw [same]
    rfl

end StreamHeader

namespace MainHeader

/-- A main header with the table that is in use is read back whole. -/
theorem read?_append_of_generic {header : MainHeader} (generic : header.frameCodes = .generic)
    (rest : Bytes) :
    read? (header.encode ++ rest) = if rest = [] then some header else none := by
  have sized := FrameCodeTable.sized_generic
  rw [← generic] at sized
  rw [read?_append sized, generic, FrameCodeTable.stated_generic, ← generic]

theorem encode_eq_iff {one other : MainHeader} (generic : one.frameCodes = .generic)
    (likewise : other.frameCodes = .generic) : one.encode = other.encode ↔ one = other := by
  constructor
  · intro same
    have reads := read?_append_of_generic generic []
    have readsOther := read?_append_of_generic likewise []
    rw [List.append_nil, if_pos rfl] at reads readsOther
    rw [← same, reads] at readsOther
    exact Option.some.inj readsOther
  · exact congrArg encode

end MainHeader

namespace Headers

/-- A reader gets every field of a header back from its payload and accepts nothing behind it. It is
told the clocks of stream headers, which are filed by their numbers; the table of a main header is
the one in use. So no two headers that differ in a field of the payload have the same payload. -/
theorem header_payloads_read_back :
    (∀ header : StreamHeader, header.params.kind = header.kind →
      ∀ (clock : UInt32 → Ratio) (rest : Bytes),
        StreamHeader.read? clock (header.encode ++ rest) =
          if rest = [] then some { header with timeBase := clock header.timeBaseId } else none) ∧
    (∀ header : MainHeader, header.frameCodes = .generic → ∀ rest : Bytes,
      MainHeader.read? (header.encode ++ rest) = if rest = [] then some header else none) ∧
    (∀ one other : StreamHeader, one.params.kind = one.kind → other.params.kind = other.kind →
      (one.encode = other.encode ↔ one = { other with timeBase := one.timeBase })) ∧
    ∀ one other : MainHeader, one.frameCodes = .generic → other.frameCodes = .generic →
      (one.encode = other.encode ↔ one = other) :=
  ⟨fun _ matching => StreamHeader.read?_append matching,
    fun _ generic => MainHeader.read?_append_of_generic generic,
    fun _ _ matching likewise => StreamHeader.encode_eq_iff matching likewise,
    fun _ _ generic likewise => MainHeader.encode_eq_iff generic likewise⟩

/-- A stream that no description leads to: it shares a clock with another stream and comes with
bytes of its own that could be the beginning of a packet. -/
def sampleStreamHeader : StreamHeader where
  stream := 300
  kind := .video
  fourcc := ⟨0x52, 0x47, 0x42, 24⟩
  timeBase := ⟨1001, 30000⟩
  timeBaseId := 2
  ptsShift := 7
  maxPtsDistance := 60000
  decodeDelay := 3
  flags := 1
  extradata := .ofWord64 Startcode.mainHeader
  params := .video 640 480 4 3 17

/-- A main header in which the counts do not agree and a clock stands still. -/
def sampleMainHeader : MainHeader := ⟨0x10000, 9, 32767, [⟨1, 25⟩, ⟨1, 0⟩, ⟨1001, 30000⟩], .generic⟩

theorem header_payloads_read_back_sample :
    StreamHeader.read? (fun _ => ⟨1, 25⟩) sampleStreamHeader.encode =
        some { sampleStreamHeader with timeBase := ⟨1, 25⟩ } ∧
      StreamHeader.read? (fun _ => ⟨1, 25⟩) (sampleStreamHeader.encode ++ [0]) = none ∧
      MainHeader.read? sampleMainHeader.encode = some sampleMainHeader ∧
      sampleStreamHeader.encode ≠ { sampleStreamHeader with flags := 0 }.encode ∧
      sampleMainHeader.encode ≠ { sampleMainHeader with maxDistance := 32768 }.encode := by
  obtain ⟨stream, main, streams, mains⟩ := header_payloads_read_back
  have generic : sampleMainHeader.frameCodes = .generic := rfl
  refine ⟨?_, ?_, ?_, ?_, ?_⟩
  · have read := stream sampleStreamHeader rfl (fun _ => ⟨1, 25⟩) []
    rwa [List.append_nil, if_pos rfl] at read
  · have read := stream sampleStreamHeader rfl (fun _ => ⟨1, 25⟩) [0]
    rwa [if_neg (List.cons_ne_nil 0 [])] at read
  · have read := main sampleMainHeader generic []
    rwa [List.append_nil, if_pos rfl] at read
  · intro same
    have agree := (streams sampleStreamHeader _ rfl rfl).mp same
    exact absurd (congrArg StreamHeader.flags agree) (by decide)
  · intro same
    have agree := (mains sampleMainHeader
      { sampleMainHeader with maxDistance := 32768 } generic generic).mp same
    exact absurd (congrArg MainHeader.maxDistance agree) (by decide)

end Headers

end NutContainer
