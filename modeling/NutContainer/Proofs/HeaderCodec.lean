import NutContainer.Contents
import NutContainer.Header.Plan
import NutContainer.Proofs.FrameTableCodec
import NutContainer.Proofs.PacketCodec
import NutContainer.Proofs.Success

/-! The headers of a file are read back from what opens it. A stream header names
its clock by number only, so it is read back together with the main header that
holds the clock; headers that were derived from stream descriptions agree in this
and in everything else that a reader asks for. -/
namespace NutContainer

theorem Ratio.read?_append (ratio : Ratio) (rest : Bytes) :
    read? (Field.encodeAll [.unsigned ratio.num.toNat, .unsigned ratio.den.toNat] ++ rest) =
      some (ratio, rest) := by
  simp [read?, Field.encode, Varint.readWord32?_append]

/-- A payload is read as a main header with its table as a file can state it, and nothing may be
left over. -/
theorem MainHeader.read?_append {header : MainHeader}
    (sized : ∀ code ∈ header.frameCodes.codes.toList, code.IsSized) (rest : Bytes) :
    read? (header.encode ++ rest) =
      if rest = [] then some { header with frameCodes := header.frameCodes.stated } else none := by
  have spelled : header.encode ++ rest = Varint.encode header.version ++
      (Varint.encode header.streamCount.toNat ++ (Varint.encode header.maxDistance.toNat ++
        (Varint.encode header.timeBases.length ++
          (header.timeBases.flatMap (fun base =>
            Field.encodeAll [.unsigned base.num.toNat, .unsigned base.den.toNat]) ++
          (Field.encodeAll header.frameCodes.fields ++ (Varint.encode 0 ++ rest)))))) := by
    simp [encode, fields, Field.encodeAll_append, Field.encodeAll_flatMap, Field.encode, clockCount]
  have clocks (rest : Bytes) := Bytes.many?_append
    (fun base (_ : base ∈ header.timeBases) rest => Ratio.read?_append base rest) rest
  rw [read?, spelled]
  simp only [bind, Option.bind, Varint.read?_append, Varint.readWord32?_append, clocks,
    FrameCodeTable.read?_append sized, true_and]

/-- A main header is read back with its table as a file can state it. -/
theorem MainHeader.read?_encode {header : MainHeader}
    (sized : ∀ code ∈ header.frameCodes.codes.toList, code.IsSized) :
    read? header.encode = some { header with frameCodes := header.frameCodes.stated } := by
  simpa using read?_append sized []

/-- The class that parameters belong to. -/
def StreamParams.kind : StreamParams → StreamClass
  | .video .. => .video
  | .audio .. => .audio

namespace StreamHeader

theorem readParams?_append (params : StreamParams) (rest : Bytes) :
    readParams? params.kind (Field.encodeAll (paramFields params) ++ rest) =
      some (params, rest) := by
  cases params with
  | video width height sampleWidth sampleHeight colourspace =>
    simp [readParams?, StreamParams.kind, paramFields, Field.encode, Varint.readWord32?_append]
  | audio sampleRate channels =>
    simp [readParams?, StreamParams.kind, paramFields, Field.encode, Varint.readWord32?_append,
      Ratio.read?]

/-- A payload is read as a stream header with the clock that its number stands for, and nothing
may be left over. -/
theorem read?_append {header : StreamHeader} (matching : header.params.kind = header.kind)
    (clock : UInt32 → Ratio) (rest : Bytes) :
    read? clock (header.encode ++ rest) =
      if rest = [] then some { header with timeBase := clock header.timeBaseId } else none := by
  have code : StreamClass.ofCode? header.kind.code = some header.kind := by
    cases header.kind <;> rfl
  have params : readParams? header.kind (Field.encodeAll (paramFields header.params) ++ rest) =
      some (header.params, rest) := by
    rw [← matching]
    exact readParams?_append header.params rest
  simp only [encode, fields, List.cons_append, List.nil_append, Field.encodeAll_cons, Field.encode,
    List.append_assoc]
  dsimp only [read?, Option.bind_eq_bind]
  -- field by field: a simp under nested binds goes over each continuation twice
  rw [Varint.readWord32?_append, Option.bind_some, Varint.read?_append, Option.bind_some, code,
    Option.bind_some, Varint.readBlock?_append, Option.bind_some, FourCC.ofBytes?_toBytes,
    Option.bind_some, Varint.readWord32?_append, Option.bind_some, Varint.readWord32?_append,
    Option.bind_some, Varint.readWord32?_append, Option.bind_some, Varint.readWord32?_append,
    Option.bind_some, Varint.readWord32?_append, Option.bind_some, Varint.readBlock?_append,
    Option.bind_some, params, Option.bind_some]

/-- A stream header is read back by a reader that knows its clock. -/
theorem read?_encode {header : StreamHeader} {clock : UInt32 → Ratio}
    (matching : header.params.kind = header.kind)
    (known : clock header.timeBaseId = header.timeBase) :
    read? clock header.encode = some header := by
  simpa [known] using read?_append matching clock []

/-- What a stream takes in the opening of a file. -/
def packet (header : StreamHeader) : Packet := ⟨Startcode.streamHeader, header.encode⟩

end StreamHeader

namespace Headers

/-- All that stands in a file before the first sync point. -/
def opening (headers : Headers) : Bytes :=
  fileMark ++ Packet.encode ⟨Startcode.mainHeader, headers.main.encode⟩ ++
    headers.streams.flatMap fun stream => stream.packet.encode

/-- The parts of the headers agree: streams and clocks are numbered by their
places, full times are not shifted, and frames use the generic table. -/
structure Agree (headers : Headers) : Prop where
  clocks : headers.main.timeBases = headers.streams.map (·.timeBase)
  counted : headers.main.streamCount = UInt32.ofNat headers.streams.length
  codes : headers.main.frameCodes = .generic
  numbered : ∀ {place : Nat} {header : StreamHeader}, headers.streams[place]? = some header →
    header.stream.toNat = place ∧ header.timeBaseId = header.stream
  unshifted : ∀ header ∈ headers.streams, header.ptsShift = 0
  matching : ∀ header ∈ headers.streams, header.params.kind = header.kind

/-- Every clock that a stream names is the stream's own. -/
theorem Agree.tick_eq {headers : Headers} (agree : headers.Agree) {header : StreamHeader}
    (member : header ∈ headers.streams) :
    Ledger.tick headers.main.timeBases header.timeBaseId = header.timeBase := by
  obtain ⟨place, found⟩ := List.mem_iff_getElem?.mp member
  obtain ⟨number, own⟩ := agree.numbered found
  simp [Ledger.tick, agree.clocks, own, number, found]

/-- There are as many clocks as streams. -/
theorem Agree.clockCount_eq {headers : Headers} (agree : headers.Agree) :
    headers.main.clockCount = headers.streams.length := by
  rw [MainHeader.clockCount, agree.clocks, List.length_map]

/-- In 32 bits streams and clocks are told to be equally many. -/
theorem Agree.streamCount_eq {headers : Headers} (agree : headers.Agree) :
    headers.main.streamCount = headers.main.clockWord := by
  rw [agree.counted, MainHeader.clockWord, agree.clockCount_eq]

end Headers

namespace HeaderPlan

/-- A field that a stream cannot do without is there and not zero. -/
theorem require_ok {stream : StreamDescriptor} {name : String} {field : Option UInt32}
    {value : UInt32} (required : stream.require name field = .ok value) :
    field = some value ∧ value ≠ 0 := by
  unfold StreamDescriptor.require at required
  split at required
  · cases required
  · split at required
    · cases required
    · rename_i positive
      cases required
      exact ⟨rfl, positive⟩

/-- The header says of the stream what its description says, and is plain in all that a
description does not speak of. -/
structure Describes (plan : HeaderPlan) (stream : StreamDescriptor) (header : StreamHeader) :
    Prop where
  number : header.stream = stream.id ∧ header.timeBaseId = stream.id
  clock : ∃ rate, stream.timebase = some rate ∧ rate ≠ 0 ∧ header.timeBase = ⟨1, rate⟩
  content :
    (stream.medium = .video ∧ header.kind = .video ∧ header.fourcc = plan.videoFourcc ∧
      ∃ width height, stream.width = some width ∧ stream.height = some height ∧
        header.params = .video width height 1 1 0) ∨
    (stream.medium = .audio ∧ header.kind = .audio ∧ header.fourcc = .pcm ∧
      ∃ rate channels, stream.sampleRate = some rate ∧ stream.channels = some channels ∧
        header.params = .audio ⟨rate, 1⟩ channels)
  plain : header.ptsShift = 0 ∧ header.maxPtsDistance = plan.maxPtsDistance ∧
    header.decodeDelay = 0 ∧ header.flags = 0 ∧ header.extradata = []

section Derived

variable {plan : HeaderPlan} {stream : StreamDescriptor} {header : StreamHeader}

/-- A header that is derived says what the description says. -/
theorem describes_of_streamHeader (derived : plan.streamHeader stream = .ok header) :
    plan.Describes stream header := by
  obtain ⟨content, found, derived⟩ := except_bind_ok.mp derived
  obtain ⟨rate, ticks, derived⟩ := except_bind_ok.mp derived
  cases derived
  obtain ⟨stated, required, ticks⟩ := except_bind_ok.mp ticks
  obtain ⟨timebase, positive⟩ := require_ok required
  have same : stated = rate := by
    split at ticks
    · cases ticks
    · exact Except.ok.inj ticks
  refine ⟨⟨rfl, rfl⟩, ⟨rate, same ▸ timebase, same ▸ positive, rfl⟩, ?_, rfl, rfl, rfl, rfl, rfl⟩
  unfold HeaderPlan.content at found
  cases medium : stream.medium with
  | video =>
    rw [medium] at found
    obtain ⟨width, wide, found⟩ := except_bind_ok.mp found
    obtain ⟨height, high, found⟩ := except_bind_ok.mp found
    cases found
    exact .inl ⟨rfl, rfl, rfl, width, height, (require_ok wide).1, (require_ok high).1, rfl⟩
  | audio =>
    rw [medium] at found
    obtain ⟨rate, sampled, found⟩ := except_bind_ok.mp found
    obtain ⟨channels, split, found⟩ := except_bind_ok.mp found
    cases found
    exact .inr ⟨rfl, rfl, rfl, rate, channels, (require_ok sampled).1, (require_ok split).1, rfl⟩
  | subtitle => simp [medium] at found
  | data => simp [medium] at found

theorem Describes.matching (describes : plan.Describes stream header) :
    header.params.kind = header.kind := by
  obtain ⟨_, kind, _, _, _, _, _, params⟩ | ⟨_, kind, _, _, _, _, _, params⟩ := describes.content
  · rw [kind, params]
    rfl
  · rw [kind, params]
    rfl

/-- What a description leads to, apart from the fields that depend on its medium. -/
theorem streamHeader_ok (derived : plan.streamHeader stream = .ok header) :
    header.stream = stream.id ∧ header.timeBaseId = stream.id ∧ header.ptsShift = 0 ∧
      header.extradata = [] ∧ header.params.kind = header.kind := by
  have describes := describes_of_streamHeader derived
  obtain ⟨unshifted, _, _, _, nothing⟩ := describes.plain
  exact ⟨describes.number.1, describes.number.2, unshifted, nothing, describes.matching⟩

/-- A stream's clock ticks at the rate of its description, which is not zero. -/
theorem streamHeader_clock (derived : plan.streamHeader stream = .ok header) :
    ∃ rate, stream.timebase = some rate ∧ rate ≠ 0 ∧ header.timeBase = .perSecond rate :=
  (describes_of_streamHeader derived).clock

end Derived

/-- Descriptions that are not misplaced are numbered by their places. -/
theorem id_of_not_misplaced {streams : List StreamDescriptor}
    (placed : StreamDescriptor.misplaced? streams = none) {place : Nat} {stream : StreamDescriptor}
    (found : streams[place]? = some stream) : stream.id.toNat = place := by
  have none := List.find?_eq_none.mp (Option.map_eq_none_iff.mp placed) (stream, place)
    (List.mk_mem_zipIdx_iff_getElem?.mpr found)
  simpa using none

/-- What a successful derivation went through. -/
theorem build_ok {plan : HeaderPlan} {streams : List StreamDescriptor} {headers : Headers}
    (built : plan.build streams = .ok headers) :
    StreamDescriptor.misplaced? streams = none ∧
      List.Forall₂ (fun stream header => plan.streamHeader stream = .ok header)
        streams headers.streams ∧
      headers.main = plan.mainHeader headers.streams := by
  unfold build at built
  split at built
  · cases built
  · obtain ⟨_, _, built⟩ := except_bind_ok.mp built
    cases placed : StreamDescriptor.misplaced? streams with
    | some defect => simp [placed] at built
    | none =>
      rw [placed] at built
      obtain ⟨derived, mapped, built⟩ := except_bind_ok.mp built
      cases built
      exact ⟨rfl, except_mapM_ok mapped, rfl⟩

/-- Every stream header comes from the description at its place. -/
theorem described_of_build {plan : HeaderPlan} {streams : List StreamDescriptor}
    {headers : Headers} (built : plan.build streams = .ok headers) {place : Nat}
    {header : StreamHeader} (found : headers.streams[place]? = some header) :
    ∃ stream, streams[place]? = some stream ∧ plan.streamHeader stream = .ok header := by
  obtain ⟨_, derived, _⟩ := build_ok built
  obtain ⟨inside, rfl⟩ := List.getElem?_eq_some_iff.mp found
  have described : place < streams.length := derived.length_eq ▸ inside
  exact ⟨streams[place], List.getElem?_eq_getElem described, derived.get described inside⟩

/-- Headers that were derived from descriptions agree. -/
theorem agree_of_build {plan : HeaderPlan} {streams : List StreamDescriptor} {headers : Headers}
    (built : plan.build streams = .ok headers) : headers.Agree := by
  obtain ⟨placed, _, main⟩ := build_ok built
  refine ⟨by rw [main]; rfl, by rw [main]; rfl, by rw [main]; rfl, ?_, ?_, ?_⟩
  · intro place header found
    obtain ⟨stream, described, derived⟩ := described_of_build built found
    obtain ⟨number, clock, _⟩ := streamHeader_ok derived
    exact ⟨number ▸ id_of_not_misplaced placed described, clock.trans number.symm⟩
  · intro header member
    obtain ⟨place, found⟩ := List.mem_iff_getElem?.mp member
    obtain ⟨stream, _, derived⟩ := described_of_build built found
    exact (streamHeader_ok derived).2.2.1
  · intro header member
    obtain ⟨place, found⟩ := List.mem_iff_getElem?.mp member
    obtain ⟨stream, _, derived⟩ := described_of_build built found
    exact (streamHeader_ok derived).2.2.2.2

end HeaderPlan

namespace Contents

theorem readPayload?_append (startcode : UInt64) (payload rest : Bytes) :
    readPayload? startcode (Packet.encode ⟨startcode, payload⟩ ++ rest) = some (payload, rest) := by
  simp [readPayload?, Packet.read?_encode_append]

/-- The opening of a file gives its headers back, whatever follows it. -/
theorem readHeaders?_opening {headers : Headers} (agree : headers.Agree) (rest : Bytes) :
    readHeaders? (headers.opening ++ rest) = some (headers, rest) := by
  have main : MainHeader.read? headers.main.encode = some headers.main := by
    have sized := FrameCodeTable.sized_generic
    rw [← agree.codes] at sized
    rw [MainHeader.read?_encode sized, agree.codes, FrameCodeTable.stated_generic, ← agree.codes]
  have stream : ∀ header ∈ headers.streams, ∀ rest,
      readStreamHeader? (Ledger.tick headers.main.timeBases) (header.packet.encode ++ rest) =
        some (header, rest) := by
    intro header member rest
    have read := StreamHeader.read?_encode (agree.matching header member) (agree.tick_eq member)
    simp [readStreamHeader?, StreamHeader.packet, readPayload?_append, read]
  have streams := Bytes.many?_append stream rest
  rw [readHeaders?, Headers.opening, List.append_assoc, List.append_assoc]
  simp only [bind, Option.bind, Bytes.take?_append rfl, if_true, readPayload?_append, main,
    agree.streamCount_eq, agree.clockCount_eq, streams, pure]

end Contents

end NutContainer
