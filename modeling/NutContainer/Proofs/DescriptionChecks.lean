import NutContainer.Proofs.Endings
import NutContainer.Proofs.HeaderCodec

/-! Which lists of stream descriptions lead to headers, and which fault the others come to.
Everything that is wrong with a description is listed first, whether or not the derivation gets as
far; the derivation then turns out to tell the first item of that list. For a whole list of
descriptions the numbers are looked at before the descriptions, so a misnumbered stream is told of
even if a stream in front of it has a defect of its own. -/
namespace NutContainer

/-- The checks fail with the first of these defects, and pass if there are none. -/
def Reports (checked : Except Fault α) (defects : List Fault) : Prop :=
  ∀ fault, checked = .error fault ↔ defects.head? = some fault

section Reports

variable {checked : Except Fault α} {defects others : List Fault}

theorem reports_ok (value : α) : Reports (.ok value) [] := by
  intro fault
  simp

theorem reports_error (fault : Fault) : Reports (.error fault : Except Fault α) [fault] := by
  intro other
  simp

theorem Reports.passes_iff (reports : Reports checked defects) :
    (∃ value, checked = .ok value) ↔ defects = [] := by
  cases checked with
  | ok value =>
    have silent : ∀ fault, defects.head? ≠ some fault := fun fault told =>
      nomatch (reports fault).mpr told
    exact iff_of_true ⟨value, rfl⟩
      (List.head?_eq_none_iff.mp (Option.eq_none_iff_forall_ne_some.mpr silent))
  | error fault =>
    have told := (reports fault).mp rfl
    refine iff_of_false (fun ⟨_, passed⟩ => nomatch passed) ?_
    rintro rfl
    cases told

/-- Checks one behind the other tell what the first of them has to tell, and only if that is
nothing what the second has. -/
theorem Reports.bind {next : α → Except Fault β} (one : Reports checked defects)
    (other : ∀ value, checked = .ok value → Reports (next value) others) :
    Reports (checked >>= next) (defects ++ others) := by
  intro fault
  rw [except_bind_error, List.head?_append, Option.or_eq_some_iff, one fault,
    List.head?_eq_none_iff, ← one.passes_iff]
  apply or_congr_right
  constructor
  · rintro ⟨value, passed, refused⟩
    exact ⟨⟨value, passed⟩, (other value passed fault).mp refused⟩
  · rintro ⟨⟨value, passed⟩, told⟩
    exact ⟨value, passed, (other value passed fault).mpr told⟩

/-- What is made of a value that has passed brings no defect of its own. -/
theorem Reports.yields (reports : Reports checked defects) (result : α → β) :
    Reports (checked >>= fun value => .ok (result value)) defects := by
  have yields := reports.bind fun value _ => reports_ok (result value)
  rwa [List.append_nil] at yields

/-- Checks of all items of a list tell the first defect of the first item that has one. -/
theorem reports_mapM {check : β → Except Fault α} {defects : β → List Fault}
    (each : ∀ item, Reports (check item) (defects item)) (items : List β) :
    Reports (items.mapM check) (items.flatMap defects) := by
  induction items with
  | nil => exact reports_ok []
  | cons item items ih =>
    rw [List.mapM_cons, List.flatMap_cons]
    exact (each item).bind fun value _ => ih.yields (value :: ·)

end Reports

namespace StreamDescriptor

/-- The field is there and not zero. -/
def Stated (field : Option UInt32) : Prop := ∃ value, field = some value ∧ value ≠ 0

/-- A stream of pictures or of sound with all that its medium needs, and with a clock whose rate
has no more than 31 bits. -/
structure IsComplete (stream : StreamDescriptor) : Prop where
  content : stream.medium = .video ∧ Stated stream.width ∧ Stated stream.height ∨
    stream.medium = .audio ∧ Stated stream.sampleRate ∧ Stated stream.channels
  clock : Stated stream.timebase
  rate : ∀ rate, stream.timebase = some rate → rate.toNat < 0x80000000

/-- Streams are numbered by their places in the list. -/
def Numbered (streams : List StreamDescriptor) : Prop :=
  ∀ (place : Nat) (stream : StreamDescriptor),
    streams[place]? = some stream → stream.id.toNat = place

/-- What is wrong with a field that a stream cannot do without. -/
def fieldDefects (stream : StreamDescriptor) (name : String) (field : Option UInt32) :
    List Fault :=
  match field with
  | none => [.missingField stream.id name]
  | some value => if value = 0 then [.invalidField stream.id name .notPositive] else []

/-- What is wrong with the medium of a stream or with the fields that belong to it. -/
def contentDefects (stream : StreamDescriptor) : List Fault :=
  match stream.medium with
  | .video => stream.fieldDefects "width" stream.width ++ stream.fieldDefects "height" stream.height
  | .audio => stream.fieldDefects "sample_rate" stream.sampleRate ++
      stream.fieldDefects "channels" stream.channels
  | other => [.unsupportedMedium stream.id other]

/-- A clock that is too fast for the format. -/
def rateDefects (stream : StreamDescriptor) : List Fault :=
  match stream.timebase with
  | none => []
  | some rate =>
    if rate.toNat < 0x80000000 then []
    else [.invalidField stream.id "timebase" (.rateTooHigh 0x80000000 rate.toNat)]

/-- All that is wrong with a description, in the order in which it is looked at. -/
def defects (stream : StreamDescriptor) : List Fault :=
  stream.contentDefects ++ (stream.fieldDefects "timebase" stream.timebase ++ stream.rateDefects)

theorem fieldDefects_eq_nil {stream : StreamDescriptor} {name : String} {field : Option UInt32} :
    stream.fieldDefects name field = [] ↔ Stated field := by
  cases field with
  | none => simp [fieldDefects, Stated]
  | some value => simp [fieldDefects, Stated]

theorem rateDefects_eq_nil {stream : StreamDescriptor} :
    stream.rateDefects = [] ↔ ∀ rate, stream.timebase = some rate → rate.toNat < 0x80000000 := by
  unfold rateDefects
  cases stream.timebase with
  | none => simp
  | some rate => simp

theorem contentDefects_eq_nil {stream : StreamDescriptor} :
    stream.contentDefects = [] ↔
      stream.medium = .video ∧ Stated stream.width ∧ Stated stream.height ∨
        stream.medium = .audio ∧ Stated stream.sampleRate ∧ Stated stream.channels := by
  unfold contentDefects
  cases stream.medium <;> simp [fieldDefects_eq_nil]

/-- Nothing is wrong with a description exactly when it is complete. -/
theorem defects_eq_nil {stream : StreamDescriptor} : stream.defects = [] ↔ stream.IsComplete := by
  rw [defects, List.append_eq_nil_iff, List.append_eq_nil_iff, contentDefects_eq_nil,
    fieldDefects_eq_nil, rateDefects_eq_nil]
  exact ⟨fun ⟨content, clock, rate⟩ => ⟨content, clock, rate⟩,
    fun complete => ⟨complete.content, complete.clock, complete.rate⟩⟩

theorem category_of_mem_fieldDefects {stream : StreamDescriptor} {name : String}
    {field : Option UInt32} {fault : Fault} (member : fault ∈ stream.fieldDefects name field) :
    fault.category = .validation := by
  cases field with
  | none =>
    cases List.mem_singleton.mp member
    rfl
  | some value =>
    rw [fieldDefects] at member
    split at member
    · cases List.mem_singleton.mp member
      rfl
    · cases member

/-- Whatever is wrong with a description, it is the description that has to be mended. -/
theorem category_of_mem_defects {stream : StreamDescriptor} {fault : Fault}
    (member : fault ∈ stream.defects) : fault.category = .validation := by
  rcases List.mem_append.mp member with content | clock
  · unfold contentDefects at content
    split at content
    · exact (List.mem_append.mp content).elim category_of_mem_fieldDefects
        category_of_mem_fieldDefects
    · exact (List.mem_append.mp content).elim category_of_mem_fieldDefects
        category_of_mem_fieldDefects
    · cases List.mem_singleton.mp content
      rfl
  · rcases List.mem_append.mp clock with field | rate
    · exact category_of_mem_fieldDefects field
    · unfold rateDefects at rate
      split at rate
      · cases rate
      · split at rate
        · cases rate
        · cases List.mem_singleton.mp rate
          rfl

theorem reports_require (stream : StreamDescriptor) (name : String) (field : Option UInt32) :
    Reports (stream.require name field) (stream.fieldDefects name field) := by
  unfold require fieldDefects
  cases field with
  | none => exact reports_error _
  | some value =>
    dsimp only
    split
    · exact reports_error _
    · exact reports_ok value

/-- Only a list whose streams are numbered by their places has no misplaced stream. -/
theorem misplaced?_eq_none {streams : List StreamDescriptor} :
    misplaced? streams = none ↔ Numbered streams := by
  constructor
  · exact fun placed place stream found => HeaderPlan.id_of_not_misplaced placed found
  · intro numbered
    refine Option.map_eq_none_iff.mpr (List.find?_eq_none.mpr ?_)
    rintro ⟨stream, place⟩ member
    simpa using numbered place stream (List.mk_mem_zipIdx_iff_getElem?.mp member)

/-- The misplaced stream that is told of is the first one. -/
theorem misplaced?_eq_some {streams : List StreamDescriptor} {place : Nat} {found : UInt32} :
    misplaced? streams = some (place, found) ↔ ∃ front stream rest,
      streams = front ++ stream :: rest ∧ Numbered front ∧ place = front.length ∧
        found = stream.id ∧ stream.id.toNat ≠ front.length := by
  rw [misplaced?, Option.map_eq_some_iff]
  constructor
  · rintro ⟨⟨stream, index⟩, first, same⟩
    obtain ⟨rfl, rfl⟩ := Prod.mk.inj same
    obtain ⟨wrong, before, behind, split, right⟩ := List.find?_eq_some_iff_append.mp first
    obtain ⟨front, tail, rfl, rfl, cut⟩ := List.zipIdx_eq_append_iff.mp split
    obtain ⟨head, rest, rfl, here, _⟩ := List.zipIdx_eq_cons_iff.mp cut.symm
    obtain ⟨rfl, rfl⟩ := Prod.mk.inj here
    rw [Nat.zero_add] at wrong ⊢
    refine ⟨front, stream, rest, rfl, ?_, rfl, rfl, of_decide_eq_true wrong⟩
    intro place other found
    simpa using right (other, place) (List.mk_mem_zipIdx_iff_getElem?.mpr found)
  · rintro ⟨front, stream, rest, rfl, numbered, rfl, rfl, wrong⟩
    refine ⟨(stream, front.length), List.find?_eq_some_iff_append.mpr ⟨decide_eq_true wrong,
      front.zipIdx, rest.zipIdx (front.length + 1), ?_, ?_⟩, rfl⟩
    · simp [List.zipIdx_append]
    · rintro ⟨other, place⟩ member
      simpa using numbered place other (List.mk_mem_zipIdx_iff_getElem?.mp member)

end StreamDescriptor

namespace HeaderPlan

variable {plan : HeaderPlan} {streams : List StreamDescriptor} {stream : StreamDescriptor}

/-- The distance between sync points is one that the format allows. -/
def IsSpaced (plan : HeaderPlan) : Prop :=
  1 ≤ plan.maxDistance.toNat ∧ plan.maxDistance.toNat ≤ 65536

/-- The descriptions lead to headers. -/
structure Accepts (plan : HeaderPlan) (streams : List StreamDescriptor) : Prop where
  nonempty : streams ≠ []
  spaced : plan.IsSpaced
  numbered : StreamDescriptor.Numbered streams
  complete : ∀ stream ∈ streams, stream.IsComplete

/-- Why descriptions lead to no headers. What is named first is looked at first: a case says that
nothing is wrong with what belongs to the cases above it. -/
inductive Refuses (plan : HeaderPlan) (streams : List StreamDescriptor) : Fault → Prop
  /-- There is no stream. -/
  | empty (empty : streams = []) : plan.Refuses streams .noStreams
  /-- The distance between sync points is out of range. -/
  | distance (nonempty : streams ≠ []) (wide : ¬ plan.IsSpaced) :
    plan.Refuses streams (.invalidArgument (.syncDistance 65536 plan.maxDistance.toNat))
  /-- The stream behind these is the first one that is not numbered by its place. -/
  | misplaced {front rest : List StreamDescriptor} {stream : StreamDescriptor}
    (spaced : plan.IsSpaced) (split : streams = front ++ stream :: rest)
    (numbered : StreamDescriptor.Numbered front) (wrong : stream.id.toNat ≠ front.length) :
    plan.Refuses streams (.misplacedStream front.length stream.id)
  /-- The stream behind these is the first one with a defect, and this is its first defect. -/
  | incomplete {front rest : List StreamDescriptor} {stream : StreamDescriptor} {fault : Fault}
    (spaced : plan.IsSpaced) (numbered : StreamDescriptor.Numbered streams)
    (split : streams = front ++ stream :: rest)
    (complete : ∀ other ∈ front, other.IsComplete) (defect : stream.defects.head? = some fault) :
    plan.Refuses streams fault

/-- Descriptions that lead to no headers are at fault themselves. -/
theorem Refuses.category {fault : Fault} (refuses : plan.Refuses streams fault) :
    fault.category = .validation := by
  cases refuses with
  | empty => rfl
  | distance => rfl
  | misplaced => rfl
  | incomplete _ _ _ _ defect =>
    exact StreamDescriptor.category_of_mem_defects (List.mem_of_head? defect)

theorem reports_content (plan : HeaderPlan) (stream : StreamDescriptor) :
    Reports (plan.content stream) stream.contentDefects := by
  unfold content StreamDescriptor.contentDefects
  cases stream.medium with
  | video =>
    refine (stream.reports_require "width" stream.width).bind fun width _ => ?_
    exact (stream.reports_require "height" stream.height).yields _
  | audio =>
    refine (stream.reports_require "sample_rate" stream.sampleRate).bind fun rate _ => ?_
    exact (stream.reports_require "channels" stream.channels).yields _
  | subtitle => exact reports_error _
  | data => exact reports_error _

theorem reports_clock (stream : StreamDescriptor) :
    Reports (clock stream)
      (stream.fieldDefects "timebase" stream.timebase ++ stream.rateDefects) := by
  refine (stream.reports_require "timebase" stream.timebase).bind fun rate required => ?_
  obtain ⟨timebase, _⟩ := require_ok required
  rw [StreamDescriptor.rateDefects, timebase]
  by_cases slow : rate.toNat < 0x80000000
  · have within : ¬ timebaseLimit ≤ rate := by
      rw [UInt32.le_iff_toNat_le]
      exact Nat.not_le.mpr slow
    simpa only [within, slow, if_true, if_false] using reports_ok rate
  · have beyond : timebaseLimit ≤ rate := by
      rw [UInt32.le_iff_toNat_le]
      exact Nat.le_of_not_lt slow
    simp only [beyond, slow, if_true, if_false]
    exact reports_error _

/-- The derivation of a header tells the first thing that is wrong with the description. -/
theorem reports_streamHeader (plan : HeaderPlan) (stream : StreamDescriptor) :
    Reports (plan.streamHeader stream) stream.defects :=
  (plan.reports_content stream).bind fun _ _ => (reports_clock stream).yields _

theorem checkMaxDistance_near (spaced : plan.IsSpaced) :
    checkMaxDistance plan.maxDistance = .ok () := by
  have within : ¬ (plan.maxDistance = 0 ∨ maxDistanceLimit < plan.maxDistance) := by
    rw [← UInt32.toNat_inj, UInt32.lt_iff_toNat_lt]
    exact not_or.mpr ⟨Nat.ne_of_gt spaced.1, Nat.not_lt.mpr spaced.2⟩
  rw [checkMaxDistance, if_neg within]

theorem checkMaxDistance_wide (wide : ¬ plan.IsSpaced) :
    checkMaxDistance plan.maxDistance =
      .error (.invalidArgument (.syncDistance 65536 plan.maxDistance.toNat)) := by
  have beyond : plan.maxDistance = 0 ∨ maxDistanceLimit < plan.maxDistance := by
    rw [← UInt32.toNat_inj, UInt32.lt_iff_toNat_lt]
    change plan.maxDistance.toNat = 0 ∨ 65536 < plan.maxDistance.toNat
    rw [IsSpaced] at wide
    omega
  rw [checkMaxDistance, if_pos beyond]
  rfl

theorem build_wide (nonempty : streams ≠ []) (wide : ¬ plan.IsSpaced) :
    plan.build streams =
      .error (.invalidArgument (.syncDistance 65536 plan.maxDistance.toNat)) := by
  rw [build, if_neg (by simpa using nonempty), checkMaxDistance_wide wide]
  rfl

theorem build_misplaced {place : Nat} {found : UInt32} (spaced : plan.IsSpaced)
    (misplaced : StreamDescriptor.misplaced? streams = some (place, found)) :
    plan.build streams = .error (.misplacedStream place found) := by
  have nonempty : streams ≠ [] := by
    rintro rfl
    cases misplaced
  rw [build, if_neg (by simpa using nonempty), checkMaxDistance_near spaced, misplaced]
  rfl

theorem build_numbered (nonempty : streams ≠ []) (spaced : plan.IsSpaced)
    (numbered : StreamDescriptor.Numbered streams) :
    plan.build streams =
      streams.mapM plan.streamHeader >>= fun headers => .ok ⟨plan.mainHeader headers, headers⟩ := by
  rw [build, if_neg (by simpa using nonempty), checkMaxDistance_near spaced,
    StreamDescriptor.misplaced?_eq_none.mpr numbered]
  rfl

/-- Well numbered descriptions are told the first defect of the first that has one. -/
theorem reports_build (nonempty : streams ≠ []) (spaced : plan.IsSpaced)
    (numbered : StreamDescriptor.Numbered streams) :
    Reports (plan.build streams) (streams.flatMap StreamDescriptor.defects) := by
  rw [build_numbered nonempty spaced numbered]
  exact (reports_mapM plan.reports_streamHeader streams).yields _

theorem build_ok_iff : (∃ headers, plan.build streams = .ok headers) ↔ plan.Accepts streams := by
  constructor
  · rintro ⟨headers, built⟩
    have nonempty : streams ≠ [] := by
      rintro rfl
      cases built
    have spaced : plan.IsSpaced := by
      by_contra wide
      cases built.symm.trans (build_wide nonempty wide)
    have numbered := StreamDescriptor.misplaced?_eq_none.mp (build_ok built).1
    have sound := (reports_build nonempty spaced numbered).passes_iff.mp ⟨headers, built⟩
    refine ⟨nonempty, spaced, numbered, fun stream member => ?_⟩
    exact StreamDescriptor.defects_eq_nil.mp (List.flatMap_eq_nil_iff.mp sound stream member)
  · rintro ⟨nonempty, spaced, numbered, complete⟩
    apply (reports_build nonempty spaced numbered).passes_iff.mpr
    exact List.flatMap_eq_nil_iff.mpr fun stream member =>
      StreamDescriptor.defects_eq_nil.mpr (complete stream member)

theorem build_error_iff {fault : Fault} :
    plan.build streams = .error fault ↔ plan.Refuses streams fault := by
  constructor
  · intro refused
    by_cases empty : streams = []
    · subst empty
      cases refused
      exact .empty rfl
    · by_cases spaced : plan.IsSpaced
      · cases misplaced : StreamDescriptor.misplaced? streams with
        | some defect =>
          obtain ⟨place, found⟩ := defect
          obtain ⟨front, stream, rest, split, numbered, rfl, rfl, wrong⟩ :=
            StreamDescriptor.misplaced?_eq_some.mp misplaced
          cases refused.symm.trans (build_misplaced spaced misplaced)
          exact .misplaced spaced split numbered wrong
        | none =>
          have numbered := StreamDescriptor.misplaced?_eq_none.mp misplaced
          have told := (reports_build empty spaced numbered fault).mp refused
          rw [List.head?_flatMap] at told
          obtain ⟨front, stream, rest, split, defect, before⟩ := List.findSome?_eq_some_iff.mp told
          refine .incomplete spaced numbered split (fun other member => ?_) defect
          exact StreamDescriptor.defects_eq_nil.mp (List.head?_eq_none_iff.mp (before other member))
      · cases refused.symm.trans (build_wide empty spaced)
        exact .distance empty spaced
  · intro refuses
    cases refuses with
    | empty empty => rw [empty]; rfl
    | distance nonempty wide => exact build_wide nonempty wide
    | misplaced spaced split numbered wrong =>
      apply build_misplaced spaced
      exact StreamDescriptor.misplaced?_eq_some.mpr ⟨_, _, _, split, numbered, rfl, rfl, wrong⟩
    | incomplete spaced numbered split complete defect =>
      have nonempty : streams ≠ [] := by simp [split]
      apply (reports_build nonempty spaced numbered fault).mpr
      rw [List.head?_flatMap]
      refine List.findSome?_eq_some_iff.mpr ⟨_, _, _, split, defect, fun other member => ?_⟩
      rw [StreamDescriptor.defects_eq_nil.mpr (complete other member)]
      rfl

/-- Streams that are numbered by their places are no more than there are numbers. -/
theorem length_le_of_numbered (numbered : StreamDescriptor.Numbered streams) :
    streams.length ≤ UInt32.size := by
  by_contra beyond
  have inside : UInt32.size < streams.length := Nat.lt_of_not_le beyond
  have last := numbered _ _ (List.getElem?_eq_getElem inside)
  exact Nat.ne_of_lt (UInt32.toNat_lt _) last

/-- Descriptions lead to headers exactly if there are some, the distance between sync points is in
range, all are numbered by their places and none is incomplete. Then there is one header and one
clock for each description, at its place and with what it says. The count has 32 bits, which is
one too few for the single list that uses up all numbers. Otherwise there is one fault that is
told: an empty list goes before a distance out of range, this before the first misnumbered stream,
and this before the first defect of the first description that has one. -/
theorem headers_from_valid_descriptions (plan : HeaderPlan) (streams : List StreamDescriptor) :
    ((∃ headers, plan.build streams = .ok headers) ↔ plan.Accepts streams) ∧
    (∀ headers, plan.build streams = .ok headers →
      headers.streams.length = streams.length ∧ headers.main.timeBases.length = streams.length ∧
      headers.main.streamCount = UInt32.ofNat streams.length ∧ streams.length ≤ UInt32.size ∧
      (streams.length < UInt32.size → headers.main.streamCount.toNat = streams.length) ∧
      ∀ (place : Nat) (stream : StreamDescriptor), streams[place]? = some stream →
        ∃ header, headers.streams[place]? = some header ∧
          headers.main.timeBases[place]? = some header.timeBase ∧
          header.stream.toNat = place ∧ plan.Describes stream header) ∧
    ∀ fault, plan.build streams = .error fault ↔ plan.Refuses streams fault := by
  refine ⟨build_ok_iff, fun headers built => ?_, fun fault => build_error_iff⟩
  obtain ⟨placed, derived, _⟩ := build_ok built
  have agree := agree_of_build built
  have length : headers.streams.length = streams.length := derived.length_eq.symm
  have numbered := StreamDescriptor.misplaced?_eq_none.mp placed
  have clocked : headers.main.clockCount = streams.length := agree.clockCount_eq.trans length
  refine ⟨length, clocked, ?_, length_le_of_numbered numbered, fun within => ?_, ?_⟩
  · rw [agree.counted, length]
  · rw [agree.streamCount_eq, MainHeader.toNat_clockWord (clocked ▸ within), clocked]
  · intro place stream found
    obtain ⟨inside, rfl⟩ := List.getElem?_eq_some_iff.mp found
    have listed : place < headers.streams.length := length ▸ inside
    have describes := describes_of_streamHeader (derived.get inside listed)
    refine ⟨headers.streams[place], List.getElem?_eq_getElem listed, ?_, ?_, describes⟩
    · rw [agree.clocks, List.getElem?_map, List.getElem?_eq_getElem listed]
      rfl
    · exact (agree.numbered (List.getElem?_eq_getElem listed)).1

def samplePlan : HeaderPlan := { videoFourcc := ⟨0x42, 0x47, 0x52, 24⟩ }

/-- A complete list, and two in which several things are wrong. -/
def sampleLists : List (List StreamDescriptor) :=
  [[.video 0 25 8 6, .audio 1 48000 44100 2],
    [.bare 0 .subtitle, .audio 7 0 0 0],
    [.video 0 25 8 6, (StreamDescriptor.bare 1 .video).withTimebase 0, .bare 2 .data]]

theorem headers_from_valid_descriptions_sample :
    ∃ complete misnumbered lacking, sampleLists = [complete, misnumbered, lacking] ∧
      (∃ headers, samplePlan.build complete = .ok headers ∧
        headers.main.streamCount.toNat = 2 ∧ ∃ stream header, complete[1]? = some stream ∧
          headers.streams[1]? = some header ∧ samplePlan.Describes stream header) ∧
      samplePlan.Refuses misnumbered (.misplacedStream 1 7) ∧
      samplePlan.Refuses lacking (.missingField 1 "width") := by
  refine ⟨_, _, _, rfl, ?_, ?_, ?_⟩
  · obtain ⟨_, described, _⟩ := headers_from_valid_descriptions samplePlan
      [.video 0 25 8 6, .audio 1 48000 44100 2]
    obtain ⟨_, _, _, _, counted, each⟩ := described _ rfl
    obtain ⟨header, listed, _, _, describes⟩ := each 1 _ rfl
    exact ⟨_, rfl, counted (by decide), _, header, rfl, listed, describes⟩
  · exact ((headers_from_valid_descriptions samplePlan _).2.2 _).mp rfl
  · exact ((headers_from_valid_descriptions samplePlan _).2.2 _).mp rfl

/-- Streams of sound, numbered from zero. -/
def soundStreams (count : Nat) : List StreamDescriptor :=
  (List.range count).map fun number => .audio (UInt32.ofNat number) 1000 48000 1

theorem length_soundStreams (count : Nat) : (soundStreams count).length = count := by
  rw [soundStreams, List.length_map, List.length_range]

/-- As long as there are numbers for them, streams of sound are accepted. -/
theorem accepts_soundStreams {count : Nat} (some : count ≠ 0) (within : count ≤ UInt32.size) :
    samplePlan.Accepts (soundStreams count) where
  nonempty := List.ne_nil_of_length_pos (by rw [length_soundStreams]; omega)
  spaced := ⟨by decide, by decide⟩
  numbered := by
    intro place stream listed
    rw [soundStreams, List.getElem?_map] at listed
    obtain ⟨number, found, rfl⟩ := Option.map_eq_some_iff.mp listed
    obtain ⟨inside, rfl⟩ := List.getElem?_eq_some_iff.mp found
    rw [List.length_range] at inside
    rw [List.getElem_range]
    exact UInt32.toNat_ofNat_of_lt' (Nat.lt_of_lt_of_le inside within)
  complete := by
    intro stream member
    obtain ⟨number, _, rfl⟩ := List.mem_map.mp member
    exact ⟨.inr ⟨rfl, ⟨_, rfl, by decide⟩, _, rfl, by decide⟩, ⟨_, rfl, by decide⟩,
      fun rate stated => by cases stated; decide⟩

/-- The list that uses up all numbers is accepted, and its streams are counted as none. -/
theorem all_numbers_counted_as_none :
    ∃ headers, samplePlan.build (soundStreams UInt32.size) = .ok headers ∧
      headers.streams.length = (soundStreams UInt32.size).length ∧
      (soundStreams UInt32.size).length = 4294967296 ∧ headers.main.streamCount = 0 ∧
      headers.main.streamCount.toNat ≠ (soundStreams UInt32.size).length := by
  have size : UInt32.size ≠ 0 := by decide
  have length := length_soundStreams UInt32.size
  obtain ⟨headers, built⟩ := build_ok_iff.mpr (accepts_soundStreams size (Nat.le_refl _))
  have listed : headers.streams.length = (soundStreams UInt32.size).length := by
    obtain ⟨_, derived, _⟩ := build_ok built
    exact derived.length_eq.symm
  have none : headers.main.streamCount = 0 := by
    rw [(agree_of_build built).counted, listed, length]
    rfl
  refine ⟨headers, built, listed, length, none, ?_⟩
  rw [none, length]
  exact size.symm

end HeaderPlan

end NutContainer
