import NutContainer.Index.Reader
import NutContainer.Proofs.PacketCodec

/-! The index is read back from its packet. What a reader finds are the positions
of the sync points and, for every stream, the intervals in which the time rises
above all earlier ones. Groups of marks are cut anywhere, so reading is followed
through with the place and the time that were reached. -/
namespace NutContainer.Index

/-- The intervals, counted from `place`, whose first time is at least `next` and
beyond all those before, with that time. -/
def risingTimes (place next : Nat) : List (Option Nat) → List (Nat × Nat)
  | [] => []
  | none :: rest => risingTimes (place + 1) next rest
  | some pts :: rest =>
    if next ≤ pts then (place, pts) :: risingTimes (place + 1) (pts + 1) rest
    else risingTimes (place + 1) next rest

/-- What a stream's part of an index says. The frames behind the last sync point
are not indexed, and nothing is marked at the first one. -/
def streamEntries (firstTimes : List (Option Nat)) : List (Nat × Nat) :=
  risingTimes 1 0 firstTimes.dropLast

/-- What marks with their steps say, with `next` one above the time reached. -/
def markEntries (place next : Nat) : List (Option Nat) → List (Nat × Nat)
  | [] => []
  | none :: rest => markEntries (place + 1) next rest
  | some step :: rest => (place, next + step - 1) :: markEntries (place + 1) (next + step) rest

/-- One above the time that is reached after these marks. -/
def reached (next : Nat) (marks : List (Option Nat)) : Nat :=
  marks.foldl (fun next mark => next + mark.getD 0) next

/-- Every mark that is set goes on in time. -/
def Rising (marks : List (Option Nat)) : Prop := ∀ step, some step ∈ marks → 0 < step

theorem markEntries_append (place next : Nat) (front back : List (Option Nat)) :
    markEntries place next (front ++ back) = markEntries place next front ++
      markEntries (place + front.length) (reached next front) back := by
  induction front generalizing place next with
  | nil => simp [markEntries, reached]
  | cons mark rest ih =>
    cases mark with
    | none => simp [markEntries, ih, reached, Nat.add_assoc, Nat.add_comm 1]
    | some step => simp [markEntries, ih, reached, Nat.add_assoc, Nat.add_comm 1]

/-- The steps that are written lead through the rising times. -/
theorem markEntries_marks (place next : Nat) (times : List (Option Nat)) :
    markEntries place next (marks next times) = risingTimes place next times := by
  induction times generalizing place next with
  | nil => rfl
  | cons time rest ih =>
    cases time with
    | none => simp [marks, markEntries, risingTimes, ih]
    | some pts =>
      by_cases beyond : next ≤ pts
      · have last : next + (pts + 1 - next) = pts + 1 := by omega
        simp [marks, markEntries, risingTimes, beyond, last, ih]
      · simp [marks, markEntries, risingTimes, beyond, ih]

theorem rising_marks (next : Nat) (times : List (Option Nat)) : Rising (marks next times) := by
  induction times generalizing next with
  | nil => simp [Rising, marks]
  | cons time rest ih =>
    intro step member
    cases time with
    | none =>
      simp only [marks, List.mem_cons, reduceCtorEq, false_or] at member
      exact ih next step member
    | some pts =>
      by_cases beyond : next ≤ pts
      · simp only [marks, beyond, if_true, List.mem_cons, Option.some.injEq] at member
        rcases member with rfl | member
        · omega
        · exact ih _ step member
      · simp only [marks, beyond, if_false, List.mem_cons, reduceCtorEq, false_or] at member
        exact ih next step member

theorem length_marks (next : Nat) (times : List (Option Nat)) :
    (marks next times).length = times.length := by
  induction times generalizing next with
  | nil => rfl
  | cons time rest ih =>
    cases time with
    | none => simp [marks, ih]
    | some pts =>
      unfold marks
      split <;> simp [ih]

theorem rising_streamMarks (times : List (Option Nat)) : Rising (streamMarks times) := by
  cases times with
  | nil => simp [Rising, streamMarks]
  | cons first rest =>
    intro step member
    simp only [streamMarks, List.mem_cons, reduceCtorEq, false_or] at member
    exact rising_marks _ _ step member

theorem length_streamMarks (times : List (Option Nat)) :
    (streamMarks times).length = times.length := by
  cases times with
  | nil => rfl
  | cons first rest => simp [streamMarks, length_marks]

theorem markEntries_streamMarks (times : List (Option Nat)) :
    markEntries 0 0 (streamMarks times) = streamEntries times := by
  cases times with
  | nil => rfl
  | cons first rest => simp [streamMarks, markEntries, markEntries_marks, streamEntries]

theorem bits_pos (group : List (Option Nat)) : 0 < bits group := by
  induction group with
  | nil => exact Nat.one_pos
  | cons mark rest ih =>
    simp only [bits, List.foldr_cons] at *
    omega

theorem lowBits_bits (group : List (Option Nat)) : lowBits (bits group) = group.map (·.isSome) := by
  induction group with
  | nil => simp [bits, lowBits]
  | cons mark rest ih =>
    have above := bits_pos rest
    have word : bits (mark :: rest) = 2 * bits rest + mark.isSome.toNat := rfl
    rw [word, lowBits]
    cases mark with
    | none =>
      have half : (2 * bits rest) / 2 = bits rest := by omega
      simp [half, ih]
      omega
    | some step =>
      have half : (2 * bits rest + 1) / 2 = bits rest := by omega
      have odd : (2 * bits rest + 1) % 2 = 1 := by omega
      simp [half, odd, ih]
      omega

/-- A group that is not empty is taken as the plain marks that it is. -/
theorem groupMarks?_bits {group : List (Option Nat)} (filled : group ≠ []) :
    groupMarks? (2 * bits group) = some (group.map (·.isSome)) := by
  cases group with
  | nil => exact absurd rfl filled
  | cons mark rest =>
    have above := bits_pos rest
    have enough : 1 < bits (mark :: rest) := by
      simp only [bits, List.foldr_cons] at *
      omega
    have half : 2 * bits (mark :: rest) / 2 = bits (mark :: rest) := by omega
    simp [groupMarks?, half, enough, lowBits_bits]

/-- The steps behind a group's bits, as they are written. -/
def stepFields (group : List (Option Nat)) : List Field := group.filterMap (·.map .unsigned)

/-- The steps of a group are read back from where the group begins. -/
theorem readSteps?_append (place next : Nat) {group : List (Option Nat)} (rising : Rising group)
    (rest : Bytes) :
    readSteps? place next (group.map (·.isSome)) (Field.encodeAll (stepFields group) ++ rest) =
      some (markEntries place next group, reached next group, rest) := by
  induction group generalizing place next with
  | nil => simp [readSteps?, stepFields, markEntries, reached]
  | cons mark others ih =>
    have below : Rising others := fun step member => rising step (by simp [member])
    cases mark with
    | none =>
      have read := ih (place + 1) next below
      simp only [stepFields] at read
      simp [readSteps?, stepFields, markEntries, reached, read]
    | some step =>
      have forward : step ≠ 0 := Nat.ne_of_gt (rising step (by simp))
      have read := ih (place + 1) (next + step) below
      simp only [stepFields] at read
      simp [readSteps?, stepFields, markEntries, reached, Field.encode, Varint.read?_append, forward,
        read]

/-- One group is read back, and reading goes on behind it from where it led. -/
theorem readGroups?_group (remaining place next : Nat) {group : List (Option Nat)}
    (filled : group ≠ []) (within : group.length ≤ remaining) (rising : Rising group)
    (bytes : Bytes) :
    readGroups? remaining place next (Field.encodeAll (groupFields group) ++ bytes) =
      (readGroups? (remaining - group.length) (place + group.length) (reached next group) bytes).map
        fun (others, rest) => (markEntries place next group ++ others, rest) := by
  have some_left : remaining ≠ 0 := by
    have := List.length_pos_iff.mpr filled
    omega
  have marks := groupMarks?_bits filled
  have steps := readSteps?_append place next rising bytes
  obtain ⟨mark, others, rfl⟩ := List.exists_cons_of_ne_nil filled
  have all : (mark :: others).length ≤ remaining := within
  have word : Field.encodeAll (groupFields (mark :: others)) ++ bytes =
      Varint.encode (2 * bits (mark :: others)) ++
        (Field.encodeAll (stepFields (mark :: others)) ++ bytes) := by
    simp [groupFields, stepFields, Field.encode]
  rw [List.map_cons] at marks steps
  rw [readGroups?, if_neg some_left, word, Varint.read?_append]
  simp only [marks]
  rw [List.take_of_length_le (by simpa using all), steps]
  simp

/-- Groups are read back up to the last mark, wherever the list was cut. -/
theorem readGroups?_append (place next : Nat) {marks : List (Option Nat)} (rising : Rising marks)
    (rest : Bytes) :
    readGroups? marks.length place next
        (Field.encodeAll ((groups marks).flatMap groupFields) ++ rest) =
      some (markEntries place next marks, rest) := by
  induction marks using groups.induct generalizing place next with
  | case1 => simp [readGroups?, groups, markEntries]
  | case2 first others ih =>
    have near : Rising ((first :: others).take groupSize) :=
      fun step member => rising step (List.mem_of_mem_take member)
    have far : Rising ((first :: others).drop groupSize) :=
      fun step member => rising step (List.mem_of_mem_drop member)
    have filled : (first :: others).take groupSize ≠ [] := by simp [groupSize]
    have within : ((first :: others).take groupSize).length ≤ (first :: others).length :=
      List.length_take_le' ..
    have left : (first :: others).length - ((first :: others).take groupSize).length =
        ((first :: others).drop groupSize).length := by
      simp only [List.length_take, List.length_drop]
      omega
    rw [groups, List.flatMap_cons, Field.encodeAll_append, List.append_assoc,
      readGroups?_group _ _ _ filled within near, left, ih _ _ far, Option.map_some]
    dsimp only
    rw [← markEntries_append, List.take_append_drop]

theorem risingTimes_place {place next : Nat} {times : List (Option Nat)} {entry : Nat × Nat}
    (member : entry ∈ risingTimes place next times) : place ≤ entry.1 := by
  induction times generalizing place next with
  | nil => cases member
  | cons time rest ih =>
    cases time with
    | none => exact Nat.le_of_succ_le (ih member)
    | some pts =>
      unfold risingTimes at member
      split at member
      · rcases List.mem_cons.mp member with rfl | member
        · exact Nat.le_refl _
        · exact Nat.le_of_succ_le (ih member)
      · exact Nat.le_of_succ_le (ih member)

/-- A stream's part is read back for as many sync points as it has places. -/
theorem readStream?_append (times : List (Option Nat)) (rest : Bytes) :
    readStream? times.length (Field.encodeAll (streamFields times) ++ rest) =
      some (streamEntries times, rest) := by
  have groups := readGroups?_append 0 0 (rising_streamMarks times) rest
  rw [length_streamMarks, markEntries_streamMarks] at groups
  have late : ∀ entry ∈ streamEntries times, entry.1 ≠ 0 := fun entry member =>
    Nat.ne_of_gt (risingTimes_place member)
  simp only [readStream?, streamFields, groups, bind, Option.bind]
  rw [if_pos]
  simpa using late

/-- Positions can be told apart by their distances. -/
def Ascending (last : Nat) : List Nat → Prop
  | [] => True
  | n :: rest => last < n ∧ Ascending n rest

theorem Ascending.append {last n : Nat} {list : List Nat} (ascending : Ascending last list)
    (above : list.getLast?.getD last < n) : Ascending last (list ++ [n]) := by
  induction list generalizing last with
  | nil => exact ⟨above, trivial⟩
  | cons first rest ih =>
    refine ⟨ascending.1, ih ascending.2 ?_⟩
    cases rest with
    | nil => exact above
    | cons second others => simpa [List.getLast?_cons] using above

theorem gaps_pos {last : Nat} {list : List Nat} (ascending : Ascending last list) :
    ∀ gap ∈ gaps last list, 0 < gap := by
  induction list generalizing last with
  | nil => simp [gaps]
  | cons n rest ih =>
    intro gap member
    rcases List.mem_cons.mp member with rfl | member
    · exact Nat.sub_pos_of_lt ascending.1
    · exact ih ascending.2 gap member

theorem ofGaps_gaps {last : Nat} {list : List Nat} (ascending : Ascending last list) :
    ofGaps last (gaps last list) = list := by
  induction list generalizing last with
  | nil => rfl
  | cons n rest ih =>
    have forward : last + (n - last) = n := Nat.add_sub_cancel' (Nat.le_of_lt ascending.1)
    rw [gaps, ofGaps, forward, ih ascending.2]

theorem length_gaps (last : Nat) (list : List Nat) : (gaps last list).length = list.length := by
  induction list generalizing last with
  | nil => rfl
  | cons n rest ih => simp [gaps, ih]

/-- Where the sync points of a file are, in the units of the index. -/
def places (ledger : Ledger) : List Nat := ledger.syncpoints.map (· / unit)

/-- What the index of a file says. -/
def contents (ledger : Ledger) (clocks : Nat) : Contents where
  latestPts := (ledger.latest.getD (0, 0)).1
  latestClock := (ledger.latest.getD (0, 0)).2.toNat
  syncpoints := places ledger
  keyframes := (List.range ledger.streamCount).map fun stream =>
    streamEntries (ledger.firstTimes stream)
  size := totalSize (Field.encodeAll (fields ledger clocks)) % UInt64.size

/-- The latest time of the books can be coded together with its clock. -/
def LatestCodable (ledger : Ledger) (clocks : Nat) : Prop :=
  (ledger.latest.getD (0, 0)).2.toNat < clocks ∧
    (ledger.latest.getD (0, 0)).1 * clocks + (ledger.latest.getD (0, 0)).2.toNat < UInt64.size

theorem word64?_ofNat (n : Nat) (rest : Bytes) :
    Bytes.word64? (.ofNat 8 n ++ rest) = some (UInt64.ofNat n, rest) := by
  have same : UInt64.ofNat (n % UInt64.size) = UInt64.ofNat n := UInt64.toNat_inj.mp (by simp)
  simpa [Bytes.word64?, Bytes.take?_append (Bytes.length_ofNat 8 n), Bytes.toNat_ofNat] using same

/-- Ticks and clock come apart again. -/
theorem split_time (pts : Nat) {clock clocks : Nat} (known : clock < clocks) :
    (pts * clocks + clock) / clocks = pts ∧ (pts * clocks + clock) % clocks = clock := by
  have some_clock : 0 < clocks := by omega
  rw [Nat.mul_comm, Nat.mul_add_div some_clock, Nat.mul_add_mod, Nat.div_eq_of_lt known,
    Nat.mod_eq_of_lt known]
  exact ⟨Nat.add_zero pts, rfl⟩

/-- The latest time and its clock in one number, as the index states it. -/
def codedLatest (ledger : Ledger) (clocks : Nat) : Nat :=
  ((ledger.latest.getD (0, 0)).1 * clocks + (ledger.latest.getD (0, 0)).2.toNat) % UInt64.size

/-- The bytes of a stream's part of the index. -/
def streamPart (ledger : Ledger) (stream : Nat) : Bytes :=
  Field.encodeAll (streamFields (ledger.firstTimes stream))

/-- The parts of all streams. -/
def streamParts (ledger : Ledger) : List Bytes :=
  (List.range ledger.streamCount).map (streamPart ledger)

theorem flatten_streamParts (ledger : Ledger) : (streamParts ledger).flatten =
    (List.range ledger.streamCount).flatMap fun stream =>
      Field.encodeAll (streamFields (ledger.firstTimes stream)) := List.flatMap_def.symm

/-- What the payload of an index is made of, in its order. -/
theorem payload_eq (ledger : Ledger) (clocks : Nat) : (packet ledger clocks).payload =
    Varint.encode (codedLatest ledger clocks) ++
      (Varint.encode (gaps 0 (places ledger)).length ++
        ((gaps 0 (places ledger)).flatMap Varint.encode ++
          ((streamParts ledger).flatten ++
            .ofNat 8 (totalSize (Field.encodeAll (fields ledger clocks)))))) := by
  have whole : (packet ledger clocks).payload = Field.encodeAll (fields ledger clocks) ++
      .ofNat 8 (totalSize (Field.encodeAll (fields ledger clocks))) := rfl
  have distances : Field.encodeAll ((gaps 0 (places ledger)).map .unsigned) =
      (gaps 0 (places ledger)).flatMap Varint.encode := List.flatMap_map ..
  rw [whole]
  generalize totalSize (Field.encodeAll (fields ledger clocks)) = size
  rw [fields, Field.encodeAll_append, Field.encodeAll_append, Field.encodeAll_flatMap,
    flatten_streamParts]
  change _ ++ Field.encodeAll ((gaps 0 (places ledger)).map .unsigned) ++ _ ++ _ = _
  rw [distances]
  simp [Field.encode, codedLatest, length_gaps, places]

/-- What stands before the streams' parts in the payload of an index: the latest time, which is
passed over here, and the distances between the sync points. -/
def readGaps? (payload : Bytes) : Option (List Nat × Bytes) := do
  let (_, bytes) ← Varint.read? payload
  let (count, bytes) ← Varint.read? bytes
  Bytes.many? Varint.read? count bytes

private theorem many?_gaps (ledger : Ledger) (rest : Bytes) :
    Bytes.many? Varint.read? (gaps 0 (places ledger)).length
      ((gaps 0 (places ledger)).flatMap Varint.encode ++ rest) =
        some (gaps 0 (places ledger), rest) :=
  Bytes.many?_append
    (fun gap (_ : gap ∈ gaps 0 (places ledger)) rest => Varint.read?_append gap rest) rest

/-- The distances are read back, and behind them are the streams' parts and the size. -/
theorem readGaps?_packet (ledger : Ledger) (clocks : Nat) :
    readGaps? (packet ledger clocks).payload = some (gaps 0 (places ledger),
      (streamParts ledger).flatten ++
        Bytes.ofNat 8 (totalSize (Field.encodeAll (fields ledger clocks)))) := by
  rw [payload_eq]
  simp only [readGaps?, bind, Option.bind, Varint.read?_append, many?_gaps]

theorem length_firstTimes (ledger : Ledger) (stream : Nat) :
    (ledger.firstTimes stream).length = ledger.syncpoints.length := by
  simp [Ledger.firstTimes, Ledger.syncpoints]

/-- The index of a file is read back from its payload. -/
theorem read?_packet {ledger : Ledger} {clocks : Nat} (codable : LatestCodable ledger clocks)
    (ascending : Ascending 0 (places ledger)) :
    read? clocks ledger.streamCount (packet ledger clocks).payload =
      some (contents ledger clocks) := by
  obtain ⟨known, fits⟩ := codable
  have time : codedLatest ledger clocks = (ledger.latest.getD (0, 0)).1 * clocks +
      (ledger.latest.getD (0, 0)).2.toNat := Nat.mod_eq_of_lt fits
  have count (stream : Nat) : (ledger.firstTimes stream).length = (gaps 0 (places ledger)).length := by
    rw [length_firstTimes, length_gaps, places, List.length_map]
  have streams (rest : Bytes) := Bytes.many?_map
    (fun stream (_ : stream ∈ List.range ledger.streamCount) rest =>
      count stream ▸ readStream?_append (ledger.firstTimes stream) rest) rest
  have positive : (gaps 0 (places ledger)).all (0 < ·) = true := by
    simpa using gaps_pos ascending
  have ticks := split_time (ledger.latest.getD (0, 0)).1 known
  rw [List.length_range] at streams
  rw [read?, payload_eq, time]
  generalize total : totalSize (Field.encodeAll (fields ledger clocks)) = size
  have sizeBack := word64?_ofNat size []
  rw [List.append_nil] at sizeBack
  rw [flatten_streamParts]
  simp only [bind, Option.bind, Varint.read?_append, many?_gaps, streams, sizeBack, positive,
    and_self, if_true, ticks, ofGaps_gaps ascending, contents, total, UInt64.toNat_ofNat']

end NutContainer.Index
