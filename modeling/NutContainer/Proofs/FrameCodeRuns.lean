import Mathlib.Algebra.Ring.Nat
import Mathlib.Data.List.Chain
import NutContainer.FrameCode.Scan
import NutContainer.Proofs.FrameTableCodec

/-! The runs of a frame-code table, found place by place and put back place by place. What a scan
has still to state from a place on is a tail of the stated codes, and the place of the startcode
byte adds nothing to it, so passing over that place never changes what is found, wherever a run
begins or ends. Likewise what is filled in is at any time the stated codes so far, with an unusable
entry among them from the moment when they reach beyond that place. -/
namespace NutContainer.FrameCodeTable

variable {table : FrameCodeTable} {place : Nat}

/-- What runs have still to speak of from a place on. -/
def remaining (table : FrameCodeTable) (place : Nat) : List FrameCode :=
  table.statedCodes.drop (if place ≤ startcodeByte.toNat then place else place - 1)

theorem length_statedCodes (table : FrameCodeTable) : table.statedCodes.length = 255 := by
  simp [statedCodes, List.length_eraseIdx, startcodeByte]

/-- Nothing is stated of the place of the startcode byte. -/
theorem remaining_startcodeByte (table : FrameCodeTable) :
    table.remaining startcodeByte.toNat = table.remaining (startcodeByte.toNat + 1) := rfl

theorem remaining_outside (outside : ¬ place < 256) : table.remaining place = [] := by
  have beyond : ¬ place ≤ startcodeByte.toNat := by
    simp only [startcodeByte, UInt8.toNat_ofNat]
    omega
  rw [remaining, if_neg beyond, List.drop_eq_nil_iff, length_statedCodes]
  omega

theorem remaining_cons (inside : place < 256) (other : place ≠ startcodeByte.toNat) :
    table.remaining place = table.codes[place] :: table.remaining (place + 1) := by
  have reserved : startcodeByte.toNat = 78 := rfl
  rw [reserved] at other
  have length := length_statedCodes table
  rw [remaining, remaining, reserved]
  -- Behind the reserved place an entry stands one place earlier among the stated codes.
  by_cases front : place ≤ 78
  · have within : place < table.statedCodes.length := by omega
    rw [if_pos front, if_pos (by omega), List.drop_eq_getElem_cons within]
    congr 1
    exact List.getElem_eraseIdx_of_lt within (by omega)
  · have within : place - 1 < table.statedCodes.length := by omega
    have shifted : place - 1 + 1 = place := by omega
    rw [if_neg front, if_neg (by omega), List.drop_eq_getElem_cons within, shifted,
      Nat.add_sub_cancel]
    congr 1
    have entry := List.getElem_eraseIdx_of_ge within (Nat.le_sub_one_of_lt (Nat.lt_of_not_le front))
    simp only [shifted] at entry
    exact entry

theorem exists_prependRun (code : FrameCode) (runs : List (FrameCode × Nat)) :
    ∃ count rest, prependRun code runs = (code, count) :: rest := by
  cases runs with
  | nil => exact ⟨1, [], rfl⟩
  | cons run rest =>
    by_cases same : code = run.1
    · exact ⟨run.2 + 1, rest, by rw [prependRun, if_pos same, same]⟩
    · exact ⟨1, run :: rest, by rw [prependRun, if_neg same]⟩

/-- The first run takes as many entries as are equal to the first one. -/
theorem runLengths_cons (code : FrameCode) (rest : List FrameCode) :
    runLengths (code :: rest) = (code, 1 + (rest.takeWhile (· = code)).length) ::
      runLengths (rest.dropWhile (· = code)) := by
  induction rest with
  | nil => rfl
  | cons next rest ih =>
    change prependRun code (runLengths (next :: rest)) = _
    by_cases same : next = code
    · subst same
      rw [ih, prependRun, if_pos rfl, List.takeWhile_cons_of_pos (by simp),
        List.dropWhile_cons_of_pos (by simp), List.length_cons, Nat.add_assoc]
    · obtain ⟨count, others, first⟩ := exists_prependRun next (runLengths rest)
      rw [List.takeWhile_cons_of_neg (by simpa using same),
        List.dropWhile_cons_of_neg (by simpa using same)]
      change prependRun code (prependRun next (runLengths rest)) =
        (code, 1) :: prependRun next (runLengths rest)
      rw [first, prependRun, if_neg (Ne.symm same)]

/-- No two neighbours among the runs have equal entries. -/
theorem isChain_runLengths (codes : List FrameCode) :
    (runLengths codes).IsChain (fun run next => run.1 ≠ next.1) := by
  induction codes with
  | nil => exact .nil
  | cons code codes ih =>
    change (prependRun code (runLengths codes)).IsChain _
    cases runs : runLengths codes with
    | nil => exact .singleton _
    | cons run rest =>
      rw [runs] at ih
      by_cases same : code = run.1
      · rw [prependRun, if_pos same]
        cases rest with
        | nil => exact .singleton _
        | cons next rest => exact List.isChain_cons_cons.mpr (List.isChain_cons_cons.mp ih)
      · rw [prependRun, if_neg same]
        exact List.isChain_cons_cons.mpr ⟨same, ih⟩

/-- A run ends where the first entry that differs still remains. -/
theorem runEnd_eq (table : FrameCodeTable) (code : FrameCode) (count place : Nat) :
    (table.runEnd code count place).1 =
        count + ((table.remaining place).takeWhile (· = code)).length ∧
      table.remaining (table.runEnd code count place).2 =
        (table.remaining place).dropWhile (· = code) := by
  induction count, place using runEnd.induct table code with
  | case1 count inside ih =>
    rw [runEnd, dif_pos inside, if_pos rfl, remaining_startcodeByte]
    exact ih
  | case2 count place inside other same ih =>
    rw [runEnd, dif_pos inside, if_neg other, if_pos same, remaining_cons inside other,
      List.takeWhile_cons_of_pos (by simpa using same),
      List.dropWhile_cons_of_pos (by simpa using same), List.length_cons]
    exact ⟨ih.1.trans (by omega), ih.2⟩
  | case3 count place inside other differs =>
    rw [runEnd, dif_pos inside, if_neg other, if_neg differs, remaining_cons inside other,
      List.takeWhile_cons_of_neg (by simpa using differs),
      List.dropWhile_cons_of_neg (by simpa using differs), ← remaining_cons inside other]
    exact ⟨rfl, rfl⟩
  | case4 count place outside =>
    rw [runEnd, dif_neg outside, remaining_outside outside]
    exact ⟨rfl, rfl⟩

/-- A scan finds the longest runs of what remains. -/
theorem scan_eq (table : FrameCodeTable) (place : Nat) :
    table.scan place = runLengths (table.remaining place) := by
  induction place using scan.induct table with
  | case1 inside ih =>
    rw [scan, dif_pos inside, if_pos rfl, remaining_startcodeByte]
    exact ih
  | case2 place inside other code stop ih =>
    obtain ⟨count, rest⟩ := runEnd_eq table table.codes[place] 1 (place + 1)
    rw [scan, dif_pos inside, if_neg other, remaining_cons inside other, runLengths_cons, ← count,
      ← rest]
    exact congrArg _ ih
  | case3 place outside =>
    rw [scan, dif_neg outside, remaining_outside outside]
    rfl

/-- The stated codes so far as they are filled in. -/
def filled (stated : List FrameCode) : List FrameCode :=
  if stated.length ≤ startcodeByte.toNat then stated
  else stated.take startcodeByte.toNat ++ .unusable :: stated.drop startcodeByte.toNat

theorem filled_of_le {stated : List FrameCode} (short : stated.length ≤ startcodeByte.toNat) :
    filled stated = stated := if_pos short

theorem filled_of_lt {stated : List FrameCode} (long : startcodeByte.toNat < stated.length) :
    filled stated =
      stated.take startcodeByte.toNat ++ .unusable :: stated.drop startcodeByte.toNat :=
  if_neg (Nat.not_le_of_lt long)

theorem length_filled (stated : List FrameCode) : (filled stated).length =
    if stated.length ≤ startcodeByte.toNat then stated.length else stated.length + 1 := by
  split
  · rename_i short
    rw [filled_of_le short]
  · rename_i long
    rw [filled_of_lt (Nat.lt_of_not_le long), List.length_append, List.length_cons,
      List.length_take, List.length_drop]
    omega

/-- One more stated code takes the next place but the one of the startcode byte. -/
theorem filled_concat (stated : List FrameCode) (code : FrameCode) :
    filled (stated ++ [code]) = if (filled stated).length = startcodeByte.toNat
      then filled stated ++ [.unusable, code] else filled stated ++ [code] := by
  have longer : (stated ++ [code]).length = stated.length + 1 := by simp
  rw [length_filled]
  rcases Nat.lt_trichotomy stated.length startcodeByte.toNat with before | there | behind
  · rw [if_pos (Nat.le_of_lt before), if_neg (Nat.ne_of_lt before), filled_of_le (by omega),
      filled_of_le (by omega)]
  · rw [if_pos (Nat.le_of_eq there), if_pos there, filled_of_le (Nat.le_of_eq there),
      filled_of_lt (by omega), ← there, List.take_left, List.drop_left]
  · rw [if_neg (Nat.not_le_of_lt behind), if_neg (by omega), filled_of_lt behind,
      filled_of_lt (by omega), List.take_append_of_le_length (Nat.le_of_lt behind),
      List.drop_append_of_le_length (Nat.le_of_lt behind), List.append_assoc, List.cons_append]

theorem fillRun_filled (code : FrameCode) (count : Nat) (stated : List FrameCode) :
    fillRun code count (filled stated) = filled (stated ++ List.replicate count code) := by
  induction count generalizing stated with
  | zero => rw [List.replicate_zero, List.append_nil, fillRun]
  | succ count ih =>
    have next := filled_concat stated code
    rw [List.replicate_succ, List.append_cons, ← ih, next, fillRun]
    split <;> rfl

/-- As long as the runs speak of no more than there is room for, all of them are used. -/
theorem fill_filled {runs : List (FrameCode × Nat)} (positive : ∀ run ∈ runs, 0 < run.2)
    {stated : List FrameCode} (room : stated.length + codeCount runs ≤ statedCount) :
    fill runs (filled stated) = (filled (stated ++ expand runs), []) := by
  induction runs generalizing stated with
  | nil => rw [fill, expand, List.flatMap_nil, List.append_nil]
  | cons run runs ih =>
    have above : 0 < run.2 := positive run (by simp)
    have below : ∀ run ∈ runs, 0 < run.2 := fun run member => positive run (by simp [member])
    -- The unusable entry takes but one place, so a run that is still to come finds room.
    have length : (filled stated).length ≤ stated.length + 1 := by
      rw [length_filled]
      split <;> omega
    rw [codeCount, statedCount] at room
    have further :
        (stated ++ List.replicate run.2 run.1).length + codeCount runs ≤ statedCount := by
      rw [List.length_append, List.length_replicate, statedCount]
      omega
    rw [fill, if_pos (by omega), fillRun_filled, ih below further, List.append_assoc]
    rfl

/-- With all of its codes stated a table is filled in, but for the startcode byte. -/
theorem filled_statedCodes (table : FrameCodeTable) :
    filled table.statedCodes = table.stated.codes.toList := by
  have reserved : startcodeByte.toNat = 78 := rfl
  have front : (table.codes.toList.take 78).length = 78 := by simp
  have behind : startcodeByte.toNat < table.statedCodes.length := by
    rw [length_statedCodes]
    decide
  rw [filled_of_lt behind, stated, Vector.toList_set, List.set_eq_take_append_cons_drop,
    if_pos (by simp [reserved]), statedCodes, reserved, List.eraseIdx_eq_take_drop_succ,
    List.take_left' front, List.drop_left' front]

theorem sum_eq_codeCount (runs : List (FrameCode × Nat)) :
    (runs.map (·.2)).sum = codeCount runs := by
  induction runs with
  | nil => rfl
  | cons run runs ih => rw [List.map_cons, List.sum_cons, ih, codeCount]

theorem get_stated (table : FrameCodeTable) (code : UInt8) :
    table.stated.get code = if code = startcodeByte then .unusable else table.get code := by
  have place : code.toNat < 256 := code.toNat_lt
  change (table.codes.set startcodeByte.toNat .unusable)[code.toNat] = _
  rw [Vector.getElem_set]
  exact ite_congr (propext (UInt8.toNat_inj.trans eq_comm)) (fun _ => rfl) fun _ => rfl

/-- Of any table the scan finds the runs that a header states. None of them is empty, together they
speak of 255 codes, and neighbours differ. Filled in again they all are used up, and the table is
there with 256 entries, each as it was but the one of the startcode byte, which is unusable. -/
theorem runs_fill_table (table : FrameCodeTable) :
    table.scan 0 = table.runs ∧
      (∀ run ∈ table.runs, 1 ≤ run.2) ∧
      (table.runs.map (·.2)).sum = 255 ∧
      table.runs.IsChain (fun run next => run.1 ≠ next.1) ∧
      ∃ rebuilt : FrameCodeTable,
        fill table.runs [] = (rebuilt.codes.toList, []) ∧
        ofRuns? table.runs = some rebuilt ∧
        rebuilt.codes.toList.length = 256 ∧
        ∀ code, rebuilt.get code = if code = startcodeByte then .unusable else table.get code := by
  have positive := runLengths_pos table.statedCodes
  have count := codeCount_runs table
  have room : ([] : List FrameCode).length + codeCount table.runs ≤ statedCount := by
    rw [count]
    exact Nat.le_refl statedCount
  refine ⟨scan_eq table 0, positive, (sum_eq_codeCount _).trans count, isChain_runLengths _,
    table.stated, ?_, ofRuns?_runs table, Vector.length_toList, get_stated table⟩
  have used := fill_filled positive room
  rw [expand_runLengths, List.nil_append, filled_statedCodes] at used
  exact used

/-- A run that begins just before the place of the startcode byte goes on behind it, and nothing but
the entry at that place is lost. -/
theorem runs_fill_table_sample :
    ∃ table rebuilt : FrameCodeTable,
      table = ⟨.ofFn fun place => if place.val < 77 then .unusable else .generic⟩ ∧
      table.scan 0 = [(.unusable, 77), (.generic, 178)] ∧
      (∀ run ∈ [(FrameCode.unusable, 77), (.generic, 178)], 1 ≤ run.2) ∧
      ofRuns? table.runs = some rebuilt ∧ rebuilt.get 0x4D = .generic ∧
      rebuilt.get 0x4E = .unusable ∧ rebuilt.get 0x4F = .generic := by
  let table : FrameCodeTable :=
    ⟨.ofFn fun place => if place.val < 77 then .unusable else .generic⟩
  have runs : table.runs = [(.unusable, 77), (.generic, 178)] := by decide +kernel
  obtain ⟨scanned, positive, _, _, rebuilt, _, back, _, entries⟩ := runs_fill_table table
  rw [runs] at scanned positive
  exact ⟨table, rebuilt, rfl, scanned, positive, back, (entries 0x4D).trans (by decide +kernel),
    entries 0x4E, (entries 0x4F).trans (by decide +kernel)⟩

end NutContainer.FrameCodeTable
