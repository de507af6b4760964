import Mathlib.Data.List.InsertIdx
import NutContainer.FrameCode.Reader

/-! A frame-code table goes through a main header unchanged, but for the entry
under the startcode byte, which no file states. The runs that are written are never
empty and speak of exactly 255 codes, so the reader's count comes out even
wherever the runs begin and end. -/
namespace NutContainer.FrameCodeTable

/-- How many codes a list of runs speaks of. -/
def codeCount : List (FrameCode × Nat) → Nat
  | [] => 0
  | run :: runs => run.2 + codeCount runs

/-- The table as a file can state it: no frame begins with the startcode byte. -/
def stated (table : FrameCodeTable) : FrameCodeTable :=
  ⟨table.codes.set startcodeByte.toNat .unusable (by decide)⟩

theorem length_expand (runs : List (FrameCode × Nat)) : (expand runs).length = codeCount runs := by
  induction runs with
  | nil => rfl
  | cons run runs ih =>
    rw [codeCount, ← ih]
    simp [expand]

private theorem prependRun_pos {code : FrameCode} {runs : List (FrameCode × Nat)}
    (positive : ∀ run ∈ runs, 0 < run.2) : ∀ run ∈ prependRun code runs, 0 < run.2 := by
  cases runs with
  | nil => simp [prependRun]
  | cons first rest =>
    obtain ⟨head, count⟩ := first
    have below : ∀ run ∈ rest, 0 < run.2 := fun run member => positive run (by simp [member])
    have above : 0 < count := positive (head, count) (by simp)
    intro run member
    by_cases same : code = head
    · simp only [prependRun, same, if_true, List.mem_cons] at member
      rcases member with rfl | member
      · exact Nat.succ_pos count
      · exact below run member
    · simp only [prependRun, same, if_false, List.mem_cons] at member
      rcases member with rfl | rfl | member
      · exact Nat.one_pos
      · exact above
      · exact below run member

/-- No run that is written is empty. -/
theorem runLengths_pos (codes : List FrameCode) : ∀ run ∈ runLengths codes, 0 < run.2 := by
  induction codes with
  | nil => simp [runLengths]
  | cons code rest ih => exact prependRun_pos ih

/-- Runs speak of codes that are in the table. -/
theorem mem_of_mem_runs {table : FrameCodeTable} {run : FrameCode × Nat} (member : run ∈ table.runs) :
    run.1 ∈ table.codes.toList := by
  have positive := runLengths_pos _ run member
  have spoken : run.1 ∈ expand table.runs :=
    List.mem_flatMap.mpr ⟨run, member, List.mem_replicate.mpr ⟨Nat.ne_of_gt positive, rfl⟩⟩
  rw [runs, expand_runLengths] at spoken
  exact List.mem_of_mem_eraseIdx spoken

/-- The runs of a table speak of all codes but one. -/
theorem codeCount_runs (table : FrameCodeTable) : codeCount table.runs = statedCount := by
  rw [← length_expand, runs, expand_runLengths]
  simp [statedCodes, statedCount, List.length_eraseIdx, startcodeByte]

/-- One run is read back, whatever follows it. -/
theorem readRun?_append {run : FrameCode × Nat} (sized : run.1.IsSized) (rest : Bytes) :
    readRun? (Field.encodeAll (runFields run) ++ rest) = some (run, rest) := by
  simp [readRun?, runFields, Field.encode, Varint.read?_append, Varint.readSigned?_append, sized]

/-- Runs are read back together, up to the count that they speak of. -/
theorem readRuns?_append {runs : List (FrameCode × Nat)} (positive : ∀ run ∈ runs, 0 < run.2)
    (sized : ∀ run ∈ runs, run.1.IsSized) (rest : Bytes) :
    readRuns? (codeCount runs) (Field.encodeAll (runs.flatMap runFields) ++ rest) =
      some (runs, rest) := by
  induction runs with
  | nil => rw [codeCount, readRuns?]; rfl
  | cons run others ih =>
    have above : 0 < run.2 := positive run (by simp)
    have below : ∀ run ∈ others, 0 < run.2 := fun run member => positive run (by simp [member])
    have fitting : ∀ run ∈ others, run.1.IsSized := fun run member => sized run (by simp [member])
    obtain ⟨count, total⟩ : ∃ count, codeCount (run :: others) = count + 1 :=
      ⟨run.2 + codeCount others - 1, by rw [codeCount]; omega⟩
    rw [codeCount] at total
    have within : 0 < run.2 ∧ run.2 ≤ count + 1 := by omega
    have remaining : count + 1 - run.2 = codeCount others := by omega
    rw [codeCount, total, readRuns?, List.flatMap_cons, Field.encodeAll_append,
      List.append_assoc, readRun?_append (sized run (by simp))]
    simp [within, remaining, ih below fitting]

/-- The runs of a table describe the table as a file can state it. -/
theorem ofRuns?_runs (table : FrameCodeTable) : ofRuns? table.runs = some table.stated := by
  have whole : (expand table.runs).insertIdx startcodeByte.toNat .unusable =
      table.codes.toList.set startcodeByte.toNat .unusable := by
    rw [runs, expand_runLengths, statedCodes, List.insertIdx_eraseIdx_self]
    simp [startcodeByte]
  have complete : (table.codes.toList.set startcodeByte.toNat .unusable).length = 256 := by simp
  simp only [ofRuns?, whole, complete, dite_true, Option.some.injEq]
  apply congrArg FrameCodeTable.mk
  apply Vector.toList_inj.mp
  rw [Vector.toList_set, Vector.toList_mk]

/-- Reading a table gives it back as a file can state it. -/
theorem read?_append {table : FrameCodeTable} (sized : ∀ code ∈ table.codes.toList, code.IsSized)
    (rest : Bytes) :
    read? (Field.encodeAll table.fields ++ rest) = some (table.stated, rest) := by
  have runsBack := readRuns?_append (runLengths_pos table.statedCodes)
    (fun run member => sized run.1 (mem_of_mem_runs member)) rest
  rw [← runs] at runsBack
  rw [codeCount_runs] at runsBack
  simp [read?, fields, runsBack, ofRuns?_runs]

theorem sized_generic : ∀ code ∈ generic.codes.toList, code.IsSized := by
  intro code member
  simp only [generic, Vector.toList_ofFn, List.mem_ofFn] at member
  obtain ⟨place, rfl⟩ := member
  split
  · decide
  · decide

/-- The table in use has nothing under the startcode byte that could be lost. -/
theorem stated_generic : generic.stated = generic := by
  have same : generic.codes.set startcodeByte.toNat .unusable (by decide) = generic.codes := by
    apply Vector.ext
    intro code inside
    by_cases under : startcodeByte.toNat = code
    · subst under
      rw [Vector.getElem_set_self]
      simp only [generic, Vector.getElem_ofFn]
      rfl
    · rw [Vector.getElem_set_ne _ _ under]
  rw [stated, same]

end NutContainer.FrameCodeTable
