import Mathlib.Data.List.Induction
import Mathlib.Data.List.Pairwise
import NutContainer.OrderingBuffer

/-! Which frames leave the buffer, and in which order. All frames that ever arrived
stand in one line, those that have left in front of those that wait. An arrival
puts one frame into the waiting part of the line and a release only moves the
boundary, so the place of two frames relative to each other is settled when the
later of them arrives: it goes first exactly if it is earlier in time and the other
one still waits. -/
namespace NutContainer

namespace WaitingFrame

theorem precedes_iff {first second : WaitingFrame} : first.Precedes second ↔
    first.millis < second.millis ∨
      first.millis = second.millis ∧ first.arrival < second.arrival := by
  simp [Precedes, order, Ordering.then_eq_lt, Int.compare_eq_lt, Nat.compare_eq_lt]

theorem insertInto_perm (frame : WaitingFrame) (line : List WaitingFrame) :
    (insertInto frame line).Perm (frame :: line) := by
  induction line with
  | nil => exact .rfl
  | cons first rest ih =>
    unfold insertInto
    split
    · exact .rfl
    · exact (ih.cons first).trans (.swap frame first rest)

/-- A frame is put between those that it does not precede and those that it does. -/
theorem insertInto_split (frame : WaitingFrame) {line : List WaitingFrame}
    (sorted : line.Pairwise Precedes) :
    ∃ front back, line = front ++ back ∧ insertInto frame line = front ++ frame :: back ∧
      (∀ other ∈ front, ¬ frame.Precedes other) ∧ ∀ other ∈ back, frame.Precedes other := by
  induction line with
  | nil => exact ⟨[], [], rfl, rfl, by simp, by simp⟩
  | cons first rest ih =>
    obtain ⟨ahead, behind⟩ := List.pairwise_cons.mp sorted
    by_cases earlier : frame.Precedes first
    · refine ⟨[], first :: rest, rfl, by simp [insertInto, earlier], by simp, ?_⟩
      intro other member
      rcases List.mem_cons.mp member with rfl | member
      · exact earlier
      · have later := ahead other member
        rw [precedes_iff] at *
        omega
    · obtain ⟨front, back, split, placed, before, after⟩ := ih behind
      refine ⟨first :: front, back, by rw [split]; rfl, ?_, ?_, after⟩
      · simp [insertInto, earlier, placed]
      · intro other member
        rcases List.mem_cons.mp member with rfl | member
        · exact earlier
        · exact before other member

/-- Frames are numbered by the order in which they arrived. -/
def Numbered (arrived : List WaitingFrame) : Prop :=
  ∀ (place : Nat) (frame : WaitingFrame), arrived[place]? = some frame → frame.arrival = place

/-- The latest time among frames. -/
def highest? (frames : List WaitingFrame) : Option Int := (frames.map (·.millis)).max?

/-- A frame is due when it is a whole window behind the latest one. -/
def Due (window : Nat) (arrived : List WaitingFrame) (frame : WaitingFrame) : Prop :=
  ∃ top, highest? arrived = some top ∧ frame.millis + window ≤ top

/-- The second of two frames to arrive is earlier in time and finds the first one
still waiting. -/
def Overtakes (window : Nat) (arrived : List WaitingFrame) (second first : WaitingFrame) : Prop :=
  second.millis < first.millis ∧
    ∀ other ∈ arrived.take second.arrival, other.millis < first.millis + window

/-- The first frame is ahead of the second in the line. -/
def Ahead (window : Nat) (arrived : List WaitingFrame) (first second : WaitingFrame) : Prop :=
  (first.arrival < second.arrival ∧ ¬ second.Overtakes window arrived first) ∨
    (second.arrival < first.arrival ∧ first.Overtakes window arrived second)

theorem highest?_concat (frames : List WaitingFrame) (frame : WaitingFrame) :
    highest? (frames ++ [frame]) =
      some ((highest? frames).elim frame.millis (max · frame.millis)) := by
  cases frames with
  | nil => rfl
  | cons first rest =>
    simp only [highest?, List.cons_append, List.map_cons, List.map_append, List.max?_cons',
      List.foldl_append, Option.elim_some]
    rfl

theorem exists_of_highest? {arrived : List WaitingFrame} {top : Int}
    (found : highest? arrived = some top) : ∃ latest ∈ arrived, latest.millis = top :=
  List.mem_map.mp (List.max?_mem found)

theorem due_iff {window : Nat} {arrived : List WaitingFrame} {frame : WaitingFrame} :
    frame.Due window arrived ↔ ∃ other ∈ arrived, frame.millis + window ≤ other.millis := by
  constructor
  · rintro ⟨top, found, behind⟩
    obtain ⟨other, member, rfl⟩ := exists_of_highest? found
    exact ⟨other, member, behind⟩
  · rintro ⟨other, member, behind⟩
    have listed : other.millis ∈ arrived.map (·.millis) := List.mem_map_of_mem member
    cases found : highest? arrived with
    | none =>
      rw [List.max?_eq_none_iff.mp found] at listed
      cases listed
    | some top =>
      have below := (List.max?_eq_some_iff.mp found).2 other.millis listed
      exact ⟨top, found, Int.le_trans behind below⟩

instance (window : Nat) (arrived : List WaitingFrame) (frame : WaitingFrame) :
    Decidable (frame.Due window arrived) := decidable_of_iff' _ due_iff

theorem Due.mono {window : Nat} {arrived more : List WaitingFrame} {frame : WaitingFrame}
    (due : frame.Due window arrived) : frame.Due window (arrived ++ more) := by
  obtain ⟨other, member, behind⟩ := due_iff.mp due
  exact due_iff.mpr ⟨other, List.mem_append_left _ member, behind⟩

theorem numbered_nil : Numbered [] := by simp [Numbered]

theorem Numbered.arrival_lt {arrived : List WaitingFrame} (numbered : Numbered arrived)
    {frame : WaitingFrame} (member : frame ∈ arrived) : frame.arrival < arrived.length := by
  obtain ⟨place, found⟩ := List.mem_iff_getElem?.mp member
  obtain ⟨inside, _⟩ := List.getElem?_eq_some_iff.mp found
  rwa [numbered _ _ found]

theorem Numbered.pairwise_arrival {arrived : List WaitingFrame} (numbered : Numbered arrived) :
    arrived.Pairwise (·.arrival < ·.arrival) := by
  rw [List.pairwise_iff_getElem]
  intro i j first second before
  rw [numbered _ _ (List.getElem?_eq_getElem first),
    numbered _ _ (List.getElem?_eq_getElem second)]
  exact before

theorem numbered_concat {arrived : List WaitingFrame} {frame : WaitingFrame} :
    Numbered (arrived ++ [frame]) ↔ Numbered arrived ∧ frame.arrival = arrived.length := by
  constructor
  · intro numbered
    refine ⟨fun place other found => ?_, numbered _ _ (List.getElem?_concat_length ..)⟩
    obtain ⟨inside, _⟩ := List.getElem?_eq_some_iff.mp found
    exact numbered _ _ ((List.getElem?_append_left inside).trans found)
  · rintro ⟨numbered, last⟩ place other found
    rw [List.getElem?_append] at found
    split at found
    · exact numbered _ _ found
    · obtain ⟨inside, rfl⟩ := List.getElem?_eq_some_iff.mp found
      simp only [List.length_singleton] at inside
      simp only [List.getElem_singleton, last]
      omega

/-- Nothing that arrives later bears on two frames that are there. -/
theorem ahead_append {window : Nat} {arrived more : List WaitingFrame}
    {first second : WaitingFrame} (one : first.arrival ≤ arrived.length)
    (other : second.arrival ≤ arrived.length) :
    first.Ahead window (arrived ++ more) second ↔ first.Ahead window arrived second := by
  rw [Ahead, Ahead, Overtakes, Overtakes, Overtakes, Overtakes, List.take_append_of_le_length one,
    List.take_append_of_le_length other]

/-- The newest frame goes first exactly if it is earlier and the other is not due. -/
theorem overtakes_newest {window : Nat} {arrived more : List WaitingFrame}
    {first second : WaitingFrame} (number : second.arrival = arrived.length) :
    second.Overtakes window (arrived ++ more) first ↔
      second.millis < first.millis ∧ ¬ first.Due window arrived := by
  rw [Overtakes, number, List.take_left, due_iff]
  simp only [not_exists, not_and, Int.not_le]

end WaitingFrame

namespace OrderingBuffer

open WaitingFrame

/-- Numbers that are held at the end of the range pass the test for being ready, whether the frame
is due or not. -/
def PassesAtEnd (window : Nat) (top millis : Int) : Prop :=
  top = Signed64.greatest ∨
    Signed64.greatest < (window : Int) ∧ millis + Signed64.greatest ≤ top

/-- Below the end of the range only a negative time with too long a window is let through. -/
theorem not_passesAtEnd {window : Nat} {top millis : Int} (below : top < Signed64.greatest)
    (usual : (window : Int) ≤ Signed64.greatest ∨ 0 ≤ millis) :
    ¬ PassesAtEnd window top millis := by
  rintro (last | ⟨long, reached⟩)
  · exact Int.ne_of_lt below last
  · rcases usual with short | positive
    · exact Int.not_lt.mpr short long
    · omega

/-- The test with numbers that are held at the end, said with those that are meant. -/
theorem isReady_held_iff {window : Nat} {top : Int} {frame : WaitingFrame}
    (time : Signed64.Fits frame.millis) (level : Signed64.Fits top) :
    IsReady (min (window : Int) Signed64.greatest) top frame ↔
      frame.millis + window ≤ top ∨ PassesAtEnd window top frame.millis := by
  -- No window is negative, so the sum is never held at the other end.
  have sum : Signed64.clamp (frame.millis + min (window : Int) Signed64.greatest) =
      min Signed64.greatest (frame.millis + min (window : Int) Signed64.greatest) := by
    simp only [Signed64.clamp, Signed64.Fits, Signed64.least, Signed64.greatest] at *
    omega
  rw [IsReady, sum, PassesAtEnd]
  simp only [Signed64.Fits] at level
  omega

/-- A buffer that has in order of release whatever has arrived and not left, and that
remembers how many frames arrived and how late the latest one is. When frames leave,
and how many at a time, is left open. -/
structure Balanced (arrived left : List WaitingFrame) (buffer : OrderingBuffer) : Prop where
  counted : buffer.arrivals = arrived.length
  numbered : Numbered arrived
  level : buffer.highWater = highest? arrived
  sorted : buffer.frames.Pairwise Precedes
  whole : (left ++ buffer.frames).Perm arrived

/-- What holds of a buffer at any time, for all frames that have arrived and those
that have left. -/
structure Lined (window : Nat) (arrived left : List WaitingFrame) (buffer : OrderingBuffer) :
    Prop where
  width : buffer.window = min (window : Int) Signed64.greatest
  counted : buffer.arrivals = arrived.length
  numbered : Numbered arrived
  inRange : ∀ frame ∈ arrived, 0 ≤ frame.millis ∧ frame.millis < Signed64.greatest
  level : buffer.highWater = highest? arrived
  sorted : buffer.frames.Pairwise Precedes
  whole : (left ++ buffer.frames).Perm arrived
  ahead : (left ++ buffer.frames).Pairwise (Ahead window arrived)
  due : ∀ frame ∈ left, frame.Due window arrived

/-- What holds of a buffer when everything that can leave has left. -/
structure Settled (window : Nat) (arrived left : List WaitingFrame) (buffer : OrderingBuffer) :
    Prop extends Lined window arrived left buffer where
  waiting : ∀ frame ∈ buffer.frames, ¬ frame.Due window arrived

section
variable {window : Nat} {arrived left : List WaitingFrame} {buffer : OrderingBuffer}

theorem balanced_empty (window : Nat) : Balanced [] [] (.empty window) where
  counted := rfl
  numbered := numbered_nil
  level := rfl
  sorted := .nil
  whole := .nil

theorem Lined.balanced (lined : Lined window arrived left buffer) :
    Balanced arrived left buffer :=
  ⟨lined.counted, lined.numbered, lined.level, lined.sorted, lined.whole⟩

theorem settled_empty (window : Nat) : Settled window [] [] (.empty window) where
  width := rfl
  counted := rfl
  numbered := numbered_nil
  inRange := by simp
  level := rfl
  sorted := .nil
  whole := .nil
  ahead := .nil
  due := by simp
  waiting := by simp [empty]

/-- For times in range, being ready is to be a whole window behind the mark. -/
theorem Lined.isReady_iff (lined : Lined window arrived left buffer) {frame : WaitingFrame}
    (member : frame ∈ arrived) {top : Int} (found : buffer.highWater = some top) :
    IsReady buffer.window top frame ↔ frame.Due window arrived := by
  have level : highest? arrived = some top := by rw [← lined.level, found]
  obtain ⟨latest, among, rfl⟩ := exists_of_highest? level
  have above := lined.inRange latest among
  have range := lined.inRange frame member
  have due : frame.Due window arrived ↔ frame.millis + window ≤ latest.millis := by
    constructor
    · rintro ⟨other, known, behind⟩
      cases level.symm.trans known
      exact behind
    · exact fun behind => ⟨_, level, behind⟩
  have fits {millis : Int} (range : 0 ≤ millis ∧ millis < Signed64.greatest) :
      Signed64.Fits millis := by
    simp only [Signed64.Fits, Signed64.least, Signed64.greatest] at *
    omega
  rw [due, lined.width, isReady_held_iff (fits range) (fits above),
    or_iff_left (not_passesAtEnd above.2 (.inr range.1))]

private theorem pairwise_insert {R : α → α → Prop} {front back : List α} {item : α}
    (old : (front ++ back).Pairwise R) (before : ∀ other ∈ front, R other item)
    (after : ∀ other ∈ back, R item other) : (front ++ item :: back).Pairwise R := by
  obtain ⟨ahead, behind, across⟩ := List.pairwise_append.mp old
  refine List.pairwise_append.mpr ⟨ahead, List.pairwise_cons.mpr ⟨after, behind⟩, ?_⟩
  intro first member second other
  rcases List.mem_cons.mp other with rfl | other
  · exact before first member
  · exact across first member second other

/-- Where a test holds in the back of a cut and not in its front, it picks out the back. -/
theorem perm_filter_of_append {front back whole : List α} {test : α → Bool}
    (cut : (front ++ back).Perm whole) (fails : ∀ item ∈ front, ¬ test item)
    (holds : ∀ item ∈ back, test item) : back.Perm (whole.filter test) := by
  have split := cut.filter test
  rwa [List.filter_append, List.filter_eq_nil_iff.mpr fails, List.filter_eq_self.mpr holds,
    List.nil_append] at split

/-- What is pushed is the frame that was taken in, with its number. -/
theorem push_frames {frame : WaitingFrame} (number : frame.arrival = buffer.arrivals) :
    (buffer.push frame.stream frame.pts frame.millis frame.payload).frames =
      insertInto frame buffer.frames := by
  rw [OrderingBuffer.push, ← number]

/-- A push adds its frame to those that are there. -/
theorem push_perm {frame : WaitingFrame} (number : frame.arrival = buffer.arrivals)
    (whole : (left ++ buffer.frames).Perm arrived) :
    (left ++ (buffer.push frame.stream frame.pts frame.millis frame.payload).frames).Perm
      (arrived ++ [frame]) := by
  rw [push_frames number]
  have inserted := (insertInto_perm frame buffer.frames).append_left left
  have moved := inserted.trans List.perm_middle
  exact (moved.trans (whole.cons frame)).trans (List.perm_append_singleton frame arrived).symm

theorem Balanced.push (balanced : Balanced arrived left buffer) {frame : WaitingFrame}
    (number : frame.arrival = arrived.length) :
    Balanced (arrived ++ [frame]) left
      (buffer.push frame.stream frame.pts frame.millis frame.payload) := by
  have turn := number.trans balanced.counted.symm
  obtain ⟨front, back, split, inserted, before, after⟩ := insertInto_split frame balanced.sorted
  refine ⟨?_, ?_, ?_, ?_, push_perm turn balanced.whole⟩
  · simp [OrderingBuffer.push, balanced.counted]
  · exact numbered_concat.mpr ⟨balanced.numbered, number⟩
  · rw [highest?_concat, ← balanced.level]
    rfl
  · rw [push_frames turn, inserted]
    refine pairwise_insert (split ▸ balanced.sorted) ?_ after
    intro other member
    have first := before other member
    have known : other ∈ arrived := balanced.whole.mem_iff.mp (by simp [split, member])
    have older := balanced.numbered.arrival_lt known
    rw [precedes_iff] at *
    omega

/-- A frame that leaves is the first one that waits. -/
theorem Balanced.pop (balanced : Balanced arrived left buffer) {frame : WaitingFrame}
    {rest : OrderingBuffer} (frames : buffer.frames = frame :: rest.frames)
    (same : rest = { buffer with frames := rest.frames }) :
    Balanced arrived (left ++ [frame]) rest := by
  have line : left ++ [frame] ++ rest.frames = left ++ buffer.frames := by simp [frames]
  have sorted := balanced.sorted
  rw [frames] at sorted
  rw [same]
  exact ⟨balanced.counted, balanced.numbered, balanced.level, sorted.of_cons,
    line ▸ balanced.whole⟩

/-- With the newest frame put in, every frame is ahead of those behind it. -/
theorem Settled.pairwise_ahead (settled : Settled window arrived left buffer)
    {frame : WaitingFrame} (number : frame.arrival = arrived.length)
    {front back : List WaitingFrame} (split : buffer.frames = front ++ back)
    (before : ∀ other ∈ front, ¬ frame.Precedes other)
    (after : ∀ other ∈ back, frame.Precedes other) :
    (left ++ front ++ frame :: back).Pairwise (Ahead window (arrived ++ [frame])) := by
  have ahead := settled.ahead
  have whole := settled.whole
  rw [split, ← List.append_assoc] at ahead whole
  have older : ∀ other ∈ left ++ front ++ back, other.arrival < frame.arrival :=
    fun other member => number ▸ settled.numbered.arrival_lt (whole.mem_iff.mp member)
  have kept : (left ++ front ++ back).Pairwise (Ahead window (arrived ++ [frame])) := by
    refine ahead.imp_of_mem fun {first second} one other => ?_
    have one := Nat.le_of_lt (older first one)
    have other := Nat.le_of_lt (older second other)
    exact (ahead_append (number ▸ one) (number ▸ other)).mpr
  refine pairwise_insert kept ?_ ?_
  · intro other member
    refine .inl ⟨older other (List.mem_append_left _ member), ?_⟩
    rw [overtakes_newest number]
    rintro ⟨earlier, waits⟩
    rcases List.mem_append.mp member with gone | behind
    · -- A frame that has left was due already, so nothing can overtake it.
      exact waits (settled.due other gone)
    · exact before other behind (precedes_iff.mpr (.inl earlier))
  · intro other member
    have newer := older other (List.mem_append_right _ member)
    have first := precedes_iff.mp (after other member)
    have waits := settled.waiting other (split ▸ List.mem_append_right _ member)
    exact .inr ⟨newer, (overtakes_newest number).mpr ⟨by omega, waits⟩⟩

/-- An arrival finds its place in the line and leaves the others in theirs. -/
theorem Settled.push (settled : Settled window arrived left buffer) {frame : WaitingFrame}
    (number : frame.arrival = arrived.length)
    (range : 0 ≤ frame.millis ∧ frame.millis < Signed64.greatest) :
    Lined window (arrived ++ [frame]) left
      (buffer.push frame.stream frame.pts frame.millis frame.payload) := by
  obtain ⟨counted, numbered, level, sorted, whole⟩ := settled.balanced.push number
  refine ⟨settled.width, counted, numbered, ?_, level, sorted, whole, ?_, ?_⟩
  · intro other member
    rcases List.mem_append.mp member with member | member
    · exact settled.inRange other member
    · cases List.mem_singleton.mp member
      exact range
  · obtain ⟨front, back, split, inserted, before, after⟩ := insertInto_split frame settled.sorted
    rw [push_frames (number.trans settled.counted.symm), inserted, ← List.append_assoc]
    exact settled.pairwise_ahead number split before after
  · exact fun other member => (settled.due other member).mono

theorem popOldest?_some {frame : WaitingFrame} {rest : OrderingBuffer}
    (popped : buffer.popOldest? = some (frame, rest)) :
    buffer.frames = frame :: rest.frames ∧ rest = { buffer with frames := rest.frames } := by
  unfold popOldest? at popped
  split at popped
  · cases popped
  · rename_i frames
    cases popped
    exact ⟨frames, rfl⟩

theorem popReady?_some {frame : WaitingFrame} {rest : OrderingBuffer}
    (popped : buffer.popReady? = some (frame, rest)) :
    ∃ top, buffer.highWater = some top ∧ IsReady buffer.window top frame ∧
      buffer.frames = frame :: rest.frames ∧ rest = { buffer with frames := rest.frames } := by
  unfold popReady? at popped
  split at popped
  · rename_i top first others level frames
    split at popped
    · rename_i ready
      cases popped
      exact ⟨top, level, ready, frames, rfl⟩
    · cases popped
  · cases popped

/-- A release moves the boundary over one frame that is due. -/
theorem Lined.popReady (lined : Lined window arrived left buffer) {frame : WaitingFrame}
    {rest : OrderingBuffer} (popped : buffer.popReady? = some (frame, rest)) :
    Lined window arrived (left ++ [frame]) rest := by
  obtain ⟨top, level, ready, frames, same⟩ := popReady?_some popped
  have line : left ++ [frame] ++ rest.frames = left ++ buffer.frames := by simp [frames]
  have known : frame ∈ arrived := lined.whole.mem_iff.mp (by simp [frames])
  obtain ⟨counted, numbered, highest, sorted, whole⟩ := lined.balanced.pop frames same
  refine ⟨?_, counted, numbered, lined.inRange, highest, sorted, whole, line ▸ lined.ahead, ?_⟩
  · rw [same]
    exact lined.width
  · intro other member
    rcases List.mem_append.mp member with member | member
    · exact lined.due other member
    · cases List.mem_singleton.mp member
      exact (lined.isReady_iff known level).mp ready

/-- When the first frame has to wait, so have all others. -/
theorem Lined.settled (lined : Lined window arrived left buffer)
    (stopped : buffer.popReady? = none) : Settled window arrived left buffer := by
  refine ⟨lined, ?_⟩
  intro frame member due
  obtain ⟨top, level, behind⟩ := due
  obtain ⟨first, others, frames⟩ := List.exists_cons_of_ne_nil (List.ne_nil_of_mem member)
  have known : first ∈ arrived := lined.whole.mem_iff.mp (by simp [frames])
  have highWater : buffer.highWater = some top := by rw [lined.level, level]
  have waits : ¬ IsReady buffer.window top first := by
    intro ready
    simp [popReady?, highWater, frames, ready] at stopped
  have sorted := lined.sorted
  rw [frames] at member sorted
  apply waits
  rw [lined.isReady_iff known highWater]
  refine ⟨top, level, ?_⟩
  rcases List.mem_cons.mp member with rfl | member
  · exact behind
  · have earlier := precedes_iff.mp (List.rel_of_pairwise_cons sorted member)
    omega

/-- Releasing what is ready releases everything that is due. -/
theorem Lined.drainReady (lined : Lined window arrived left buffer) {count : Nat}
    (enough : buffer.frames.length ≤ count) :
    Settled window arrived (left ++ (popUpTo popReady? count buffer).1)
      (popUpTo popReady? count buffer).2 := by
  induction count generalizing left buffer with
  | zero =>
    have empty : buffer.frames = [] := List.length_eq_zero_iff.mp (Nat.le_zero.mp enough)
    have stopped : buffer.popReady? = none := by
      cases level : buffer.highWater <;> simp [popReady?, level, empty]
    simpa [popUpTo] using lined.settled stopped
  | succ count ih =>
    cases popped : buffer.popReady? with
    | none => simpa [popUpTo, popped] using lined.settled popped
    | some next =>
      obtain ⟨frame, rest⟩ := next
      obtain ⟨_, _, _, frames, _⟩ := popReady?_some popped
      have fewer : rest.frames.length ≤ count := by simpa [frames] using enough
      have settled := ih (lined.popReady popped) fewer
      simpa [popUpTo, popped] using settled

/-- Whatever is popped comes off the front of the line. -/
theorem popUpTo_frames {pop? : OrderingBuffer → Option (WaitingFrame × OrderingBuffer)}
    (pops : ∀ {buffer : OrderingBuffer} {frame : WaitingFrame} {rest : OrderingBuffer},
      pop? buffer = some (frame, rest) →
        buffer.frames = frame :: rest.frames ∧ rest.arrivals = buffer.arrivals)
    (count : Nat) (buffer : OrderingBuffer) :
    (popUpTo pop? count buffer).1 ++ (popUpTo pop? count buffer).2.frames = buffer.frames ∧
      (popUpTo pop? count buffer).2.arrivals = buffer.arrivals := by
  induction count generalizing buffer with
  | zero => exact ⟨rfl, rfl⟩
  | succ count ih =>
    cases popped : pop? buffer with
    | none => simp [popUpTo, popped]
    | some next =>
      obtain ⟨frame, rest⟩ := next
      obtain ⟨frames, arrivals⟩ := pops popped
      obtain ⟨line, kept⟩ := ih rest
      simp only [popUpTo, popped]
      exact ⟨by rw [frames, List.cons_append, line], kept.trans arrivals⟩

theorem drainReady_frames (buffer : OrderingBuffer) :
    buffer.drainReady.1 ++ buffer.drainReady.2.frames = buffer.frames ∧
      buffer.drainReady.2.arrivals = buffer.arrivals := by
  refine popUpTo_frames (fun popped => ?_) _ buffer
  obtain ⟨_, _, _, frames, same⟩ := popReady?_some popped
  exact ⟨frames, by rw [same]⟩

theorem drainAll_eq (buffer : OrderingBuffer) :
    buffer.drainAll = (buffer.frames, { buffer with frames := [] }) := by
  obtain ⟨window, frames, arrivals, highWater⟩ := buffer
  unfold drainAll
  dsimp only
  induction frames with
  | nil => rfl
  | cons first rest ih => simp [popUpTo, popOldest?, ih]

/-- The frames that have left when these have arrived, and the buffer then. -/
def release (window : Nat) (arrived : List WaitingFrame) : List WaitingFrame × OrderingBuffer :=
  arrived.foldl (fun (left, buffer) frame =>
    let (ready, buffer) :=
      (buffer.push frame.stream frame.pts frame.millis frame.payload).drainReady
    (left ++ ready, buffer)) ([], .empty window)

/-- All frames in the order in which they leave. -/
def releaseOrder (window : Nat) (arrived : List WaitingFrame) : List WaitingFrame :=
  (release window arrived).1 ++ (release window arrived).2.drainAll.1

/-- Frames are numbered by their arrival, and their times are in range. -/
structure Admissible (arrived : List WaitingFrame) : Prop where
  numbered : Numbered arrived
  inRange : ∀ frame ∈ arrived, 0 ≤ frame.millis ∧ frame.millis < Signed64.greatest

theorem release_concat (window : Nat) (arrived : List WaitingFrame) (frame : WaitingFrame) :
    release window (arrived ++ [frame]) =
      ((release window arrived).1 ++ ((release window arrived).2.push frame.stream frame.pts
          frame.millis frame.payload).drainReady.1,
        ((release window arrived).2.push frame.stream frame.pts frame.millis
          frame.payload).drainReady.2) := by
  simp [release, List.foldl_append]

/-- Whatever has left and whatever waits are together what has arrived. -/
theorem release_perm (window : Nat) {arrived : List WaitingFrame} (numbered : Numbered arrived) :
    ((release window arrived).1 ++ (release window arrived).2.frames).Perm arrived ∧
      (release window arrived).2.arrivals = arrived.length := by
  induction arrived using List.reverseRecOn with
  | nil => exact ⟨.nil, rfl⟩
  | append_singleton earlier frame ih =>
    obtain ⟨numbered, last⟩ := numbered_concat.mp numbered
    obtain ⟨perm, count⟩ := ih numbered
    obtain ⟨line, kept⟩ := drainReady_frames
      ((release window earlier).2.push frame.stream frame.pts frame.millis frame.payload)
    rw [release_concat]
    refine ⟨?_, by rw [kept, OrderingBuffer.push, count, List.length_append]; rfl⟩
    rw [List.append_assoc, line]
    exact push_perm (last.trans count.symm) perm

theorem release_settled (window : Nat) {arrived : List WaitingFrame}
    (admissible : Admissible arrived) :
    Settled window arrived (release window arrived).1 (release window arrived).2 := by
  induction arrived using List.reverseRecOn with
  | nil => exact settled_empty window
  | append_singleton earlier frame ih =>
    obtain ⟨numbered, last⟩ := numbered_concat.mp admissible.numbered
    have settled := ih ⟨numbered, fun other member =>
      admissible.inRange other (List.mem_append_left _ member)⟩
    have lined := settled.push last (admissible.inRange frame (by simp))
    have next := lined.drainReady (Nat.le_refl _)
    rw [release_concat]
    exact next

theorem releaseOrder_eq (window : Nat) (arrived : List WaitingFrame) :
    releaseOrder window arrived = (release window arrived).1 ++ (release window arrived).2.frames := by
  rw [releaseOrder, drainAll_eq]

/-- Every frame leaves exactly once. -/
theorem releaseOrder_perm (window : Nat) {arrived : List WaitingFrame}
    (numbered : Numbered arrived) : (releaseOrder window arrived).Perm arrived := by
  rw [releaseOrder_eq]
  exact (release_perm window numbered).1

theorem releaseOrder_ahead (window : Nat) {arrived : List WaitingFrame}
    (admissible : Admissible arrived) :
    (releaseOrder window arrived).Pairwise (Ahead window arrived) := by
  rw [releaseOrder_eq]
  exact (release_settled window admissible).ahead

theorem Admissible.mem_take {arrived : List WaitingFrame} (admissible : Admissible arrived)
    {frame : WaitingFrame} {place : Nat} :
    frame ∈ arrived.take place ↔ frame ∈ arrived ∧ frame.arrival < place := by
  simp only [List.mem_iff_getElem?, List.getElem?_take]
  constructor
  · rintro ⟨found, known⟩
    split at known
    · rename_i before
      exact ⟨⟨found, known⟩, admissible.numbered _ _ known ▸ before⟩
    · cases known
  · rintro ⟨⟨found, known⟩, before⟩
    refine ⟨found, ?_⟩
    rw [if_pos (admissible.numbered _ _ known ▸ before), known]

theorem ahead_asymm {window : Nat} {arrived : List WaitingFrame} {first second : WaitingFrame}
    (ahead : first.Ahead window arrived second) : ¬ second.Ahead window arrived first := by
  rintro (⟨before, stays⟩ | ⟨before, overtakes⟩)
  · rcases ahead with ⟨after, _⟩ | ⟨_, overtakes⟩
    · omega
    · exact stays overtakes
  · rcases ahead with ⟨_, stays⟩ | ⟨after, _⟩
    · exact stays overtakes
    · omega

/-- Where a relation that cannot hold both ways orders a list, it says which of two
members comes first. -/
private theorem idxOf_lt_of_pairwise [DecidableEq α] {R : α → α → Prop} {list : List α}
    (ordered : list.Pairwise R) (asymm : ∀ {first second}, R first second → ¬ R second first)
    {first second : α} (one : first ∈ list) (other : second ∈ list) (before : R first second) :
    list.idxOf first < list.idxOf second := by
  have inside := List.idxOf_lt_length_of_mem one
  have within := List.idxOf_lt_length_of_mem other
  rcases Nat.lt_trichotomy (list.idxOf first) (list.idxOf second) with less | same | greater
  · exact less
  · have equal : first = second := by
      rw [← List.getElem_idxOf inside, ← List.getElem_idxOf within]
      simp only [same]
    subst equal
    exact absurd before (asymm before)
  · have after := List.pairwise_iff_getElem.mp ordered _ _ within inside greater
    simp only [List.getElem_idxOf] at after
    exact absurd before (asymm after)

/-- The later of two arrivals leaves first exactly if it overtakes the other. -/
theorem releaseOrder_idxOf (window : Nat) {arrived : List WaitingFrame}
    (admissible : Admissible arrived) {i j : Nat} {first second : WaitingFrame}
    (one : arrived[i]? = some first) (other : arrived[j]? = some second) (later : i < j) :
    (releaseOrder window arrived).idxOf second < (releaseOrder window arrived).idxOf first ↔
      second.Overtakes window arrived first := by
  have ordered := releaseOrder_ahead window admissible
  have listed {frame : WaitingFrame} (member : frame ∈ arrived) :=
    (releaseOrder_perm window admissible.numbered).mem_iff.mpr member
  have inFirst := listed (List.mem_of_getElem? one)
  have inSecond := listed (List.mem_of_getElem? other)
  have arrival : first.arrival < second.arrival := by
    rwa [admissible.numbered _ _ one, admissible.numbered _ _ other]
  constructor
  · intro before
    by_contra stays
    have after := idxOf_lt_of_pairwise ordered ahead_asymm inFirst inSecond (.inl ⟨arrival, stays⟩)
    omega
  · intro overtakes
    exact idxOf_lt_of_pairwise ordered ahead_asymm inSecond inFirst (.inr ⟨arrival, overtakes⟩)

/-- Without a window frames leave as they arrive. -/
theorem releaseOrder_zero {arrived : List WaitingFrame} (admissible : Admissible arrived) :
    releaseOrder 0 arrived = arrived := by
  have perm := releaseOrder_perm 0 admissible.numbered
  have ordered := releaseOrder_ahead 0 admissible
  have numbers : (releaseOrder 0 arrived).Pairwise (·.arrival < ·.arrival) := by
    refine ordered.imp_of_mem fun {first second} one other ahead => ?_
    rcases ahead with ⟨before, _⟩ | ⟨before, earlier, waits⟩
    · exact before
    · -- The second frame is itself among those that the first one found.
      have among := admissible.mem_take.mpr ⟨perm.mem_iff.mp other, before⟩
      have absurd := waits second among
      omega
  refine perm.eq_of_pairwise ?_ numbers admissible.numbered.pairwise_arrival
  intro first second _ _ before after
  omega

/-- No frame is more than a window behind the latest one that arrived before it. -/
def OnTime (window : Nat) (arrived : List WaitingFrame) : Prop :=
  ∀ frame ∈ arrived, ∀ other ∈ arrived.take frame.arrival, other.millis ≤ frame.millis + window

instance (window : Nat) (arrived : List WaitingFrame) : Decidable (OnTime window arrived) :=
  inferInstanceAs (Decidable (∀ frame ∈ arrived, ∀ other ∈ arrived.take frame.arrival, _ ≤ _))

/-- Frames that are on time leave in the order of their times. -/
theorem releaseOrder_onTime {window : Nat} {arrived : List WaitingFrame}
    (admissible : Admissible arrived) (onTime : OnTime window arrived) :
    (releaseOrder window arrived).Pairwise Precedes := by
  have perm := releaseOrder_perm window admissible.numbered
  refine (releaseOrder_ahead window admissible).imp_of_mem fun {first second} one other ahead => ?_
  rw [precedes_iff]
  rcases ahead with ⟨before, stays⟩ | ⟨_, earlier, _⟩
  · have inTime : ¬ second.millis < first.millis := by
      intro earlier
      refine stays ⟨earlier, fun third known => ?_⟩
      have near := onTime second (perm.mem_iff.mp other) third known
      omega
    omega
  · exact .inl earlier

private theorem millis_trans (first second third : WaitingFrame)
    (one : decide (first.millis ≤ second.millis)) (other : decide (second.millis ≤ third.millis)) :
    decide (first.millis ≤ third.millis) := by
  simp only [decide_eq_true_eq] at *
  omega

private theorem millis_total (first second : WaitingFrame) :
    decide (first.millis ≤ second.millis) || decide (second.millis ≤ first.millis) := by
  simp only [Bool.or_eq_true, decide_eq_true_eq]
  omega

/-- A stable sort of numbered frames puts them in order of release. -/
theorem pairwise_mergeSort {frames : List WaitingFrame}
    (numbered : frames.Pairwise (·.arrival < ·.arrival)) :
    (frames.mergeSort (·.millis ≤ ·.millis)).Pairwise Precedes := by
  induction frames with
  | nil => simp
  | cons frame others ih =>
    obtain ⟨older, rest⟩ := List.pairwise_cons.mp numbered
    obtain ⟨front, back, inserted, split, ahead⟩ :=
      List.mergeSort_cons millis_trans millis_total frame others
    have sorted := List.pairwise_mergeSort millis_trans millis_total (frame :: others)
    rw [inserted] at sorted ⊢
    refine pairwise_insert (split ▸ ih rest) ?_ ?_
    · intro other member
      have later := ahead other member
      rw [precedes_iff]
      simp only [Bool.not_eq_true', decide_eq_false_iff_not] at later
      omega
    · intro other member
      have among : other ∈ others.mergeSort (·.millis ≤ ·.millis) := by simp [split, member]
      have before := older other (List.mem_mergeSort.mp among)
      have least := List.rel_of_pairwise_cons (List.pairwise_append.mp sorted).2.1 member
      rw [precedes_iff]
      simp only [decide_eq_true_eq] at least
      omega

theorem releaseOrder_mergeSort {window : Nat} {arrived : List WaitingFrame}
    (admissible : Admissible arrived) (onTime : OnTime window arrived) :
    releaseOrder window arrived = arrived.mergeSort (·.millis ≤ ·.millis) := by
  have perm : (releaseOrder window arrived).Perm (arrived.mergeSort (·.millis ≤ ·.millis)) :=
    (releaseOrder_perm window admissible.numbered).trans (List.mergeSort_perm ..).symm
  refine perm.eq_of_pairwise ?_ (releaseOrder_onTime admissible onTime)
    (pairwise_mergeSort admissible.numbered.pairwise_arrival)
  intro first second _ _ before after
  rw [precedes_iff] at before after
  omega

/-- Exactly the frames that are due have left. -/
theorem Settled.left_perm (settled : Settled window arrived left buffer) :
    left.Perm (arrived.filter (·.Due window arrived)) := by
  refine perm_filter_of_append (List.perm_append_comm.trans settled.whole) ?_ ?_
  · exact fun frame member => by simpa using settled.waiting frame member
  · exact fun frame member => by simpa using settled.due frame member

/-- Exactly the frames that are not due wait. -/
theorem Settled.waiting_perm (settled : Settled window arrived left buffer) :
    buffer.frames.Perm (arrived.filter (¬ ·.Due window arrived)) := by
  refine perm_filter_of_append settled.whole ?_ ?_
  · exact fun frame member => by simpa using settled.due frame member
  · exact fun frame member => by simpa using settled.waiting frame member

end

end OrderingBuffer

end NutContainer
