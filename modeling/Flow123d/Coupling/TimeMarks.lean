import Flow123d.Library.Double
import Mathlib.Data.List.TakeWhile

/-!
# Time marks

The database of marked times that all equations share. The marks are kept in the
order of their times, between a start and an end stopper that match every mask.
-/

set_option autoImplicit false

namespace Flow123d

open Flow123d.Library

abbrev TimeMark.MarkType := BitVec 64

@[ext] structure TimeMark where
  time : Double
  markType : TimeMark.MarkType
  isTime : time ≠ Double.nan
deriving DecidableEq

namespace TimeMark

def everyType : MarkType := BitVec.allOnes 64

def matchMask (mark : TimeMark) (mask : MarkType) : Bool :=
  mask &&& ~~~mark.markType == 0

def addToType (mark : TimeMark) (type : MarkType) : TimeMark :=
  { mark with markType := mark.markType ||| type }

@[simp] theorem addToType_time (mark : TimeMark) (type : MarkType) :
    (mark.addToType type).time = mark.time := rfl

def startStopper : TimeMark := ⟨.negInf, everyType, by decide⟩

def endStopper : TimeMark := ⟨.posInf, everyType, by decide⟩

theorem endStopper_matchMask (mask : MarkType) : endStopper.matchMask mask = true := by
  unfold matchMask endStopper everyType
  simp

theorem endStopper_addToType (type : MarkType) : endStopper.addToType type = endStopper := by
  apply TimeMark.ext
  · rfl
  · exact BitVec.allOnes_or

end TimeMark

structure TimeMarks where
  nextMarkType : TimeMark.MarkType
  marks : List TimeMark
  typeFixedTime : TimeMark.MarkType
  typeOutput : TimeMark.MarkType
  typeBcChange : TimeMark.MarkType
  sorted : marks.Pairwise fun mark other => mark.time ≤ other.time
  stopped : TimeMark.endStopper ∈ marks

namespace TimeMarks

/-- The constructor, with the first three bits for the predefined types. -/
def create : TimeMarks where
  nextMarkType := 1 <<< 3
  marks := [TimeMark.startStopper, TimeMark.endStopper]
  typeFixedTime := 1
  typeOutput := 1 <<< 1
  typeBcChange := 1 <<< 2
  sorted := by decide
  stopped := by decide

def newMarkType (marks : TimeMarks) : TimeMark.MarkType × TimeMarks :=
  (marks.nextMarkType, { marks with nextMarkType := marks.nextMarkType <<< 1 })

def sameTime (mark other : TimeMark) : Bool :=
  (mark.time - other.time).abs < Double.fin (2 * Double.epsilon)

/-- The marks before `std::lower_bound` of a mark. -/
def beforeMark (marks : List TimeMark) (mark : TimeMark) : List TimeMark :=
  marks.takeWhile fun other => other.time < mark.time

def fromMark (marks : List TimeMark) (mark : TimeMark) : List TimeMark :=
  marks.dropWhile fun other => other.time < mark.time

/-- What `add` does when the mark at the lower bound is of another time: the mark
before it is tried, and otherwise the new mark is inserted. -/
def addBehind (front back : List TimeMark) (mark : TimeMark) : List TimeMark :=
  match front.getLast? with
  | some previous =>
      if sameTime previous mark then
        front.dropLast ++ previous.addToType mark.markType :: back
      else front ++ mark :: back
  | none => front ++ mark :: back

def addTo (marks : List TimeMark) (mark : TimeMark) : List TimeMark :=
  match fromMark marks mark with
  | firstGe :: rest =>
      if sameTime firstGe mark then
        beforeMark marks mark ++ firstGe.addToType mark.markType :: rest
      else addBehind (beforeMark marks mark) (firstGe :: rest) mark
  | [] => addBehind (beforeMark marks mark) [] mark

/-! ## Adding keeps the order and the end stopper -/

theorem beforeMark_append_fromMark (marks : List TimeMark) (mark : TimeMark) :
    beforeMark marks mark ++ fromMark marks mark = marks :=
  List.takeWhile_append_dropWhile

theorem beforeMark_less {marks : List TimeMark} {mark other : TimeMark}
    (member : other ∈ beforeMark marks mark) : other.time < mark.time := by
  have less := List.mem_takeWhile_imp member
  exact of_decide_eq_true less

theorem fromMark_head {marks rest : List TimeMark} {mark firstGe : TimeMark}
    (split : fromMark marks mark = firstGe :: rest) : mark.time ≤ firstGe.time := by
  have notLess := List.head?_dropWhile_not (fun other => decide (other.time < mark.time)) marks
  unfold fromMark at split
  rw [split] at notLess
  exact Double.le_of_not_lt firstGe.isTime mark.isTime (of_decide_eq_false notLess)

theorem sorted_iff (marks : List TimeMark) :
    (marks.Pairwise fun mark other => mark.time ≤ other.time) ↔
      (marks.map TimeMark.time).Pairwise (· ≤ ·) :=
  List.pairwise_map.symm

theorem merge_sorted {front back : List TimeMark} {mark : TimeMark}
    (type : TimeMark.MarkType)
    (sorted : (front ++ mark :: back).Pairwise fun mark other => mark.time ≤ other.time) :
    (front ++ mark.addToType type :: back).Pairwise
      fun mark other => mark.time ≤ other.time := by
  rw [sorted_iff] at sorted ⊢
  simpa using sorted

theorem insert_sorted {front back : List TimeMark} {mark : TimeMark}
    (sorted : (front ++ back).Pairwise fun mark other => mark.time ≤ other.time)
    (less : ∀ other ∈ front, other.time < mark.time)
    (head : ∀ firstGe rest, back = firstGe :: rest → mark.time ≤ firstGe.time) :
    (front ++ mark :: back).Pairwise fun mark other => mark.time ≤ other.time := by
  rw [List.pairwise_append] at sorted ⊢
  obtain ⟨frontSorted, backSorted, across⟩ := sorted
  refine ⟨frontSorted, List.pairwise_cons.mpr ⟨?_, backSorted⟩, ?_⟩
  · intro other member
    cases back with
    | nil => cases member
    | cons firstGe rest =>
        have first := head firstGe rest rfl
        cases member with
        | head => exact first
        | tail _ later =>
            exact Double.le_trans first ((List.pairwise_cons.mp backSorted).1 other later)
  · intro earlier inFront other member
    cases member with
    | head => exact Double.le_of_lt (less earlier inFront)
    | tail _ later => exact across earlier inFront other later

theorem addBehind_sorted {front back : List TimeMark} {mark : TimeMark}
    (sorted : (front ++ back).Pairwise fun mark other => mark.time ≤ other.time)
    (less : ∀ other ∈ front, other.time < mark.time)
    (head : ∀ firstGe rest, back = firstGe :: rest → mark.time ≤ firstGe.time) :
    (addBehind front back mark).Pairwise fun mark other => mark.time ≤ other.time := by
  have inserted := insert_sorted sorted less head
  unfold addBehind
  cases last : front.getLast? with
  | none => exact inserted
  | some previous =>
      by_cases merged : sameTime previous mark = true
      · simp only [merged, ↓reduceIte]
        apply merge_sorted
        rw [← List.dropLast_append_getLast? previous last] at sorted
        simpa using sorted
      · simpa only [merged, Bool.false_eq_true, ↓reduceIte] using inserted

theorem addTo_sorted {marks : List TimeMark} (mark : TimeMark)
    (sorted : marks.Pairwise fun mark other => mark.time ≤ other.time) :
    (addTo marks mark).Pairwise fun mark other => mark.time ≤ other.time := by
  have parts := beforeMark_append_fromMark marks mark
  unfold addTo
  cases split : fromMark marks mark with
  | nil =>
      rw [split] at parts
      exact addBehind_sorted (by rwa [parts]) (fun _ => beforeMark_less) (by simp)
  | cons firstGe rest =>
      rw [split] at parts
      by_cases merged : sameTime firstGe mark = true
      · simp only [merged, ↓reduceIte]
        exact merge_sorted mark.markType (by rwa [parts])
      · simp only [merged, Bool.false_eq_true, ↓reduceIte]
        refine addBehind_sorted (by rwa [parts]) (fun _ => beforeMark_less) ?_
        intro head tail same
        exact fromMark_head (split.trans same)

theorem merge_stopped {front back : List TimeMark} {mark : TimeMark}
    (type : TimeMark.MarkType)
    (stopped : TimeMark.endStopper ∈ front ++ mark :: back) :
    TimeMark.endStopper ∈ front ++ mark.addToType type :: back := by
  rw [List.mem_append, List.mem_cons] at stopped ⊢
  obtain before | here | after := stopped
  · exact .inl before
  · rw [← here, TimeMark.endStopper_addToType]
    exact .inr (.inl rfl)
  · exact .inr (.inr after)

theorem addBehind_stopped {front back : List TimeMark} (mark : TimeMark)
    (stopped : TimeMark.endStopper ∈ front ++ back) :
    TimeMark.endStopper ∈ addBehind front back mark := by
  have inserted : TimeMark.endStopper ∈ front ++ mark :: back := by
    rw [List.mem_append] at stopped ⊢
    exact stopped.imp_right (List.mem_cons_of_mem mark)
  unfold addBehind
  cases last : front.getLast? with
  | none => exact inserted
  | some previous =>
      by_cases merged : sameTime previous mark = true
      · simp only [merged, ↓reduceIte]
        apply merge_stopped
        rw [← List.dropLast_append_getLast? previous last] at stopped
        simpa using stopped
      · simpa only [merged, Bool.false_eq_true, ↓reduceIte] using inserted

theorem addTo_stopped {marks : List TimeMark} (mark : TimeMark)
    (stopped : TimeMark.endStopper ∈ marks) :
    TimeMark.endStopper ∈ addTo marks mark := by
  rw [← beforeMark_append_fromMark marks mark] at stopped
  unfold addTo
  cases split : fromMark marks mark with
  | nil =>
      rw [split] at stopped
      exact addBehind_stopped mark stopped
  | cons firstGe rest =>
      rw [split] at stopped
      by_cases merged : sameTime firstGe mark = true
      · simp only [merged, ↓reduceIte]
        exact merge_stopped mark.markType stopped
      · simp only [merged, Bool.false_eq_true, ↓reduceIte]
        exact addBehind_stopped mark stopped

def add (marks : TimeMarks) (mark : TimeMark) : TimeMarks :=
  { marks with
    marks := addTo marks.marks mark
    sorted := addTo_sorted mark marks.sorted
    stopped := addTo_stopped mark marks.stopped }

end TimeMarks

end Flow123d
