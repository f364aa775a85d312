import Flow123d.Coupling.SpacedMarks
import Flow123d.Coupling.TimeGovernorProperties
import Flow123d.Library.SortedLists

/-!
# The marks around the time of a governor

`TimeMarks::next`, `last` and `is_current`. The search for the last mark starts a hundredth of the
step behind the time, which may be less than the tolerance of the comparisons.
-/

set_option autoImplicit false

namespace Flow123d

open Flow123d.Library

namespace TimeMarks

/-- The loop of `next`, which must not leave the marks. -/
def searchNext (marks : TimeMarks) (tg : TimeGovernor) (mask : TimeMark.MarkType) :
    Option TimeMark :=
  (marks.marks.dropWhile fun mark => mark.time < tg.time).find? fun mark =>
    tg.lt mark.time && mark.matchMask mask

def lastBound (tg : TimeGovernor) : Double := tg.time + .fin (1 / 100) * tg.timeStep

/-- The search goes back from `std::lower_bound`. -/
def last (marks : TimeMarks) (tg : TimeGovernor) (mask : TimeMark.MarkType) : Option TimeMark :=
  searchBack (fun mark => mark.time < lastBound tg)
    (fun mark => tg.ge mark.time && mark.matchMask mask) marks.marks

def isCurrent (marks : TimeMarks) (tg : TimeGovernor) (mask : TimeMark.MarkType) :
    Option Bool :=
  if tg.endTime = TimeGovernor.infTime then some (tg.time = TimeGovernor.infTime)
  else (marks.last tg mask).map fun tm => tg.lt (tm.time + tg.timeStep)

/-- The earliest matching mark later than the time of the governor. -/
structure IsNext (marks : TimeMarks) (tg : TimeGovernor) (mask : TimeMark.MarkType)
    (mark : TimeMark) : Prop where
  member : mark ∈ marks.marks
  matching : mark.matchMask mask = true
  ahead : tg.lt mark.time = true
  first : ∀ other ∈ marks.marks, other.matchMask mask = true → tg.lt other.time = true →
    mark.time ≤ other.time

/-- The latest matching mark not later than the time of the governor. -/
structure IsLast (marks : TimeMarks) (tg : TimeGovernor) (mask : TimeMark.MarkType)
    (mark : TimeMark) : Prop where
  member : mark ∈ marks.marks
  matching : mark.matchMask mask = true
  reached : tg.ge mark.time = true
  latest : ∀ other ∈ marks.marks, other.matchMask mask = true → tg.ge other.time = true →
    other.time ≤ mark.time

/-- A matching mark in the last time step. -/
def InStep (marks : TimeMarks) (tg : TimeGovernor) (mask : TimeMark.MarkType) : Prop :=
  ∃ mark ∈ marks.marks, mark.matchMask mask = true ∧ tg.ge mark.time = true ∧
    tg.lt (mark.time + tg.timeStep) = true

structure FindsMarks (marks : TimeMarks) (tg : TimeGovernor) (mask : TimeMark.MarkType) :
    Prop where
  next : ∃ mark, marks.searchNext tg mask = some mark ∧ marks.IsNext tg mask mark
  last : ∃ mark, marks.last tg mask = some mark ∧ marks.IsLast tg mask mark
  isCurrent : tg.endTime ≠ TimeGovernor.infTime → ∃ result,
    marks.isCurrent tg mask = some result ∧ (result = true ↔ marks.InStep tg mask)

/-- A matching mark that the tolerance lets pass is not behind the start of the search. -/
def NoneBehind (marks : TimeMarks) (tg : TimeGovernor) (mask : TimeMark.MarkType) : Prop :=
  ∀ mark ∈ marks.marks, mark.matchMask mask = true → tg.ge mark.time = true →
    lastBound tg ≤ mark.time →
      ∀ other ∈ marks.marks, lastBound tg ≤ other.time → mark.time ≤ other.time

instance (marks : TimeMarks) (tg : TimeGovernor) (mask : TimeMark.MarkType) :
    Decidable (marks.NoneBehind tg mask) :=
  inferInstanceAs (Decidable (∀ mark ∈ marks.marks, _ → _ → _ → ∀ other ∈ marks.marks, _ → _))

/-- Marks at finite times are before all that follow. -/
def Strict (marks : List TimeMark) : Prop :=
  marks.Pairwise fun mark other => ∀ t : ℚ, mark.time = .fin t → mark.time < other.time

end TimeMarks

/-- The time and the step are numbers, or infinite at the end. -/
structure TimeGovernor.HasTimes (tg : TimeGovernor) : Prop where
  time : (∃ t : ℚ, tg.time = .fin t) ∨ tg.time = .posInf
  step : (∃ d : ℚ, tg.timeStep = .fin d) ∨ tg.timeStep = .posInf

namespace TimeMarks

/-! ## Marks that can be reached -/

section Reached

theorem Adds.strict {marks result : List TimeMark} {mark : TimeMark}
    (adds : Adds marks mark result) (sorted : marks.Pairwise fun mark other =>
      mark.time ≤ other.time) (strict : Strict marks) : Strict result := by
  cases adds with
  | @merged front back held parts same =>
      rw [← parts] at strict
      unfold Strict at strict ⊢
      rw [← List.pairwise_map (f := TimeMark.time)
        (R := fun time other => ∀ t : ℚ, time = .fin t → time < other)] at strict ⊢
      simpa using strict
  | @inserted front back parts before behind previous next =>
      rw [← parts] at strict sorted
      obtain ⟨inFront, inBack, across⟩ := List.pairwise_append.mp strict
      refine List.pairwise_append.mpr ⟨inFront, List.pairwise_cons.mpr ⟨?_, inBack⟩, ?_⟩
      · intro other member t atTime
        cases back with
        | nil => cases member
        | cons first rest =>
            have toFirst : mark.time < first.time := by
              have ordered := behind first rfl
              have apart := apart_of_not_sameTime ordered (.inl ⟨t, atTime⟩)
                ((sameTime_comm _ _).trans (next first rfl))
              rw [atTime] at ordered apart ⊢
              cases firstTime : first.time with
              | nan => exact absurd firstTime first.isTime
              | negInf =>
                  rw [firstTime] at ordered
                  cases ordered
              | posInf => rfl
              | fin s =>
                  rw [firstTime] at apart
                  unfold Apart at apart
                  rw [Double.fin_sub_fin, Double.fin_le_fin] at apart
                  have positive := TimeGovernor.epsilon_pos
                  exact (Double.fin_lt_fin _ _).mpr (by linarith)
            cases member with
            | head => exact toFirst
            | tail _ later =>
                exact Double.lt_of_lt_of_le toFirst
                  ((List.pairwise_cons.mp (List.pairwise_append.mp sorted).2.1).1 other later)
      · intro earlier isEarlier other member t atTime
        cases member with
        | head => exact before earlier isEarlier
        | tail _ later => exact across earlier isEarlier other later t atTime

theorem foldl_strict (added : List TimeMark) {marks : List TimeMark}
    (sorted : marks.Pairwise fun mark other => mark.time ≤ other.time)
    (strict : Strict marks) : Strict (added.foldl addTo marks) := by
  induction added generalizing marks with
  | nil => exact strict
  | cons mark rest ih =>
      exact ih (addTo_sorted mark sorted) ((addTo_adds marks mark).strict sorted strict)

theorem addAll_strict (added : List TimeMark) : Strict (create.addAll added).marks := by
  rw [addAll_marks]
  refine foldl_strict added create.sorted ?_
  refine List.pairwise_cons.mpr ⟨fun _ _ t atTime => ?_, List.pairwise_singleton _ _⟩
  cases atTime

theorem Adds.startStopper {marks result : List TimeMark} {mark : TimeMark}
    (adds : Adds marks mark result) (start : TimeMark.startStopper ∈ marks) :
    TimeMark.startStopper ∈ result := by
  cases adds with
  | @merged front back held parts same =>
      obtain ⟨t, -, heldTime, -⟩ := sameTime_fin same
      have notHeld : TimeMark.startStopper ≠ held := by
        rintro rfl
        cases heldTime
      rw [← parts, List.mem_append, List.mem_cons] at start
      rw [List.mem_append, List.mem_cons]
      rcases start with inFront | isHeld | inBack
      · exact .inl inFront
      · exact absurd isHeld notHeld
      · exact .inr (.inr inBack)
  | inserted parts _ _ _ _ =>
      rw [← parts, List.mem_append] at start
      rw [List.mem_append, List.mem_cons]
      exact start.imp_right .inr

theorem foldl_startStopper (added : List TimeMark) {marks : List TimeMark}
    (start : TimeMark.startStopper ∈ marks) :
    TimeMark.startStopper ∈ added.foldl addTo marks := by
  induction added generalizing marks with
  | nil => exact start
  | cons mark rest ih => exact ih ((addTo_adds marks mark).startStopper start)

theorem addAll_startStopper (added : List TimeMark) :
    TimeMark.startStopper ∈ (create.addAll added).marks := by
  rw [addAll_marks]
  exact foldl_startStopper added List.mem_cons_self

end Reached

end TimeMarks

/-! ## Comparisons with the time of the governor -/

namespace TimeGovernor

section Comparisons

variable {tg : TimeGovernor}

theorem HasTimes.not_ge_posInf (times : tg.HasTimes) : tg.ge .posInf = false := by
  have ahead : tg.lt .posInf = true := by
    rcases times.time with ⟨t, time⟩ | time
    · exact lt_posInf time
    · exact lt_posInf_of_posInf time
  rwa [lt_eq_not_ge, Bool.not_eq_true'] at ahead

theorem HasTimes.not_lt_negInf (times : tg.HasTimes) : tg.lt .negInf = false := by
  rcases times.time with ⟨t, time⟩ | time
  · exact TimeGovernor.not_lt_negInf time
  · exact not_lt_negInf_of_posInf time

theorem not_lt_fin_of_posInf (time : tg.time = .posInf) (m : ℚ) : tg.lt (.fin m) = false := by
  unfold lt
  rw [time, posInf_precision (by simp)]
  rfl

/-- The tolerance grows slower than the time. -/
theorem sub_precision_mono {m n : ℚ} (t : ℚ) (ordered : m ≤ n) :
    m - 16 * Double.epsilon * max |t| |m| ≤ n - 16 * Double.epsilon * max |t| |n| := by
  have positive := epsilon_pos
  have small : 16 * Double.epsilon ≤ 1 := by
    unfold Double.epsilon
    norm_num
  have distance : |n| ≤ |m| + (n - m) := by
    have triangle := abs_add_le m (n - m)
    rwa [add_sub_cancel, abs_of_nonneg (sub_nonneg.mpr ordered)] at triangle
  have grows : max |t| |n| ≤ max |t| |m| + (n - m) := by
    refine max_le ?_ ?_
    · have first := le_max_left |t| |m|
      linarith
    · have second := le_max_right |t| |m|
      linarith
  have scaled : 16 * Double.epsilon * max |t| |n| ≤
      16 * Double.epsilon * max |t| |m| + 16 * Double.epsilon * (n - m) := by
    rw [← mul_add]
    gcongr
  have step : 16 * Double.epsilon * (n - m) ≤ n - m :=
    mul_le_of_le_one_left (sub_nonneg.mpr ordered) small
  linarith

/-- What follows a time that is ahead is ahead. -/
theorem HasTimes.lt_mono (times : tg.HasTimes) {earlier later : Double}
    (ordered : earlier ≤ later) (ahead : tg.lt earlier = true) : tg.lt later = true := by
  have stopper : tg.lt .posInf = true := by
    rw [lt_eq_not_ge, times.not_ge_posInf]
    rfl
  cases later with
  | nan => exact absurd rfl (Double.ne_nan_of_le ordered).2
  | posInf => exact stopper
  | negInf =>
      cases earlier <;> first | exact ahead | cases ordered
  | fin n =>
      cases earlier with
      | nan => exact absurd rfl (Double.ne_nan_of_le ordered).1
      | posInf => cases ordered
      | negInf =>
          rw [times.not_lt_negInf] at ahead
          cases ahead
      | fin m =>
          rcases times.time with ⟨t, time⟩ | time
          · have grows := sub_precision_mono t ((Double.fin_le_fin m n).mp ordered)
            exact (lt_fin time).mpr (((lt_fin time).mp ahead).trans_le grows)
          · rw [not_lt_fin_of_posInf time] at ahead
            cases ahead

/-- The time before which a mark lies in the last step grows with the mark. -/
theorem HasTimes.lt_add_mono (times : tg.HasTimes) {earlier later : Double}
    (ordered : earlier ≤ later) (ahead : tg.lt (earlier + tg.timeStep) = true) :
    tg.lt (later + tg.timeStep) = true := by
  rcases times.step with ⟨d, step⟩ | step
  · rw [step] at ahead ⊢
    refine times.lt_mono ?_ ahead
    cases earlier <;> cases later <;>
      first
      | cases ordered; done
      | rfl
      | exact (Double.fin_le_fin _ _).mpr
          (add_le_add_left ((Double.fin_le_fin _ _).mp ordered) d)
  · have stopper : tg.lt .posInf = true := by
      rw [lt_eq_not_ge, times.not_ge_posInf]
      rfl
    rw [step]
    cases later with
    | nan => exact absurd rfl (Double.ne_nan_of_le ordered).2
    | negInf => exact lt_nan tg
    | fin n => exact stopper
    | posInf => exact stopper

/-- The search for the last mark starts at a time. -/
theorem HasTimes.negInf_lt_lastBound (times : tg.HasTimes) :
    .negInf < TimeMarks.lastBound tg := by
  have scaled : Double.fin (1 / 100) * .posInf = .posInf := Double.fin_mul_posInf (by norm_num)
  unfold TimeMarks.lastBound
  rcases times.time with ⟨t, time⟩ | time <;> rcases times.step with ⟨d, step⟩ | step <;>
    rw [time, step] <;> first | rfl | (rw [scaled]; rfl)

end Comparisons

end TimeGovernor

namespace TimeMarks

/-! ## The searches -/

section Searches

variable {marks : TimeMarks} {tg : TimeGovernor} {mask : TimeMark.MarkType}

theorem startStopper_matchMask (mask : TimeMark.MarkType) :
    TimeMark.startStopper.matchMask mask = true := TimeMark.endStopper_matchMask mask

/-- The next mark is found also at the infinite time, where it is an infinite one. -/
theorem exists_next (times : tg.HasTimes) :
    ∃ mark, marks.searchNext tg mask = some mark ∧ marks.IsNext tg mask mark := by
  rcases times.time with ⟨t, time⟩ | time
  · exact ⟨marks.next tg mask, TimeGovernor.next_found marks mask time,
      TimeGovernor.next_mem marks mask time, TimeGovernor.next_matchMask marks mask time,
      TimeGovernor.lt_next marks mask time,
      fun other member matching ahead =>
        TimeGovernor.next_first marks mask time member ahead matching⟩
  · have infinite : ∀ mark : TimeMark, tg.lt mark.time = true → mark.time = .posInf := by
      intro mark ahead
      cases atTime : mark.time with
      | nan => exact absurd atTime mark.isTime
      | posInf => rfl
      | negInf =>
          rw [atTime, times.not_lt_negInf] at ahead
          cases ahead
      | fin m =>
          rw [atTime, TimeGovernor.not_lt_fin_of_posInf time] at ahead
          cases ahead
    cases found : marks.searchNext tg mask with
    | none =>
        have kept : TimeMark.endStopper ∈ marks.marks.dropWhile fun mark => mark.time < tg.time :=
          mem_dropWhile_of_not marks.stopped (by simp [TimeMark.endStopper])
        have rejected := List.find?_eq_none.mp found _ kept
        have ahead : tg.lt TimeMark.endStopper.time = true :=
          TimeGovernor.lt_posInf_of_posInf time
        rw [ahead, TimeMark.endStopper_matchMask] at rejected
        exact absurd rfl rejected
    | some mark =>
        have passed := List.find?_some found
        rw [Bool.and_eq_true] at passed
        have member := (List.dropWhile_sublist _).subset (List.mem_of_find?_eq_some found)
        refine ⟨mark, rfl, member, passed.2, passed.1, fun other _ _ ahead => ?_⟩
        rw [infinite mark passed.1, infinite other ahead]
        rfl

theorem before_closed (bound : Double) (earlier later : TimeMark)
    (ordered : earlier.time ≤ later.time) (less : decide (later.time < bound) = true) :
    decide (earlier.time < bound) = true := by
  rw [decide_eq_true_iff] at less ⊢
  exact Double.lt_of_le_of_lt ordered less

/-- The search for the last mark ends at the start stopper at the latest. -/
theorem exists_last (times : tg.HasTimes) (start : TimeMark.startStopper ∈ marks.marks) :
    ∃ mark, marks.last tg mask = some mark := by
  have early := mem_takeWhile_of_sorted marks.sorted (before_closed (lastBound tg)) start
    (decide_eq_true times.negInf_lt_lastBound)
  refine exists_searchBack ?_ early marks.stopped (by simp [TimeMark.endStopper])
  have reached := times.not_lt_negInf
  rw [TimeGovernor.lt_eq_not_ge, Bool.not_eq_false'] at reached
  rw [Bool.and_eq_true]
  exact ⟨reached, startStopper_matchMask mask⟩

theorem last_member {mark : TimeMark} (found : marks.last tg mask = some mark) :
    mark ∈ marks.marks ∧ tg.ge mark.time = true ∧ mark.matchMask mask = true := by
  have accepted := searchBack_accepts found
  rw [Bool.and_eq_true] at accepted
  exact ⟨searchBack_mem found, accepted⟩

/-- A mark that is reached and not before the bound is at a finite time. -/
theorem reached_finite (times : tg.HasTimes) {mark : TimeMark} (reached : tg.ge mark.time = true)
    (late : lastBound tg ≤ mark.time) : ∃ t : ℚ, mark.time = .fin t := by
  cases atTime : mark.time with
  | nan => exact absurd atTime mark.isTime
  | negInf =>
      have impossible := Double.lt_of_lt_of_le times.negInf_lt_lastBound late
      rw [atTime] at impossible
      cases impossible
  | posInf =>
      rw [atTime, times.not_ge_posInf] at reached
      cases reached
  | fin t => exact ⟨t, rfl⟩

theorem lastBound_le (times : tg.HasTimes) {mark : TimeMark}
    (notBefore : decide (mark.time < lastBound tg) = false) : lastBound tg ≤ mark.time := by
  have bounded := (Double.ne_nan_of_le (Double.le_of_lt times.negInf_lt_lastBound)).2
  exact Double.le_of_not_lt mark.isTime bounded (of_decide_eq_false notBefore)

theorem Strict.later {front back : List TimeMark} {mark other : TimeMark}
    (strict : Strict marks.marks) (parts : marks.marks = front ++ mark :: back)
    (behind : other ∈ back) {t : ℚ} (atTime : mark.time = .fin t) : mark.time < other.time := by
  unfold Strict at strict
  rw [parts] at strict
  exact (List.pairwise_cons.mp (List.pairwise_append.mp strict).2.1).1 other behind t atTime

/-- No mark behind the start of the search is the last one. -/
theorem isLast_of_noneBehind (times : tg.HasTimes) (strict : Strict marks.marks)
    (none : marks.NoneBehind tg mask) {mark : TimeMark}
    (found : marks.last tg mask = some mark) : marks.IsLast tg mask mark := by
  obtain ⟨member, reached, matching⟩ := last_member found
  refine ⟨member, matching, reached, fun other inside otherMatching otherReached => ?_⟩
  refine searchBack_latest marks.sorted (fun item _ => Double.le_self item.isTime) found inside
    (by rw [otherReached, otherMatching]; rfl) ?_
  intro behind
  obtain ⟨front, first, back, parts, notBefore, inBack⟩ := first_of_behindStart behind
  have firstInside : first ∈ marks.marks := by
    rw [parts]
    exact List.mem_append_right _ List.mem_cons_self
  have late := lastBound_le times notBefore
  have sorted := marks.sorted
  rw [parts] at sorted
  have ordered := (List.pairwise_cons.mp (List.pairwise_append.mp sorted).2.1).1 other inBack
  have otherLate := Double.le_trans late ordered
  have same := Double.le_antisymm ordered
    (none other inside otherMatching otherReached otherLate first firstInside late)
  obtain ⟨t, atTime⟩ := reached_finite times otherReached otherLate
  have less := strict.later parts inBack (same.trans atTime)
  rw [same] at less
  exact Double.lt_irrefl _ less

theorem noneBehind_of_isLast (times : tg.HasTimes) (strict : Strict marks.marks) {mark : TimeMark}
    (found : marks.last tg mask = some mark) (isLast : marks.IsLast tg mask mark) :
    marks.NoneBehind tg mask := by
  intro held inside matching reached late other otherInside otherLate
  by_contra precedes
  have notBefore : ∀ item : TimeMark, lastBound tg ≤ item.time →
      decide (item.time < lastBound tg) = false := by
    intro item itemLate
    rw [decide_eq_false_iff_not]
    exact fun less => Double.lt_irrefl _ (Double.lt_of_lt_of_le less itemLate)
  have behind : held ∈ behindStart (fun mark : TimeMark => mark.time < lastBound tg)
      marks.marks :=
    mem_behindStart marks.sorted (fun item _ => Double.le_self item.isTime) inside
      (notBefore held late) otherInside (notBefore other otherLate) precedes
  obtain ⟨front, back, parts, inBack⟩ := searchBack_inFront found behind
  have latest := isLast.latest held inside matching reached
  obtain ⟨t, atTime⟩ := reached_finite times isLast.reached (Double.le_trans late latest)
  have less := strict.later parts inBack atTime
  exact Double.lt_irrefl _ (Double.lt_of_lt_of_le less latest)

/-- The last mark decides whether there is one in the step. -/
theorem isCurrent_iff (times : tg.HasTimes) {mark : TimeMark}
    (found : marks.last tg mask = some mark) (isLast : marks.IsLast tg mask mark)
    (finite : tg.endTime ≠ TimeGovernor.infTime) :
    ∃ result, marks.isCurrent tg mask = some result ∧
      (result = true ↔ marks.InStep tg mask) := by
  refine ⟨tg.lt (mark.time + tg.timeStep), ?_, ?_, ?_⟩
  · unfold isCurrent
    rw [if_neg finite, found]
    rfl
  · intro inside
    exact ⟨mark, isLast.member, isLast.matching, isLast.reached, inside⟩
  · rintro ⟨other, member, matching, reached, inside⟩
    exact times.lt_add_mono (isLast.latest other member matching reached) inside

end Searches

/-! ## The searches in reached marks -/

/-- The governor of an input with a very short initial step, and two marks in its tolerance. -/
def shortGovernor : TimeGovernor :=
  (TimeGovernor.Record.mk 1 10 (some Double.epsilon) none none).governor 1

def closeMarks : List TimeMark :=
  [TimeGovernor.markAt 1 1, TimeGovernor.markAt 10 1,
    TimeGovernor.markAt (1 + 4 * Double.epsilon) 8,
    TimeGovernor.markAt (1 + 8 * Double.epsilon) 16]

theorem shortGovernor_hasTimes : shortGovernor.HasTimes := ⟨.inl ⟨1, rfl⟩, .inl ⟨_, rfl⟩⟩

end TimeMarks

end Flow123d
