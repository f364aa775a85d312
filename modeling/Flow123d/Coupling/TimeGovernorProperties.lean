import Flow123d.Coupling.TimeGovernor
import Flow123d.Library.Fold
import Mathlib.Tactic.FieldSimp

/-!
# Steps of the time governor

The tolerant comparisons at finite times, the next fixed mark, and the number of
steps that `estimate_dt` selects. From them the invariant of unsteady governors:
the selected step divides the way to a fixed mark that no other one precedes.
-/

set_option autoImplicit false

namespace Flow123d

open Flow123d.Library

namespace TimeGovernor

/-! ## Comparisons at finite times -/

section Comparisons

variable {tg other : TimeGovernor} {t t' m : ℚ}

theorem epsilon_pos : 0 < Double.epsilon := by
  unfold Double.epsilon
  positivity

theorem precision_fin (t m : ℚ) :
    precision (.fin t) (.fin m) = .fin (16 * Double.epsilon * max |t| |m|) := by
  unfold precision
  rw [Double.abs_fin, Double.abs_fin, Double.stdMax_fin, Double.fin_mul_fin]

theorem precision_posInf (t : ℚ) : precision (.fin t) .posInf = .posInf := by
  have positive := epsilon_pos
  exact Double.fin_mul_posInf (by positivity)

theorem precision_negInf (t : ℚ) : precision (.fin t) .negInf = .posInf :=
  precision_posInf t

theorem posInf_precision {mark : Double} (number : mark ≠ .nan) :
    precision .posInf mark = .posInf := by
  have positive := epsilon_pos
  cases mark with
  | nan => exact absurd rfl number
  | negInf => exact Double.fin_mul_posInf (by positivity)
  | fin m => exact Double.fin_mul_posInf (by positivity)
  | posInf => exact Double.fin_mul_posInf (by positivity)

theorem precision_nonneg (t m : ℚ) : 0 ≤ 16 * Double.epsilon * max |t| |m| := by
  have := epsilon_pos
  positivity

theorem precision_mono (nonneg : 0 ≤ t) (later : t ≤ t') :
    16 * Double.epsilon * max |t| |m| ≤ 16 * Double.epsilon * max |t'| |m| := by
  have positive := epsilon_pos
  have larger : |t| ≤ |t'| := by rwa [abs_of_nonneg nonneg, abs_of_nonneg (nonneg.trans later)]
  gcongr

theorem lt_eq_not_ge (tg : TimeGovernor) (otherTime : Double) :
    tg.lt otherTime = !tg.ge otherTime := rfl

theorem lt_congr (same : tg.time = other.time) (otherTime : Double) :
    tg.lt otherTime = other.lt otherTime := by
  unfold lt
  rw [same]

theorem isEnd_congr (time : tg.time = other.time) (endTime : tg.endTime = other.endTime) :
    tg.isEnd = other.isEnd := by
  unfold isEnd ge
  rw [time, endTime]

theorem lt_fin (time : tg.time = .fin t) :
    tg.lt (.fin m) = true ↔ t < m - 16 * Double.epsilon * max |t| |m| := by
  unfold lt
  rw [time, precision_fin, Double.fin_sub_fin, Bool.not_eq_true', decide_eq_false_iff_not,
    Double.fin_le_fin, not_le]

theorem before_of_lt (time : tg.time = .fin t) (less : tg.lt (.fin m) = true) : t < m := by
  have gap := (lt_fin time).mp less
  have nonneg := precision_nonneg t m
  linarith

theorem lt_posInf (time : tg.time = .fin t) : tg.lt .posInf = true := by
  unfold lt
  rw [time, precision_posInf, Double.posInf_sub_posInf]
  rfl

/-- The comparison cannot tell that the infinite time is reached. -/
theorem lt_posInf_of_posInf (time : tg.time = .posInf) : tg.lt .posInf = true := by
  unfold lt
  rw [time, posInf_precision (by simp), Double.posInf_sub_posInf]
  rfl

theorem not_lt_negInf (time : tg.time = .fin t) : tg.lt .negInf = false := by
  unfold lt
  rw [time, precision_negInf, Double.negInf_sub_posInf]
  rfl

theorem not_lt_negInf_of_posInf (time : tg.time = .posInf) : tg.lt .negInf = false := by
  unfold lt
  rw [time, posInf_precision (by simp), Double.negInf_sub_posInf]
  rfl

theorem lt_nan (tg : TimeGovernor) : tg.lt .nan = true := by
  unfold lt
  rw [Double.nan_sub]
  simp

theorem lt_of_nan (time : tg.time = .nan) (otherTime : Double) : tg.lt otherTime = true := by
  unfold lt
  rw [time, Bool.not_eq_true', decide_eq_false_iff_not]
  intro ordered
  exact (Double.ne_nan_of_le ordered).2 rfl

/-- What is ahead of a time is ahead of every earlier one. -/
theorem lt_of_later (time : tg.time = .fin t) (otherTime : other.time = .fin t')
    (nonneg : 0 ≤ t) (later : t ≤ t') {mark : Double} (less : other.lt mark = true) :
    tg.lt mark = true := by
  cases mark with
  | nan => exact lt_nan tg
  | posInf => exact lt_posInf time
  | negInf =>
      rw [not_lt_negInf otherTime] at less
      cases less
  | fin m =>
      have gap := (lt_fin otherTime).mp less
      have grows := precision_mono (m := m) nonneg later
      exact (lt_fin time).mpr (by linarith)

theorem not_gt_of_le (time : tg.time = .fin t) (below : t ≤ m) : tg.gt (.fin m) = false := by
  have nonneg := precision_nonneg t m
  unfold gt
  rw [time, precision_fin, Double.fin_add_fin]
  simp only [Double.fin_le_fin, Bool.not_eq_eq_eq_not, Bool.not_false, decide_eq_true_eq]
  linarith

theorem not_gt_posInf (time : tg.time = .fin t) : tg.gt .posInf = false := by
  unfold gt
  rw [time, precision_posInf]
  rfl

theorem not_gt_of_posInf (time : tg.time = .posInf) {mark : Double} (number : mark ≠ .nan)
    (bounded : mark ≠ .negInf) : tg.gt mark = false := by
  unfold gt
  rw [time, posInf_precision number]
  cases mark with
  | nan => exact absurd rfl number
  | negInf => exact absurd rfl bounded
  | fin m => rfl
  | posInf => rfl

theorem isEnd_of_posInf (time : tg.time = .posInf) : tg.isEnd = true := by
  unfold isEnd infTime
  rw [time]
  simp

theorem isEnd_fin (time : tg.time = .fin t) : tg.isEnd = !tg.lt tg.endTime := by
  rw [lt_eq_not_ge, Bool.not_not]
  unfold isEnd infTime
  rw [time]
  simp

end Comparisons

/-! ## The next mark -/

section Next

variable {tg : TimeGovernor} {t : ℚ} (marks : TimeMarks) (mask : TimeMark.MarkType)

theorem mem_dropWhile_of_lt {marks : List TimeMark} (time : tg.time = .fin t)
    {mark : TimeMark} (member : mark ∈ marks) (less : tg.lt mark.time = true) :
    mark ∈ marks.dropWhile fun mark => mark.time < tg.time := by
  rw [← List.takeWhile_append_dropWhile (p := fun mark : TimeMark => mark.time < tg.time)
    (l := marks), List.mem_append] at member
  obtain skipped | kept := member
  · have before : mark.time < tg.time := of_decide_eq_true (List.mem_takeWhile_imp skipped :)
    rw [time] at before
    cases marked : mark.time with
    | nan => exact absurd marked mark.isTime
    | posInf => simp [marked] at before
    | negInf =>
        rw [marked, not_lt_negInf time] at less
        cases less
    | fin m =>
        rw [marked] at before less
        exact absurd ((Double.fin_lt_fin _ _).mp before) (before_of_lt time less).not_gt
  · exact kept

theorem next_found (time : tg.time = .fin t) :
    ((marks.marks.dropWhile fun mark => mark.time < tg.time).find? fun mark =>
      tg.lt mark.time && mark.matchMask mask) = some (marks.next tg mask) := by
  unfold TimeMarks.next
  cases found : (marks.marks.dropWhile fun mark => mark.time < tg.time).find? fun mark =>
      tg.lt mark.time && mark.matchMask mask with
  | some mark => rfl
  | none =>
      have stopper := List.find?_eq_none.mp found TimeMark.endStopper
        (mem_dropWhile_of_lt time marks.stopped (lt_posInf time))
      have ahead : tg.lt TimeMark.endStopper.time = true := lt_posInf time
      rw [TimeMark.endStopper_matchMask, ahead] at stopper
      exact absurd rfl stopper

theorem next_mem (time : tg.time = .fin t) : marks.next tg mask ∈ marks.marks := by
  have member := List.mem_of_find?_eq_some (next_found marks mask time)
  exact (List.dropWhile_sublist _).subset member

theorem lt_next (time : tg.time = .fin t) : tg.lt (marks.next tg mask).time = true := by
  have passed := List.find?_some (next_found marks mask time)
  rw [Bool.and_eq_true] at passed
  exact passed.1

theorem next_matchMask (time : tg.time = .fin t) :
    (marks.next tg mask).matchMask mask = true := by
  have passed := List.find?_some (next_found marks mask time)
  rw [Bool.and_eq_true] at passed
  exact passed.2

/-- No matching mark that is ahead comes before the next one. -/
theorem next_first (time : tg.time = .fin t) {mark : TimeMark} (member : mark ∈ marks.marks)
    (less : tg.lt mark.time = true) (matching : mark.matchMask mask = true) :
    (marks.next tg mask).time ≤ mark.time := by
  have kept := mem_dropWhile_of_lt time member less
  obtain ⟨-, front, back, split, before⟩ :=
    List.find?_eq_some_iff_append.mp (next_found marks mask time)
  have sorted := marks.sorted.sublist
    (List.dropWhile_sublist (fun mark : TimeMark => decide (mark.time < tg.time)))
  rw [split] at kept sorted
  rw [List.mem_append, List.mem_cons] at kept
  obtain passed | same | later := kept
  · have rejected := before mark passed
    rw [less, matching] at rejected
    cases rejected
  · rw [← same]
    exact Double.le_self mark.isTime
  · exact (List.pairwise_cons.mp (List.pairwise_append.mp sorted).2.1).1 mark later

end Next

/-! ## The number of steps -/

section Steps

variable {d s : ℚ}

/-- The number of steps of the wanted length `s` on the distance `d`. -/
def stepCount (d s : ℚ) : ℤ := ⌊d / s - roundNStepsPrecision⌋ + 1

theorem roundNStepsPrecision_pos : 0 < roundNStepsPrecision := by
  unfold roundNStepsPrecision
  positivity

theorem roundNStepsPrecision_lt_one : roundNStepsPrecision < 1 := by
  unfold roundNStepsPrecision
  norm_num

theorem numberOfSteps_fin (positive : 0 < s) :
    numberOfSteps (.fin d) (.fin s) = .fin (stepCount d s) := by
  have small := roundNStepsPrecision_lt_one
  have above := roundNStepsPrecision_pos
  have lower := Int.floor_le (d / s)
  have upper := Int.lt_floor_add_one (d / s)
  unfold stepCount
  change (if (Double.fin d / Double.fin s - (Double.fin d / Double.fin s).floor).abs <
      .fin roundNStepsPrecision then (Double.fin d / Double.fin s).floor
    else (Double.fin d / Double.fin s).ceil) = _
  rw [Double.fin_div_fin positive.ne', Double.floor_fin, Double.fin_sub_fin, Double.abs_fin,
    Double.ceil_fin, abs_of_nonneg (by linarith)]
  by_cases exact_ : d / s - ⌊d / s⌋ < roundNStepsPrecision
  · rw [if_pos ((Double.fin_lt_fin _ _).mpr exact_)]
    have floored : ⌊d / s - roundNStepsPrecision⌋ = ⌊d / s⌋ - 1 := by
      rw [Int.floor_eq_iff]
      constructor <;> push_cast <;> linarith
    rw [floored, sub_add_cancel]
  · rw [if_neg (mt (Double.fin_lt_fin _ _).mp exact_)]
    have floored : ⌊d / s - roundNStepsPrecision⌋ = ⌊d / s⌋ := by
      rw [Int.floor_eq_iff]
      constructor <;> linarith
    have raised : ⌈d / s⌉ = ⌊d / s⌋ + 1 := by
      rw [Int.ceil_eq_iff]
      constructor <;> push_cast <;> linarith
    rw [floored, raised]

theorem stepCount_pos (positive : 0 < s) (coarse : s ≤ 10 ^ 14 * d) : 0 < stepCount d s := by
  have ratio : roundNStepsPrecision ≤ d / s := by
    rw [le_div_iff₀ positive]
    unfold roundNStepsPrecision
    linarith
  have floored : 0 ≤ ⌊d / s - roundNStepsPrecision⌋ := Int.floor_nonneg.mpr (by linarith)
  unfold stepCount
  linarith

theorem stepCount_eq_zero (positive : 0 < s) (ahead : 0 < d) (long : 10 ^ 14 * d < s) :
    stepCount d s = 0 := by
  have small := roundNStepsPrecision_lt_one
  have ratio : d / s < roundNStepsPrecision := by
    rw [div_lt_iff₀ positive]
    unfold roundNStepsPrecision
    linarith
  have above : 0 < d / s := div_pos ahead positive
  have floored : ⌊d / s - roundNStepsPrecision⌋ = -1 := by
    rw [Int.floor_eq_iff]
    constructor <;> push_cast <;> linarith
  unfold stepCount
  rw [floored]
  rfl

/-- The rounding makes the step longer by its relative precision at most. -/
theorem step_le (positive : 0 < s) (counted : 0 < stepCount d s) :
    d / stepCount d s ≤ s * (1 + roundNStepsPrecision) := by
  have above := roundNStepsPrecision_pos
  have upper := Int.lt_floor_add_one (d / s - roundNStepsPrecision)
  have many : (1 : ℚ) ≤ stepCount d s := by exact_mod_cast counted
  have bound : d / s < stepCount d s + roundNStepsPrecision := by
    unfold stepCount
    push_cast
    linarith
  rw [div_lt_iff₀ positive] at bound
  rw [div_le_iff₀ (by linarith)]
  have product : roundNStepsPrecision * s ≤ roundNStepsPrecision * s * stepCount d s :=
    le_mul_of_one_le_right (by positivity) many
  linarith

end Steps

end TimeGovernor

end Flow123d
