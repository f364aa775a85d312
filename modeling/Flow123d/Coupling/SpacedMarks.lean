import Flow123d.Coupling.TimeMarksProperties
import Mathlib.Algebra.Order.Archimedean.Basic

/-!
# Evenly spaced marks

`TimeMarks::add_time_marks`. Its loop compares the time with a relaxed end time, and a step of
zero does not get there.
-/

set_option autoImplicit false

namespace Flow123d

open Flow123d.Library

namespace TimeMarks

/-- The loop; there is no result while its turns do not suffice. -/
def addSpaced (limit dt : Double) (type : TimeMark.MarkType) :
    ℕ → Double → TimeMarks → Option TimeMarks
  | 0, _, _ => none
  | turns + 1, t, marks =>
      if inside : t ≤ limit then
        addSpaced limit dt type turns (t + dt)
          (marks.add ⟨t, type, (Double.ne_nan_of_le inside).1⟩)
      else some marks

def addTimeMarks (marks : TimeMarks) (time : Double) (isTime : time ≠ .nan)
    (dt endTime : Double) (type : TimeMark.MarkType) (turns : ℕ) : Option TimeMarks :=
  if endTime = .posInf then
    if time = .posInf then some marks else some (marks.add ⟨time, type, isTime⟩)
  else addSpaced (endTime * .fin (1001 / 1000)) dt type turns time marks

/-- The marks, all of one type, are those at the spaced times up to the end time. -/
structure SpacedUpTo (time : Double) (dt : ℚ) (endTime : Double) (type : TimeMark.MarkType)
    (added : List TimeMark) : Prop where
  type : ∀ mark ∈ added, mark.markType = type
  spaced : ∀ mark ∈ added, ∃ k : ℕ, mark.time = time + .fin (k * dt)
  notLater : ∀ mark ∈ added, mark.time < endTime + .fin (2 * Double.epsilon)
  complete : ∀ k : ℕ, time + .fin (k * dt) ≤ endTime →
    ∃ mark ∈ added, mark.time = time + .fin (k * dt)

/-- The marks after some have been added: those at other times are left as they are. -/
structure Merges (before added after : List TimeMark) : Prop where
  others : ∀ mark : TimeMark, (∀ new ∈ added, ¬ Near mark.time new.time) →
    (mark ∈ after ↔ mark ∈ before)
  kept : ∀ mark ∈ before, ∀ bit, mark.markType.getLsbD bit = true →
    ∃ held ∈ after, held.time = mark.time ∧ held.markType.getLsbD bit = true
  merged : ∀ mark ∈ added, ∀ bit, mark.markType.getLsbD bit = true → Holds after mark.time bit
  noneInvented : ∀ held ∈ after, ∀ bit, held.markType.getLsbD bit = true →
    (∃ mark ∈ before, mark.time = held.time ∧ mark.markType.getLsbD bit = true) ∨
      ∃ mark ∈ added, Near held.time mark.time ∧ mark.markType.getLsbD bit = true

/-- The call returns and has added the given marks. -/
structure Returns (marks : TimeMarks) (time : Double) (isTime : time ≠ .nan) (dt : ℚ)
    (endTime : Double) (type : TimeMark.MarkType) (added : List TimeMark) : Prop where
  result : ∃ needed, ∀ turns, needed < turns →
    marks.addTimeMarks time isTime (.fin dt) endTime type turns = some (marks.addAll added)
  merges : Merges marks.marks added (marks.addAll added).marks

/-- The call returns and has added the marks that it is to add. -/
def AddsMarks (marks : TimeMarks) (time : Double) (isTime : time ≠ .nan) (dt : ℚ)
    (endTime : Double) (type : TimeMark.MarkType) : Prop :=
  ∃ added, marks.Returns time isTime dt endTime type added ∧
    SpacedUpTo time dt endTime type added

/-- The loop gets behind the relaxed end time, and no spaced time lies between the two. -/
structure EndsRegularly (time : Double) (dt endTime : ℚ) : Prop where
  start : time ≠ .negInf
  step : 0 < dt ∨ Double.fin (endTime * (1001 / 1000)) < time
  reached : ∀ k : ℕ, time + .fin (k * dt) ≤ .fin endTime →
    time + .fin (k * dt) ≤ .fin (endTime * (1001 / 1000))
  notPassed : ∀ k : ℕ, time + .fin (k * dt) ≤ .fin (endTime * (1001 / 1000)) →
    time + .fin (k * dt) < .fin (endTime + 2 * Double.epsilon)

/-! ## Marks that are merged -/

section Merging

theorem Adds.kept {marks result : List TimeMark} {mark old : TimeMark}
    (adds : Adds marks mark result) (member : old ∈ marks) :
    ∃ held ∈ result, held.time = old.time ∧
      ∀ bit, old.markType.getLsbD bit = true → held.markType.getLsbD bit = true := by
  cases adds with
  | @merged front back found parts same =>
      rw [← parts, List.mem_append, List.mem_cons] at member
      obtain inFront | rfl | inBack := member
      · exact ⟨old, List.mem_append_left _ inFront, rfl, fun _ isSet => isSet⟩
      · exact ⟨old.addToType mark.markType, List.mem_append_right _ List.mem_cons_self, rfl,
          fun _ isSet => (addToType_getLsbD _ _ _).mpr (.inl isSet)⟩
      · exact ⟨old, List.mem_append_right _ (List.mem_cons_of_mem _ inBack), rfl,
          fun _ isSet => isSet⟩
  | inserted parts _ _ _ _ =>
      rw [← parts, List.mem_append] at member
      obtain inFront | inBack := member
      · exact ⟨old, List.mem_append_left _ inFront, rfl, fun _ isSet => isSet⟩
      · exact ⟨old, List.mem_append_right _ (List.mem_cons_of_mem _ inBack), rfl,
          fun _ isSet => isSet⟩

/-- A mark at another time is there before and after. -/
theorem Adds.mem_iff {marks result : List TimeMark} {mark other : TimeMark}
    (adds : Adds marks mark result) (distant : ¬ Near other.time mark.time) :
    other ∈ result ↔ other ∈ marks := by
  cases adds with
  | @merged front back found parts same =>
      have near : Near found.time mark.time := .inr (of_decide_eq_true same)
      have notFound : other ≠ found := by
        rintro rfl
        exact distant near
      have notMerged : other ≠ found.addToType mark.markType := by
        rintro rfl
        exact distant near
      rw [← parts]
      simp [notFound, notMerged]
  | inserted parts _ _ _ _ =>
      have notMark : other ≠ mark := by
        rintro rfl
        exact distant (.inl rfl)
      rw [← parts]
      simp [notMark]

theorem foldl_merges (added before : List TimeMark) :
    Merges before added (added.foldl addTo before) := by
  induction added generalizing before with
  | nil =>
      exact ⟨fun _ _ => Iff.rfl, fun mark member _ isSet => ⟨mark, member, rfl, isSet⟩, nofun,
        fun held member _ isSet => .inl ⟨held, member, rfl, isSet⟩⟩
  | cons mark rest ih =>
      have adds := addTo_adds before mark
      have later := ih (addTo before mark)
      constructor
      · intro other distant
        rw [List.foldl_cons, later.others other fun new member =>
          distant new (List.mem_cons_of_mem _ member)]
        exact adds.mem_iff (distant mark List.mem_cons_self)
      · intro old member bit isSet
        obtain ⟨held, inNext, sameTime, more⟩ := adds.kept member
        obtain ⟨last, inLast, same, isLast⟩ := later.kept held inNext bit (more bit isSet)
        exact ⟨last, inLast, same.trans sameTime, isLast⟩
      · intro new member bit isSet
        rcases List.mem_cons.mp member with rfl | inRest
        · obtain ⟨held, inNext, near, isHeld⟩ := adds.holds_mark isSet
          obtain ⟨last, inLast, same, isLast⟩ := later.kept held inNext bit isHeld
          exact ⟨last, inLast, same ▸ near, isLast⟩
        · exact later.merged new inRest bit isSet
      · intro held member bit isSet
        rcases later.noneInvented held member bit isSet with old | new
        · obtain ⟨middle, inNext, sameTime, isMiddle⟩ := old
          rcases adds.held inNext isMiddle with before | near
          · obtain ⟨first, wasThere, same, isFirst⟩ := before
            exact .inl ⟨first, wasThere, same.trans sameTime, isFirst⟩
          · exact .inr ⟨mark, List.mem_cons_self, sameTime ▸ near.1, near.2⟩
        · obtain ⟨other, inRest, near, isOther⟩ := new
          exact .inr ⟨other, List.mem_cons_of_mem _ inRest, near, isOther⟩

theorem addAll_merges (marks : TimeMarks) (added : List TimeMark) :
    Merges marks.marks added (marks.addAll added).marks := by
  rw [addAll_marks]
  exact foldl_merges added marks.marks

end Merging

/-! ## The loop -/

section Loop

/-- The first marks at spaced times. -/
def spacedMarks (t dt : ℚ) (type : TimeMark.MarkType) (n : ℕ) : List TimeMark :=
  (List.range n).map fun k : ℕ => ⟨.fin (t + k * dt), type, nofun⟩

variable {limit dt : ℚ} {type : TimeMark.MarkType}

theorem spacedMarks_succ (t : ℚ) (n : ℕ) : spacedMarks t dt type (n + 1) =
    ⟨.fin t, type, nofun⟩ :: spacedMarks (t + dt) dt type n := by
  unfold spacedMarks
  rw [List.range_succ_eq_map, List.map_cons, List.map_map]
  congr 1
  · simp
  · refine List.map_congr_left fun k _ => ?_
    simp only [Function.comp_apply, Nat.succ_eq_add_one]
    congr 2
    push_cast
    ring

/-- The loop adds the marks up to the first spaced time behind the limit. -/
theorem addSpaced_eq {n : ℕ} {t : ℚ} (inside : ∀ k < n, t + k * dt ≤ limit)
    (behind : limit < t + n * dt) (marks : TimeMarks) {turns : ℕ} (enough : n < turns) :
    addSpaced (.fin limit) (.fin dt) type turns (.fin t) marks =
      some (marks.addAll (spacedMarks t dt type n)) := by
  induction n generalizing t marks turns with
  | zero =>
      obtain ⟨turns, rfl⟩ := Nat.exists_eq_add_of_lt enough
      have stop : ¬ Double.fin t ≤ .fin limit := by
        rw [Double.fin_le_fin, not_le]
        simpa using behind
      rw [addSpaced, dif_neg stop]
      rfl
  | succ n ih =>
      obtain ⟨more, rfl⟩ : ∃ more, turns = more + 1 := ⟨turns - 1, by omega⟩
      have first : Double.fin t ≤ .fin limit := by
        rw [Double.fin_le_fin]
        simpa using inside 0 (Nat.succ_pos n)
      rw [addSpaced, dif_pos first, Double.fin_add_fin, spacedMarks_succ]
      refine ih (fun k less => ?_) ?_ _ (by omega)
      · have later := inside (k + 1) (by omega)
        push_cast at later
        linarith
      · push_cast at behind
        linarith

theorem exists_behind {t : ℚ} (step : 0 < dt ∨ limit < t) :
    ∃ n : ℕ, (∀ k < n, t + k * dt ≤ limit) ∧ limit < t + n * dt := by
  have some_ : ∃ n : ℕ, limit < t + n * dt := by
    rcases step with positive | already
    · obtain ⟨n, above⟩ := exists_nat_gt ((limit - t) / dt)
      rw [div_lt_iff₀ positive] at above
      exact ⟨n, by linarith⟩
    · exact ⟨0, by simpa using already⟩
  exact ⟨Nat.find some_, fun k less => not_lt.mp (Nat.find_min some_ less), Nat.find_spec some_⟩

theorem addSpaced_zero {limit t : Double} (inside : t ≤ limit) (same : t + .fin 0 = t)
    (turns : ℕ) (marks : TimeMarks) : addSpaced limit (.fin 0) type turns t marks = none := by
  induction turns generalizing marks with
  | zero => rfl
  | succ turns ih =>
      rw [addSpaced, dif_pos inside, same]
      exact ih _

end Loop

/-! ## What is added -/

section Added

variable (marks : TimeMarks) (type : TimeMark.MarkType)

/-- With an infinite end time only the first mark is added, and none at an infinite time. -/
theorem addTimeMarks_infinite {time : Double} (isTime : time ≠ .nan) (dt : ℚ) :
    marks.Returns time isTime dt .posInf type
      (if time = .posInf then [] else [⟨time, type, isTime⟩]) where
  result := by
    refine ⟨0, fun turns _ => ?_⟩
    unfold addTimeMarks
    rw [if_pos rfl]
    split_ifs <;> rfl
  merges := addAll_merges marks _

theorem addTimeMarks_finite {t dt endTime : ℚ} {n : ℕ}
    (inside : ∀ k < n, t + k * dt ≤ endTime * (1001 / 1000))
    (behind : endTime * (1001 / 1000) < t + n * dt) :
    marks.Returns (.fin t) nofun dt (.fin endTime) type (spacedMarks t dt type n) where
  result := by
    refine ⟨n, fun turns enough => ?_⟩
    unfold addTimeMarks
    rw [if_neg nofun, Double.fin_mul_fin]
    exact addSpaced_eq inside behind marks enough
  merges := addAll_merges marks _

theorem spacedMarks_spacedUpTo {t dt endTime : ℚ} {n : ℕ} (nonneg : 0 ≤ dt)
    (ends : EndsRegularly (.fin t) dt endTime)
    (inside : ∀ k < n, t + k * dt ≤ endTime * (1001 / 1000))
    (behind : endTime * (1001 / 1000) < t + n * dt) :
    SpacedUpTo (.fin t) dt (.fin endTime) type (spacedMarks t dt type n) := by
  constructor
  · intro mark member
    obtain ⟨k, -, rfl⟩ := List.mem_map.mp member
    rfl
  · intro mark member
    obtain ⟨k, -, rfl⟩ := List.mem_map.mp member
    exact ⟨k, rfl⟩
  · intro mark member
    obtain ⟨k, inRange, rfl⟩ := List.mem_map.mp member
    refine ends.notPassed k ?_
    rw [Double.fin_add_fin, Double.fin_le_fin]
    exact inside k (List.mem_range.mp inRange)
  · intro k notLater
    have reached := ends.reached k notLater
    rw [Double.fin_add_fin, Double.fin_le_fin] at reached
    have below : k < n := by
      by_contra above
      have later : (n : ℚ) * dt ≤ k * dt :=
        mul_le_mul_of_nonneg_right (by exact_mod_cast not_lt.mp above) nonneg
      linarith
    exact ⟨_, List.mem_map_of_mem (List.mem_range.mpr below), rfl⟩

/-- With a finite end time the spaced marks up to it are added, if the loop ends regularly. -/
theorem addTimeMarks_regular {time : Double} (isTime : time ≠ .nan) {dt endTime : ℚ}
    (nonneg : 0 ≤ dt) (ends : EndsRegularly time dt endTime) :
    marks.AddsMarks time isTime dt (.fin endTime) type := by
  cases time with
  | nan => exact absurd rfl isTime
  | negInf => exact absurd rfl ends.start
  | posInf =>
      refine ⟨[], ⟨⟨0, fun turns enough => ?_⟩, addAll_merges marks []⟩, nofun, nofun, nofun,
        nofun⟩
      obtain ⟨more, rfl⟩ := Nat.exists_eq_add_of_lt enough
      rfl
  | fin t =>
      obtain ⟨n, inside, behind⟩ := exists_behind
        (ends.step.imp_right (Double.fin_lt_fin _ _).mp)
      exact ⟨_, addTimeMarks_finite marks type inside behind,
        spacedMarks_spacedUpTo type nonneg ends inside behind⟩

end Added

section Irregular

variable {marks : TimeMarks} {time : Double} {isTime : time ≠ .nan} {dt : ℚ} {endTime : Double}
  {type : TimeMark.MarkType} {added others : List TimeMark}

theorem Returns.unique (returns : marks.Returns time isTime dt endTime type added)
    (again : marks.Returns time isTime dt endTime type others) :
    marks.addAll added = marks.addAll others := by
  obtain ⟨needed, first⟩ := returns.result
  obtain ⟨enough, second⟩ := again.result
  have same := first (max needed enough + 1) (by omega)
  rw [second (max needed enough + 1) (by omega)] at same
  exact (Option.some.inj same).symm

/-- The type of a mark at a spaced time up to the end time is held there. -/
theorem AddsMarks.holds (adds : marks.AddsMarks time isTime dt endTime type)
    (returns : marks.Returns time isTime dt endTime type others) (k : ℕ)
    (notLater : time + .fin (k * dt) ≤ endTime) {bit : ℕ} (isSet : type.getLsbD bit = true) :
    Holds (marks.addAll others).marks (time + .fin (k * dt)) bit := by
  obtain ⟨added, own, upTo⟩ := adds
  obtain ⟨mark, member, atTime⟩ := upTo.complete k notLater
  have held := own.merges.merged mark member bit (by rw [upTo.type mark member]; exact isSet)
  rwa [own.unique returns, atTime] at held

end Irregular

theorem not_addsMarks_infinite : ¬ create.AddsMarks (.fin 0) nofun 1 .posInf 1 := by
  intro adds
  have holds : Holds _ _ 0 := adds.holds (addTimeMarks_infinite create 1 _ 1) 1 rfl rfl
  revert holds
  unfold Holds Near
  decide +kernel

/-- A step of zero does not get to the end time. -/
theorem not_addsMarks_zero : ¬ create.AddsMarks (.fin 0) nofun 0 (.fin 1) 1 := by
  rintro ⟨added, returns, -⟩
  obtain ⟨needed, result⟩ := returns.result
  have some_ := result (needed + 1) (Nat.lt_succ_self needed)
  unfold addTimeMarks at some_
  rw [if_neg nofun, addSpaced_zero (by decide +kernel) (Double.add_zero _)] at some_
  cases some_

/-- The relaxed end time is 1001. -/
theorem not_addsMarks_passed : ¬ create.AddsMarks (.fin 0) nofun 1001 (.fin 1000) 1 := by
  rintro ⟨added, returns, upTo⟩
  have two : create.Returns (.fin 0) nofun 1001 (.fin 1000) 1 (spacedMarks 0 1001 1 2) :=
    addTimeMarks_finite create 1 (by decide +kernel) (by norm_num)
  have held : ∃ held ∈ (create.addAll added).marks, held.time = .fin 1001 ∧
      held.markType.getLsbD 0 = true := by
    rw [returns.unique two]
    decide +kernel
  obtain ⟨held, member, atTime, isSet⟩ := held
  rcases returns.merges.noneInvented held member 0 isSet with old | new
  · obtain ⟨mark, before, sameTime, -⟩ := old
    have stopper : mark = TimeMark.startStopper ∨ mark = TimeMark.endStopper := by
      simpa [create] using before
    rw [atTime] at sameTime
    rcases stopper with rfl | rfl <;> cases sameTime
  · obtain ⟨mark, isNew, near, -⟩ := new
    obtain ⟨k, spaced⟩ := upTo.spaced mark isNew
    have early := upTo.notLater mark isNew
    rw [spaced, Double.fin_add_fin] at near
    rw [spaced, Double.fin_add_fin, Double.fin_add_fin, Double.fin_lt_fin] at early
    have small : 2 * Double.epsilon < 1 := by
      unfold Double.epsilon
      norm_num
    have first : k = 0 := by
      have below : (k : ℚ) < 1 := by linarith
      have less : k < 1 := by exact_mod_cast below
      omega
    rw [atTime, first] at near
    revert near
    unfold Near
    decide +kernel

/-- The relaxed end time is -1001. -/
theorem not_addsMarks_negative :
    ¬ create.AddsMarks (.fin (-1000)) nofun 1000 (.fin (-1000)) 1 := by
  intro adds
  have none_ : create.Returns (.fin (-1000)) nofun 1000 (.fin (-1000)) 1
      (spacedMarks (-1000) 1000 1 0) := addTimeMarks_finite create 1 (by simp) (by norm_num)
  have holds : Holds _ _ 0 := adds.holds none_ 0 (by decide +kernel) rfl
  revert holds
  unfold Holds Near
  decide +kernel

end TimeMarks

end Flow123d
