import Flow123d.System.ProfilerTree

/-!
# Starting a timer

The search for a child and the insertion of a new one, as long as the probing does not run
behind the table.
-/

set_option autoImplicit false

namespace Flow123d

open Flow123d.Library

namespace TimerTree

/-! ## A new child -/

/-- The timers after a new child of `parent` was put into its table. -/
def withChild (timers : List Timer) (parent : ℕ) (timer : Timer) (tag : Tag)
    (place : Fin CodePoint.maxNTimerChilds) : List Timer :=
  (timers ++ [Timer.create tag parent]).set parent
    { timer with childTimers := Function.update timer.childTimers place timers.length }

variable {timers : List Timer} {parent : ℕ} {timer : Timer} {tag : Tag}
  {place : Fin CodePoint.maxNTimerChilds}

theorem withChild_new (known : timers[parent]? = some timer) :
    (withChild timers parent timer tag place)[timers.length]? =
      some (Timer.create tag parent) := by
  have inside := (List.getElem?_eq_some_iff.mp known).1
  rw [withChild, List.getElem?_set_ne inside.ne, List.getElem?_append_right le_rfl, Nat.sub_self]
  rfl

theorem withChild_parent (known : timers[parent]? = some timer) :
    (withChild timers parent timer tag place)[parent]? = some
      { timer with childTimers := Function.update timer.childTimers place timers.length } := by
  have inside := (List.getElem?_eq_some_iff.mp known).1
  rw [withChild, List.getElem?_set_self]
  rw [List.length_append]
  omega

theorem withChild_other {idx : ℕ} (inside : idx < timers.length) (apart : idx ≠ parent) :
    (withChild timers parent timer tag place)[idx]? = timers[idx]? := by
  rw [withChild, List.getElem?_set_ne apart.symm, List.getElem?_append_left inside]

variable (tag place) in
/-- Only the table of the parent changes. -/
theorem withChild_kept (known : timers[parent]? = some timer) {idx : ℕ} {old : Timer}
    (isOld : timers[idx]? = some old) : ∃ table,
      (withChild timers parent timer tag place)[idx]? = some { old with childTimers := table } := by
  by_cases here : idx = parent
  · subst here
    rw [known, Option.some.injEq] at isOld
    subst isOld
    exact ⟨_, withChild_parent known⟩
  · refine ⟨old.childTimers, ?_⟩
    rw [withChild_other (List.getElem?_eq_some_iff.mp isOld).1 here]
    exact isOld

theorem withChild_cases (known : timers[parent]? = some timer) {idx : ℕ} {new : Timer}
    (isNew : (withChild timers parent timer tag place)[idx]? = some new) :
    idx = timers.length ∧ new = Timer.create tag parent ∨
      ∃ old table, timers[idx]? = some old ∧ new = { old with childTimers := table } ∧
        (table = old.childTimers ∨ idx = parent ∧ old = timer ∧
          table = Function.update timer.childTimers place timers.length) := by
  rcases lt_trichotomy idx timers.length with inside | here | behind
  · right
    by_cases atParent : idx = parent
    · subst atParent
      rw [withChild_parent known, Option.some.injEq] at isNew
      exact ⟨timer, _, known, isNew.symm, Or.inr ⟨rfl, rfl, rfl⟩⟩
    · rw [withChild_other inside atParent] at isNew
      exact ⟨new, new.childTimers, isNew, rfl, Or.inl rfl⟩
  · subst here
    rw [withChild_new known, Option.some.injEq] at isNew
    exact Or.inl ⟨rfl, isNew.symm⟩
  · have inside := (List.getElem?_eq_some_iff.mp isNew).1
    simp only [withChild, List.length_set, List.length_append, List.length_singleton] at inside
    omega

theorem slot_create (other : Fin CodePoint.maxNTimerChilds) :
    (Timer.create tag parent).slot other = none :=
  Timer.slot_eq_none_iff.mpr (show (-1 : ℤ) < 0 by decide)

theorem slot_update (child : ℕ) :
    { timer with childTimers := Function.update timer.childTimers place child }.slot =
      Function.update timer.slot place (some child) := by
  funext other
  by_cases here : other = place
  · subst here
    rw [Function.update_self]
    exact Timer.slot_eq_some_iff.mpr (Function.update_self ..)
  · rw [Function.update_of_ne here]
    unfold Timer.slot
    simp only [Function.update_of_ne here]

theorem homeOf_withChild_new (known : timers[parent]? = some timer) :
    homeOf (withChild timers parent timer tag place) timers.length = CodePoint.hashIdx tag := by
  rw [homeOf, withChild_new known]
  rfl

theorem homeOf_withChild_old (known : timers[parent]? = some timer) {child : ℕ} {old : Timer}
    (isOld : timers[child]? = some old) :
    homeOf (withChild timers parent timer tag place) child = homeOf timers child := by
  obtain ⟨table, kept⟩ := withChild_kept tag place known isOld
  rw [homeOf, homeOf, kept, isOld]
  rfl

/-- A new child goes to the first free place of the table of its parent. -/
theorem extend (tree : TimerTree timers) (known : timers[parent]? = some timer)
    (first : FirstFrom (timer.slot · = none) (CodePoint.hashIdx tag) place)
    (fresh : ∀ other child below, timer.slot other = some child → timers[child]? = some below →
      below.fullHash ≠ strHash tag) : TimerTree (withChild timers parent timer tag place) := by
  have inside := (List.getElem?_eq_some_iff.mp known).1
  have oldHomes : ∀ (other : Timer) (idx : ℕ), timers[idx]? = some other →
      Probed (homeOf (withChild timers parent timer tag place)) other.slot := by
    intro other idx isOther
    refine (tree.probed idx other isOther).congr fun slot child stored => ?_
    obtain ⟨-, below, isBelow, -⟩ := tree.children idx other isOther slot child stored
    exact homeOf_withChild_old known isBelow
  refine
    { root := by simp [withChild]
      hashed := ?_
      parents := ?_
      children := ?_
      probed := ?_
      registered := ?_
      siblings := ?_ }
  · intro new member
    obtain ⟨idx, isNew⟩ := List.mem_iff_getElem?.mp member
    rcases withChild_cases known isNew with ⟨-, rfl⟩ | ⟨old, table, isOld, rfl, -⟩
    · exact ⟨rfl, rfl⟩
    · exact tree.hashed old (List.mem_of_getElem? isOld)
  · intro child new isNew notRoot
    rcases withChild_cases known isNew with ⟨rfl, rfl⟩ | ⟨old, table, isOld, rfl, -⟩
    · exact inside
    · exact tree.parents child old isOld notRoot
  · intro idx new isNew slot child stored
    have ofOld : ∀ old, timers[idx]? = some old → old.slot slot = some child → child ≠ 0 ∧
        ∃ below, (withChild timers parent timer tag place)[child]? = some below ∧
          below.parentTimer = idx := by
      intro old isOld inOld
      obtain ⟨notRoot, below, isBelow, above⟩ := tree.children idx old isOld slot child inOld
      obtain ⟨table, kept⟩ := withChild_kept tag place known isBelow
      exact ⟨notRoot, _, kept, above⟩
    rcases withChild_cases known isNew with
      ⟨rfl, rfl⟩ | ⟨old, table, isOld, rfl, rfl | ⟨rfl, rfl, rfl⟩⟩
    · rw [slot_create] at stored
      cases stored
    · exact ofOld old isOld stored
    · rw [slot_update, Function.update_apply] at stored
      split_ifs at stored
      · cases stored
        exact ⟨(Nat.zero_le _).trans_lt inside |>.ne', _, withChild_new known, rfl⟩
      · exact ofOld old known stored
  · intro idx new isNew
    rcases withChild_cases known isNew with
      ⟨rfl, rfl⟩ | ⟨old, table, isOld, rfl, rfl | ⟨rfl, rfl, rfl⟩⟩
    · intro slot child stored
      rw [slot_create] at stored
      cases stored
    · exact oldHomes old idx isOld
    · rw [slot_update]
      refine (oldHomes old idx known).insert ?_
      rw [homeOf_withChild_new known]
      exact first
  · intro child new isNew notRoot
    rcases withChild_cases known isNew with ⟨rfl, rfl⟩ | ⟨old, table, isOld, rfl, -⟩
    · refine ⟨_, place, withChild_parent known, ?_⟩
      rw [slot_update, Function.update_self]
    · obtain ⟨above, slot, isAbove, stored⟩ := tree.registered child old isOld notRoot
      by_cases here : old.parentTimer = parent
      · rw [here, known, Option.some.injEq] at isAbove
        subst isAbove
        have taken : slot ≠ place := by
          intro same
          rw [same, first.holds] at stored
          cases stored
        refine ⟨_, slot, by rw [here]; exact withChild_parent known, ?_⟩
        rw [slot_update, Function.update_of_ne taken]
        exact stored
      · refine ⟨above, slot, ?_, stored⟩
        rw [← isAbove]
        exact withChild_other (List.getElem?_eq_some_iff.mp isAbove).1 here
  · -- a child with the hash of the new one would have been found
    have differs : ∀ idx old, timers[idx]? = some old → idx ≠ 0 → old.parentTimer = parent →
        old.fullHash ≠ strHash tag := by
      intro idx old isOld notRoot below
      obtain ⟨above, slot, isAbove, stored⟩ := tree.registered idx old isOld notRoot
      rw [below, known, Option.some.injEq] at isAbove
      subst isAbove
      exact fresh slot idx old stored isOld
    intro one two first second isFirst isSecond oneNotRoot twoNotRoot sameParent sameHash
    rcases withChild_cases known isFirst with ⟨rfl, rfl⟩ | ⟨old, table, isOld, rfl, -⟩ <;>
      rcases withChild_cases known isSecond with ⟨rfl, rfl⟩ | ⟨other, table', isOther, rfl, -⟩
    · rfl
    · exact absurd sameHash.symm (differs two other isOther twoNotRoot sameParent.symm)
    · exact absurd sameHash (differs one old isOld oneNotRoot sameParent)
    · exact tree.siblings one two old other isOld isOther oneNotRoot twoNotRoot sameParent sameHash

end TimerTree

namespace Timer

/-! ## The table of children -/

variable {timer : Timer} {child : ℕ}

theorem childAt_fin (timer : Timer) (place : Fin CodePoint.maxNTimerChilds) :
    timer.childAt place = .ok (timer.childTimers place) := dif_pos place.isLt

theorem setChild_fin (timer : Timer) (place : Fin CodePoint.maxNTimerChilds) (child : ℤ) :
    timer.setChild place child =
      .ok { timer with childTimers := Function.update timer.childTimers place child } :=
  dif_pos place.isLt

/-- No slot holds the root. -/
def NoRoot (timer : Timer) : Prop :=
  ∀ place child, timer.slot place = some child → child ≠ 0

theorem NoRoot.taken_iff (noRoot : timer.NoRoot) (place : Fin CodePoint.maxNTimerChilds) :
    timer.childTimers place > 0 ↔ timer.slot place ≠ none := by
  rw [ne_eq, slot_eq_none_iff, not_lt]
  constructor
  · exact le_of_lt
  · intro nonneg
    have stored : timer.slot place = some (timer.childTimers place).toNat :=
      slot_eq_some_iff.mpr (Int.toNat_of_nonneg nonneg).symm
    have notZero := noRoot place _ stored
    omega

theorem freeFrom_first (noRoot : timer.NoRoot) {home free place : Fin CodePoint.maxNTimerChilds}
    (first : FirstFrom (timer.slot · = none) home free) (fromHome : home ≤ place)
    (before : place < free) {fuel : ℕ} (enough : free.val - place.val ≤ fuel) :
    timer.freeFrom home fuel place = .ok free.val := by
  induction fuel generalizing place with
  | zero => exact absurd enough (by have := Fin.lt_def.mp before; omega)
  | succ fuel ih =>
      have within : place.val + 1 < CodePoint.maxNTimerChilds :=
        lt_of_le_of_lt (Nat.succ_le_of_lt before) free.isLt
      let next : Fin CodePoint.maxNTimerChilds := ⟨place.val + 1, within⟩
      have notHome : next.val ≠ home.val := by
        have := Fin.le_def.mp fromHome
        change place.val + 1 ≠ home.val
        omega
      have step : timer.freeFrom home (fuel + 1) place =
          if timer.childTimers next > 0 then timer.freeFrom home fuel next
          else .ok next.val := by
        rw [freeFrom]
        have wrapped : (if place.val < maxNChilds then place.val + 1 else 0) = next.val :=
          if_pos place.isLt
        simp only [wrapped, childAt_fin, if_neg notHome]
        rfl
      rw [step]
      rcases (Fin.le_def.mpr (Nat.succ_le_of_lt before) : next ≤ free).lt_or_eq with
        further | reached
      · have taken := first.before next (fromHome.trans (Fin.le_def.mpr (Nat.le_succ _))) further
        rw [if_pos ((noRoot.taken_iff next).mpr taken)]
        exact ih (fromHome.trans (Fin.le_def.mpr (Nat.le_succ _))) further
          (by change free.val - (place.val + 1) ≤ fuel; omega)
      · have isFree : ¬ timer.childTimers next > 0 := by
          rw [noRoot.taken_iff, reached]
          exact not_not.mpr first.holds
        rw [if_neg isFree, reached]

/-- `add_child` puts the child to the first free place. -/
theorem addChild_first (noRoot : timer.NoRoot) {new : Timer}
    {free : Fin CodePoint.maxNTimerChilds}
    (first : FirstFrom (timer.slot · = none) new.hashIdx free) {fuel : ℕ}
    (enough : maxNChilds ≤ fuel) :
    timer.addChild fuel child new =
      .ok { timer with childTimers := Function.update timer.childTimers free child } := by
  have bound : free.val - new.hashIdx.val ≤ fuel := by
    have := free.isLt
    unfold maxNChilds at enough
    omega
  rw [addChild, childAt_fin]
  change (if timer.childTimers new.hashIdx > 0 then _ else _) = _
  split_ifs with taken
  · have before : new.hashIdx < free := by
      refine first.le.lt_of_ne fun same => ?_
      rw [noRoot.taken_iff, same] at taken
      exact taken first.holds
    rw [freeFrom_first noRoot first le_rfl before bound]
    exact setChild_fin timer free child
  · have same : new.hashIdx = free := by
      by_contra apart
      refine first.before new.hashIdx le_rfl (first.le.lt_of_ne apart) ?_
      rwa [noRoot.taken_iff, not_not] at taken
    rw [setChild_fin, same]

end Timer

namespace Profiler

variable {profiler : Profiler}

/-- A place where the search for a tag ends. -/
def Ends (profiler : Profiler) (tag : Tag) (timer : Timer)
    (place : Fin CodePoint.maxNTimerChilds) : Prop :=
  timer.slot place = none ∨ ∃ child, timer.slot place = some child ∧
    ∃ below, profiler.timers[child]? = some below ∧ below.fullHash = strHash tag

/-- From the hash index on, the table of the actual timer has a place that is free or holds the
tag. -/
def HasRoom (profiler : Profiler) (tag : Tag) : Prop :=
  ∃ timer, profiler.timers[profiler.actualNode]? = some timer ∧
    ∃ place, CodePoint.hashIdx tag ≤ place ∧ profiler.Ends tag timer place

/-! ## The search -/

namespace WellFormed

variable (wellFormed : profiler.WellFormed)

include wellFormed

theorem noRoot {idx : ℕ} {timer : Timer} (known : profiler.timers[idx]? = some timer) :
    timer.NoRoot := fun place child stored =>
  (wellFormed.isTree.children idx timer.node (tree_of_known known) place child stored).1

omit wellFormed in
theorem findChildFrom_stored {tag : Tag} {timer below : Timer} {child : ℕ}
    {place : Fin CodePoint.maxNTimerChilds} (stored : timer.slot place = some child)
    (isBelow : profiler.timers[child]? = some below) (fuel : ℕ) :
    profiler.findChildFrom tag timer (fuel + 1) place =
      if below.fullHash = strHash tag then .ok child
      else if place.val + 1 = CodePoint.hashIdx tag then .ok (-1)
      else profiler.findChildFrom tag timer fuel (place + 1) := by
  have index : timer.childTimers place = child := Timer.slot_eq_some_iff.mp stored
  have notWrapped : (if place.val = Timer.maxNChilds then 0 else place.val + 1) = place.val + 1 :=
    if_neg place.isLt.ne
  have notNegative : ¬ (child : ℤ) < 0 := by omega
  simp only [findChildFrom, Timer.childAt_fin, index, bind, Except.bind, if_neg notNegative,
    Int.toNat_natCast, timer_of_known isBelow, notWrapped]
  rfl

/-- The search goes on at a place that is taken by another tag. -/
theorem findChildFrom_next {tag : Tag} {idx : ℕ} {timer : Timer}
    (known : profiler.timers[idx]? = some timer) {place : Fin CodePoint.maxNTimerChilds}
    (fromHome : CodePoint.hashIdx tag ≤ place) (goesOn : ¬ profiler.Ends tag timer place)
    (fuel : ℕ) : profiler.findChildFrom tag timer (fuel + 1) place =
      profiler.findChildFrom tag timer fuel (place + 1) := by
  obtain ⟨taken, differs⟩ := not_or.mp goesOn
  obtain ⟨child, stored⟩ := Option.ne_none_iff_exists'.mp taken
  obtain ⟨-, node, isNode, -⟩ :=
    wellFormed.isTree.children idx timer.node (tree_of_known known) place child stored
  obtain ⟨below, isBelow, -⟩ := known_of_tree isNode
  have otherHash : below.fullHash ≠ strHash tag := fun same =>
    differs ⟨child, stored, below, isBelow, same⟩
  have notHome : place.val + 1 ≠ (CodePoint.hashIdx tag).val := by
    have := Fin.le_def.mp fromHome
    omega
  rw [findChildFrom_stored stored isBelow, if_neg otherHash, if_neg notHome]

/-- The search ends at the first place that is free or holds the tag. -/
theorem findChildFrom_first {tag : Tag} {idx : ℕ} {timer : Timer}
    (known : profiler.timers[idx]? = some timer) {place first : Fin CodePoint.maxNTimerChilds}
    (fromHome : CodePoint.hashIdx tag ≤ place)
    (isFirst : FirstFrom (profiler.Ends tag timer) place first) {fuel : ℕ}
    (enough : first.val - place.val < fuel) :
    profiler.findChildFrom tag timer fuel place =
      .ok ((timer.slot first).elim (-1) Int.ofNat) := by
  induction fuel generalizing place with
  | zero => exact absurd enough (Nat.not_lt_zero _)
  | succ fuel ih =>
      rcases isFirst.le.lt_or_eq with before | here
      · have within : place.val + 1 < CodePoint.maxNTimerChilds :=
          lt_of_le_of_lt (Nat.succ_le_of_lt before) first.isLt
        let next : Fin CodePoint.maxNTimerChilds := ⟨place.val + 1, within⟩
        have further : place ≤ next := Fin.le_def.mpr (Nat.le_succ _)
        rw [wellFormed.findChildFrom_next known fromHome (isFirst.before place le_rfl before)]
        refine @ih next (fromHome.trans further) ⟨Nat.succ_le_of_lt before,
          isFirst.holds, fun between after => isFirst.before between (further.trans after)⟩ ?_
        change first.val - (place.val + 1) < fuel
        omega
      · subst here
        rcases isFirst.holds with free | ⟨child, stored, below, isBelow, sameHash⟩
        · have negative : timer.childTimers place < 0 := Timer.slot_eq_none_iff.mp free
          simp only [findChildFrom, Timer.childAt_fin, bind, Except.bind, if_pos negative, free]
          rfl
        · rw [findChildFrom_stored stored isBelow, if_pos sameHash, stored]
          rfl

/-- Without such a place the search reads behind the table. -/
theorem findChildFrom_outside {tag : Tag} {idx : ℕ} {timer : Timer}
    (known : profiler.timers[idx]? = some timer) {place : Fin CodePoint.maxNTimerChilds}
    (fromHome : CodePoint.hashIdx tag ≤ place)
    (never : ∀ other, place ≤ other → ¬ profiler.Ends tag timer other) {fuel : ℕ}
    (enough : CodePoint.maxNTimerChilds - place.val < fuel) :
    profiler.findChildFrom tag timer fuel place = .error (.childTimers Timer.maxNChilds) := by
  induction fuel generalizing place with
  | zero => exact absurd enough (Nat.not_lt_zero _)
  | succ fuel ih =>
      rw [wellFormed.findChildFrom_next known fromHome (never place le_rfl)]
      by_cases within : place.val + 1 < CodePoint.maxNTimerChilds
      · let next : Fin CodePoint.maxNTimerChilds := ⟨place.val + 1, within⟩
        have further : place ≤ next := Fin.le_def.mpr (Nat.le_succ _)
        refine @ih next (fromHome.trans further)
          (fun other after => never other (further.trans after)) ?_
        change CodePoint.maxNTimerChilds - (place.val + 1) < fuel
        omega
      · have last : place.val + 1 = Timer.maxNChilds := by
          have := place.isLt
          unfold Timer.maxNChilds
          omega
        obtain ⟨more, rfl⟩ : ∃ more, fuel = more + 1 := ⟨fuel - 1, by
          have := place.isLt
          omega⟩
        rw [last, findChildFrom, Timer.childAt, dif_neg (lt_irrefl _)]
        rfl

end WellFormed

end Profiler

end Flow123d
