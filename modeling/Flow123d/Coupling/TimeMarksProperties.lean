import Flow123d.Coupling.TimeMarks

/-!
# What the time marks hold

Marks at nearly the same time are merged. An infinite time is not within the tolerance of
itself, so a mark at such a time is put beside the stopper.
-/

set_option autoImplicit false

namespace Flow123d

open Flow123d.Library

namespace TimeMarks

/-- The same time, or closer than the tolerance. -/
def Near (time other : Double) : Prop :=
  time = other ∨ (time - other).abs < Double.fin (2 * Double.epsilon)

/-- Not closer than the tolerance, and later. -/
def Apart (time later : Double) : Prop := Double.fin (2 * Double.epsilon) ≤ later - time

instance (time later : Double) : Decidable (Apart time later) :=
  inferInstanceAs (Decidable (Double.fin (2 * Double.epsilon) ≤ later - time))

/-- The marks that have been added, with the stoppers of the constructor. -/
def withStoppers (added : List TimeMark) : List TimeMark :=
  TimeMark.startStopper :: TimeMark.endStopper :: added

structure Represents (added marks : List TimeMark) : Prop where
  sorted : marks.Pairwise fun mark other => mark.time ≤ other.time
  separated : marks.IsChain fun mark other => Apart mark.time other.time
  startStopper : marks.filter (fun mark => mark.time = .negInf) = [TimeMark.startStopper]
  endStopper : marks.filter (fun mark => mark.time = .posInf) = [TimeMark.endStopper]
  noneLost : ∀ mark ∈ withStoppers added, ∀ bit, mark.markType.getLsbD bit = true →
    ∃ held ∈ marks, Near held.time mark.time ∧ held.markType.getLsbD bit = true
  noneInvented : ∀ held ∈ marks, ∀ bit, held.markType.getLsbD bit = true →
    ∃ mark ∈ withStoppers added, Near held.time mark.time ∧ mark.markType.getLsbD bit = true

def addAll (marks : TimeMarks) (added : List TimeMark) : TimeMarks := added.foldl add marks

/-! ## One mark -/

/-- The mark is merged into one of nearly the same time, or put in its place. -/
inductive Adds (marks : List TimeMark) (mark : TimeMark) : List TimeMark → Prop where
  | merged {front back : List TimeMark} {held : TimeMark}
      (parts : front ++ held :: back = marks) (same : sameTime held mark = true) :
      Adds marks mark (front ++ held.addToType mark.markType :: back)
  | inserted {front back : List TimeMark} (parts : front ++ back = marks)
      (before : ∀ other ∈ front, other.time < mark.time)
      (behind : ∀ other ∈ back.head?, mark.time ≤ other.time)
      (previous : ∀ other ∈ front.getLast?, sameTime other mark = false)
      (next : ∀ other ∈ back.head?, sameTime other mark = false) :
      Adds marks mark (front ++ mark :: back)

theorem addBehind_adds {marks front back : List TimeMark} {mark : TimeMark}
    (parts : front ++ back = marks) (before : ∀ other ∈ front, other.time < mark.time)
    (behind : ∀ other ∈ back.head?, mark.time ≤ other.time)
    (next : ∀ other ∈ back.head?, sameTime other mark = false) :
    Adds marks mark (addBehind front back mark) := by
  unfold addBehind
  cases last : front.getLast? with
  | none =>
      refine .inserted parts before behind ?_ next
      intro other isLast
      cases last.symm.trans isLast
  | some previous =>
      dsimp only
      cases same : sameTime previous mark with
      | true =>
          refine .merged ?_ same
          have whole := List.dropLast_append_getLast? previous last
          calc front.dropLast ++ previous :: back
              = (front.dropLast ++ [previous]) ++ back := by simp
            _ = marks := by rw [whole, parts]
      | false =>
          refine .inserted parts before behind ?_ next
          intro other isLast
          cases last.symm.trans isLast
          exact same

theorem addTo_adds (marks : List TimeMark) (mark : TimeMark) :
    Adds marks mark (addTo marks mark) := by
  have parts := beforeMark_append_fromMark marks mark
  unfold addTo
  cases split : fromMark marks mark with
  | nil =>
      rw [split] at parts
      exact addBehind_adds parts (fun _ => beforeMark_less) nofun nofun
  | cons firstGe rest =>
      rw [split] at parts
      dsimp only
      cases same : sameTime firstGe mark with
      | true => exact .merged parts same
      | false =>
          refine addBehind_adds parts (fun _ => beforeMark_less) ?_ ?_
          · intro other isFirst
            cases isFirst
            exact fromMark_head split
          · intro other isFirst
            cases isFirst
            exact same

/-! ## Infinite times -/

theorem sameTime_fin {mark other : TimeMark} (same : sameTime mark other = true) :
    ∃ t s : ℚ, mark.time = .fin t ∧ other.time = .fin s ∧ |t - s| < 2 * Double.epsilon := by
  unfold sameTime at same
  cases first : mark.time with
  | fin t =>
      cases second : other.time with
      | fin s =>
          rw [first, second, Double.fin_sub_fin, Double.abs_fin] at same
          exact ⟨t, s, rfl, rfl, (Double.fin_lt_fin _ _).mp (of_decide_eq_true same)⟩
      | _ =>
          rw [first, second] at same
          cases same
  | _ =>
      cases second : other.time with
      | _ =>
          rw [first, second] at same
          cases same

/-- A mark at an infinite time is never merged. -/
theorem Adds.countP {marks result : List TimeMark} {mark : TimeMark}
    (adds : Adds marks mark result) {time : Double} (infinite : ∀ t : ℚ, time ≠ .fin t) :
    result.countP (fun mark => mark.time = time) =
      marks.countP (fun mark => mark.time = time) + if mark.time = time then 1 else 0 := by
  cases adds with
  | merged parts same =>
      obtain ⟨t, s, isHeld, isMark, _⟩ := sameTime_fin same
      have notMark : mark.time ≠ time := fun equal => infinite s (equal.symm.trans isMark)
      rw [← parts, if_neg notMark, Nat.add_zero, List.countP_append, List.countP_append,
        List.countP_cons, List.countP_cons, TimeMark.addToType_time]
  | inserted parts _ _ _ _ =>
      rw [← parts, List.countP_append, List.countP_append, List.countP_cons, Nat.add_assoc]
      simp

theorem addAll_marks (marks : TimeMarks) (added : List TimeMark) :
    (marks.addAll added).marks = added.foldl addTo marks.marks := by
  induction added generalizing marks with
  | nil => rfl
  | cons mark rest ih => exact ih (marks.add mark)

theorem foldl_countP {time : Double} (infinite : ∀ t : ℚ, time ≠ .fin t)
    (added marks : List TimeMark) :
    (added.foldl addTo marks).countP (fun mark => mark.time = time) =
      marks.countP (fun mark => mark.time = time) +
        added.countP fun mark => mark.time = time := by
  induction added generalizing marks with
  | nil => rfl
  | cons mark rest ih =>
      rw [List.foldl_cons, ih, (addTo_adds marks mark).countP infinite, List.countP_cons]
      simp only [decide_eq_true_eq]
      omega

/-! ## Times that are apart -/

theorem Apart.le {time later : Double} (apart : Apart time later) : time ≤ later := by
  cases time <;> cases later <;>
    first
    | rfl
    | cases apart
    | skip
  case fin.fin t s =>
    have positive : (0 : ℚ) < 2 * Double.epsilon := by
      unfold Double.epsilon
      norm_num
    unfold Apart at apart
    rw [Double.fin_sub_fin, Double.fin_le_fin] at apart
    exact (Double.fin_le_fin _ _).mpr (by linarith)

theorem Apart.trans_le {time later last : Double} (apart : Apart time later)
    (ordered : later ≤ last) : Apart time last := by
  cases time <;> cases later <;> cases last <;>
    first
    | exact apart
    | rfl
    | cases apart; done
    | cases ordered
    | skip
  case fin.fin.fin t s r =>
    unfold Apart at apart ⊢
    rw [Double.fin_sub_fin, Double.fin_le_fin] at apart ⊢
    have after := (Double.fin_le_fin _ _).mp ordered
    linarith

theorem Apart.le_trans {first time later : Double} (ordered : first ≤ time)
    (apart : Apart time later) : Apart first later := by
  cases first <;> cases time <;> cases later <;>
    first
    | exact apart
    | rfl
    | cases apart; done
    | cases ordered
    | skip
  case fin.fin.fin t s r =>
    unfold Apart at apart ⊢
    rw [Double.fin_sub_fin, Double.fin_le_fin] at apart ⊢
    have before := (Double.fin_le_fin _ _).mp ordered
    linarith

theorem Apart.of_abs {time later : Double} (isTime : time ≠ .nan ∧ later ≠ .nan)
    (ordered : time ≤ later) (finite : (∃ t : ℚ, time = .fin t) ∨ ∃ t : ℚ, later = .fin t)
    (distant : ¬ (time - later).abs < Double.fin (2 * Double.epsilon)) : Apart time later := by
  cases time <;> cases later <;>
    first
    | rfl
    | cases ordered
    | exact absurd rfl isTime.1
    | exact absurd rfl isTime.2
    | skip
  case negInf.negInf | posInf.posInf =>
    obtain ⟨t, impossible⟩ | ⟨t, impossible⟩ := finite <;> cases impossible
  case fin.fin t s =>
    unfold Apart
    have before := (Double.fin_le_fin _ _).mp ordered
    rw [Double.fin_sub_fin, Double.abs_fin, Double.fin_lt_fin, abs_sub_comm,
      abs_of_nonneg (by linarith), not_lt] at distant
    rw [Double.fin_sub_fin, Double.fin_le_fin]
    exact distant

theorem apart_of_not_sameTime {mark other : TimeMark} (ordered : mark.time ≤ other.time)
    (finite : (∃ t : ℚ, mark.time = .fin t) ∨ ∃ t : ℚ, other.time = .fin t)
    (differ : sameTime mark other = false) : Apart mark.time other.time :=
  .of_abs ⟨mark.isTime, other.isTime⟩ ordered finite (of_decide_eq_false differ)

theorem sameTime_comm (mark other : TimeMark) : sameTime mark other = sameTime other mark := by
  unfold sameTime
  have symmetric : (mark.time - other.time).abs = (other.time - mark.time).abs := by
    cases mark.time <;> cases other.time <;>
      first
      | rfl
      | skip
    case fin.fin t s =>
      rw [Double.fin_sub_fin, Double.fin_sub_fin, Double.abs_fin, Double.abs_fin, abs_sub_comm]
  rw [symmetric]

/-! ## A mark at a finite time -/

theorem Adds.apart {marks result : List TimeMark} {mark : TimeMark}
    (adds : Adds marks mark result) (finite : ∃ t : ℚ, mark.time = .fin t)
    (apart : marks.Pairwise fun mark other => Apart mark.time other.time) :
    result.Pairwise fun mark other => Apart mark.time other.time := by
  cases adds with
  | merged parts same =>
      subst parts
      rw [← List.pairwise_map (f := TimeMark.time) (R := Apart)] at apart ⊢
      simpa using apart
  | @inserted front back parts before behind previous next =>
      subst parts
      rw [List.pairwise_append] at apart
      obtain ⟨inFront, inBack, across⟩ := apart
      have fromMark : ∀ other ∈ back, Apart mark.time other.time := by
        cases back with
        | nil => nofun
        | cons first rest =>
            have toFirst : Apart mark.time first.time :=
              apart_of_not_sameTime (behind first rfl) (.inl finite)
                ((sameTime_comm _ _).trans (next first rfl))
            intro other member
            cases member with
            | head => exact toFirst
            | tail _ later =>
                exact toFirst.trans_le ((List.pairwise_cons.mp inBack).1 other later).le
      have toMark : ∀ other ∈ front, Apart other.time mark.time := by
        cases last : front.getLast? with
        | none =>
            rw [List.getLast?_eq_none_iff.mp last]
            nofun
        | some final =>
            have whole := List.dropLast_append_getLast? final last
            have fromLast : Apart final.time mark.time :=
              apart_of_not_sameTime
                (Double.le_of_lt (before final (List.mem_of_getLast? last))) (.inr finite)
                (previous final last)
            rw [← whole] at inFront ⊢
            intro other member
            obtain earlier | same := List.mem_append.mp member
            · have toLast := (List.pairwise_append.mp inFront).2.2 other earlier final
                List.mem_cons_self
              exact fromLast.le_trans toLast.le
            · rw [List.mem_singleton.mp same]
              exact fromLast
      refine List.pairwise_append.mpr ⟨inFront, List.pairwise_cons.mpr ⟨fromMark, inBack⟩, ?_⟩
      intro earlier isEarlier other member
      cases member with
      | head => exact toMark earlier isEarlier
      | tail _ later => exact across earlier isEarlier other later

/-- A mark at a finite time does not reach the stoppers. -/
theorem Adds.filter {marks result : List TimeMark} {mark : TimeMark}
    (adds : Adds marks mark result) (finite : ∃ t : ℚ, mark.time = .fin t) {time : Double}
    (infinite : ∀ t : ℚ, time ≠ .fin t) :
    result.filter (fun mark => mark.time = time) =
      marks.filter fun mark => mark.time = time := by
  obtain ⟨t, isMark⟩ := finite
  cases adds with
  | @merged front back held parts same =>
      obtain ⟨s, _, isHeld, _, _⟩ := sameTime_fin same
      have notHeld : ¬ held.time = time := fun equal => infinite s (equal.symm.trans isHeld)
      rw [← parts, List.filter_append, List.filter_append,
        List.filter_cons_of_neg (by rwa [decide_eq_true_eq]),
        List.filter_cons_of_neg (by rwa [decide_eq_true_eq])]
  | inserted parts _ _ _ _ =>
      have notMark : ¬ mark.time = time := fun equal => infinite t (equal.symm.trans isMark)
      rw [← parts, List.filter_append, List.filter_append,
        List.filter_cons_of_neg (by simpa using notMark)]

/-- The type bits held near a time. -/
def Holds (marks : List TimeMark) (time : Double) (bit : ℕ) : Prop :=
  ∃ held ∈ marks, Near held.time time ∧ held.markType.getLsbD bit = true

theorem addToType_getLsbD (mark : TimeMark) (type : TimeMark.MarkType) (bit : ℕ) :
    (mark.addToType type).markType.getLsbD bit = true ↔
      mark.markType.getLsbD bit = true ∨ type.getLsbD bit = true := by
  change (mark.markType ||| type).getLsbD bit = true ↔ _
  rw [BitVec.getLsbD_or, Bool.or_eq_true]

theorem Adds.holds_of_holds {marks result : List TimeMark} {mark : TimeMark}
    (adds : Adds marks mark result) {time : Double} {bit : ℕ} (holds : Holds marks time bit) :
    Holds result time bit := by
  obtain ⟨held, member, near, isSet⟩ := holds
  cases adds with
  | @merged front back found parts same =>
      rw [← parts, List.mem_append, List.mem_cons] at member
      obtain inFront | rfl | inBack := member
      · exact ⟨held, List.mem_append_left _ inFront, near, isSet⟩
      · exact ⟨held.addToType mark.markType, List.mem_append_right _ List.mem_cons_self, near,
          (addToType_getLsbD _ _ _).mpr (.inl isSet)⟩
      · exact ⟨held, List.mem_append_right _ (List.mem_cons_of_mem _ inBack), near, isSet⟩
  | inserted parts _ _ _ _ =>
      rw [← parts, List.mem_append] at member
      obtain inFront | inBack := member
      · exact ⟨held, List.mem_append_left _ inFront, near, isSet⟩
      · exact ⟨held, List.mem_append_right _ (List.mem_cons_of_mem _ inBack), near, isSet⟩

theorem Adds.holds_mark {marks result : List TimeMark} {mark : TimeMark}
    (adds : Adds marks mark result) {bit : ℕ} (isSet : mark.markType.getLsbD bit = true) :
    Holds result mark.time bit := by
  cases adds with
  | @merged front back found parts same =>
      exact ⟨found.addToType mark.markType, List.mem_append_right _ List.mem_cons_self,
        .inr (of_decide_eq_true same), (addToType_getLsbD _ _ _).mpr (.inr isSet)⟩
  | inserted _ _ _ _ _ =>
      exact ⟨mark, List.mem_append_right _ List.mem_cons_self, .inl rfl, isSet⟩

/-- A bit of the result was there before, or it is one of the mark. -/
theorem Adds.held {marks result : List TimeMark} {mark : TimeMark}
    (adds : Adds marks mark result) {held : TimeMark} (member : held ∈ result) {bit : ℕ}
    (isSet : held.markType.getLsbD bit = true) :
    (∃ old ∈ marks, old.time = held.time ∧ old.markType.getLsbD bit = true) ∨
      (Near held.time mark.time ∧ mark.markType.getLsbD bit = true) := by
  cases adds with
  | @merged front back found parts same =>
      subst parts
      rw [List.mem_append, List.mem_cons] at member
      obtain inFront | rfl | inBack := member
      · exact .inl ⟨held, List.mem_append_left _ inFront, rfl, isSet⟩
      · obtain old | new := (addToType_getLsbD _ _ _).mp isSet
        · exact .inl ⟨found, List.mem_append_right _ List.mem_cons_self, rfl, old⟩
        · exact .inr ⟨.inr (of_decide_eq_true same), new⟩
      · exact .inl ⟨held, List.mem_append_right _ (List.mem_cons_of_mem _ inBack), rfl, isSet⟩
  | inserted parts _ _ _ _ =>
      subst parts
      rw [List.mem_append, List.mem_cons] at member
      obtain inFront | rfl | inBack := member
      · exact .inl ⟨held, List.mem_append_left _ inFront, rfl, isSet⟩
      · exact .inr ⟨.inl rfl, isSet⟩
      · exact .inl ⟨held, List.mem_append_right _ inBack, rfl, isSet⟩

/-! ## Any sequence of marks -/

/-- What adding a mark at a finite time keeps. -/
structure Kept (added marks : List TimeMark) : Prop where
  apart : marks.Pairwise fun mark other => Apart mark.time other.time
  startStopper : marks.filter (fun mark => mark.time = .negInf) = [TimeMark.startStopper]
  endStopper : marks.filter (fun mark => mark.time = .posInf) = [TimeMark.endStopper]
  noneLost : ∀ mark ∈ withStoppers added, ∀ bit, mark.markType.getLsbD bit = true →
    Holds marks mark.time bit
  noneInvented : ∀ held ∈ marks, ∀ bit, held.markType.getLsbD bit = true →
    ∃ mark ∈ withStoppers added, Near held.time mark.time ∧ mark.markType.getLsbD bit = true

theorem Kept.add {added marks result : List TimeMark} {mark : TimeMark}
    (kept : Kept added marks) (adds : Adds marks mark result)
    (finite : ∃ t : ℚ, mark.time = .fin t) : Kept (added ++ [mark]) result where
  apart := adds.apart finite kept.apart
  startStopper := (adds.filter finite fun _ => Double.noConfusion).trans kept.startStopper
  endStopper := (adds.filter finite fun _ => Double.noConfusion).trans kept.endStopper
  noneLost := by
    intro given member bit isSet
    have cases : given ∈ withStoppers added ++ [mark] := member
    obtain before | last := List.mem_append.mp cases
    · exact adds.holds_of_holds (kept.noneLost given before bit isSet)
    · rw [List.mem_singleton] at last
      subst last
      exact adds.holds_mark isSet
  noneInvented := by
    intro held member bit isSet
    have enlarged : withStoppers (added ++ [mark]) = withStoppers added ++ [mark] := rfl
    rw [enlarged]
    obtain ⟨old, wasThere, sameTime, wasSet⟩ | ⟨near, isMark⟩ := adds.held member isSet
    · obtain ⟨given, isGiven, near, ofGiven⟩ := kept.noneInvented old wasThere bit wasSet
      rw [sameTime] at near
      exact ⟨given, List.mem_append_left _ isGiven, near, ofGiven⟩
    · exact ⟨mark, List.mem_append_right _ List.mem_cons_self, near, isMark⟩

theorem Kept.addAll {given marks : List TimeMark} (kept : Kept given marks)
    (added : List TimeMark) (finite : ∀ mark ∈ added, ∃ t : ℚ, mark.time = .fin t) :
    Kept (given ++ added) (added.foldl addTo marks) := by
  induction added generalizing given marks with
  | nil =>
      rw [List.append_nil]
      exact kept
  | cons mark rest ih =>
      have one := kept.add (addTo_adds marks mark) (finite mark List.mem_cons_self)
      have all := ih one fun other member => finite other (List.mem_cons_of_mem _ member)
      rw [List.append_assoc] at all
      exact all

theorem create_kept : Kept [] create.marks where
  apart := by decide
  startStopper := by decide
  endStopper := by decide
  noneLost := fun mark member _ isSet => ⟨mark, member, .inl rfl, isSet⟩
  noneInvented := fun held member _ isSet => ⟨held, member, .inl rfl, isSet⟩

theorem Kept.represents {added : List TimeMark} {marks : TimeMarks}
    (kept : Kept added marks.marks) : Represents added marks.marks where
  sorted := marks.sorted
  separated := kept.apart.isChain
  startStopper := kept.startStopper
  endStopper := kept.endStopper
  noneLost := kept.noneLost
  noneInvented := kept.noneInvented

/-- A stopper at the time of a mark is no longer alone. -/
theorem not_single {added : List TimeMark} {mark stopper : TimeMark} {time : Double}
    (infinite : ∀ t : ℚ, time ≠ .fin t) (member : mark ∈ added) (atTime : mark.time = time)
    (stopped : create.marks.countP (fun mark => mark.time = time) = 1) :
    (create.addAll added).marks.filter (fun mark => mark.time = time) ≠ [stopper] := by
  intro single
  have one : (create.addAll added).marks.countP (fun mark => mark.time = time) = 1 := by
    rw [List.countP_eq_length_filter, single, List.length_singleton]
  have positive : 0 < added.countP fun mark => mark.time = time :=
    List.countP_pos_iff.mpr ⟨mark, member, decide_eq_true atTime⟩
  rw [addAll_marks, foldl_countP infinite, stopped] at one
  omega

/-- The time marks represent what has been added if no time is infinite. -/
theorem addAll_represents_iff (added : List TimeMark) :
    Represents added (create.addAll added).marks ↔
      ∀ mark ∈ added, ∃ t : ℚ, mark.time = .fin t := by
  constructor
  · intro represents mark member
    cases atTime : mark.time with
    | nan => exact absurd atTime mark.isTime
    | fin t => exact ⟨t, rfl⟩
    | negInf =>
        exact absurd represents.startStopper
          (not_single (fun _ => Double.noConfusion) member atTime (by decide))
    | posInf =>
        exact absurd represents.endStopper
          (not_single (fun _ => Double.noConfusion) member atTime (by decide))
  · intro finite
    have kept := create_kept.addAll added finite
    refine Kept.represents ?_
    rw [addAll_marks]
    exact kept

/-- A mark at the infinite end time stands beside the end stopper. -/
theorem infinite_mark_not_represented :
    ¬ ∀ added : List TimeMark, Represents added (create.addAll added).marks := by
  intro all
  have represents := all [⟨.posInf, 1, nofun⟩]
  exact absurd represents.endStopper (by decide)

end TimeMarks

end Flow123d
