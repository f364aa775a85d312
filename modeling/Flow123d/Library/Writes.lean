import Mathlib.Algebra.BigOperators.Group.Finset.Piecewise
import Mathlib.Data.Fintype.Basic
import Flow123d.Library.Numerals

/-!
# Tables filled by overwriting

A list of writes acts on a table; a write stands when no later one goes to its position.
-/

set_option autoImplicit false

namespace Flow123d.Library

variable {ι K : Type} [DecidableEq ι]

def writeAll (initial : ι → K) (writes : List (ι × K)) : ι → K :=
  writes.foldl (fun table write => Function.update table write.1 write.2) initial

def lastWrite : List (ι × K) → ι → Option K
  | [], _ => none
  | write :: writes, i => (lastWrite writes i).or (if write.1 = i then some write.2 else none)

def Overwritten (writes : List (ι × K)) (i : ι) : Prop := i ∈ writes.map Prod.fst

instance (writes : List (ι × K)) (i : ι) : Decidable (Overwritten writes i) :=
  inferInstanceAs (Decidable (i ∈ writes.map Prod.fst))

/-- The writes that no later write replaces. -/
def standing : List (ι × K) → List (ι × K)
  | [] => []
  | write :: writes =>
      if Overwritten writes write.1 then standing writes else write :: standing writes

/-- The writes that a later write replaces. -/
def replaced : List (ι × K) → List (ι × K)
  | [] => []
  | write :: writes =>
      if Overwritten writes write.1 then write :: replaced writes else replaced writes

theorem writeAll_append (initial : ι → K) (first second : List (ι × K)) :
    writeAll initial (first ++ second) = writeAll (writeAll initial first) second :=
  List.foldl_append

theorem lastWrite_append (first second : List (ι × K)) (i : ι) :
    lastWrite (first ++ second) i = (lastWrite second i).or (lastWrite first i) := by
  induction first with
  | nil => simp [lastWrite]
  | cons write first ih => simp [lastWrite, ih, Option.or_assoc]

theorem lastWrite_eq_none_iff {writes : List (ι × K)} {i : ι} :
    lastWrite writes i = none ↔ ¬ Overwritten writes i := by
  induction writes with
  | nil => simp [lastWrite, Overwritten]
  | cons write writes ih =>
      by_cases here : write.1 = i
      · simp [lastWrite, Overwritten, here]
      · simp only [lastWrite, here, if_false, Option.or_none, ih]
        simp [Overwritten, Ne.symm here]

/-- The last write to a position decides what the table holds there. -/
theorem writeAll_apply (initial : ι → K) (writes : List (ι × K)) (i : ι) :
    writeAll initial writes i = (lastWrite writes i).getD (initial i) := by
  induction writes generalizing initial with
  | nil => rfl
  | cons write writes ih =>
      have rest := ih (Function.update initial write.1 write.2)
      rw [show writeAll initial (write :: writes) =
        writeAll (Function.update initial write.1 write.2) writes from rfl, rest]
      cases later : lastWrite writes i with
      | some value => simp [lastWrite, later]
      | none =>
          by_cases here : write.1 = i
          · subst here
            simp [lastWrite, later]
          · simp [lastWrite, later, here, Function.update_of_ne (Ne.symm here)]

theorem writeAll_of_lastWrite {initial : ι → K} {first second : List (ι × K)} {i : ι}
    (same : lastWrite first i = lastWrite second i) :
    writeAll initial first i = writeAll initial second i := by
  rw [writeAll_apply, writeAll_apply, same]

/-- Later writes to all positions of the earlier ones replace them. -/
theorem writeAll_writeAll {initial : ι → K} {first second : List (ι × K)}
    (covered : ∀ i, Overwritten first i → Overwritten second i) :
    writeAll (writeAll initial first) second = writeAll initial second := by
  funext i
  rw [writeAll_apply (writeAll initial first) second i, writeAll_apply initial second i]
  cases last : lastWrite second i with
  | some value => rfl
  | none =>
      have unwritten : ¬ Overwritten first i := fun written =>
        lastWrite_eq_none_iff.mp last (covered i written)
      rw [Option.getD_none, Option.getD_none, writeAll_apply,
        lastWrite_eq_none_iff.mpr unwritten, Option.getD_none]

theorem mem_standing {writes : List (ι × K)} {write : ι × K} :
    write ∈ standing writes ↔ lastWrite writes write.1 = some write.2 := by
  induction writes with
  | nil => simp [standing, lastWrite]
  | cons head writes ih =>
      by_cases later : Overwritten writes head.1
      · by_cases here : head.1 = write.1
        · have kept : lastWrite writes write.1 ≠ none := by
            rw [Ne, lastWrite_eq_none_iff, not_not, ← here]
            exact later
          obtain ⟨value, last⟩ := Option.ne_none_iff_exists'.mp kept
          simp [standing, lastWrite, later, ih, last]
        · simp [standing, lastWrite, later, here, ih]
      · have unwritten := lastWrite_eq_none_iff.mpr later
        by_cases here : head.1 = write.1
        · rw [here] at unwritten later
          rw [unwritten] at ih
          simp [standing, lastWrite, later, here, ih, unwritten, Prod.ext_iff, eq_comm]
        · have different : write ≠ head := fun equal => here (by rw [equal])
          simp [standing, lastWrite, later, here, ih, different]

theorem forall_standing {writes : List (ι × K)} {good : K → Prop} :
    (∀ write ∈ standing writes, good write.2) ↔
      ∀ i value, lastWrite writes i = some value → good value := by
  constructor
  · intro all i value last
    exact all (i, value) (mem_standing.mpr last)
  · intro all write member
    exact all write.1 write.2 (mem_standing.mp member)

theorem standing_subset {writes : List (ι × K)} : standing writes ⊆ writes := by
  induction writes with
  | nil => exact List.Subset.refl _
  | cons write writes ih =>
      unfold standing
      split
      · exact List.Subset.trans ih (List.subset_cons_self _ _)
      · exact List.cons_subset_cons _ ih

/-- Where all writes to a position agree, the table holds their value. -/
theorem writeAll_of_agree {initial : ι → K} {writes : List (ι × K)} {i : ι} {value : K}
    (member : (i, value) ∈ writes)
    (agree : ∀ write ∈ writes, write.1 = i → write.2 = value) :
    writeAll initial writes i = value := by
  rw [writeAll_apply]
  cases last : lastWrite writes i with
  | none => exact absurd (List.mem_map_of_mem member) (lastWrite_eq_none_iff.mp last)
  | some written =>
      have isWrite : (i, written) ∈ writes := standing_subset (mem_standing.mpr last)
      exact agree _ isWrite rfl

theorem writeAll_of_not_overwritten {initial : ι → K} {writes : List (ι × K)} {i : ι}
    (unwritten : ¬ Overwritten writes i) : writeAll initial writes i = initial i := by
  rw [writeAll_apply, lastWrite_eq_none_iff.mpr unwritten, Option.getD_none]

theorem replaced_of_nodup {writes : List (ι × K)} (distinct : (writes.map Prod.fst).Nodup) :
    replaced writes = [] := by
  induction writes with
  | nil => rfl
  | cons write writes ih =>
      obtain ⟨unwritten, rest⟩ := List.nodup_cons.mp distinct
      have last : ¬ Overwritten writes write.1 := unwritten
      rw [replaced, if_neg last, ih rest]

section Sums

variable [AddCommMonoid K]

theorem sum_standing_add_sum_replaced (writes : List (ι × K)) :
    ((standing writes).map Prod.snd).sum + ((replaced writes).map Prod.snd).sum =
      (writes.map Prod.snd).sum := by
  induction writes with
  | nil => simp [standing, replaced]
  | cons write writes ih =>
      by_cases later : Overwritten writes write.1
      · simp [standing, replaced, later, ← ih, add_left_comm]
      · simp [standing, replaced, later, ← ih, add_assoc]

/-- A table that starts empty sums to the writes that stand. -/
theorem sum_writeAll [Fintype ι] (writes : List (ι × K)) :
    ∑ i, writeAll (fun _ => 0) writes i = ((standing writes).map Prod.snd).sum := by
  induction writes with
  | nil => simp [standing, writeAll]
  | cons write writes ih =>
      by_cases later : Overwritten writes write.1
      · have same : ∀ i, writeAll (fun _ => 0) (write :: writes) i =
            writeAll (fun _ => 0) writes i := by
          intro i
          apply writeAll_of_lastWrite
          by_cases here : write.1 = i
          · have kept : lastWrite writes i ≠ none := by
              rw [Ne, lastWrite_eq_none_iff, not_not, ← here]
              exact later
            obtain ⟨value, last⟩ := Option.ne_none_iff_exists'.mp kept
            simp [lastWrite, last]
          · simp [lastWrite, here]
        simp [standing, later, same, ih]
      · have unwritten := lastWrite_eq_none_iff.mpr later
        have split : ∀ i, writeAll (fun _ => 0) (write :: writes) i =
            (if i = write.1 then write.2 else 0) + writeAll (fun _ => 0) writes i := by
          intro i
          rw [writeAll_apply, writeAll_apply]
          by_cases here : write.1 = i
          · rw [here] at unwritten
            simp [lastWrite, unwritten, here]
          · simp [lastWrite, here, Ne.symm here]
        rw [Finset.sum_congr rfl fun i _ => split i, Finset.sum_add_distrib, ih,
          Finset.sum_ite_eq' Finset.univ write.1 fun _ => write.2]
        simp [standing, later]

end Sums

/-- A loop over different positions whose turns act on their own positions only, seen through
what the state holds at a position. -/
theorem foldl_view {ι σ γ : Type} {items : List ι} (distinct : items.Nodup) {step : σ → ι → σ}
    (view : σ → ι → γ) (turn : ι → γ → γ)
    (own : ∀ state i, view (step state i) i = turn i (view state i))
    (frame : ∀ state i j, j ≠ i → view (step state i) j = view state j) (state : σ) {i : ι} :
    (i ∈ items → view (items.foldl step state) i = turn i (view state i)) ∧
      (i ∉ items → view (items.foldl step state) i = view state i) := by
  induction items generalizing state with
  | nil => exact ⟨fun member => absurd member List.not_mem_nil, fun _ => rfl⟩
  | cons first items ih =>
      obtain ⟨fresh, rest⟩ := List.nodup_cons.mp distinct
      obtain ⟨inside, outside⟩ := ih rest (step state first)
      constructor
      · intro member
        rcases List.mem_cons.mp member with rfl | later
        · exact (outside fresh).trans (own state i)
        · have other : i ≠ first := fun same => fresh (same ▸ later)
          exact (inside later).trans (congrArg (turn i) (frame state first i other))
      · intro absent
        obtain ⟨other, later⟩ := not_or.mp (mt List.mem_cons.mpr absent)
        exact (outside later).trans (frame state first i other)

end Flow123d.Library
