import Mathlib.Algebra.BigOperators.Group.Finset.Basic
import Mathlib.Algebra.Order.BigOperators.Group.Finset
import Mathlib.Data.List.Basic
import Mathlib.Data.List.Find
import Mathlib.Logic.Function.Basic
import Mathlib.Order.Monotone.Basic
import Flow123d.Library.Numerals

/-!
# Distribution of indices over processors

`Distribution` as it is after any of its constructors: the nondecreasing array
`starts` with `np + 1` entries.
-/

set_option autoImplicit false

namespace Flow123d

structure Distribution where
  np : ℕ
  starts : ℕ → ℕ
  startsZero : starts 0 = 0
  startsLe : ∀ proc < np, starts proc ≤ starts (proc + 1)

namespace Distribution

def begin_ (distr : Distribution) (proc : ℕ) : ℕ := distr.starts proc

def end_ (distr : Distribution) (proc : ℕ) : ℕ := distr.starts (proc + 1)

def lsize (distr : Distribution) (proc : ℕ) : ℕ := distr.end_ proc - distr.begin_ proc

def size (distr : Distribution) : ℕ := distr.starts distr.np

def isOnProc (distr : Distribution) (idx proc : ℕ) : Bool :=
  distr.begin_ proc ≤ idx && idx < distr.end_ proc

/-- Linear search of the owner. The source returns `-1` when there is none. -/
def getProc (distr : Distribution) (idx : ℕ) : Option ℕ :=
  (List.range distr.np).find? (distr.isOnProc idx)

theorem is_on_proc_iff {distr : Distribution} {idx proc : ℕ} :
    distr.isOnProc idx proc = true ↔ distr.starts proc ≤ idx ∧
      idx < distr.starts (proc + 1) := by
  rw [isOnProc, Bool.and_eq_true, decide_eq_true_iff, decide_eq_true_iff]
  rfl

theorem starts_mono (distr : Distribution) {i j : ℕ} (le : i ≤ j) (bound : j ≤ distr.np) :
    distr.starts i ≤ distr.starts j := by
  induction j, le using Nat.le_induction with
  | base => exact le_rfl
  | succ j _ ih => exact (ih (by omega)).trans (distr.startsLe j (by omega))

theorem get_proc_eq_some {distr : Distribution} {idx proc : ℕ} :
    distr.getProc idx = some proc ↔
      proc < distr.np ∧ distr.starts proc ≤ idx ∧ idx < distr.starts (proc + 1) := by
  rw [getProc, List.find?_range_eq_some, is_on_proc_iff, List.mem_range]
  constructor
  · rintro ⟨owns, bound, _⟩
    exact ⟨bound, owns⟩
  · rintro ⟨bound, owns⟩
    refine ⟨owns, bound, fun other less => ?_⟩
    cases found : distr.isOnProc idx other with
    | false => rfl
    | true =>
        have before := (is_on_proc_iff.mp found).2
        have after := distr.starts_mono (Nat.succ_le_of_lt less) bound.le
        simp only [Nat.succ_eq_add_one] at after
        omega

theorem get_proc_isSome {distr : Distribution} {idx : ℕ} (bound : idx < distr.size) :
    (distr.getProc idx).isSome := by
  have owner : ∀ n ≤ distr.np, idx < distr.starts n → ∃ proc < n,
      distr.starts proc ≤ idx ∧ idx < distr.starts (proc + 1) := by
    intro n
    induction n with
    | zero =>
        intro _ less
        rw [distr.startsZero] at less
        exact absurd less (Nat.not_lt_zero idx)
    | succ n ih =>
        intro le less
        by_cases before : idx < distr.starts n
        · obtain ⟨proc, procLt, owns⟩ := ih (by omega) before
          exact ⟨proc, by omega, owns⟩
        · exact ⟨n, Nat.lt_succ_self n, not_lt.mp before, less⟩
  obtain ⟨proc, procLt, owns⟩ := owner distr.np le_rfl bound
  rw [get_proc_eq_some.mpr ⟨procLt, owns⟩]
  rfl

end Distribution

end Flow123d

/-!
## Constructors of `Distribution`

The loops that write `starts`, with the 32-bit arithmetic of the source, and the linear search in
what they leave. A built distribution is one of those of `Flow123d.La.Distribution`.
-/

namespace Flow123d

/-- `Distribution` as its constructors leave it. -/
structure RawDistribution where
  numOfProcs : Int32
  starts : ℕ → UInt32

namespace RawDistribution

def np (distr : RawDistribution) : UInt32 := distr.numOfProcs.toUInt32

def begin_ (distr : RawDistribution) (proc : ℕ) : UInt32 := distr.starts proc

def end_ (distr : RawDistribution) (proc : ℕ) : UInt32 := distr.starts (proc + 1)

def lsize (distr : RawDistribution) (proc : ℕ) : UInt32 := distr.end_ proc - distr.begin_ proc

def size (distr : RawDistribution) : UInt32 := distr.starts distr.np.toNat

def isOnProc (distr : RawDistribution) (idx : UInt32) (proc : ℕ) : Bool :=
  distr.begin_ proc ≤ idx && idx < distr.end_ proc

/-- `return (-1)` is the largest unsigned value. -/
def getProc (distr : RawDistribution) (idx : UInt32) : UInt32 :=
  match (List.range distr.np.toNat).find? (distr.isOnProc idx) with
  | some proc => UInt32.ofNat proc
  | none => -1

end RawDistribution

/-- `DistributionBlock` and `DistributionLocalized`. -/
inductive DistributionType where
  | block
  | localized
  deriving DecidableEq, Repr

/-- What a distribution is built from: the local size on every processor (which are gathered),
an array of sizes, or a type and the global size. -/
inductive DistributionSource where
  | localSizes (lsize : ℕ → UInt32)
  | sizesArray (sizes : ℕ → UInt32)
  | ofType (type : DistributionType) (globalSize : UInt32)

namespace RawDistribution

section Constructors

-- `memory` is what the allocated array holds before the constructor writes it
variable (numOfProcs : Int32) (memory : ℕ → UInt32)

/-- `MPI_Allgather` writes the local sizes from `starts + 1` on. -/
def gathered (lsize : ℕ → UInt32) : ℕ → UInt32
  | 0 => memory 0
  | proc + 1 => if proc < numOfProcs.toUInt32.toNat then lsize proc else memory (proc + 1)

def ofLocalSizes (lsize : ℕ → UInt32) : RawDistribution where
  numOfProcs := numOfProcs
  starts :=
    (List.range numOfProcs.toUInt32.toNat).foldl
      (fun starts i => Function.update starts (i + 1) (starts (i + 1) + starts i))
      (Function.update (gathered numOfProcs memory lsize) 0 0)

def ofSizes (sizes : ℕ → UInt32) : RawDistribution where
  numOfProcs := numOfProcs
  starts :=
    (List.range numOfProcs.toUInt32.toNat).foldl
      (fun starts i => Function.update starts (i + 1) (starts i + sizes i))
      (Function.update memory 0 0)

def ofBlock (globalSize : UInt32) : RawDistribution :=
  let np := numOfProcs.toUInt32
  let reminder : Int32 := (globalSize % np).toInt32
  let perProc : Int32 := (globalSize / np).toInt32
  { numOfProcs := numOfProcs
    starts :=
      (List.range np.toNat).foldl
        (fun starts i => Function.update starts (i + 1)
          (starts i + perProc.toUInt32 + if UInt32.ofNat i < reminder.toUInt32 then 1 else 0))
        (Function.update memory 0 0) }

def ofLocalized (globalSize : UInt32) : RawDistribution where
  numOfProcs := numOfProcs
  starts :=
    (List.range numOfProcs.toUInt32.toNat).foldl
      (fun starts i => Function.update starts (i + 1) globalSize)
      (Function.update memory 0 0)

def construct : DistributionSource → RawDistribution
  | .localSizes lsize => ofLocalSizes numOfProcs memory lsize
  | .sizesArray sizes => ofSizes numOfProcs memory sizes
  | .ofType .block globalSize => ofBlock numOfProcs memory globalSize
  | .ofType .localized globalSize => ofLocalized numOfProcs memory globalSize

end Constructors

end RawDistribution

namespace DistributionSource

/-- The starts that the source asks for, without overflow. -/
def expectedStart (np : ℕ) : DistributionSource → ℕ → ℕ
  | .localSizes lsize, proc => ∑ i ∈ Finset.range proc, (lsize i).toNat
  | .sizesArray sizes, proc => ∑ i ∈ Finset.range proc, (sizes i).toNat
  | .ofType .block globalSize, proc =>
      proc * (globalSize.toNat / np) + min proc (globalSize.toNat % np)
  | .ofType .localized _, 0 => 0
  | .ofType .localized globalSize, _ + 1 => globalSize.toNat

/-- Number of the distributed indices. -/
def globalSize (np : ℕ) : DistributionSource → ℕ
  | .localSizes lsize => ∑ i ∈ Finset.range np, (lsize i).toNat
  | .sizesArray sizes => ∑ i ∈ Finset.range np, (sizes i).toNat
  | .ofType _ globalSize => globalSize.toNat

theorem expectedStart_zero (np : ℕ) (source : DistributionSource) :
    source.expectedStart np 0 = 0 := by
  cases source with
  | localSizes lsize => rfl
  | sizesArray sizes => rfl
  | ofType type globalSize =>
      cases type with
      | block => simp [expectedStart]
      | localized => rfl

theorem expectedStart_le_succ (np : ℕ) (source : DistributionSource) (proc : ℕ) :
    source.expectedStart np proc ≤ source.expectedStart np (proc + 1) := by
  cases source with
  | localSizes lsize =>
      simp only [expectedStart, Finset.sum_range_succ]
      exact Nat.le_add_right _ _
  | sizesArray sizes =>
      simp only [expectedStart, Finset.sum_range_succ]
      exact Nat.le_add_right _ _
  | ofType type globalSize =>
      cases type with
      | block =>
          simp only [expectedStart, Nat.add_mul]
          omega
      | localized =>
          cases proc with
          | zero => exact Nat.zero_le _
          | succ proc => exact le_rfl

theorem expectedStart_np {np : ℕ} (procs : 0 < np) (source : DistributionSource) :
    source.expectedStart np np = source.globalSize np := by
  cases source with
  | localSizes lsize => rfl
  | sizesArray sizes => rfl
  | ofType type globalSize =>
      cases type with
      | block =>
          have less := Nat.mod_lt globalSize.toNat procs
          have split := Nat.div_add_mod globalSize.toNat np
          simp only [expectedStart, DistributionSource.globalSize]
          omega
      | localized =>
          obtain ⟨before, rfl⟩ := Nat.exists_eq_succ_of_ne_zero procs.ne'
          rfl

theorem expectedStart_mono (np : ℕ) (source : DistributionSource) :
    Monotone (source.expectedStart np) :=
  monotone_nat_of_le_succ (source.expectedStart_le_succ np)

/-- Blocks of the even distribution. -/
theorem expectedStart_block (np : ℕ) (globalSize : UInt32) (proc : ℕ) :
    (ofType .block globalSize).expectedStart np (proc + 1) =
      (ofType .block globalSize).expectedStart np proc + globalSize.toNat / np +
        if proc < globalSize.toNat % np then 1 else 0 := by
  simp only [expectedStart, Nat.add_mul]
  split <;> omega

end DistributionSource

namespace RawDistribution

/-- A loop that writes the starts one after the other. -/
theorem starts_loop {step : (ℕ → UInt32) → ℕ → UInt32} {memory : ℕ → UInt32}
    {expected : ℕ → ℕ} (n : ℕ) (first : (memory 0).toNat = expected 0)
    (next : ∀ i < n, ∀ starts : ℕ → UInt32, (starts i).toNat = expected i →
      starts (i + 1) = memory (i + 1) → (step starts i).toNat = expected (i + 1)) :
    (∀ j ≤ n, (((List.range n).foldl
        (fun starts i => Function.update starts (i + 1) (step starts i)) memory) j).toNat =
      expected j) ∧
    ∀ j, n < j → ((List.range n).foldl
      (fun starts i => Function.update starts (i + 1) (step starts i)) memory) j = memory j := by
  induction n with
  | zero =>
      constructor
      · intro j le
        rw [Nat.le_zero.mp le]
        exact first
      · exact fun _ _ => rfl
  | succ n ih =>
      obtain ⟨written, open_⟩ := ih fun i less => next i (Nat.lt_succ_of_lt less)
      rw [List.range_succ, List.foldl_concat]
      constructor
      · intro j le
        by_cases last : j = n + 1
        · rw [last, Function.update_self]
          exact next n (Nat.lt_succ_self n) _ (written n le_rfl) (open_ _ (Nat.lt_succ_self n))
        · rw [Function.update_of_ne last]
          exact written j (by omega)
      · intro j less
        rw [Function.update_of_ne (by omega)]
        exact open_ j (by omega)

section Built

variable {numOfProcs : Int32} {memory : ℕ → UInt32} {source : DistributionSource}

theorem add_toNat_of_lt {a b : UInt32} {sum : ℕ} (eq : a.toNat + b.toNat = sum)
    (fits : sum < 2 ^ 32) : (a + b).toNat = sum := by
  rw [UInt32.toNat_add, eq, Nat.mod_eq_of_lt fits]

theorem construct_starts (procs : 0 < numOfProcs.toUInt32.toNat)
    (fits : source.globalSize numOfProcs.toUInt32.toNat < 2 ^ 32) {proc : ℕ}
    (bound : proc ≤ numOfProcs.toUInt32.toNat) :
    ((construct numOfProcs memory source).starts proc).toNat =
      source.expectedStart numOfProcs.toUInt32.toNat proc := by
  have inRange : ∀ i < numOfProcs.toUInt32.toNat,
      source.expectedStart numOfProcs.toUInt32.toNat (i + 1) < 2 ^ 32 := by
    intro i less
    have le := source.expectedStart_mono numOfProcs.toUInt32.toNat (Nat.succ_le_of_lt less)
    rw [source.expectedStart_np procs] at le
    exact le.trans_lt fits
  have zeroStart : ∀ memory : ℕ → UInt32, (Function.update memory 0 0 0).toNat =
      source.expectedStart numOfProcs.toUInt32.toNat 0 := by
    intro memory
    rw [source.expectedStart_zero, Function.update_self]
    rfl
  cases source with
  | localSizes lsize =>
      refine (starts_loop _ (zeroStart _) ?_).1 proc bound
      intro i less starts before untouched
      apply add_toNat_of_lt _ (inRange i less)
      rw [untouched, Function.update_of_ne (Nat.succ_ne_zero i), before, gathered, if_pos less,
        Nat.add_comm]
      exact (Finset.sum_range_succ (fun proc => (lsize proc).toNat) i).symm
  | sizesArray sizes =>
      refine (starts_loop _ (zeroStart _) ?_).1 proc bound
      intro i less starts before _
      apply add_toNat_of_lt _ (inRange i less)
      rw [before]
      exact (Finset.sum_range_succ _ i).symm
  | ofType type globalSize =>
      cases type with
      | block =>
          refine (starts_loop _ (zeroStart _) ?_).1 proc bound
          intro i less starts before _
          have fitsNext := inRange i less
          rw [DistributionSource.expectedStart_block] at fitsNext ⊢
          have small : i < 2 ^ 32 := less.trans (UInt32.toNat_lt _)
          have one : ((if UInt32.ofNat i < globalSize % numOfProcs.toUInt32 then 1 else 0 :
              UInt32)).toNat =
              if i < globalSize.toNat % numOfProcs.toUInt32.toNat then 1 else 0 := by
            have sameTest : UInt32.ofNat i < globalSize % numOfProcs.toUInt32 ↔
                i < globalSize.toNat % numOfProcs.toUInt32.toNat := by
              rw [UInt32.lt_iff_toNat_lt, UInt32.toNat_mod, UInt32.toNat_ofNat_of_lt' small]
            by_cases more : i < globalSize.toNat % numOfProcs.toUInt32.toNat
            · rw [if_pos (sameTest.mpr more), if_pos more]
              rfl
            · rw [if_neg (mt sameTest.mp more), if_neg more]
              rfl
          apply add_toNat_of_lt _ fitsNext
          have whole : (starts i + globalSize / numOfProcs.toUInt32).toNat =
              (DistributionSource.ofType .block globalSize).expectedStart
                numOfProcs.toUInt32.toNat i + globalSize.toNat / numOfProcs.toUInt32.toNat := by
            apply add_toNat_of_lt
            · rw [before, UInt32.toNat_div]
            · exact (Nat.le_add_right _ _).trans_lt fitsNext
          exact congrArg₂ (· + ·) whole one
      | localized =>
          refine (starts_loop _ (zeroStart _) ?_).1 proc bound
          intro i less starts _ _
          rfl

/-- The distribution over natural numbers that the constructors build. -/
def distribution (np : ℕ) (source : DistributionSource) : Distribution where
  np := np
  starts := source.expectedStart np
  startsZero := source.expectedStart_zero np
  startsLe := fun proc _ => source.expectedStart_le_succ np proc

theorem isOnProc_construct (procs : 0 < numOfProcs.toUInt32.toNat)
    (fits : source.globalSize numOfProcs.toUInt32.toNat < 2 ^ 32) {proc : ℕ}
    (bound : proc < numOfProcs.toUInt32.toNat) (idx : UInt32) :
    (construct numOfProcs memory source).isOnProc idx proc =
      (distribution numOfProcs.toUInt32.toNat source).isOnProc idx.toNat proc := by
  rw [isOnProc, Distribution.isOnProc]
  simp only [begin_, end_, UInt32.le_iff_toNat_le, UInt32.lt_iff_toNat_lt]
  rw [construct_starts procs fits bound.le, construct_starts procs fits bound]
  rfl

theorem construct_np (source : DistributionSource) :
    (construct numOfProcs memory source).np = numOfProcs.toUInt32 := by
  cases source with
  | localSizes lsize => rfl
  | sizesArray sizes => rfl
  | ofType type globalSize =>
      cases type with
      | block => rfl
      | localized => rfl

/-- The linear search finds the owner that the search over natural numbers finds. -/
theorem getProc_construct (procs : 0 < numOfProcs.toUInt32.toNat)
    (fits : source.globalSize numOfProcs.toUInt32.toNat < 2 ^ 32) {idx : UInt32} {proc : ℕ}
    (owner : (distribution numOfProcs.toUInt32.toNat source).getProc idx.toNat = some proc) :
    (construct numOfProcs memory source).getProc idx = UInt32.ofNat proc := by
  have same : (List.range numOfProcs.toUInt32.toNat).find?
      ((construct numOfProcs memory source).isOnProc idx) = some proc := by
    rw [← owner]
    apply List.find?_congr
    intro proc member
    exact isOnProc_construct procs fits (List.mem_range.mp member) idx
  rw [getProc, construct_np, same]

theorem size_construct (procs : 0 < numOfProcs.toUInt32.toNat)
    (fits : source.globalSize numOfProcs.toUInt32.toNat < 2 ^ 32) :
    (construct numOfProcs memory source).size.toNat =
      source.globalSize numOfProcs.toUInt32.toNat := by
  rw [size, construct_np, construct_starts procs fits le_rfl, source.expectedStart_np procs]

theorem lsize_block (procs : 0 < numOfProcs.toUInt32.toNat) {globalSize : UInt32} {proc : ℕ}
    (bound : proc < numOfProcs.toUInt32.toNat) :
    ((construct numOfProcs memory (.ofType .block globalSize)).lsize proc).toNat =
      globalSize.toNat / numOfProcs.toUInt32.toNat +
        if proc < globalSize.toNat % numOfProcs.toUInt32.toNat then 1 else 0 := by
  have fits : (DistributionSource.ofType .block globalSize).globalSize
      numOfProcs.toUInt32.toNat < 2 ^ 32 := UInt32.toNat_lt globalSize
  have first : ((construct numOfProcs memory (.ofType .block globalSize)).starts proc).toNat = _ :=
    construct_starts procs fits bound.le
  have last :
      ((construct numOfProcs memory (.ofType .block globalSize)).starts (proc + 1)).toNat = _ :=
    construct_starts procs fits bound
  rw [DistributionSource.expectedStart_block] at last
  rw [Nat.add_assoc] at last
  rw [lsize, UInt32.toNat_sub_of_le, end_, begin_, first, last]
  · exact Nat.add_sub_cancel_left _ _
  · rw [UInt32.le_iff_toNat_le, begin_, end_, first, last]
    exact Nat.le_add_right _ _

end Built

/-- The starts go from 0 to the global size without decreasing, the blocks of the even
distribution differ by one at most, and the search finds the one processor that owns an index. -/
theorem construct_partitions {numOfProcs : Int32} (procs : 0 < numOfProcs)
    (source : DistributionSource)
    (fits : source.globalSize numOfProcs.toUInt32.toNat < 2 ^ 32) (memory : ℕ → UInt32) :
    let distr := construct numOfProcs memory source
    distr.starts 0 = 0 ∧
    distr.size.toNat = source.globalSize distr.np.toNat ∧
    (∀ proc < distr.np.toNat, distr.begin_ proc ≤ distr.end_ proc) ∧
    (∀ globalSize, source = .ofType .block globalSize → ∀ proc < distr.np.toNat,
      ∀ other < distr.np.toNat, (distr.lsize proc).toNat ≤ (distr.lsize other).toNat + 1) ∧
    ∀ idx < distr.size, ∃ proc < distr.np.toNat, distr.getProc idx = UInt32.ofNat proc ∧
      ∀ other < distr.np.toNat,
        (distr.begin_ other ≤ idx ∧ idx < distr.end_ other) ↔ other = proc := by
  have positive : 0 < numOfProcs.toUInt32.toNat := by
    apply Nat.pos_of_ne_zero
    intro zero
    have none_ : numOfProcs = 0 := congrArg UInt32.toInt32 (UInt32.toNat_inj.mp zero)
    rw [none_] at procs
    exact absurd procs (by decide)
  simp only [construct_np]
  refine ⟨?_, size_construct positive fits, ?_, ?_, ?_⟩
  · apply UInt32.toNat_inj.mp
    rw [construct_starts positive fits (Nat.zero_le _), source.expectedStart_zero]
    rfl
  · intro proc bound
    rw [UInt32.le_iff_toNat_le, begin_, end_, construct_starts positive fits bound.le,
      construct_starts positive fits bound]
    exact source.expectedStart_le_succ _ proc
  · intro globalSize isBlock proc bound other otherBound
    rw [isBlock, lsize_block positive bound, lsize_block positive otherBound]
    split <;> omega
  · intro idx less
    rw [UInt32.lt_iff_toNat_lt, size_construct positive fits,
      ← source.expectedStart_np positive] at less
    obtain ⟨proc, found⟩ := Option.isSome_iff_exists.mp
      ((distribution numOfProcs.toUInt32.toNat source).get_proc_isSome less)
    have owns : ∀ other < numOfProcs.toUInt32.toNat,
        ((construct numOfProcs memory source).begin_ other ≤ idx ∧
          idx < (construct numOfProcs memory source).end_ other ↔
        (distribution numOfProcs.toUInt32.toNat source).getProc idx.toNat = some other) := by
      intro other bound
      rw [Distribution.get_proc_eq_some, UInt32.le_iff_toNat_le, UInt32.lt_iff_toNat_lt, begin_,
        end_, construct_starts positive fits bound.le, construct_starts positive fits bound]
      exact ⟨fun inside => ⟨bound, inside⟩, fun owner => owner.2⟩
    refine ⟨proc, (Distribution.get_proc_eq_some.mp found).1,
      getProc_construct positive fits found, fun other bound => ?_⟩
    rw [owns other bound, found]
    exact ⟨fun same => (Option.some.inj same).symm, fun same => congrArg some same.symm⟩

theorem construct_partitions_two_items :
    (construct 3 (fun _ => 7) (.ofType .block 2)).size.toNat = 2 ∧
      ∀ proc < 3, (construct 3 (fun _ => 7) (.ofType .block 2)).begin_ proc ≤
        (construct 3 (fun _ => 7) (.ofType .block 2)).end_ proc :=
  have partitions := construct_partitions (by decide) (.ofType .block 2) (by decide) fun _ => 7
  ⟨partitions.2.1, partitions.2.2.1⟩

end RawDistribution

end Flow123d
