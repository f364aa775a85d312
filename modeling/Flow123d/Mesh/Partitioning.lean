import Flow123d.La.Distribution
import Flow123d.Library.Numberings
import Flow123d.Library.Writes
import Mathlib.Algebra.BigOperators.Group.Finset.Basic
import Mathlib.Data.List.Range
import Mathlib.Data.Set.Function
import Mathlib.Data.Int.ConditionallyCompleteOrder

/-!
# Numberings after a partitioning

`Partitioning::id_maps`. The partition is distributed as its items are, and the numbering that
the library makes of it is any one that goes up with the target process.
-/

set_option autoImplicit false

namespace Flow123d

open Flow123d.Library

/-- The constructor of `Distribution` from the array of local sizes. -/
def Distribution.ofSizes (np : ℕ) (sizes : ℕ → ℕ) : Distribution where
  np := np
  starts := fun proc => ∑ i ∈ Finset.range proc, sizes i
  startsZero := Finset.sum_range_zero _
  startsLe := fun proc _ => by
    rw [Finset.sum_range_succ]
    exact Nat.le_add_right _ _

namespace Partitioning

/-- The target process of an item, from the part of the array on its owner. -/
def target (oldDs : Distribution) (locPart : ℕ → ℕ → ℕ) (item : ℕ) : ℕ :=
  (oldDs.getProc item).elim 0 fun proc => locPart proc (item - oldDs.begin_ proc)

/-- `ISPartitioningCount`. -/
def newCounts (oldDs : Distribution) (locPart : ℕ → ℕ → ℕ) (proc : ℕ) : ℕ :=
  ((Finset.range oldDs.size).filter (target oldDs locPart · = proc)).card

/-- `AOApplicationToPetsc`, for the ordering of the new numbers. -/
def old4New (size : ℕ) (newNumbering : ℕ → ℕ) (iNew : ℕ) : ℕ :=
  ((List.range size).find? (newNumbering · = iNew)).getD 0

/-- What `id_maps` returns on one process. -/
structure IdMaps (nIds : ℕ) where
  newDs : Distribution
  id4Loc : List (Fin (nIds + 1))
  new4Id : Fin (nIds + 1) → ℤ

def idMaps {nIds : ℕ} (id4Old : ℕ → Fin (nIds + 1)) (oldDs : Distribution)
    (locPart : ℕ → ℕ → ℕ) (newNumbering : ℕ → ℕ) (myp : ℕ) : IdMaps nIds :=
  let size := oldDs.size
  let newDs := Distribution.ofSizes oldDs.np (newCounts oldDs locPart)
  { newDs := newDs
    id4Loc := (List.range' (newDs.begin_ myp) (newDs.lsize myp)).map fun iNew =>
      id4Old (old4New size newNumbering iNew)
    new4Id := writeAll (fun _ => -1) ((List.range size).map fun iNew =>
      (id4Old (old4New size newNumbering iNew), (iNew : ℤ))) }

/-- What the maps of all processes promise. -/
structure MapsIds {nIds : ℕ} (id4Old : ℕ → Fin (nIds + 1)) (oldDs : Distribution)
    (targetOf : ℕ → ℕ) (maps : ℕ → IdMaps nIds) : Prop where
  sameNumbers : ∀ proc other, (maps proc).new4Id = (maps other).new4Id
  sameDistribution : ∀ proc other, (maps proc).newDs = (maps other).newDs
  np : ∀ proc, (maps proc).newDs.np = oldDs.np
  size : ∀ proc, (maps proc).newDs.size = oldDs.size
  unknown : ∀ proc id, (maps proc).new4Id id = -1 ↔ ∀ item < oldDs.size, id4Old item ≠ id
  bijection : ∀ proc, Set.BijOn (maps proc).new4Id (id4Old '' Set.Iio oldDs.size)
    (Set.Ico 0 (oldDs.size : ℤ))
  block : ∀ proc < oldDs.np, (maps proc).new4Id '' (id4Old ''
      {item | item < oldDs.size ∧ targetOf item = proc}) =
    Set.Ico ((maps proc).newDs.begin_ proc : ℤ) ((maps proc).newDs.end_ proc)
  inverse : ∀ proc < oldDs.np, ∀ i id, (maps proc).id4Loc[i]? = some id ↔
    i < (maps proc).newDs.lsize proc ∧
      (maps proc).new4Id id = ((maps proc).newDs.begin_ proc : ℤ) + i

section Numbering

variable {size : ℕ} {targetOf newNumbering : ℕ → ℕ}
  (numbering : OrderedNumbering size targetOf newNumbering)

include numbering

variable (newNumbering) in
omit numbering in
theorem old4New_lt {iNew : ℕ} (bound : iNew < size) : old4New size newNumbering iNew < size := by
  unfold old4New
  cases found : (List.range size).find? (newNumbering · = iNew) with
  | none => exact Nat.lt_of_le_of_lt (Nat.zero_le _) bound
  | some item => exact List.mem_range.mp (List.mem_of_find?_eq_some found)

theorem newNumbering_old4New {iNew : ℕ} (bound : iNew < size) :
    newNumbering (old4New size newNumbering iNew) = iNew := by
  obtain ⟨item, inside, numbered⟩ := numbering.exists_number_eq bound
  unfold old4New
  cases found : (List.range size).find? (newNumbering · = iNew) with
  | none =>
      have missing := List.find?_eq_none.mp found item (List.mem_range.mpr inside)
      exact absurd numbered (by simpa using missing)
  | some item => simpa using List.find?_some found

theorem old4New_newNumbering {item : ℕ} (inside : item < size) :
    old4New size newNumbering (newNumbering item) = item :=
  have bound := numbering.below item inside
  numbering.injective _ (old4New_lt _ bound) _ inside
    (newNumbering_old4New numbering bound)

end Numbering

variable {nIds : ℕ} {id4Old : ℕ → Fin (nIds + 1)} {oldDs : Distribution}
  {locPart : ℕ → ℕ → ℕ} {newNumbering : ℕ → ℕ} {myp : ℕ}

variable (id4Old oldDs locPart newNumbering myp) in
theorem starts_newDs (proc : ℕ) : (idMaps id4Old oldDs locPart newNumbering myp).newDs.starts proc =
    ((Finset.range oldDs.size).filter (target oldDs locPart · < proc)).card := by
  change ∑ i ∈ Finset.range proc, newCounts oldDs locPart i = _
  induction proc with
  | zero => simp
  | succ proc ih =>
      rw [Finset.sum_range_succ, ih, card_filter_lt_succ]
      rfl

variable (distinct : Set.InjOn id4Old (Set.Iio oldDs.size))
  (numbering : OrderedNumbering oldDs.size (target oldDs locPart) newNumbering)

include distinct numbering

/-- The number of a known id is the new number of its item. -/
theorem new4Id_known {item : ℕ} (inside : item < oldDs.size) :
    (idMaps id4Old oldDs locPart newNumbering myp).new4Id (id4Old item) = newNumbering item := by
  refine writeAll_of_agree ?_ ?_
  · exact List.mem_map.mpr ⟨newNumbering item, List.mem_range.mpr (numbering.below item inside),
      by rw [old4New_newNumbering numbering inside]⟩
  · intro write member sameId
    obtain ⟨iNew, bound, rfl⟩ := List.mem_map.mp member
    rw [List.mem_range] at bound
    have sameItem := distinct (old4New_lt _ bound) inside sameId
    rw [← sameItem, newNumbering_old4New numbering bound]

omit distinct numbering in
theorem new4Id_unknown {id : Fin (nIds + 1)} (unknown : ∀ item < oldDs.size, id4Old item ≠ id) :
    (idMaps id4Old oldDs locPart newNumbering myp).new4Id id = -1 := by
  refine writeAll_of_not_overwritten ?_
  intro written
  obtain ⟨write, member, same⟩ := List.mem_map.mp written
  obtain ⟨iNew, bound, rfl⟩ := List.mem_map.mp member
  exact unknown _ (old4New_lt _ (List.mem_range.mp bound)) same

/-- The id at a place of the local list is the one that has its number. -/
theorem id4Loc_eq_some_iff {i : ℕ} {id : Fin (nIds + 1)}
    (local_ : (idMaps id4Old oldDs locPart newNumbering myp).newDs.end_ myp ≤ oldDs.size) :
    (idMaps id4Old oldDs locPart newNumbering myp).id4Loc[i]? = some id ↔
      i < (idMaps id4Old oldDs locPart newNumbering myp).newDs.lsize myp ∧
        (idMaps id4Old oldDs locPart newNumbering myp).new4Id id =
          ((idMaps id4Old oldDs locPart newNumbering myp).newDs.begin_ myp : ℤ) + i := by
  let maps := idMaps id4Old oldDs locPart newNumbering myp
  have listed : maps.id4Loc[i]? = if i < maps.newDs.lsize myp then
      some (id4Old (old4New oldDs.size newNumbering (maps.newDs.begin_ myp + i))) else none := by
    change ((List.range' (maps.newDs.begin_ myp) (maps.newDs.lsize myp)).map _)[i]? = _
    rw [List.getElem?_map]
    by_cases inside : i < maps.newDs.lsize myp
    · rw [List.getElem?_range' inside, if_pos inside, one_mul]
      rfl
    · rw [List.getElem?_eq_none (by simpa using inside), if_neg inside]
      rfl
  change maps.id4Loc[i]? = some id ↔ i < maps.newDs.lsize myp ∧ maps.new4Id id = _
  rw [listed]
  by_cases inside : i < maps.newDs.lsize myp
  · have bound : maps.newDs.begin_ myp + i < oldDs.size := by
      change maps.newDs.end_ myp ≤ oldDs.size at local_
      unfold Distribution.lsize at inside
      omega
    have item := old4New_lt newNumbering bound
    rw [if_pos inside, Option.some.injEq]
    constructor
    · intro same
      subst same
      refine ⟨inside, (new4Id_known distinct numbering item).trans ?_⟩
      rw [newNumbering_old4New numbering bound]
      exact Int.natCast_add _ _
    · intro numbered
      by_cases known : ∃ item < oldDs.size, id4Old item = id
      · obtain ⟨other, otherBound, rfl⟩ := known
        have number := (new4Id_known distinct numbering otherBound).symm.trans numbered.2
        have place : maps.newDs.begin_ myp + i = newNumbering other :=
          Int.ofNat.inj ((Int.natCast_add _ _).trans number.symm)
        rw [place, old4New_newNumbering numbering otherBound]
      · have none := (new4Id_unknown fun item bounded same =>
          known ⟨item, bounded, same⟩).symm.trans numbered.2
        omega
  · rw [if_neg inside]
    exact iff_of_false (by simp) fun numbered => inside numbered.1

/-- The numbers of the items of a process are its block. -/
theorem new4Id_block {proc : ℕ} : (idMaps id4Old oldDs locPart newNumbering myp).new4Id ''
    (id4Old '' {item | item < oldDs.size ∧ target oldDs locPart item = proc}) =
      Set.Ico ((idMaps id4Old oldDs locPart newNumbering myp).newDs.begin_ proc : ℤ)
        ((idMaps id4Old oldDs locPart newNumbering myp).newDs.end_ proc) := by
  have start := starts_newDs id4Old oldDs locPart newNumbering myp
  have inBlock : ∀ item < oldDs.size, target oldDs locPart item = proc ↔
      (idMaps id4Old oldDs locPart newNumbering myp).newDs.starts proc ≤ newNumbering item ∧
        newNumbering item <
          (idMaps id4Old oldDs locPart newNumbering myp).newDs.starts (proc + 1) := by
    intro item inside
    rw [start, start, numbering.number_lt_card_iff _ inside, ← not_lt,
      numbering.number_lt_card_iff _ inside]
    omega
  ext number
  rw [Set.mem_Ico, Set.mem_image]
  constructor
  · rintro ⟨_, ⟨item, ⟨inside, targeted⟩, rfl⟩, rfl⟩
    rw [new4Id_known distinct numbering inside]
    exact_mod_cast (inBlock item inside).mp targeted
  · intro within
    have bounded : number.toNat < oldDs.size := by
      have whole : (idMaps id4Old oldDs locPart newNumbering myp).newDs.starts (proc + 1) ≤
          oldDs.size := by
        rw [start]
        exact (Finset.card_filter_le _ _).trans (Finset.card_range _).le
      have upper := within.2
      unfold Distribution.end_ at upper
      have lower := within.1
      omega
    obtain ⟨item, inside, numbered⟩ := numbering.exists_number_eq bounded
    have lower := within.1
    have cast : (newNumbering item : ℤ) = number := by omega
    refine ⟨id4Old item, ⟨item, ⟨inside, (inBlock item inside).mpr ?_⟩, rfl⟩, ?_⟩
    · rw [← cast] at within
      exact_mod_cast within
    · rw [new4Id_known distinct numbering inside, cast]

/-- `id_maps` numbers the known ids by blocks of the processes, the same on all of them. -/
theorem idMaps_mapsIds
    (targets : ∀ item < oldDs.size, target oldDs locPart item < oldDs.np) :
    MapsIds id4Old oldDs (target oldDs locPart) (idMaps id4Old oldDs locPart newNumbering) := by
  have start := fun proc myp => starts_newDs id4Old oldDs locPart newNumbering myp proc
  have whole : ∀ proc myp,
      (idMaps id4Old oldDs locPart newNumbering myp).newDs.starts proc ≤ oldDs.size := by
    intro proc myp
    rw [start]
    exact (Finset.card_filter_le _ _).trans (Finset.card_range _).le
  refine
    { sameNumbers := fun _ _ => rfl
      sameDistribution := fun _ _ => rfl
      np := fun _ => rfl
      size := fun proc => ?_
      unknown := fun proc id => ?_
      bijection := fun proc => ?_
      block := fun _ _ => new4Id_block distinct numbering
      inverse := fun proc _ i id => id4Loc_eq_some_iff distinct numbering (whole _ _) }
  · refine (start oldDs.np proc).trans ?_
    rw [Finset.filter_true_of_mem fun item member => targets item (Finset.mem_range.mp member),
      Finset.card_range]
  · constructor
    · intro unnumbered item inside same
      rw [← same, new4Id_known distinct numbering inside] at unnumbered
      omega
    · exact fun unknown => new4Id_unknown unknown
  · refine ⟨?_, ?_, ?_⟩
    · rintro _ ⟨item, inside, rfl⟩
      rw [new4Id_known distinct numbering inside]
      have below := numbering.below item inside
      exact ⟨Int.natCast_nonneg _, by omega⟩
    · rintro _ ⟨first, inFirst, rfl⟩ _ ⟨second, inSecond, rfl⟩ same
      rw [new4Id_known distinct numbering inFirst,
        new4Id_known distinct numbering inSecond] at same
      rw [numbering.injective first inFirst second inSecond (Int.ofNat.inj same)]
    · rintro number ⟨lower, upper⟩
      obtain ⟨item, inside, numbered⟩ := numbering.exists_number_eq
        (show number.toNat < oldDs.size by omega)
      refine ⟨id4Old item, ⟨item, inside, rfl⟩, ?_⟩
      rw [new4Id_known distinct numbering inside]
      omega

end Partitioning

/-! ## Four items on three processes -/

namespace Partitioning.Example

def oldDs : Distribution := .ofSizes 3 fun proc => if proc = 1 then 0 else 2

def id4Old (item : ℕ) : Fin 7 := [3, 0, 5, 2].getD item 0

def locPart (_ i : ℕ) : ℕ := [2, 0].getD i 0

def newNumbering (item : ℕ) : ℕ := [2, 0, 3, 1].getD item 0

end Partitioning.Example

open Partitioning.Example in
theorem Partitioning.idMaps_mapsIds_threeProcesses :
    MapsIds id4Old oldDs (target oldDs locPart) (idMaps id4Old oldDs locPart newNumbering) := by
  refine idMaps_mapsIds ?_ ⟨by decide, by decide, by decide⟩ (by decide)
  have distinct : ∀ item < oldDs.size, ∀ other < oldDs.size,
      id4Old item = id4Old other → item = other := by decide
  exact fun item inside other bounded same => distinct item inside other bounded same

end Flow123d
