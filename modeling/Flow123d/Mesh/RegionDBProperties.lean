import Flow123d.Mesh.RegionDB
import Mathlib.Tactic.SplitIfs

/-!
# Indices in the database of regions

Every index that a closed database gives away, by a label, by an ID or in a set, is smaller
than its size.
-/

set_option autoImplicit false

namespace Flow123d

namespace RegionDB

variable {db other : RegionDB}

/-! ## Changes of an open database -/

/-- All that adding a region can do, also when it fails. -/
inductive Change (db : RegionDB) : RegionDB → Prop where
  | same : Change db db
  | dimension {found : RegionItem} (member : found ∈ db.regionSet) (dim : ℕ) :
      Change db (db.replace { found with dim := dim })
  | counted (boundary : Bool) : Change db (db.count boundary)
  | added (boundary : Bool) (id : ℕ) (label : String) (dim : ℕ) :
      Change db { db.count boundary with
        regionSet := db.regionSet ++ [⟨db.newIndex boundary, id, label, dim⟩] }

theorem itemOfId_mem {id : ℕ} {found : RegionItem} (known : db.itemOfId id = some found) :
    found ∈ db.regionSet :=
  List.mem_of_find?_eq_some known

theorem checkDimConsistency_change {found : RegionItem} {dim : ℕ} {updated : RegionDB}
    (member : found ∈ db.regionSet) (checked : db.checkDimConsistency found dim = .ok updated) :
    Change db updated := by
  unfold checkDimConsistency at checked
  split_ifs at checked with fits unknown
  · cases checked
    exact .same
  · cases checked
    exact .dimension member dim

theorem addKnown_change {found : RegionItem} (member : found ∈ db.regionSet) (label : String)
    (dim : ℕ) (boundary : Bool) : Change db (db.addKnown found label dim boundary).2 := by
  unfold addKnown
  cases db.checkLabel found label with
  | error error => exact .same
  | ok checked =>
      cases updated : db.checkDimConsistency found dim with
      | error error => exact .same
      | ok final =>
          dsimp only
          split_ifs <;> exact checkDimConsistency_change member updated

theorem addNew_change (db : RegionDB) (id : ℕ) (label : String) (dim : ℕ) (boundary : Bool) :
    Change db (db.addNew id label dim boundary).2 := by
  unfold addNew
  dsimp only
  split_ifs
  · exact .counted boundary
  · exact .counted boundary
  · exact .added boundary id label dim

theorem addRegion_change (db : RegionDB) (id : ℕ) (label : String) (dim : ℕ)
    (boundary : Bool) : Change db (db.addRegion id label dim boundary).2 := by
  unfold addRegion
  split_ifs
  · exact .same
  · cases known : db.itemOfId id with
    | some found => exact addKnown_change (itemOfId_mem known) label dim boundary
    | none =>
        cases db.itemOfLabel label with
        | some other => exact .same
        | none => exact addNew_change db id label dim boundary

theorem addRegionOfId_change (db : RegionDB) (id dim : ℕ) :
    Change db (db.addRegionOfId id dim).2 := by
  unfold addRegionOfId
  cases known : db.itemOfId id with
  | none => exact addRegion_change db id (defaultLabel id) dim false
  | some found =>
      dsimp only
      cases updated : db.checkDimConsistency found dim with
      | error error => exact .same
      | ok final => exact checkDimConsistency_change (itemOfId_mem known) updated

theorem add_change (db : RegionDB) (request : AddRegion) : Change db (db.add request).2 := by
  cases request with
  | withKind id label dim boundary => exact addRegion_change db id label dim boundary
  | withLabel id label dim =>
      change Change db (db.addRegionOfLabel id label dim).2
      unfold addRegionOfLabel
      split_ifs <;> exact addRegion_change ..
  | withId id dim => exact addRegionOfId_change db id dim
  | implicitBoundary => exact addRegion_change ..

/-! ## Counted regions -/

theorem Counted.lt_size {reg : RegionIdx} (counted : db.Counted reg) : reg.idx < db.size := by
  unfold Counted at counted
  unfold size
  cases boundary : reg.isBoundary with
  | true =>
      rw [boundary, if_pos rfl] at counted
      have even : reg.idx % 2 = 0 := by simpa [RegionIdx.isBoundary] using boundary
      omega
  | false =>
      rw [boundary, if_neg Bool.false_ne_true] at counted
      omega

theorem counted_count {reg : RegionIdx} (counted : db.Counted reg) (boundary : Bool) :
    (db.count boundary).Counted reg := by
  unfold Counted at counted ⊢
  refine Nat.lt_of_lt_of_le counted ?_
  unfold count
  split_ifs <;> simp

theorem counted_newIndex (db : RegionDB) (boundary : Bool) :
    (db.count boundary).Counted ⟨db.newIndex boundary⟩ := by
  unfold Counted count newIndex RegionIdx.isBoundary
  cases boundary <;> simp
  omega

def ItemsCounted (db : RegionDB) : Prop :=
  ∀ item ∈ db.regionSet, db.Counted ⟨item.index⟩

theorem Change.itemsCounted (change : Change db other) (counted : db.ItemsCounted) :
    other.ItemsCounted := by
  cases change with
  | same => exact counted
  | dimension member dim =>
      intro item listed
      obtain ⟨before, known, same⟩ := List.mem_map.mp listed
      split_ifs at same
      · subst same
        have found := counted _ member
        exact found
      · subst same
        exact counted before known
  | counted boundary =>
      intro item listed
      have known : item ∈ db.regionSet := by
        cases boundary <;> exact listed
      exact counted_count (counted item known) boundary
  | added boundary id label dim =>
      intro item listed
      rcases List.mem_append.mp listed with known | new
      · exact counted_count (counted item known) boundary
      · rw [List.mem_singleton.mp new]
        exact counted_newIndex db boundary

theorem Change.sets (change : Change db other) : other.sets = db.sets := by
  cases change with
  | same => rfl
  | dimension member dim => rfl
  | counted boundary => cases boundary <;> rfl
  | added boundary id label dim => cases boundary <;> rfl

theorem Opened.itemsCounted (opened : Opened db) : db.ItemsCounted := by
  induction opened with
  | init => exact nofun
  | add opened request ih => exact (add_change _ request).itemsCounted ih

theorem Opened.sets (opened : Opened db) (setName : String) : db.sets setName = none := by
  induction opened with
  | init => rfl
  | add opened request ih => rw [(add_change _ request).sets, ih]

/-! ## Sets of regions -/

structure SameRegions (db other : RegionDB) : Prop where
  regionSet : other.regionSet = db.regionSet
  nBoundary : other.nBoundary = db.nBoundary
  nBulk : other.nBulk = db.nBulk

namespace SameRegions

theorem refl (db : RegionDB) : SameRegions db db := ⟨rfl, rfl, rfl⟩

theorem trans {final : RegionDB} (first : SameRegions db other)
    (second : SameRegions other final) : SameRegions db final :=
  ⟨second.regionSet.trans first.regionSet, second.nBoundary.trans first.nBoundary,
    second.nBulk.trans first.nBulk⟩

theorem counted (same : SameRegions db other) (reg : RegionIdx) :
    other.Counted reg ↔ db.Counted reg := by
  unfold Counted
  rw [same.nBoundary, same.nBulk]

theorem addToSet (db : RegionDB) (setName : String) (reg : RegionIdx) :
    SameRegions db (db.addToSet setName reg) := by
  unfold RegionDB.addToSet
  cases db.sets setName with
  | none => exact ⟨rfl, rfl, rfl⟩
  | some set =>
      dsimp only
      split_ifs <;> exact ⟨rfl, rfl, rfl⟩

theorem addToDefaultSets (db : RegionDB) (i : ℕ) :
    SameRegions db (db.addToDefaultSets i) := by
  unfold RegionDB.addToDefaultSets
  dsimp only
  split_ifs
  · exact (addToSet db _ _).trans (addToSet _ _ _)
  · exact (addToSet db _ _).trans (addToSet _ _ _)
  · exact refl db

theorem foldl (indices : List ℕ) (db : RegionDB) :
    SameRegions db (indices.foldl RegionDB.addToDefaultSets db) := by
  induction indices generalizing db with
  | nil => exact refl db
  | cons i rest ih => exact (addToDefaultSets db i).trans (ih _)

theorem close (db : RegionDB) : SameRegions db db.close := by
  have marked : SameRegions db { db with closed := true } := ⟨rfl, rfl, rfl⟩
  exact marked.trans (foldl _ _)

theorem addSet (db : RegionDB) (setName : String) (set : RegionSet) :
    SameRegions db (db.addSet setName set) := by
  unfold RegionDB.addSet
  cases db.sets setName <;> exact ⟨rfl, rfl, rfl⟩

end SameRegions

def InSet (db : RegionDB) (setName : String) (reg : RegionIdx) : Prop :=
  ∃ set, db.sets setName = some set ∧ reg ∈ set

theorem inSet_addToSet {setName name : String} {reg member : RegionIdx} :
    (db.addToSet setName reg).InSet name member ↔
      db.InSet name member ∨ name = setName ∧ member = reg := by
  unfold InSet addToSet
  by_cases here : name = setName
  · subst here
    cases known : db.sets name with
    | none => simp
    | some set =>
        by_cases listed : reg ∈ set
        · simp only [if_pos listed, known, Option.some.injEq, exists_eq_left']
          exact ⟨.inl, fun either => either.elim id fun new => new.2 ▸ listed⟩
        · simp [listed]
  · cases known : db.sets setName with
    | none => simp [here]
    | some set =>
        dsimp only
        split_ifs <;> simp [here]

theorem inSet_addToDefaultSets {i : ℕ} {name : String} {member : RegionIdx}
    (inSet : (db.addToDefaultSets i).InSet name member) :
    db.InSet name member ∨ db.Counted member := by
  unfold addToDefaultSets at inSet
  dsimp only at inSet
  split_ifs at inSet with boundary bulk
  · rw [inSet_addToSet, inSet_addToSet] at inSet
    rw [Bool.and_eq_true, decide_eq_true_eq] at boundary
    have counted : db.Counted ⟨i⟩ := by
      rw [Counted, boundary.1, if_pos rfl]
      exact boundary.2
    rcases inSet with (before | ⟨_, rfl⟩) | ⟨_, rfl⟩
    exacts [.inl before, .inr counted, .inr counted]
  · rw [inSet_addToSet, inSet_addToSet] at inSet
    rw [Bool.and_eq_true, decide_eq_true_eq, Bool.not_eq_true'] at bulk
    have counted : db.Counted ⟨i⟩ := by
      rw [Counted, bulk.1, if_neg Bool.false_ne_true]
      exact bulk.2
    rcases inSet with (before | ⟨_, rfl⟩) | ⟨_, rfl⟩
    exacts [.inl before, .inr counted, .inr counted]
  · exact .inl inSet

theorem inSet_of_before {i : ℕ} {name : String} {member : RegionIdx}
    (inSet : db.InSet name member) : (db.addToDefaultSets i).InSet name member := by
  unfold addToDefaultSets
  dsimp only
  split_ifs
  · exact inSet_addToSet.mpr (.inl (inSet_addToSet.mpr (.inl inSet)))
  · exact inSet_addToSet.mpr (.inl (inSet_addToSet.mpr (.inl inSet)))
  · exact inSet

theorem inSet_all {i : ℕ} (counted : db.Counted ⟨i⟩) :
    (db.addToDefaultSets i).InSet "ALL" ⟨i⟩ := by
  unfold Counted at counted
  unfold addToDefaultSets
  dsimp only
  cases boundary : (RegionIdx.mk i).isBoundary with
  | true =>
      rw [boundary, if_pos rfl] at counted
      have less : (RegionIdx.mk i).boundaryIdx < db.boundarySize := counted
      rw [Bool.true_and, if_pos (decide_eq_true less)]
      exact inSet_addToSet.mpr (.inr ⟨rfl, rfl⟩)
  | false =>
      rw [boundary, if_neg Bool.false_ne_true] at counted
      have less : (RegionIdx.mk i).bulkIdx < db.bulkSize := counted
      rw [Bool.false_and, Bool.not_false, Bool.true_and, if_neg Bool.false_ne_true,
        if_pos (decide_eq_true less)]
      exact inSet_addToSet.mpr (.inr ⟨rfl, rfl⟩)

theorem counted_of_inSet_foldl {indices : List ℕ} {name : String} {member : RegionIdx}
    (inSet : (indices.foldl addToDefaultSets db).InSet name member) :
    db.InSet name member ∨ db.Counted member := by
  induction indices generalizing db with
  | nil => exact .inl inSet
  | cons i rest ih =>
      rcases ih inSet with before | counted
      · exact inSet_addToDefaultSets before
      · exact .inr (((SameRegions.addToDefaultSets db i).counted member).mp counted)

theorem inSet_foldl_of_before {indices : List ℕ} {name : String} {member : RegionIdx}
    (inSet : db.InSet name member) : (indices.foldl addToDefaultSets db).InSet name member := by
  induction indices generalizing db with
  | nil => exact inSet
  | cons i rest ih => exact ih (inSet_of_before inSet)

theorem inSet_all_foldl {indices : List ℕ} {member : RegionIdx} (counted : db.Counted member)
    (listed : member.idx ∈ indices) :
    (indices.foldl addToDefaultSets db).InSet "ALL" member := by
  induction indices generalizing db with
  | nil => cases listed
  | cons i rest ih =>
      rw [List.foldl_cons]
      cases listed with
      | head => exact inSet_foldl_of_before (inSet_all counted)
      | tail _ later =>
          exact ih (((SameRegions.addToDefaultSets db i).counted member).mpr counted) later

/-! ## Closed databases -/

structure Complete (db : RegionDB) : Prop where
  items : db.ItemsCounted
  sets : ∀ setName member, db.InSet setName member → db.Counted member
  all : ∀ member, db.Counted member → db.InSet "ALL" member

theorem Opened.close (opened : Opened db) : Complete db.close := by
  have same := SameRegions.close db
  constructor
  · intro item listed
    rw [same.regionSet] at listed
    exact (same.counted _).mpr (opened.itemsCounted item listed)
  · intro setName member inSet
    rcases counted_of_inSet_foldl inSet with ⟨set, known, _⟩ | counted
    · cases (opened.sets setName).symm.trans known
    · exact (same.counted member).mpr counted
  · intro member counted
    have before : Counted { db with closed := true } member := (same.counted member).mp counted
    exact inSet_all_foldl before (List.mem_range.mpr before.lt_size)

theorem Complete.addSet (complete : Complete db) (setName : String) {set : RegionSet}
    (known : ∀ reg ∈ set, db.Counted reg) : Complete (db.addSet setName set) := by
  have same := SameRegions.addSet db setName set
  have inSet : ∀ name member, (db.addSet setName set).InSet name member ↔
      db.InSet name member ∨ db.sets setName = none ∧ name = setName ∧ member ∈ set := by
    intro name member
    unfold InSet RegionDB.addSet
    cases before : db.sets setName with
    | some old => simp
    | none =>
        by_cases here : name = setName
        · subst here
          simp [before]
        · simp [here]
  constructor
  · intro item listed
    rw [same.regionSet] at listed
    exact (same.counted _).mpr (complete.items item listed)
  · intro name member inNew
    rw [same.counted]
    rcases (inSet name member).mp inNew with before | ⟨_, _, listed⟩
    · exact complete.sets name member before
    · exact known member listed
  · intro member counted
    exact (inSet "ALL" member).mpr
      (.inl (complete.all member ((same.counted member).mp counted)))

theorem Built.complete (built : Built db) : Complete db := by
  induction built with
  | close opened => exact opened.close
  | addSet built setName known ih => exact ih.addSet setName known

namespace Complete

variable (complete : Complete db)

include complete

theorem lt_size_of_inSet {setName : String} {reg : RegionIdx} (inSet : db.InSet setName reg) :
    reg.idx < db.size :=
  (complete.sets setName reg inSet).lt_size

theorem region_lt_size {item : RegionItem} (known : item ∈ db.regionSet) :
    item.index < db.size :=
  (complete.items item known).lt_size

theorem item_inSet_all {item : RegionItem} (known : item ∈ db.regionSet) :
    db.InSet "ALL" ⟨item.index⟩ :=
  complete.all _ (complete.items item known)

end Complete

end RegionDB

end Flow123d
