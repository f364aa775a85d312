import Mathlib.Data.List.Sort
import Flow123d.Library.SetAlgebra
import Flow123d.Mesh.RegionNumbering

/-!
# Sets of regions

The default sets of a closed database and the sets that are defined on the input: by IDs and
labels, or by an operation on two sets.
-/

set_option autoImplicit false

namespace Flow123d

open Flow123d.Library

/-- `Region::comp`. -/
instance : LinearOrder RegionIdx :=
  LinearOrder.lift' RegionIdx.idx fun _ _ same => congrArg RegionIdx.mk same

/-- A record of the input. An operation overrides what stands before it. -/
structure SetDefinition where
  name : String
  regionIds : List ℕ
  regionLabels : List String
  union : Option (String × String)
  intersection : Option (String × String)
  difference : Option (String × String)

namespace RegionDB

/-- No region set with this name. -/
structure UnknownSet where
  name : String
deriving DecidableEq

/-- Both sets sorted by the index. -/
def prepareSets (db : RegionDB) (names : String × String) :
    Except UnknownSet (RegionSet × RegionSet) :=
  match db.sets names.1, db.sets names.2 with
  | some set1, some set2 =>
      .ok (set1.insertionSort (· ≤ ·), set2.insertionSort (· ≤ ·))
  | none, _ => .error ⟨names.1⟩
  | some _, none => .error ⟨names.2⟩

/-- The union, the intersection or the difference, if it is given. -/
def override (db : RegionDB) (operation : RegionSet → RegionSet → RegionSet)
    (names : Option (String × String)) (regionSet : RegionSet) : Except UnknownSet RegionSet :=
  match names with
  | none => .ok regionSet
  | some names => (db.prepareSets names).map fun sets => operation sets.1 sets.2

/-- Regions that do not exist are skipped. -/
def pushRegion (regionSet : RegionSet) (reg : RegionIdx) : RegionSet :=
  if reg.isValid then (if reg ∈ regionSet then regionSet else regionSet ++ [reg])
  else regionSet

def listRegions (db : RegionDB) (definition : SetDefinition) : RegionSet :=
  (definition.regionLabels.map db.findLabel).foldl pushRegion
    ((definition.regionIds.map db.findId).foldl pushRegion [])

def describedSet (db : RegionDB) (definition : SetDefinition) :
    Except UnknownSet RegionSet := do
  let united ← db.override setUnion definition.union (db.listRegions definition)
  let intersected ← db.override setIntersection definition.intersection united
  db.override setDifference definition.difference intersected

def readSet (db : RegionDB) (definition : SetDefinition) : Except UnknownSet RegionDB :=
  (db.describedSet definition).map (db.addSet definition.name)

def readSetsFromInput (db : RegionDB) (definitions : List SetDefinition) :
    Except UnknownSet RegionDB :=
  definitions.foldlM readSet db

/-! ## Calls before the database is closed -/

/-- Reports that end the program; other failed calls leave the database usable. -/
def RegionError.EndsProgram : RegionError → Bool
  | .tooManyRegions => true
  | .addToClosed => true
  | .endDereferenced => true
  | _ => false

def addOrEnd (db : RegionDB) (request : AddRegion) : Except RegionError RegionDB :=
  match db.add request with
  | (.ok _, next) => .ok next
  | (.error error, next) => if RegionError.EndsProgram error then .error error else .ok next

def addEach (db : RegionDB) (requests : List AddRegion) : Except RegionError RegionDB :=
  requests.foldlM addOrEnd db

/-! ## What the sets are for -/

/-- There is a region with the index. -/
def Exists (db : RegionDB) (reg : RegionIdx) : Prop :=
  ∃ item ∈ db.regionSet, item.index = reg.idx

/-- The name stands for a set with these members. -/
def Names (db : RegionDB) (setName : String) (members : RegionIdx → Prop) : Prop :=
  ∃ set, db.getRegionSet setName = some set ∧ set.Nodup ∧ ∀ reg, reg ∈ set ↔ members reg

/-- The names of the default sets with their regions. -/
inductive DefaultSet (db : RegionDB) : String → (RegionIdx → Prop) → Prop where
  | all : DefaultSet db "ALL" db.Exists
  | bulk : DefaultSet db "BULK" fun reg => db.Exists reg ∧ reg.isBoundary = false
  | boundary : DefaultSet db "BOUNDARY" fun reg => db.Exists reg ∧ reg.isBoundary = true

def listed (db : RegionDB) (definition : SetDefinition) (reg : RegionIdx) : Prop :=
  reg.isValid = true ∧ ((∃ id ∈ definition.regionIds, db.findId id = reg) ∨
    ∃ label ∈ definition.regionLabels, db.findLabel label = reg)

/-- The regions that a definition describes. -/
def described (db : RegionDB) (definition : SetDefinition) (reg : RegionIdx) : Prop :=
  match definition.difference, definition.intersection, definition.union with
  | some (set1, set2), _, _ => db.InSet set1 reg ∧ ¬ db.InSet set2 reg
  | none, some (set1, set2), _ => db.InSet set1 reg ∧ db.InSet set2 reg
  | none, none, some (set1, set2) => db.InSet set1 reg ∨ db.InSet set2 reg
  | none, none, none => db.listed definition reg

/-- The state in which a definition is read. -/
def Reads (db : RegionDB) (definitions : List SetDefinition) (definition : SetDefinition)
    (before after : RegionDB) : Prop :=
  ∃ earlier later, definitions = earlier ++ definition :: later ∧
    db.readSetsFromInput earlier = .ok before ∧ before.readSet definition = .ok after

/-- The default sets are right as long as they are not defined again, and every definition
gives its name to the set that it describes. -/
structure SetsSound (db : RegionDB) (definitions : List SetDefinition) : Prop where
  defaults : ∀ earlier later current, definitions = earlier ++ later →
    db.readSetsFromInput earlier = .ok current → ∀ setName members,
      db.DefaultSet setName members → setName ∉ earlier.map SetDefinition.name →
        current.Names setName members
  defined : ∀ definition before after, db.Reads definitions definition before after →
    after.Names definition.name (before.described definition)

end RegionDB

end Flow123d

/-!
## Which sets the names stand for

A default set is created with its first region, and a name that is taken keeps its set. So
the sets are right just where there are regions of both kinds and every definition of a name
that is taken describes the set that is there.
-/

namespace Flow123d

open Flow123d.Library

namespace RegionDB

variable {db next : RegionDB}

/-! ## The database before it is closed -/

theorem addKnown_fails (indexed : Indexed db) {found : RegionItem}
    (member : found ∈ db.regionSet) {label : String} {dim : ℕ} {boundary : Bool}
    {error : RegionError} (failed : db.addKnown found label dim boundary = (.error error, next)) :
    SameIdentities db next := by
  unfold addKnown at failed
  cases checked : db.checkLabel found label with
  | error wrong =>
      rw [checked] at failed
      cases failed
      exact .refl db
  | ok passed =>
      rw [checked] at failed
      cases updated : db.checkDimConsistency found dim with
      | error wrong =>
          rw [updated] at failed
          cases failed
          exact .refl db
      | ok final =>
          rw [updated] at failed
          dsimp only at failed
          split_ifs at failed
          · cases failed
          · cases failed
            exact .checkDimConsistency indexed.indices member updated

/-- A number that has not been given is free. -/
theorem itemOfIndex_newIndex (indexed : Indexed db) (boundary : Bool) :
    db.itemOfIndex (db.newIndex boundary) = none := by
  refine List.find?_eq_none.mpr fun item listed same => ?_
  have counted := indexed.kind item listed
  rw [beq_iff_eq.mp same] at counted
  exact not_counted_newIndex db boundary counted

theorem addRegion_fails (indexed : Indexed db) {id : ℕ} {label : String} {dim : ℕ}
    {boundary : Bool} {error : RegionError}
    (failed : db.addRegion id label dim boundary = (.error error, next))
    (goesOn : RegionError.EndsProgram error = false) : SameIdentities db next := by
  unfold addRegion at failed
  split_ifs at failed with closed
  · cases failed
    cases goesOn
  · cases known : db.itemOfId id with
    | some found =>
        rw [known] at failed
        exact addKnown_fails indexed (itemOfId_mem known) failed
    | none =>
        rw [known] at failed
        cases named : db.itemOfLabel label with
        | some other =>
            rw [named] at failed
            cases failed
            exact .refl db
        | none =>
            rw [named] at failed
            dsimp only [addNew] at failed
            rw [itemOfIndex_newIndex indexed] at failed
            split_ifs at failed with tooMany taken
            · cases failed
              cases goesOn
            · cases taken
            · cases failed

theorem add_fails (indexed : Indexed db) {request : AddRegion} {error : RegionError}
    (failed : db.add request = (.error error, next))
    (goesOn : RegionError.EndsProgram error = false) : SameIdentities db next := by
  cases request with
  | withKind id label dim boundary => exact addRegion_fails indexed failed goesOn
  | withLabel id label dim =>
      change db.addRegionOfLabel id label dim = _ at failed
      unfold addRegionOfLabel at failed
      split_ifs at failed <;> exact addRegion_fails indexed failed goesOn
  | withId id dim =>
      change db.addRegionOfId id dim = _ at failed
      unfold addRegionOfId at failed
      cases known : db.itemOfId id with
      | none =>
          rw [known] at failed
          exact addRegion_fails indexed failed goesOn
      | some found =>
          rw [known] at failed
          dsimp only at failed
          cases updated : db.checkDimConsistency found dim with
          | error wrong =>
              rw [updated] at failed
              cases failed
              exact .refl db
          | ok final =>
              rw [updated] at failed
              cases failed
  | implicitBoundary => exact addRegion_fails indexed failed goesOn

theorem Indexed.adds (indexed : Indexed db) {id : ℕ} {label : String} {boundary : Bool}
    (adds : Adds db id label boundary next) : Indexed next := by
  cases adds with
  | known _ _ same => exact indexed.of_same same
  | new dim _ _ _ => exact indexed.new boundary id label dim

/-- Before the database is closed there are no sets. -/
structure Growing (db : RegionDB) : Prop extends Indexed db where
  noSets : ∀ setName, db.sets setName = none

theorem addEach_growing (requests : List AddRegion) :
    Meets (fun _ => True) Growing (init.addEach requests) := by
  refine Meets.foldlM ⟨indexed_init, fun _ => rfl⟩ fun state growing request _ => ?_
  unfold addOrEnd
  cases added : state.add request with
  | mk outcome next =>
      have sets : ∀ setName, next.sets setName = none := fun setName => by
        have same := (add_change state request).sets
        rw [added] at same
        rw [same, growing.noSets]
      cases outcome with
      | ok reg => exact ⟨growing.toIndexed.adds (add_adds growing.indices added), sets⟩
      | error error =>
          dsimp only
          cases goesOn : RegionError.EndsProgram error with
          | true => trivial
          | false => exact ⟨growing.of_same (add_fails growing.toIndexed added goesOn), sets⟩

/-! ## The default sets -/

def AllSets (good : RegionSet → Prop) (db : RegionDB) : Prop :=
  ∀ setName set, db.sets setName = some set → good set

theorem AllSets.addToSet {good : RegionSet → Prop} (all : AllSets good db) (setName : String)
    {reg : RegionIdx} (one : good [reg])
    (push : ∀ set, good set → reg ∉ set → good (set ++ [reg])) :
    AllSets good (db.addToSet setName reg) := by
  intro name set known
  unfold RegionDB.addToSet at known
  cases before : db.sets setName with
  | none =>
      rw [before] at known
      dsimp only at known
      by_cases here : name = setName
      · subst here
        rw [Function.update_self] at known
        cases known
        exact one
      · rw [Function.update_of_ne here] at known
        exact all name set known
  | some old =>
      rw [before] at known
      dsimp only at known
      split_ifs at known with listed
      · exact all name set known
      · dsimp only at known
        by_cases here : name = setName
        · subst here
          rw [Function.update_self] at known
          cases known
          exact push old (all name old before) listed
        · rw [Function.update_of_ne here] at known
          exact all name set known

/-- A set that was created with a region in it, and got each other region once. -/
def Tidy (set : RegionSet) : Prop := set.Nodup ∧ set ≠ []

theorem AllSets.addRegion (all : AllSets Tidy db) (setName : String) (reg : RegionIdx) :
    AllSets Tidy (db.addToSet setName reg) := by
  refine all.addToSet setName ⟨List.nodup_singleton reg, nofun⟩ fun set tidy other => ?_
  refine ⟨?_, by simp⟩
  rw [List.nodup_append]
  refine ⟨tidy.1, List.nodup_singleton reg, fun one member last inNew => ?_⟩
  rw [List.mem_singleton.mp inNew]
  exact fun same => other (same ▸ member)

theorem AllSets.addToDefaultSets (all : AllSets Tidy db) (i : ℕ) :
    AllSets Tidy (db.addToDefaultSets i) := by
  unfold RegionDB.addToDefaultSets
  dsimp only
  split_ifs
  · exact (all.addRegion _ _).addRegion _ _
  · exact (all.addRegion _ _).addRegion _ _
  · exact all

theorem AllSets.foldl {indices : List ℕ} (all : AllSets Tidy db) :
    AllSets Tidy (indices.foldl RegionDB.addToDefaultSets db) := by
  induction indices generalizing db with
  | nil => exact all
  | cons i rest ih => exact ih (all.addToDefaultSets i)

/-- The default sets to which a region belongs. -/
def DefaultOf (reg : RegionIdx) (setName : String) : Prop :=
  setName = "ALL" ∨ setName = if reg.isBoundary then "BOUNDARY" else "BULK"

theorem inSet_addToDefaultSets_iff {i : ℕ} {name : String} {member : RegionIdx} :
    (db.addToDefaultSets i).InSet name member ↔
      db.InSet name member ∨ db.Counted ⟨i⟩ ∧ member = ⟨i⟩ ∧ DefaultOf member name := by
  unfold addToDefaultSets Counted DefaultOf
  dsimp only
  cases kind : (RegionIdx.mk i).isBoundary with
  | true =>
      by_cases less : i / 2 < db.nBoundary
      · have counted : (RegionIdx.mk i).boundaryIdx < db.boundarySize := less
        rw [Bool.true_and, if_pos (decide_eq_true counted), inSet_addToSet, inSet_addToSet]
        constructor
        · rintro ((before | ⟨rfl, rfl⟩) | ⟨rfl, rfl⟩)
          · exact .inl before
          · exact .inr ⟨less, rfl, .inr (by rw [kind]; rfl)⟩
          · exact .inr ⟨less, rfl, .inl rfl⟩
        · rintro (before | ⟨_, rfl, isAll | isKind⟩)
          · exact .inl (.inl before)
          · exact .inr ⟨isAll, rfl⟩
          · rw [kind] at isKind
            exact .inl (.inr ⟨isKind, rfl⟩)
      · have beyond : ¬ (RegionIdx.mk i).boundaryIdx < db.boundarySize := less
        simp [beyond, less]
  | false =>
      by_cases less : i / 2 < db.nBulk
      · have counted : (RegionIdx.mk i).bulkIdx < db.bulkSize := less
        rw [Bool.false_and, if_neg Bool.false_ne_true, Bool.not_false, Bool.true_and,
          if_pos (decide_eq_true counted), inSet_addToSet, inSet_addToSet]
        constructor
        · rintro ((before | ⟨rfl, rfl⟩) | ⟨rfl, rfl⟩)
          · exact .inl before
          · exact .inr ⟨less, rfl, .inr (by rw [kind]; rfl)⟩
          · exact .inr ⟨less, rfl, .inl rfl⟩
        · rintro (before | ⟨_, rfl, isAll | isKind⟩)
          · exact .inl (.inl before)
          · exact .inr ⟨isAll, rfl⟩
          · rw [kind] at isKind
            exact .inl (.inr ⟨isKind, rfl⟩)
      · have beyond : ¬ (RegionIdx.mk i).bulkIdx < db.bulkSize := less
        simp [beyond, less]

theorem inSet_foldl_iff {indices : List ℕ} {name : String} {member : RegionIdx} :
    (indices.foldl addToDefaultSets db).InSet name member ↔
      db.InSet name member ∨
        db.Counted member ∧ member.idx ∈ indices ∧ DefaultOf member name := by
  induction indices generalizing db with
  | nil => simp
  | cons i rest ih =>
      rw [List.foldl_cons, ih, inSet_addToDefaultSets_iff,
        (SameRegions.addToDefaultSets db i).counted, List.mem_cons, or_assoc]
      refine or_congr_right ⟨?_, ?_⟩
      · rintro (⟨counted, rfl, isDefault⟩ | ⟨counted, later, isDefault⟩)
        · exact ⟨counted, .inl rfl, isDefault⟩
        · exact ⟨counted, .inr later, isDefault⟩
      · rintro ⟨counted, rfl | later, isDefault⟩
        · exact .inl ⟨counted, rfl, isDefault⟩
        · exact .inr ⟨counted, later, isDefault⟩

/-! ## The closed database -/

theorem Growing.indexed_close (growing : Growing db) : Indexed db.close where
  indices := (SameRegions.close db).regionSet ▸ growing.indices
  kind item listed := by
    rw [(SameRegions.close db).regionSet] at listed
    exact ((SameRegions.close db).counted _).mpr (growing.kind item listed)
  used reg counted := by
    rw [(SameRegions.close db).regionSet]
    exact growing.used reg (((SameRegions.close db).counted reg).mp counted)

theorem Growing.tidy_close (growing : Growing db) : AllSets Tidy db.close := by
  refine AllSets.foldl fun setName set known => ?_
  cases (growing.noSets setName).symm.trans known

theorem Indexed.exists_iff (indexed : Indexed db) (reg : RegionIdx) :
    db.Exists reg ↔ db.Counted reg := by
  constructor
  · rintro ⟨item, listed, same⟩
    have counted := indexed.kind item listed
    rw [same] at counted
    exact counted
  · exact indexed.used reg

theorem Growing.inSet_close (growing : Growing db) {setName : String} {reg : RegionIdx} :
    db.close.InSet setName reg ↔ db.close.Exists reg ∧ DefaultOf reg setName := by
  have marked : SameRegions db { db with closed := true } := ⟨rfl, rfl, rfl⟩
  rw [growing.indexed_close.exists_iff, (SameRegions.close db).counted, ← marked.counted]
  unfold close
  rw [inSet_foldl_iff]
  constructor
  · rintro (⟨set, known, _⟩ | ⟨counted, _, isDefault⟩)
    · cases (growing.noSets setName).symm.trans known
    · exact ⟨counted, isDefault⟩
  · rintro ⟨counted, isDefault⟩
    exact .inr ⟨counted, List.mem_range.mpr counted.lt_size, isDefault⟩

/-- A name stands for a default set as soon as there is a region in it. -/
theorem Growing.names_iff (growing : Growing db) {setName : String}
    {members : RegionIdx → Prop} (inSet : ∀ reg, db.close.InSet setName reg ↔ members reg) :
    db.close.Names setName members ↔ ∃ reg, members reg := by
  constructor
  · rintro ⟨set, known, _, isMember⟩
    obtain ⟨reg, listed⟩ := List.exists_mem_of_ne_nil set (growing.tidy_close _ _ known).2
    exact ⟨reg, (isMember reg).mp listed⟩
  · rintro ⟨reg, member⟩
    obtain ⟨set, known, _⟩ := (inSet reg).mpr member
    refine ⟨set, known, (growing.tidy_close _ _ known).1, fun other => ?_⟩
    rw [← inSet]
    constructor
    · exact fun listed => ⟨set, known, listed⟩
    · rintro ⟨same, knownAlso, listed⟩
      cases known.symm.trans knownAlso
      exact listed

theorem Growing.inSet_default (growing : Growing db) {setName : String}
    {members : RegionIdx → Prop} (isDefault : db.close.DefaultSet setName members)
    (reg : RegionIdx) : db.close.InSet setName reg ↔ members reg := by
  rw [growing.inSet_close]
  cases isDefault with
  | all => exact and_iff_left (.inl rfl)
  | bulk =>
      refine and_congr_right fun _ => ?_
      unfold DefaultOf
      cases reg.isBoundary <;> simp
  | boundary =>
      refine and_congr_right fun _ => ?_
      unfold DefaultOf
      cases reg.isBoundary <;> simp

/-! ## Sets from the input -/

theorem mem_foldl_pushRegion {set regions : RegionSet} {reg : RegionIdx} :
    reg ∈ regions.foldl pushRegion set ↔ reg ∈ set ∨ reg.isValid = true ∧ reg ∈ regions := by
  induction regions generalizing set with
  | nil => simp
  | cons first rest ih =>
      rw [List.foldl_cons, ih, List.mem_cons]
      unfold pushRegion
      split_ifs with valid listed
      · constructor
        · exact Or.imp_right fun later => ⟨later.1, .inr later.2⟩
        · rintro (before | ⟨valid, rfl | later⟩)
          · exact .inl before
          · exact .inl listed
          · exact .inr ⟨valid, later⟩
      · rw [List.mem_append, List.mem_singleton]
        constructor
        · rintro ((before | rfl) | later)
          · exact .inl before
          · exact .inr ⟨valid, .inl rfl⟩
          · exact .inr ⟨later.1, .inr later.2⟩
        · rintro (before | ⟨valid, rfl | later⟩)
          · exact .inl (.inl before)
          · exact .inl (.inr rfl)
          · exact .inr ⟨valid, later⟩
      · constructor
        · exact Or.imp_right fun later => ⟨later.1, .inr later.2⟩
        · rintro (before | ⟨isValid, rfl | later⟩)
          · exact .inl before
          · exact absurd isValid valid
          · exact .inr ⟨isValid, later⟩

theorem nodup_foldl_pushRegion {set regions : RegionSet} (nodup : set.Nodup) :
    (regions.foldl pushRegion set).Nodup := by
  induction regions generalizing set with
  | nil => exact nodup
  | cons first rest ih =>
      refine ih ?_
      unfold pushRegion
      split_ifs with valid listed
      · exact nodup
      · rw [List.nodup_append]
        refine ⟨nodup, List.nodup_singleton first, fun one member last inNew => ?_⟩
        rw [List.mem_singleton.mp inNew]
        exact fun same => listed (same ▸ member)
      · exact nodup

theorem nodup_listRegions (definition : SetDefinition) : (db.listRegions definition).Nodup :=
  nodup_foldl_pushRegion (nodup_foldl_pushRegion .nil)

theorem mem_listRegions {definition : SetDefinition} {reg : RegionIdx} :
    reg ∈ db.listRegions definition ↔ db.listed definition reg := by
  unfold listRegions listed
  rw [mem_foldl_pushRegion, mem_foldl_pushRegion]
  simp only [List.not_mem_nil, false_or, List.mem_map]
  rw [← and_or_left]

/-- What is known of all sets while the definitions are read. -/
abbrev NoRepeats (db : RegionDB) : Prop := AllSets List.Nodup db

/-- A sorted set without repetitions, with the members of the set of the name. -/
structure Prepared (db : RegionDB) (setName : String) (set : RegionSet) : Prop where
  sorted : set.Pairwise (· < ·)
  mem_iff : ∀ reg, reg ∈ set ↔ db.InSet setName reg

theorem NoRepeats.prepared (noRepeats : NoRepeats db) {setName : String} {set : RegionSet}
    (known : db.sets setName = some set) :
    Prepared db setName (set.insertionSort (· ≤ ·)) where
  sorted := by
    have nodup : (set.insertionSort (· ≤ ·)).Nodup :=
      (List.perm_insertionSort _ set).nodup_iff.mpr (noRepeats setName set known)
    have ordered := List.pairwise_insertionSort (· ≤ ·) set
    exact (List.Pairwise.and ordered nodup).imp fun both => lt_of_le_of_ne both.1 both.2
  mem_iff reg := by
    rw [List.mem_insertionSort]
    constructor
    · exact fun listed => ⟨set, known, listed⟩
    · rintro ⟨same, knownAlso, listed⟩
      cases known.symm.trans knownAlso
      exact listed

theorem prepareSets_ok (noRepeats : NoRepeats db) {names : String × String}
    {sets : RegionSet × RegionSet} (returned : db.prepareSets names = .ok sets) :
    Prepared db names.1 sets.1 ∧ Prepared db names.2 sets.2 := by
  unfold prepareSets at returned
  split at returned
  case h_1 set1 set2 known1 known2 =>
    cases returned
    exact ⟨noRepeats.prepared known1, noRepeats.prepared known2⟩
  case h_2 => cases returned
  case h_3 => cases returned

/-- What an operation of a definition gives. -/
theorem override_ok (noRepeats : NoRepeats db) {operation : RegionSet → RegionSet → RegionSet}
    {names : Option (String × String)} {before after : RegionSet}
    (returned : db.override operation names before = .ok after) :
    (names = none ∧ after = before) ∨
      ∃ setName1 setName2 set1 set2, names = some (setName1, setName2) ∧
        Prepared db setName1 set1 ∧ Prepared db setName2 set2 ∧ after = operation set1 set2 := by
  unfold override at returned
  cases names with
  | none =>
      cases returned
      exact .inl ⟨rfl, rfl⟩
  | some names =>
      dsimp only at returned
      cases prepared : db.prepareSets names with
      | error error =>
          rw [prepared] at returned
          cases returned
      | ok sets =>
          rw [prepared] at returned
          cases returned
          obtain ⟨first, second⟩ := prepareSets_ok noRepeats prepared
          exact .inr ⟨names.1, names.2, sets.1, sets.2, rfl, first, second, rfl⟩

theorem nodup_of_sorted {set : RegionSet} (sorted : set.Pairwise (· < ·)) : set.Nodup :=
  sorted.imp ne_of_lt

theorem describedSet_ok (noRepeats : NoRepeats db) {definition : SetDefinition}
    {set : RegionSet} (returned : db.describedSet definition = .ok set) :
    set.Nodup ∧ ∀ reg, reg ∈ set ↔ db.described definition reg := by
  unfold describedSet at returned
  cases united : db.override setUnion definition.union (db.listRegions definition) with
  | error error =>
      rw [united] at returned
      cases returned
  | ok unionSet =>
      rw [united] at returned
      cases intersected :
          db.override setIntersection definition.intersection unionSet with
      | error error =>
          change (db.override setIntersection definition.intersection unionSet >>= _) = _
            at returned
          rw [intersected] at returned
          cases returned
      | ok intersectionSet =>
          change (db.override setIntersection definition.intersection unionSet >>= _) = _
            at returned
          rw [intersected] at returned
          have differed : db.override setDifference definition.difference intersectionSet =
              .ok set := returned
          unfold described
          rcases override_ok noRepeats differed with
            ⟨noDifference, rfl⟩ | ⟨_, _, set1, set2, isDifference, first, second, rfl⟩
          · rw [noDifference]
            rcases override_ok noRepeats intersected with
              ⟨noIntersection, rfl⟩ | ⟨_, _, set1, set2, isIntersection, first, second, rfl⟩
            · rw [noIntersection]
              rcases override_ok noRepeats united with
                ⟨noUnion, rfl⟩ | ⟨_, _, set1, set2, isUnion, first, second, rfl⟩
              · rw [noUnion]
                exact ⟨nodup_listRegions definition, fun reg => mem_listRegions⟩
              · rw [isUnion]
                refine ⟨nodup_of_sorted (setUnion_sorted first.sorted second.sorted), ?_⟩
                intro reg
                rw [mem_setUnion, first.mem_iff, second.mem_iff]
            · rw [isIntersection]
              refine ⟨nodup_of_sorted (first.sorted.sublist (set_intersection_sublist ..)), ?_⟩
              intro reg
              rw [mem_setIntersection first.sorted second.sorted, first.mem_iff, second.mem_iff]
          · rw [isDifference]
            refine ⟨nodup_of_sorted (first.sorted.sublist (setDifference_sublist ..)), ?_⟩
            intro reg
            rw [mem_setDifference first.sorted second.sorted, first.mem_iff, second.mem_iff]

/-! ## One definition after the other -/

theorem readSet_ok {definition : SetDefinition} {before after : RegionDB}
    (read : before.readSet definition = .ok after) :
    ∃ set, before.describedSet definition = .ok set ∧
      after = before.addSet definition.name set := by
  unfold readSet at read
  cases described : before.describedSet definition with
  | error error =>
      rw [described] at read
      cases read
  | ok set =>
      rw [described] at read
      cases read
      exact ⟨set, rfl, rfl⟩

theorem sets_addSet (db : RegionDB) (setName : String) (set : RegionSet) (name : String) :
    (db.addSet setName set).sets name =
      if name = setName ∧ db.sets setName = none then some set else db.sets name := by
  unfold addSet
  cases known : db.sets setName with
  | none =>
      by_cases here : name = setName
      · subst here
        simp
      · simp [here]
  | some old => simp

theorem readSet_noRepeats {definition : SetDefinition} {before after : RegionDB}
    (noRepeats : NoRepeats before) (read : before.readSet definition = .ok after) :
    NoRepeats after := by
  obtain ⟨set, described, rfl⟩ := readSet_ok read
  intro name other known
  rw [sets_addSet] at known
  split_ifs at known
  · cases known
    exact (describedSet_ok noRepeats described).1
  · exact noRepeats name other known

/-- A name that is taken keeps its set. -/
theorem readSet_keeps {definition : SetDefinition} {before after : RegionDB}
    (read : before.readSet definition = .ok after) {name : String} {set : RegionSet}
    (known : before.sets name = some set) : after.sets name = some set := by
  obtain ⟨other, described, rfl⟩ := readSet_ok read
  rw [sets_addSet]
  split_ifs with free
  · obtain ⟨rfl, free⟩ := free
    cases free.symm.trans known
  · exact known

theorem readSetsFromInput_meets (noRepeats : NoRepeats db) (definitions : List SetDefinition) :
    Meets (fun _ => True)
      (fun after => NoRepeats after ∧
        ∀ name set, db.sets name = some set → after.sets name = some set)
      (db.readSetsFromInput definitions) := by
  refine Meets.foldlM ⟨noRepeats, fun _ _ known => known⟩ fun state holds definition _ => ?_
  cases read : state.readSet definition with
  | error error => trivial
  | ok after =>
      exact ⟨readSet_noRepeats holds.1 read,
        fun name set known => readSet_keeps read (holds.2 name set known)⟩

/-- For all calls that do not end the program and all definitions. -/
theorem setsSound_iff {requests : List AddRegion} (added : init.addEach requests = .ok db)
    (definitions : List SetDefinition) :
    db.close.SetsSound definitions ↔
      (∃ reg, db.close.Exists reg ∧ reg.isBoundary = false) ∧
        (∃ reg, db.close.Exists reg ∧ reg.isBoundary = true) ∧
          ∀ definition before after, db.close.Reads definitions definition before after →
            ∀ set, before.sets definition.name = some set →
              ∀ reg, reg ∈ set ↔ before.described definition reg := by
  have growing := (addEach_growing requests).of_ok added
  have noRepeats : NoRepeats db.close := fun name set known =>
    (growing.tidy_close name set known).1
  have default_iff : ∀ {setName members}, db.close.DefaultSet setName members →
      (db.close.Names setName members ↔ ∃ reg, members reg) := fun isDefault =>
    growing.names_iff (growing.inSet_default isDefault)
  constructor
  · rintro ⟨defaults, defined⟩
    have atClose : ∀ {setName members}, db.close.DefaultSet setName members →
        db.close.Names setName members := fun isDefault =>
      defaults [] definitions db.close rfl rfl _ _ isDefault List.not_mem_nil
    refine ⟨(default_iff .bulk).mp (atClose .bulk),
      (default_iff .boundary).mp (atClose .boundary), ?_⟩
    intro definition before after reads set known reg
    obtain ⟨final, found, _, isMember⟩ := defined definition before after reads
    obtain ⟨earlier, later, _, _, read⟩ := reads
    cases (readSet_keeps read known).symm.trans found
    exact isMember reg
  · rintro ⟨someBulk, someBoundary, same⟩
    constructor
    · intro earlier later current _ read setName members isDefault _
      have exist : ∃ reg, members reg := by
        cases isDefault with
        | all => exact someBulk.imp fun reg bulk => bulk.1
        | bulk => exact someBulk
        | boundary => exact someBoundary
      obtain ⟨set, known, nodup, isMember⟩ := (default_iff isDefault).mpr exist
      have kept := ((readSetsFromInput_meets noRepeats earlier).of_ok read).2
      exact ⟨set, kept setName set known, nodup, isMember⟩
    · intro definition before after reads
      obtain ⟨earlier, later, isList, readBefore, read⟩ := reads
      have noRepeatsBefore := ((readSetsFromInput_meets noRepeats earlier).of_ok readBefore).1
      have reads : db.close.Reads definitions definition before after :=
        ⟨earlier, later, isList, readBefore, read⟩
      cases known : before.sets definition.name with
      | some set =>
          exact ⟨set, readSet_keeps read known, noRepeatsBefore _ set known,
            same definition before after reads set known⟩
      | none =>
          obtain ⟨set, described, rfl⟩ := readSet_ok read
          obtain ⟨nodup, isMember⟩ := describedSet_ok noRepeatsBefore described
          refine ⟨set, ?_, nodup, isMember⟩
          rw [getRegionSet, sets_addSet, if_pos ⟨rfl, known⟩]

/-! ## Two regions and a name that is taken -/

def bulkAndBoundary : List AddRegion := [.withId 1 3, .withLabel 2 ".side" 2]

/-- The union of the bulk and the boundary. -/
def everything : SetDefinition := ⟨"all", [], [], some ("BULK", "BOUNDARY"), none, none⟩

def twoRegions : RegionDB :=
  ⟨[⟨1, 1, "region_1", 3⟩, ⟨0, 2, ".side", 2⟩], false, 1, 1, fun _ => none⟩

theorem setsSound_iff_everything : twoRegions.close.SetsSound [everything] ↔
    (∃ reg, twoRegions.close.Exists reg ∧ reg.isBoundary = false) ∧
      (∃ reg, twoRegions.close.Exists reg ∧ reg.isBoundary = true) ∧
        ∀ definition before after, twoRegions.close.Reads [everything] definition before after →
          ∀ set, before.sets definition.name = some set →
            ∀ reg, reg ∈ set ↔ before.described definition reg :=
  setsSound_iff (rfl : init.addEach bulkAndBoundary = .ok twoRegions) [everything]

def onlyBoundary : RegionDB :=
  ⟨[⟨0, 0xffffffff - 2, "IMPLICIT BOUNDARY", undefinedDim⟩], false, 1, 0, fun _ => none⟩

/-- Without a bulk region. -/
theorem not_always_setsSound : ¬ ∀ requests db definitions,
    init.addEach requests = .ok db → db.close.SetsSound definitions := by
  intro always
  have sound := always [.implicitBoundary] onlyBoundary [] rfl
  obtain ⟨set, known, _⟩ := sound.defaults [] [] _ rfl rfl "BULK" _ .bulk List.not_mem_nil
  have missing : onlyBoundary.close.getRegionSet "BULK" = none := rfl
  cases missing.symm.trans known

end RegionDB

end Flow123d
