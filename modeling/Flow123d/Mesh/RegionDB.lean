import Mathlib.Data.Nat.Notation
import Mathlib.Logic.Function.Basic
import Flow123d.Library.Numerals

/-!
# The database of regions

Boundary regions have even indices and bulk regions odd ones. A table over all regions has
as many items as `RegionDB::size`, which is greater than the index of every region.
-/

set_option autoImplicit false

namespace Flow123d

structure RegionIdx where
  idx : ℕ
deriving DecidableEq

namespace RegionIdx

/-- The index of a region that the database does not know. -/
def undefined : RegionIdx := ⟨0xffffffff⟩

def isBoundary (reg : RegionIdx) : Bool := reg.idx % 2 == 0

def isValid (reg : RegionIdx) : Bool := reg != undefined

def boundaryIdx (reg : RegionIdx) : ℕ := reg.idx / 2

def bulkIdx (reg : RegionIdx) : ℕ := reg.idx / 2

end RegionIdx

abbrev RegionSet := List RegionIdx

structure RegionItem where
  index : ℕ
  id : ℕ
  label : String
  dim : ℕ
deriving DecidableEq

inductive RegionError where
  | addToClosed
  | nonuniqueID (label : String) (id : ℕ) (labelOfOtherID : String)
  | nonuniqueLabel (label : String) (id idOfOtherLabel : ℕ)
  | inconsistentBoundary (label : String) (id : ℕ)
  | inconsistentDimension (label : String) (id : ℕ)
  | cantAdd (label : String) (id : ℕ)
  | tooManyRegions
  /-- A label that was not found is read. -/
  | endDereferenced
deriving DecidableEq

structure RegionDB where
  regionSet : List RegionItem
  closed : Bool
  nBoundary : ℕ
  nBulk : ℕ
  sets : String → Option RegionSet

namespace RegionDB

def maxNRegions : ℕ := 64000

def undefinedDim : ℕ := 10

def init : RegionDB := ⟨[], false, 0, 0, fun _ => none⟩

/-! ## Lookup -/

def itemOfId (db : RegionDB) (id : ℕ) : Option RegionItem :=
  db.regionSet.find? fun item => item.id == id

def itemOfLabel (db : RegionDB) (label : String) : Option RegionItem :=
  db.regionSet.find? fun item => item.label == label

def itemOfIndex (db : RegionDB) (index : ℕ) : Option RegionItem :=
  db.regionSet.find? fun item => item.index == index

def region (item : Option RegionItem) : RegionIdx :=
  match item with
  | none => .undefined
  | some item => ⟨item.index⟩

def findLabel (db : RegionDB) (label : String) : RegionIdx := region (db.itemOfLabel label)

def findId (db : RegionDB) (id : ℕ) : RegionIdx := region (db.itemOfId id)

/-! ## Adding regions -/

def replace (db : RegionDB) (item : RegionItem) : RegionDB :=
  { db with
    regionSet := db.regionSet.map fun other =>
      if other.index = item.index then item else other }

/-- A region from the mesh record has no dimension yet and is given one. -/
def checkDimConsistency (db : RegionDB) (found : RegionItem) (dim : ℕ) :
    Except RegionError RegionDB :=
  if found.dim = dim then .ok db
  else if found.dim = undefinedDim then .ok (db.replace { found with dim := dim })
  else .error (.inconsistentDimension found.label found.id)

/-- The label has to belong to the region of the ID, unless this has no dimension yet. -/
def checkLabel (db : RegionDB) (found : RegionItem) (label : String) :
    Except RegionError Unit :=
  if found.dim = undefinedDim then .ok ()
  else match db.itemOfLabel label with
    | none => .error .endDereferenced
    | some named =>
        if found.index = named.index then .ok ()
        else .error (.nonuniqueID label found.id found.label)

def addKnown (db : RegionDB) (found : RegionItem) (label : String) (dim : ℕ)
    (boundary : Bool) : Except RegionError RegionIdx × RegionDB :=
  match db.checkLabel found label with
  | .error error => (.error error, db)
  | .ok () =>
      match db.checkDimConsistency found dim with
      | .error error => (.error error, db)
      | .ok updated =>
          if (RegionIdx.mk found.index).isBoundary = boundary then
            (.ok ⟨found.index⟩, updated)
          else
            (.error (.inconsistentBoundary label found.id), updated)

def newIndex (db : RegionDB) (boundary : Bool) : ℕ :=
  if boundary then 2 * db.nBoundary else 2 * db.nBulk + 1

def count (db : RegionDB) (boundary : Bool) : RegionDB :=
  if boundary then { db with nBoundary := db.nBoundary + 1 }
  else { db with nBulk := db.nBulk + 1 }

/-- The number of regions is increased before it is compared with the limit. -/
def addNew (db : RegionDB) (id : ℕ) (label : String) (dim : ℕ) (boundary : Bool) :
    Except RegionError RegionIdx × RegionDB :=
  let index := db.newIndex boundary
  let counted := db.count boundary
  if maxNRegions ≤ index then (.error .tooManyRegions, counted)
  else if (db.itemOfIndex index).isSome then (.error (.cantAdd label id), counted)
  else
    (.ok ⟨index⟩, { counted with regionSet := db.regionSet ++ [⟨index, id, label, dim⟩] })

def addRegion (db : RegionDB) (id : ℕ) (label : String) (dim : ℕ) (boundary : Bool) :
    Except RegionError RegionIdx × RegionDB :=
  if db.closed then (.error .addToClosed, db)
  else match db.itemOfId id, db.itemOfLabel label with
    | some found, _ => db.addKnown found label dim boundary
    | none, some other => (.error (.nonuniqueLabel label id other.id), db)
    | none, none => db.addNew id label dim boundary

def defaultLabel (id : ℕ) : String := "region_" ++ toString id

/-- The overload without a boundary flag: labels of boundary regions start with a dot. -/
def addRegionOfLabel (db : RegionDB) (id : ℕ) (label : String) (dim : ℕ) :
    Except RegionError RegionIdx × RegionDB :=
  if label = "" then db.addRegion id (defaultLabel id) dim false
  else db.addRegion id label dim (label.toList.head? == some '.')

/-- The overload without a label. It finds a known region in a closed database too. -/
def addRegionOfId (db : RegionDB) (id : ℕ) (dim : ℕ) :
    Except RegionError RegionIdx × RegionDB :=
  match db.itemOfId id with
  | none => db.addRegion id (defaultLabel id) dim false
  | some found =>
      match db.checkDimConsistency found dim with
      | .error error => (.error error, db)
      | .ok updated => (.ok ⟨found.index⟩, updated)

def implicitBoundaryRegion (db : RegionDB) : Except RegionError RegionIdx × RegionDB :=
  db.addRegion (RegionIdx.undefined.idx - 2) "IMPLICIT BOUNDARY" undefinedDim true

/-- A call of one of the overloads. -/
inductive AddRegion where
  | withKind (id : ℕ) (label : String) (dim : ℕ) (boundary : Bool)
  | withLabel (id : ℕ) (label : String) (dim : ℕ)
  | withId (id dim : ℕ)
  | implicitBoundary
deriving DecidableEq

def add (db : RegionDB) : AddRegion → Except RegionError RegionIdx × RegionDB
  | .withKind id label dim boundary => db.addRegion id label dim boundary
  | .withLabel id label dim => db.addRegionOfLabel id label dim
  | .withId id dim => db.addRegionOfId id dim
  | .implicitBoundary => db.implicitBoundaryRegion

/-! ## Region sets -/

def addToSet (db : RegionDB) (setName : String) (reg : RegionIdx) : RegionDB :=
  match db.sets setName with
  | none => { db with sets := Function.update db.sets setName (some [reg]) }
  | some set =>
      if reg ∈ set then db
      else { db with sets := Function.update db.sets setName (some (set ++ [reg])) }

/-- A set of the name that is there already is kept. -/
def addSet (db : RegionDB) (setName : String) (set : RegionSet) : RegionDB :=
  match db.sets setName with
  | none => { db with sets := Function.update db.sets setName (some set) }
  | some _ => db

def getRegionSet (db : RegionDB) (setName : String) : Option RegionSet := db.sets setName

/-- The database has to be closed, as for the two sizes below. -/
def size (db : RegionDB) : ℕ := 2 * max db.nBoundary db.nBulk

def boundarySize (db : RegionDB) : ℕ := db.nBoundary

def bulkSize (db : RegionDB) : ℕ := db.nBulk

/-- Adds the region of the index to the default sets, if there is one. -/
def addToDefaultSets (db : RegionDB) (i : ℕ) : RegionDB :=
  let reg := RegionIdx.mk i
  if reg.isBoundary && decide (reg.boundaryIdx < db.boundarySize) then
    (db.addToSet "BOUNDARY" reg).addToSet "ALL" reg
  else if !reg.isBoundary && decide (reg.bulkIdx < db.bulkSize) then
    (db.addToSet "BULK" reg).addToSet "ALL" reg
  else db

def close (db : RegionDB) : RegionDB :=
  (List.range db.size).foldl addToDefaultSets { db with closed := true }

/-! ## Databases of a mesh -/

/-- The region is one of those that have been counted. -/
def Counted (db : RegionDB) (reg : RegionIdx) : Prop :=
  reg.idx / 2 < if reg.isBoundary then db.nBoundary else db.nBulk

/-- While the mesh is read. -/
inductive Opened : RegionDB → Prop where
  | init : Opened init
  | add {db : RegionDB} (opened : Opened db) (request : AddRegion) :
      Opened (db.add request).2

/-- With the mesh and the sets that are added to it. These are made of regions that are
found by their labels and IDs, and of other sets. -/
inductive Built : RegionDB → Prop where
  | close {db : RegionDB} (opened : Opened db) : Built db.close
  | addSet {db : RegionDB} (built : Built db) (setName : String) {set : RegionSet}
      (known : ∀ reg ∈ set, db.Counted reg) : Built (db.addSet setName set)

end RegionDB

end Flow123d
