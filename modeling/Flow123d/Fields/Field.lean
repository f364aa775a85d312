import Flow123d.Library.Double
import Flow123d.Mesh.RegionDB

/-!
# Fields on the regions of a mesh

A field has a table with a pointer to a field object for each region index. The objects are
shared by regions; a pointer is the position at which the field has made its object. What an
object does follows from the input record it was made of and the times it was set to.
-/

set_option autoImplicit false

namespace Flow123d

open Flow123d.Library

variable {A : Type}

structure FieldObject (A : Type) where
  record : A
  times : List Double
deriving DecidableEq

/-- The descendants of the class `FieldBase`. -/
structure FieldBase (A : Type) where
  /-- The text of the error, if the record is not accepted. -/
  initFromInput : A → Option String
  /-- The value, if the record makes a `FieldConstant` of an enumeration. -/
  constantEnumValue : A → Option ℕ
  /-- Whether an object reports that its values changed. -/
  setTime : FieldObject A → Double → Bool

/-- What stops a field or the equation that reads its input. -/
inductive FieldError where
  /-- The table of a field has no item of the index. -/
  | outOfRange (idx : ℕ)
  | missingValue (field : String) (region : Option RegionItem)
  | undefinedRegionSet (setName : String)
  | initFromInput (message : String)
  | missingDomain (bcRegions : Bool) (item : ℕ)
  | smallerTime (time lastTime : ℚ)
deriving DecidableEq

/-- What a field is given before it is used. -/
structure FieldDeclaration (A : Type) where
  name : String
  bc : Bool
  /-- The record that the text of the default value is read as. -/
  dflt : Option A
  /-- The position of the field in the list of its equation. -/
  noCheckControlField : Option ℕ
  noCheckValues : List ℕ
deriving DecidableEq

/-- The class template `Field`. -/
structure RegionField (A : Type) extends FieldDeclaration A where
  objects : List (FieldObject A)
  regionFields : List (Option ℕ)
  isFullyInitialized : Bool
  changedFromLastSetTime : Bool
  changedDuringSetTime : Bool
  lastSetTime : Double
deriving DecidableEq

def FieldDeclaration.field (declaration : FieldDeclaration A) : RegionField A where
  toFieldDeclaration := declaration
  objects := []
  regionFields := []
  isFullyInitialized := false
  changedFromLastSetTime := false
  changedDuringSetTime := false
  lastSetTime := .negInf

def FieldBase.functionFactory (fieldBase : FieldBase A) (record : A) :
    Except FieldError (FieldObject A) :=
  match fieldBase.initFromInput record with
  | some message => .error (.initFromInput message)
  | none => .ok ⟨record, []⟩

def RegionDB.findRegionSet (db : RegionDB) (setName : String) : Except FieldError RegionSet :=
  match db.getRegionSet setName with
  | some set => .ok set
  | none => .error (.undefinedRegionSet setName)

namespace RegionField

variable (fieldBase : FieldBase A) (db : RegionDB)

/-! ## The table -/

def pointer (field : RegionField A) (reg : RegionIdx) : Except FieldError (Option ℕ) :=
  match field.regionFields[reg.idx]? with
  | some entry => .ok entry
  | none => .error (.outOfRange reg.idx)

def store (object : ℕ) (table : List (Option ℕ)) (reg : RegionIdx) :
    Except FieldError (List (Option ℕ)) :=
  if reg.idx < table.length then .ok (table.set reg.idx (some object))
  else .error (.outOfRange reg.idx)

/-- The table, which is made when it is needed first. -/
def resized (field : RegionField A) : List (Option ℕ) :=
  if field.regionFields.isEmpty then List.replicate db.size none else field.regionFields

def setField (field : RegionField A) (domain : RegionSet) (object : FieldObject A) :
    Except FieldError (RegionField A) :=
  if domain.isEmpty then .ok field
  else do
    let table ← domain.foldlM (store field.objects.length) (field.resized db)
    pure { field with
      objects := field.objects ++ [object]
      regionFields := table
      changedFromLastSetTime := true }

def setFromInput (field : RegionField A) (domain : RegionSet) (record : A) :
    Except FieldError (RegionField A) := do
  let object ← fieldBase.functionFactory record
  field.setField db domain object

/-! ## Initialization -/

def getConstantEnumValue (field : RegionField A) (reg : RegionIdx) :
    Except FieldError (Option ℕ) := do
  let entry ← field.pointer reg
  pure (entry.bind fun object =>
    field.objects[object]?.bind fun made => fieldBase.constantEnumValue made.record)

/-- The control field turns the check off for the region. -/
def noCheck (field : RegionField A) (control : Option (RegionField A)) (reg : RegionIdx) :
    Except FieldError Bool :=
  match control with
  | none => .ok false
  | some control => do
      let value ← control.getConstantEnumValue fieldBase reg
      pure (value.any fun value => field.noCheckValues.contains value)

def fromDefault (field : RegionField A) (reg : RegionIdx) : Except FieldError Bool :=
  if field.dflt.isSome then .ok true
  else .error (.missingValue field.name (db.itemOfIndex reg.idx))

/-- The region is to be initialized with the default value. -/
def needsDefault (field : RegionField A) (control : Option (RegionField A)) (reg : RegionIdx) :
    Except FieldError Bool :=
  if reg.isBoundary = field.bc then do
    let entry ← field.pointer reg
    if entry.isSome then pure false
    else do
      let disabled ← field.noCheck fieldBase control reg
      if disabled then pure false else field.fromDefault db reg
  else .ok false

def collect (field : RegionField A) (control : Option (RegionField A)) (regionsToInit : RegionSet)
    (reg : RegionIdx) : Except FieldError RegionSet := do
  let needed ← field.needsDefault fieldBase db control reg
  pure (if needed then regionsToInit ++ [reg] else regionsToInit)

def setDefault (field : RegionField A) (regionsToInit : RegionSet) :
    Except FieldError (RegionField A) :=
  match field.dflt with
  | none => .ok field
  | some record =>
      if regionsToInit.isEmpty then .ok field
      else field.setFromInput fieldBase db regionsToInit record

def initializeRegionFields (field : RegionField A) (control : Option (RegionField A)) :
    Except FieldError (RegionField A) := do
  let all ← db.findRegionSet "ALL"
  let regionsToInit ← all.foldlM (field.collect fieldBase db control) []
  let initialized ← field.setDefault fieldBase db regionsToInit
  pure { initialized with isFullyInitialized := true }

def checkInitializedRegionFields (field : RegionField A) (control : Option (RegionField A)) :
    Except FieldError (RegionField A) :=
  if field.isFullyInitialized then .ok field
  else
    initializeRegionFields fieldBase db { field with regionFields := field.resized db } control

/-! ## Setting the time -/

def setObjectTime (time : Double) (field : RegionField A) (object : ℕ) : RegionField A :=
  match field.objects[object]? with
  | none => field
  | some made =>
      { field with
        objects := field.objects.set object { made with times := made.times ++ [time] }
        changedFromLastSetTime :=
          field.changedFromLastSetTime || fieldBase.setTime made time }

def setRegionTime (time : Double) (field : RegionField A) (reg : RegionIdx) :
    Except FieldError (RegionField A) :=
  if reg.isBoundary = field.bc then do
    let entry ← field.pointer reg
    pure (entry.elim field (field.setObjectTime fieldBase time))
  else .ok field

def setRegionTimes (time : Double) (field : RegionField A) : Except FieldError (RegionField A) := do
  let all ← db.findRegionSet "ALL"
  let final ← all.foldlM (setRegionTime fieldBase time) field
  pure { final with
    changedDuringSetTime := final.changedFromLastSetTime
    changedFromLastSetTime := false }

/-- The time is set only once. Returns whether the values changed, too. -/
def setTime (control : Option (RegionField A)) (time : Double) (field : RegionField A) :
    Except FieldError (Bool × RegionField A) :=
  if Double.equal time field.lastSetTime then .ok (false, field)
  else do
    let initialized ←
      checkInitializedRegionFields fieldBase db { field with lastSetTime := time } control
    let final ← setRegionTimes fieldBase db time initialized
    pure (final.changedDuringSetTime, final)

end RegionField

end Flow123d
