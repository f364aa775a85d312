import Mathlib.Algebra.Order.Group.MinMax
import Mathlib.Tactic.Linarith
import Flow123d.Coupling.TimeGovernor
import Flow123d.Coupling.TimeGovernorProperties
import Flow123d.Fields.Field
import Flow123d.Fields.FieldProperties
import Flow123d.Library.SortedLists

/-!
# Data of an equation

The lists of boundary and bulk records that give input to the fields of an equation. Each
list is read by an iterator, as far as the time of the equation goes.
-/

set_option autoImplicit false

namespace Flow123d

open Flow123d.Library

variable {A : Type}

/-- A record of the list `bc_data` or `bulk_data`. The fields are those it has keys for. -/
structure DataRecord (A : Type) where
  rSet : Option String
  region : Option String
  rid : Option ℕ
  time : ℚ
  fields : List (String × A)
deriving DecidableEq

def DataRecord.find (record : DataRecord A) (name : String) : Option A :=
  record.fields.lookup name

/-- The fields of an equation, in the order in which they are added. A field can only be
controlled by one that was added before, and on regions of the same kind. -/
structure FieldList (A : Type) where
  declarations : List (FieldDeclaration A)
  controls : ∀ i c (declaration : FieldDeclaration A), declarations[i]? = some declaration →
    declaration.noCheckControlField = some c →
    c < i ∧ ∀ control : FieldDeclaration A, declarations[c]? = some control →
      control.bc = declaration.bc

structure EqDataBase (A : Type) where
  fieldList : List (RegionField A)
  bulkInputArray : List (DataRecord A)
  bulkIt : ℕ
  boundaryInputArray : List (DataRecord A)
  boundaryIt : ℕ
deriving DecidableEq

namespace EqDataBase

/-! ## Input lists -/

def checkTimes : ℚ → List (DataRecord A) → Except FieldError Unit
  | _, [] => .ok ()
  | lastTime, record :: rest =>
      if record.time < lastTime then .error (.smallerTime record.time lastTime)
      else checkTimes record.time rest

def initFromInput (fields : FieldList A) (bulkList bcList : List (DataRecord A)) :
    Except FieldError (EqDataBase A) := do
  checkTimes 0 bulkList
  checkTimes 0 bcList
  pure {
    fieldList := fields.declarations.map FieldDeclaration.field
    bulkInputArray := bulkList
    bulkIt := 0
    boundaryInputArray := bcList
    boundaryIt := 0 }

/-! ## Reading a record -/

variable (fieldBase : FieldBase A) (db : RegionDB)

/-- A region that is not found is put into the domain too, after a warning. -/
def readDomain (record : DataRecord A) (bcRegions : Bool) (item : ℕ) :
    Except FieldError RegionSet :=
  match record.rSet, record.region, record.rid with
  | some name, _, _ => db.findRegionSet name
  | none, some label, _ => .ok [db.findLabel label]
  | none, none, some id => .ok [db.findId id]
  | none, none, none => .error (.missingDomain bcRegions item)

def readField (record : DataRecord A) (bcRegions : Bool) (domain : RegionSet)
    (field : RegionField A) : Except FieldError (RegionField A) :=
  if bcRegions = field.bc then
    match record.find field.name with
    | some fieldRecord => field.setFromInput fieldBase db domain fieldRecord
    | none => .ok field
  else .ok field

def readListItem (record : DataRecord A) (bcRegions : Bool) (item : ℕ)
    (fieldList : List (RegionField A)) : Except FieldError (RegionSet × List (RegionField A)) := do
  let domain ← readDomain db record bcRegions item
  let updated ← fieldList.mapM (readField fieldBase db record bcRegions domain)
  pure (domain, updated)

/-! ## Setting the time -/

/-- Reads the rest of a list from the position of its iterator. -/
def readList (time : TimeGovernor) (bcRegions : Bool) :
    List (DataRecord A) → ℕ → List (RegionField A) → Except FieldError (ℕ × List (RegionField A))
  | [], it, fieldList => .ok (it, fieldList)
  | record :: rest, it, fieldList =>
      if time.ge (.fin record.time) then do
        let (_, updated) ← readListItem fieldBase db record bcRegions it fieldList
        readList time bcRegions rest (it + 1) updated
      else .ok (it, fieldList)

def controlOf (fieldList : List (RegionField A)) (field : RegionField A) : Option (RegionField A) :=
  field.noCheckControlField.bind fun position => fieldList[position]?

def setFieldTime (time : Double) (bcRegions : Bool) (fieldList : List (RegionField A))
    (field : RegionField A) : Except FieldError (RegionField A) :=
  if bcRegions = field.bc then do
    let (_, updated) ← field.setTime fieldBase db (controlOf fieldList field) time
    pure updated
  else .ok field

/-- Goes through the rest of the fields, after those that are done. -/
def setFieldTimes (time : Double) (bcRegions : Bool) :
    List (RegionField A) → List (RegionField A) → Except FieldError (List (RegionField A))
  | done, [] => .ok done
  | done, field :: rest => do
      let updated ← setFieldTime fieldBase db time bcRegions (done ++ field :: rest) field
      setFieldTimes time bcRegions (done ++ [updated]) rest

def setListTime (time : TimeGovernor) (list : List (DataRecord A)) (it : ℕ) (bcRegions : Bool)
    (fieldList : List (RegionField A)) : Except FieldError (ℕ × List (RegionField A)) := do
  let (next, read) ← readList fieldBase db time bcRegions (list.drop it) it fieldList
  let updated ← setFieldTimes fieldBase db time.time bcRegions [] read
  pure (next, updated)

def setTime (data : EqDataBase A) (time : TimeGovernor) : Except FieldError (EqDataBase A) := do
  let (boundaryIt, read) ← setListTime fieldBase db time data.boundaryInputArray
    data.boundaryIt true data.fieldList
  let (bulkIt, updated) ← setListTime fieldBase db time data.bulkInputArray data.bulkIt false
    read
  pure { data with fieldList := updated, boundaryIt := boundaryIt, bulkIt := bulkIt }

def setTimes (data : EqDataBase A) (calls : List TimeGovernor) :
    Except FieldError (EqDataBase A) :=
  calls.foldlM (setTime fieldBase db) data

end EqDataBase

end Flow123d

/-!
## What the input lists say

The last record that gives input to a field on a region, among those whose time has come, and
the regions where the check of a field is turned off when the time is set first.
-/

namespace Flow123d

open Flow123d.Library

variable {A : Type}

namespace DataRecord

variable (db : RegionDB) (record : DataRecord A)

def covers (reg : RegionIdx) : Bool :=
  match record.rSet, record.region, record.rid with
  | some name, _, _ => (db.getRegionSet name).any fun set => set.contains reg
  | none, some label, _ => db.findLabel label == reg
  | none, none, some id => db.findId id == reg
  | none, none, none => false

def inputFor (name : String) (reg : RegionIdx) : Option A :=
  if record.covers db reg then record.find name else none

/-- The record has a label or an ID that belongs to no region. -/
def unknownRegion : Bool :=
  match record.rSet, record.region, record.rid with
  | some _, _, _ => false
  | none, some label, _ => (db.itemOfLabel label).isNone
  | none, none, some id => (db.itemOfId id).isNone
  | none, none, none => false

end DataRecord

/-- What the last record gives that names the field and covers the region. -/
def lastInput (db : RegionDB) (records : List (DataRecord A)) (name : String)
    (reg : RegionIdx) : Option A :=
  records.reverse.findSome? fun record => record.inputFor db name reg

/-- The records whose time has come. -/
def due (time : TimeGovernor) (records : List (DataRecord A)) : List (DataRecord A) :=
  records.filter fun record => time.ge (.fin record.time)

theorem lastInput_snoc (db : RegionDB) (records : List (DataRecord A)) (record : DataRecord A)
    (name : String) (reg : RegionIdx) :
    lastInput db (records ++ [record]) name reg =
      (record.inputFor db name reg).or (lastInput db records name reg) := by
  unfold lastInput
  rw [List.reverse_append, List.reverse_singleton, List.singleton_append,
    List.findSome?_cons]
  cases record.inputFor db name reg <;> rfl

/-! ## Times -/

namespace TimeGovernor

variable {tg other : TimeGovernor} {r r' : ℚ}

theorem ge_fin {t : ℚ} (time : tg.time = .fin t) :
    tg.ge (.fin r) = true ↔ r - 16 * Double.epsilon * max |t| |r| ≤ t := by
  unfold ge
  rw [time, precision_fin, Double.fin_sub_fin, decide_eq_true_eq, Double.fin_le_fin]

theorem ge_posInf (time : tg.time = .posInf) : tg.ge (.fin r) = true := by
  unfold ge
  rw [time, posInf_precision (by simp), decide_eq_true_eq]
  rfl

theorem small_precision : 16 * Double.epsilon ≤ 1 := by
  unfold Double.epsilon
  norm_num

/-- The tolerance changes slower than the time. -/
theorem precision_sub_le (t t' m : ℚ) :
    |16 * Double.epsilon * (max |t| |m|) - 16 * Double.epsilon * (max |t'| |m|)| ≤ |t - t'| := by
  have positive := epsilon_pos
  have nonneg : 0 ≤ 16 * Double.epsilon := by positivity
  have bound : |(max |t| |m|) - (max |t'| |m|)| ≤ |t - t'| :=
    (abs_max_sub_max_le_abs _ _ _).trans (abs_abs_sub_abs_le_abs_sub t t')
  rw [← mul_sub, abs_mul, abs_of_nonneg nonneg]
  calc 16 * Double.epsilon * |(max |t| |m|) - (max |t'| |m|)|
      ≤ 1 * |t - t'| := mul_le_mul small_precision bound (abs_nonneg _) zero_le_one
    _ = |t - t'| := one_mul _

/-- A time has come at every later time. -/
theorem ge_of_later (started : .negInf < tg.time) (later : tg.time ≤ other.time)
    (come : tg.ge (.fin r) = true) : other.ge (.fin r) = true := by
  cases time : tg.time with
  | nan =>
      rw [time] at started
      cases started
  | negInf =>
      rw [time] at started
      cases started
  | posInf =>
      cases otherTime : other.time with
      | posInf => exact ge_posInf otherTime
      | nan =>
          rw [time, otherTime] at later
          cases later
      | negInf =>
          rw [time, otherTime] at later
          cases later
      | fin t' =>
          rw [time, otherTime] at later
          cases later
  | fin t =>
      cases otherTime : other.time with
      | posInf => exact ge_posInf otherTime
      | nan =>
          rw [time, otherTime] at later
          cases later
      | negInf =>
          rw [time, otherTime] at later
          cases later
      | fin t' =>
          rw [time, otherTime, Double.fin_le_fin] at later
          rw [ge_fin time] at come
          rw [ge_fin otherTime]
          have slower := (le_abs_self _).trans (precision_sub_le t t' r)
          rw [abs_sub_comm, abs_of_nonneg (sub_nonneg.mpr later)] at slower
          linarith

/-- With a time every earlier time has come. -/
theorem ge_of_earlier (started : .negInf < tg.time) (earlier : r' ≤ r)
    (come : tg.ge (.fin r) = true) : tg.ge (.fin r') = true := by
  cases time : tg.time with
  | nan =>
      rw [time] at started
      cases started
  | negInf =>
      rw [time] at started
      cases started
  | posInf => exact ge_posInf time
  | fin t =>
      rw [ge_fin time] at come ⊢
      have slower := (le_abs_self _).trans (precision_sub_le r r' t)
      rw [abs_of_nonneg (sub_nonneg.mpr earlier), max_comm, max_comm |r'|] at slower
      linarith

end TimeGovernor

namespace EqDataBase

theorem sorted_of_checkTimes {lastTime : ℚ} {list : List (DataRecord A)}
    (checked : checkTimes lastTime list = .ok ()) :
    (∀ record ∈ list, lastTime ≤ record.time) ∧
      list.Pairwise fun before record => before.time ≤ record.time := by
  induction list generalizing lastTime with
  | nil => exact ⟨nofun, .nil⟩
  | cons record rest ih =>
      unfold checkTimes at checked
      split_ifs at checked with smaller
      obtain ⟨above, sorted⟩ := ih checked
      have first := not_lt.mp smaller
      refine ⟨?_, List.pairwise_cons.mpr ⟨above, sorted⟩⟩
      intro other listed
      rcases List.mem_cons.mp listed with rfl | behind
      · exact first
      · exact first.trans (above other behind)

theorem initially_due {time : TimeGovernor} (started : .negInf < time.time)
    {list : List (DataRecord A)}
    (sorted : list.Pairwise fun before record => before.time ≤ record.time) :
    Initially (fun record => time.ge (.fin record.time)) list :=
  sorted.imp fun ordered => time.ge_of_earlier started ordered

end EqDataBase

/-! ## The equation -/

/-- The input of an equation: the fields, the mesh and the two lists. -/
structure EquationInput (A : Type) where
  fieldBase : FieldBase A
  db : RegionDB
  fields : FieldList A
  bulkList : List (DataRecord A)
  bcList : List (DataRecord A)

namespace EquationInput

variable (input : EquationInput A)

def list (bcRegions : Bool) : List (DataRecord A) :=
  if bcRegions then input.bcList else input.bulkList

/-- What a field uses when the time is set first, if its check is turned off or not. -/
def usedFirst (first : TimeGovernor) (disabled : Bool) (declaration : FieldDeclaration A)
    (reg : RegionIdx) : Option A :=
  (lastInput input.db (due first (input.list declaration.bc)) declaration.name reg).or
    (if disabled then none else declaration.dflt)

/-- The control field turns off the check of the field on the region when the time is set
first: what it uses there is a constant with one of the values. -/
def disabledAt (first : TimeGovernor) (reg : RegionIdx) (i : ℕ) : Bool :=
  match input.fields.declarations[i]? with
  | none => false
  | some declaration =>
      match declaration.noCheckControlField with
      | none => false
      | some c =>
          if c < i then
            declaration.disables input.fieldBase
              (input.fields.declarations[c]?.bind fun control =>
                input.usedFirst first (disabledAt first reg c) control reg)
          else false
termination_by i

end EquationInput

end Flow123d
