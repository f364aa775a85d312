import Flow123d.Input.TypedStorage

/-!
# Accessors to the input data

`Input::Record`, `Input::AbstractRecord` and `Input::Array` read the storage along the tree of
types. An address keeps the indices on the way from the root. Assertions are those of the release
build, that is none; names of files are not expanded.
-/

set_option autoImplicit false

namespace Flow123d

open Flow123d.Library

/-- For which C++ type a value is read. -/
inductive DispatchType where
  | record
  | abstractRecord
  | array
  | bool
  | int
  | double
  | string
  | filePath
  | enum
deriving DecidableEq

inductive AccessError where
  | storageTypeMismatch (requestedType : String)
  /-- Index %d out of array of size: %d -/
  | indexOut (index size : ℕ)
  | recordKeyNotFound (keyName recordName : String)
  | typeMismatch (requiredType : DispatchType)
  | accessorForNullStorage (accessorName : String)
  /-- `get_descendant` reads outside of the list. -/
  | noDescendant
  /-- `make_full_address` goes round with a type that has no items. -/
  | endless

/-! ## Storage -/

namespace Storage

def isNull : Storage → Bool
  | .null => true
  | _ => false

def getInt : Storage → Except AccessError ℤ
  | .int value => .ok value
  | _ => .error (.storageTypeMismatch "int")

def getDouble : Storage → Except AccessError ℚ
  | .double value => .ok value
  | _ => .error (.storageTypeMismatch "double")

def getBool : Storage → Except AccessError Bool
  | .bool value => .ok value
  | _ => .error (.storageTypeMismatch "bool")

def getString : Storage → Except AccessError String
  | .string value => .ok value
  | _ => .error (.storageTypeMismatch "string")

def getItem (index : ℕ) : Storage → Except AccessError Storage
  | .array items =>
      match items[index]? with
      | some item => .ok item
      | none => .error (.indexOut index items.length)
  | _ => .error (.storageTypeMismatch "array")

def getArraySize : Storage → Except AccessError ℕ
  | .array items => .ok items.length
  | _ => .error (.storageTypeMismatch "array")

end Storage

def getDescendant (listOfChilds : List (TypeRecord TypeBase)) (idx : ℤ) :
    Except AccessError (TypeRecord TypeBase) :=
  match listOfChilds[idx.toNat]? with
  | some record => .ok record
  | none => .error .noDescendant

/-! ## Addresses -/

structure Address where
  rootType : TypeBase
  rootStorage : Storage
  /-- `descendant_order_` of the address and its parents, below the root. -/
  descendantOrders : List ℕ
  actualStorage : Storage

namespace Address

def ofRoot (storageRoot : Storage) (typeRoot : TypeBase) : Address where
  rootType := typeRoot
  rootStorage := storageRoot
  descendantOrders := []
  actualStorage := storageRoot

def down (address : Address) (idx : ℕ) : Except AccessError Address := do
  let item ← address.actualStorage.getItem idx
  .ok { address with
    descendantOrders := address.descendantOrders ++ [idx]
    actualStorage := item }

/-- A turn of the loop for a record: the text, the type and the storage after it. -/
def recordTurn (record : TypeRecord TypeBase) (storage : Storage) (idx : ℕ) :
    Except AccessError (String × TypeBase × Storage) := do
  let item ← storage.getItem idx
  match record.keys[idx]? with
  | some key => .ok ("/" ++ key.key, key.type, item)
  | none => .error .endless

/-- The turns of the loop for one index of the path; an abstract record takes one more. -/
def turn (storage : Storage) (idx : ℕ) :
    TypeBase → Except AccessError (String × TypeBase × Storage)
  | .record record => recordTurn record storage idx
  | .abstractRecord _ _ listOfChilds => do
      let storageType ← storage.getItem 0
      let typeId ← storageType.getInt
      let record ← getDescendant listOfChilds typeId
      recordTurn record storage idx
  | .array typeOfValues _ _ => do
      let item ← storage.getItem idx
      .ok ("/" ++ toString idx, typeOfValues, item)
  | _ => .error .endless

def followPath : List ℕ → TypeBase → Storage → Except AccessError (String × TypeBase × Storage)
  | [], type, storage => .ok ("", type, storage)
  | idx :: rest, type, storage => do
      let (text, below, item) ← turn storage idx type
      let (texts, reached, final) ← followPath rest below item
      .ok (text ++ texts, reached, final)

def makeFullAddress (address : Address) : Except AccessError String :=
  if address.descendantOrders = [] then .ok "/"
  else (followPath address.descendantOrders address.rootType address.rootStorage).map (·.1)

end Address

namespace Input

/-! ## Accessors -/

structure Record where
  recordType : TypeRecord TypeBase
  address : Address

structure AbstractRecord where
  typeName : String
  typeDefault : Default
  listOfChilds : List (TypeRecord TypeBase)
  address : Address

structure Array where
  typeOfValues : TypeBase
  lowerBound : ℕ
  upperBound : ℕ
  address : Address

/-- What a dereferenced iterator gives. -/
inductive Value where
  | record (record : Record)
  | abstractRecord (abstractRecord : AbstractRecord)
  | array (array : Array)
  | bool (value : Bool)
  | int (value : ℤ)
  | double (value : ℚ)
  | string (value : String)
  | filePath (type : FileType) (value : String)
  | enum (value : ℤ)

/-- The constructors of the accessors refuse a null. -/
def checkNull {α : Type} (accessorName : String) (address : Address) (accessor : α) :
    Except AccessError α :=
  if address.actualStorage.isNull then .error (.accessorForNullStorage accessorName)
  else .ok accessor

/-- `TypeDispatch::value`. -/
def dispatch (address : Address) : TypeBase → Except AccessError Value
  | .record recordType => checkNull "Record" address (.record ⟨recordType, address⟩)
  | .abstractRecord typeName typeDefault listOfChilds =>
      checkNull "AbstractRecord" address
        (.abstractRecord ⟨typeName, typeDefault, listOfChilds, address⟩)
  | .array typeOfValues lowerBound upperBound =>
      checkNull "Array" address (.array ⟨typeOfValues, lowerBound, upperBound, address⟩)
  | .integer _ _ => address.actualStorage.getInt.map .int
  | .double _ _ => address.actualStorage.getDouble.map .double
  | .bool => address.actualStorage.getBool.map .bool
  | .selection _ => address.actualStorage.getInt.map .enum
  | .string => address.actualStorage.getString.map .string
  | .fileName type => address.actualStorage.getString.map (.filePath type)

/-! ## Iterators -/

structure Iterator where
  type : TypeBase
  address : Address
  index : ℕ

namespace Iterator

/-- The input type of the C++ type. -/
def accepts : DispatchType → TypeBase → Bool
  | .record, .record _ => true
  | .abstractRecord, .abstractRecord _ _ _ => true
  | .array, .array _ _ _ => true
  | .bool, .bool => true
  | .int, .integer _ _ => true
  | .double, .double _ _ => true
  | .string, .string => true
  | .filePath, .fileName _ => true
  | .enum, .selection _ => true
  | _, _ => false

/-- The constructor with `type_check_and_convert`. -/
def create (ret : DispatchType) (type : TypeBase) (address : Address) (index : ℕ) :
    Except AccessError Iterator :=
  if accepts ret type then .ok ⟨type, address, index⟩ else .error (.typeMismatch ret)

/-- The conversion to `bool`. -/
def isGiven (it : Iterator) : Except AccessError Bool := do
  let item ← it.address.actualStorage.getItem it.index
  .ok !item.isNull

/-- `operator *`. -/
def deref (it : Iterator) : Except AccessError Value := do
  let address ← it.address.down it.index
  dispatch address it.type

end Iterator

namespace Record

def keyIterator (record : Record) (key : String) : Except AccessError (ℕ × TypeKey TypeBase) :=
  match record.recordType.keys.zipIdx.find? fun row => row.1.key = key with
  | some (declared, keyIndex) => .ok (keyIndex, declared)
  | none => .error (.recordKeyNotFound key record.recordType.typeName)

def find (ret : DispatchType) (key : String) (record : Record) : Except AccessError Iterator := do
  let (keyIndex, declared) ← record.keyIterator key
  Iterator.create ret declared.type record.address keyIndex

def val (ret : DispatchType) (key : String) (record : Record) : Except AccessError Value := do
  let it ← record.find ret key
  it.deref

/-- `val` with a default value at read time. -/
def valOr (ret : DispatchType) (key : String) (defaultVal : Value) (record : Record) :
    Except AccessError Value := do
  let it ← record.find ret key
  if ← it.isGiven then it.deref else .ok defaultVal

/-- The value is left as it was where nothing is returned. -/
def optVal (ret : DispatchType) (key : String) (record : Record) :
    Except AccessError (Option Value) := do
  let it ← record.find ret key
  if ← it.isGiven then
    let value ← it.deref
    .ok (some value)
  else .ok none

end Record

namespace AbstractRecord

def type (abstractRecord : AbstractRecord) : Except AccessError (TypeRecord TypeBase) := do
  let first ← abstractRecord.address.actualStorage.getItem 0
  let typeId ← first.getInt
  getDescendant abstractRecord.listOfChilds typeId

/-- The conversion to `Record`. -/
def toRecord (abstractRecord : AbstractRecord) : Except AccessError Record := do
  let recordType ← abstractRecord.type
  checkNull "Record" abstractRecord.address ⟨recordType, abstractRecord.address⟩

end AbstractRecord

namespace Array

def size (array : Array) : Except AccessError ℕ := array.address.actualStorage.getArraySize

/-- `begin`, advanced a number of times. -/
def iterator (ret : DispatchType) (index : ℕ) (array : Array) : Except AccessError Iterator :=
  Iterator.create ret array.typeOfValues array.address index

/-- The loop from `begin` to `end`. -/
def copyTo (ret : DispatchType) (array : Array) : Except AccessError (List Value) := do
  let count ← array.size
  (List.range count).mapM fun index => do
    let it ← array.iterator ret index
    it.deref

end Array

/-- `JSONToStorage::get_root_interface`. -/
def getRootInterface (ret : DispatchType) (rootType : TypeBase) (storage : Storage) :
    Except AccessError Value :=
  if Iterator.accepts ret rootType then dispatch (.ofRoot storage rootType) rootType
  else .error (.typeMismatch ret)

/-! ## Walks -/

inductive Access where
  | key (ret : DispatchType) (key : String)
  | item (ret : DispatchType) (index : ℕ)
  /-- The conversion of an abstract record. -/
  | descendant

/-- The iterator of a key or of an item. -/
def Value.iterator (value : Value) : Access → Option (Except AccessError Iterator)
  | .key ret key =>
      match value with
      | .record accessor => some (accessor.find ret key)
      | _ => none
  | .item ret index =>
      match value with
      | .array accessor => some (accessor.iterator ret index)
      | _ => none
  | .descendant => none

/-- What an access gives; there is nothing where the accessor does not have the method. -/
def Value.access (value : Value) (step : Access) : Option (Except AccessError Value) :=
  match step with
  | .descendant =>
      match value with
      | .abstractRecord accessor => some (accessor.toRecord.map .record)
      | _ => none
  | _ => (value.iterator step).map fun it => it.bind Iterator.deref

/-- The values come one after another, without an exception. -/
inductive Walk : Value → List Access → Value → Prop where
  | nil (value : Value) : Walk value [] value
  | snoc {start before after : Value} {steps : List Access} {step : Access}
      (walk : Walk start steps before) (returned : before.access step = some (.ok after)) :
      Walk start (steps ++ [step]) after

/-- The part of the address that an access adds. -/
def Access.label : Access → String
  | .key _ keyName => "/" ++ keyName
  | .item _ index => "/" ++ toString index
  | .descendant => ""

def labels (steps : List Access) : String :=
  steps.foldl (fun text step => text ++ step.label) ""

/-- The root has an address of its own. -/
def fullAddress (steps : List Access) : String :=
  if labels steps = "" then "/" else labels steps

theorem labels_snoc (steps : List Access) (step : Access) :
    labels (steps ++ [step]) = labels steps ++ step.label := by
  simp [labels]

/-! ## What the accessors should give -/

/-- A value of the type. -/
inductive Value.Conforms : TypeBase → Value → Prop where
  | record (recordType : TypeRecord TypeBase) (address : Address) :
      Conforms (.record recordType) (.record ⟨recordType, address⟩)
  | abstractRecord (typeName : String) (typeDefault : Default)
      (listOfChilds : List (TypeRecord TypeBase)) (address : Address) :
      Conforms (.abstractRecord typeName typeDefault listOfChilds)
        (.abstractRecord ⟨typeName, typeDefault, listOfChilds, address⟩)
  | array {typeOfValues : TypeBase} {lowerBound upperBound size : ℕ} {address : Address}
      (isSize : address.actualStorage.getArraySize = .ok size) (lower : lowerBound ≤ size)
      (upper : size ≤ upperBound) : Conforms (.array typeOfValues lowerBound upperBound)
        (.array ⟨typeOfValues, lowerBound, upperBound, address⟩)
  | bool (value : Bool) : Conforms .bool (.bool value)
  | int {lowerBound upperBound value : ℤ} (lower : lowerBound ≤ value)
      (upper : value ≤ upperBound) : Conforms (.integer lowerBound upperBound) (.int value)
  | double {lowerBound upperBound value : ℚ} (lower : lowerBound ≤ value)
      (upper : value ≤ upperBound) : Conforms (.double lowerBound upperBound) (.double value)
  | string (value : String) : Conforms .string (.string value)
  | filePath {type : FileType} {value : String}
      (isName : TypeBase.matchFileName type value = true) :
      Conforms (.fileName type) (.filePath type value)
  | enum {selection : TypeSelection} {name : String} {value : ℤ}
      (isKey : selection.nameToInt name = some value) :
      Conforms (.selection selection) (.enum value)

/-- The exception where there is a null in place of a value of the type. -/
def nullError : TypeBase → AccessError
  | .record _ => .accessorForNullStorage "Record"
  | .abstractRecord _ _ _ => .accessorForNullStorage "AbstractRecord"
  | .array _ _ _ => .accessorForNullStorage "Array"
  | .integer _ _ => .storageTypeMismatch "int"
  | .double _ _ => .storageTypeMismatch "double"
  | .bool => .storageTypeMismatch "bool"
  | .selection _ => .storageTypeMismatch "int"
  | .string => .storageTypeMismatch "string"
  | .fileName _ => .storageTypeMismatch "string"

/-- The access asks for something that is declared, as the C++ type of its input type. -/
inductive Value.Asks : Value → Access → TypeBase → Prop where
  | key {accessor : Record} {ret : DispatchType} {key : String} {declared : TypeKey TypeBase}
      (found : accessor.recordType.keys.find? (fun row => row.key = key) = some declared)
      (accepted : Iterator.accepts ret declared.type = true) :
      Asks (.record accessor) (.key ret key) declared.type
  | item {accessor : Array} {ret : DispatchType} {index size : ℕ}
      (isSize : accessor.size = .ok size) (inside : index < size)
      (accepted : Iterator.accepts ret accessor.typeOfValues = true) :
      Asks (.array accessor) (.item ret index) accessor.typeOfValues

/-- The iterator knows whether there is a value. If there is one, it is of the type. -/
inductive Iterator.Answers (type : TypeBase) (it : Iterator) : Prop where
  | given {next : Value} (isGiven : it.isGiven = .ok true) (returned : it.deref = .ok next)
      (conforms : next.Conforms type)
  | missing (notGiven : it.isGiven = .ok false) (failed : it.deref = .error (nullError type))

/-- The type and the address of an accessor. -/
def Value.accessor? : Value → Option (TypeBase × Address)
  | .record accessor => some (.record accessor.recordType, accessor.address)
  | .abstractRecord accessor =>
      some (.abstractRecord accessor.typeName accessor.typeDefault accessor.listOfChilds,
        accessor.address)
  | .array accessor =>
      some (.array accessor.typeOfValues accessor.lowerBound accessor.upperBound,
        accessor.address)
  | _ => none

/-- What holds of a value after the steps. -/
structure Value.Reads (value : Value) (steps : List Access) : Prop where
  fullAddress : ∀ type address, value.accessor? = some (type, address) →
    address.makeFullAddress = .ok (fullAddress steps)
  answers : ∀ step type, value.Asks step type →
    ∃ it, value.iterator step = some (.ok it) ∧ it.Answers type
  keyed : ∀ accessor ret key declared, value = .record accessor →
    accessor.recordType.keys.find? (fun row => row.key = key) = some declared →
      Iterator.accepts ret declared.type = true →
        ∃ found, accessor.optVal ret key = .ok found ∧
          (∀ next, found = some next → next.Conforms declared.type) ∧
          (∀ defaultVal, accessor.valOr ret key defaultVal = .ok (found.getD defaultVal)) ∧
          accessor.val ret key = found.elim (.error (nullError declared.type)) .ok
  descendant : ∀ accessor, value = .abstractRecord accessor →
    ∃ record, accessor.toRecord = .ok record ∧ record.recordType ∈ accessor.listOfChilds
  copied : ∀ (accessor : Array) (ret : DispatchType), value = .array accessor →
    Iterator.accepts ret accessor.typeOfValues = true →
      Meets (fun error => error = nullError accessor.typeOfValues)
        (fun values => accessor.size = .ok values.length ∧
          ∀ one ∈ values, one.Conforms accessor.typeOfValues) (accessor.copyTo ret)

end Input

open Input JSONToStorage

/-! ## Addresses along the types -/

namespace Address

theorem slash_append_ne (text : String) : "/" ++ text ≠ "" := by
  simp

theorem recordTurn_ok {record : TypeRecord TypeBase} {storage item : Storage} {idx : ℕ}
    {below : TypeBase} {label : String}
    (turned : recordTurn record storage idx = .ok (label, below, item)) :
    ∃ key, record.keys[idx]? = some key ∧ label = "/" ++ key.key ∧ below = key.type ∧
      storage.getItem idx = .ok item := by
  rw [recordTurn] at turned
  cases isItem : storage.getItem idx with
  | error error =>
      rw [isItem] at turned
      cases turned
  | ok found =>
      cases isKey : record.keys[idx]? with
      | none =>
          simp only [isItem, isKey, bind, Except.bind] at turned
          cases turned
      | some key =>
          simp only [isItem, isKey, bind, Except.bind] at turned
          cases turned
          exact ⟨key, rfl, rfl, rfl, rfl⟩

/-- Every turn goes down by the index and adds a part to the address. -/
theorem turn_ok {storage item : Storage} {idx : ℕ} {type below : TypeBase} {label : String}
    (turned : turn storage idx type = .ok (label, below, item)) :
    label ≠ "" ∧ storage.getItem idx = .ok item := by
  cases type with
  | record record =>
      obtain ⟨key, _, rfl, _, isItem⟩ := recordTurn_ok turned
      exact ⟨slash_append_ne key.key, isItem⟩
  | abstractRecord typeName typeDefault listOfChilds =>
      rw [turn] at turned
      cases isFirst : storage.getItem 0 with
      | error error =>
          rw [isFirst] at turned
          cases turned
      | ok first =>
          cases isId : first.getInt with
          | error error =>
              simp only [isFirst, isId, bind, Except.bind] at turned
              cases turned
          | ok typeId =>
              cases isChild : getDescendant listOfChilds typeId with
              | error error =>
                  simp only [isFirst, isId, isChild, bind, Except.bind] at turned
                  cases turned
              | ok record =>
                  simp only [isFirst, isId, isChild, bind, Except.bind] at turned
                  obtain ⟨key, _, rfl, _, isItem⟩ := recordTurn_ok turned
                  exact ⟨slash_append_ne key.key, isItem⟩
  | array typeOfValues lowerBound upperBound =>
      rw [turn] at turned
      cases isItem : storage.getItem idx with
      | error error =>
          rw [isItem] at turned
          cases turned
      | ok found =>
          simp only [isItem, bind, Except.bind] at turned
          cases turned
          exact ⟨slash_append_ne (toString idx), rfl⟩
  | _ => cases turned

theorem followPath_snoc {orders : List ℕ} {type reached below : TypeBase}
    {storage actual item : Storage} {text label : String} {idx : ℕ}
    (followed : followPath orders type storage = .ok (text, reached, actual))
    (turned : turn actual idx reached = .ok (label, below, item)) :
    followPath (orders ++ [idx]) type storage = .ok (text ++ label, below, item) := by
  induction orders generalizing type storage text with
  | nil =>
      cases followed
      rw [List.nil_append, followPath, turned]
      simp [followPath, bind, Except.bind]
  | cons first rest ih =>
      rw [followPath] at followed
      rw [List.cons_append, followPath]
      cases isTurn : turn storage first type with
      | error error =>
          rw [isTurn] at followed
          cases followed
      | ok after =>
          obtain ⟨start, next, here⟩ := after
          cases isRest : followPath rest next here with
          | error error =>
              simp [isTurn, isRest, bind, Except.bind] at followed
          | ok final =>
              obtain ⟨texts, last, end'⟩ := final
              simp only [isTurn, isRest, bind, Except.bind] at followed ⊢
              cases followed
              rw [ih isRest, String.append_assoc]

theorem followPath_text {orders : List ℕ} {type reached : TypeBase} {storage actual : Storage}
    {text : String} (followed : followPath orders type storage = .ok (text, reached, actual)) :
    orders = [] ↔ text = "" := by
  cases orders with
  | nil =>
      cases followed
      simp
  | cons first rest =>
      rw [followPath] at followed
      cases isTurn : turn storage first type with
      | error error =>
          rw [isTurn] at followed
          cases followed
      | ok after =>
          obtain ⟨label, next, here⟩ := after
          cases isRest : followPath rest next here with
          | error error =>
              simp only [isTurn, isRest, bind, Except.bind] at followed
              cases followed
          | ok final =>
              obtain ⟨texts, last, there⟩ := final
              simp only [isTurn, isRest, bind, Except.bind] at followed
              cases followed
              have notEmpty := (turn_ok isTurn).1
              simp [notEmpty]

/-- The address of an accessor of the type: its storage is along the type, and its path leads
there. The loop goes on from there as from the type; an abstract record takes its descendant. -/
structure At (address : Address) (type : TypeBase) (text : String) : Prop where
  ofType : Typed type address.actualStorage
  follows : ∃ reached, followPath address.descendantOrders address.rootType address.rootStorage =
      .ok (text, reached, address.actualStorage) ∧
    ∀ idx, turn address.actualStorage idx reached = turn address.actualStorage idx type

theorem At.ofRoot {rootType : TypeBase} {storage : Storage} (typed : Typed rootType storage) :
    (Address.ofRoot storage rootType).At rootType "" :=
  ⟨typed, rootType, rfl, fun _ => rfl⟩

variable {address : Address} {type below : TypeBase} {text label : String} {item : Storage}
  {idx : ℕ}

theorem At.makeFullAddress (located : address.At type text) :
    address.makeFullAddress = .ok (if text = "" then "/" else text) := by
  obtain ⟨reached, followed, _⟩ := located.follows
  rw [Address.makeFullAddress]
  by_cases isRoot : text = ""
  · rw [if_pos ((followPath_text followed).mpr isRoot), if_pos isRoot]
  · rw [if_neg (mt (followPath_text followed).mp isRoot), if_neg isRoot, followed]
    rfl

theorem At.down (located : address.At type text)
    (turned : turn address.actualStorage idx type = .ok (label, below, item))
    (ofType : Typed below item) :
    ∃ inner, address.down idx = .ok inner ∧ inner.actualStorage = item ∧
      inner.At below (text ++ label) := by
  obtain ⟨reached, followed, same⟩ := located.follows
  have isItem := (turn_ok turned).2
  refine ⟨{ address with
    descendantOrders := address.descendantOrders ++ [idx]
    actualStorage := item }, ?_, rfl, ofType, below, ?_, fun _ => rfl⟩
  · rw [Address.down, isItem]
    rfl
  · exact followPath_snoc followed ((same idx).trans turned)

end Address

/-! ## Storages along the types -/

namespace JSONToStorage

variable {storage : Storage}

theorem Typed.turn_key {record : TypeRecord TypeBase} {key : TypeKey TypeBase} {idx : ℕ}
    (typed : Typed (.record record) storage) (given : storage ≠ .null)
    (isKey : record.keys[idx]? = some key) :
    ∃ item, Address.turn storage idx (.record record) = .ok ("/" ++ key.key, key.type, item) ∧
      Typed key.type item := by
  cases typed with
  | null => exact absurd rfl given
  | @record _ items size ofType =>
      have inside : idx < items.length := size ▸ (List.getElem?_eq_some_iff.mp isKey).1
      have isItem : items[idx]? = some items[idx] := List.getElem?_eq_getElem inside
      refine ⟨items[idx], ?_, ofType idx key items[idx] isKey isItem⟩
      simp only [Address.turn, Address.recordTurn, Storage.getItem, isItem, isKey, bind,
        Except.bind]

theorem Typed.turn_item {typeOfValues : TypeBase} {lowerBound upperBound idx : ℕ}
    {item : Storage} (typed : Typed (.array typeOfValues lowerBound upperBound) storage)
    (isItem : storage.getItem idx = .ok item) :
    Address.turn storage idx (.array typeOfValues lowerBound upperBound) =
      .ok ("/" ++ toString idx, typeOfValues, item) ∧ Typed typeOfValues item := by
  cases typed with
  | null => cases isItem
  | @array _ _ _ items lower upper ofType =>
      refine ⟨by simp only [Address.turn, isItem, bind, Except.bind], ?_⟩
      rw [Storage.getItem] at isItem
      split at isItem
      case h_1 found isFound =>
        cases isItem
        exact ofType item (List.mem_of_getElem? isFound)
      case h_2 => cases isItem

/-- The index in the first item is the one of a descendant, along whose type the storage is. -/
theorem Typed.descendant {typeName : String} {typeDefault : Default}
    {listOfChilds : List (TypeRecord TypeBase)}
    (typed : Typed (.abstractRecord typeName typeDefault listOfChilds) storage)
    (given : storage ≠ .null) :
    ∃ record typeId, storage.getItem 0 = .ok (.int typeId) ∧
      getDescendant listOfChilds typeId = .ok record ∧ record ∈ listOfChilds ∧
        Typed (.record record) storage := by
  cases typed with
  | null => exact absurd rfl given
  | @abstractRecord _ _ _ record descendantIndex items isChild ofRecord =>
      refine ⟨record, descendantIndex, rfl, ?_, List.mem_of_getElem? isChild, ofRecord⟩
      rw [getDescendant, isChild]

theorem Typed.size_bounds {typeOfValues : TypeBase} {lowerBound upperBound : ℕ}
    (typed : Typed (.array typeOfValues lowerBound upperBound) storage)
    (given : storage ≠ .null) :
    ∃ size, storage.getArraySize = .ok size ∧ lowerBound ≤ size ∧ size ≤ upperBound := by
  cases typed with
  | null => exact absurd rfl given
  | @array _ _ _ items lower upper ofType => exact ⟨items.length, rfl, lower, upper⟩

end JSONToStorage

theorem Storage.getItem_of_lt {storage : Storage} {size idx : ℕ}
    (isSize : storage.getArraySize = .ok size) (inside : idx < size) :
    ∃ item, storage.getItem idx = .ok item := by
  cases storage with
  | array items =>
      cases isSize
      exact ⟨items[idx], by rw [getItem, List.getElem?_eq_getElem inside]⟩
  | _ => cases isSize

namespace Input

variable {address : Address} {type below : TypeBase} {text : String}

/-- An accessor is at an address with the text, and not at a null. -/
def Value.Sound (text : String) (value : Value) : Prop :=
  ∀ type address, value.accessor? = some (type, address) →
    address.At type text ∧ address.actualStorage ≠ .null

theorem Value.Sound.of_none {value : Value} (none : value.accessor? = none) :
    value.Sound text := by
  intro type address isAccessor
  cases none.symm.trans isAccessor

theorem Value.Sound.of_some {value : Value} (some : value.accessor? = some (type, address))
    (located : address.At type text) (given : address.actualStorage ≠ .null) :
    value.Sound text := by
  intro type' address' isAccessor
  cases some.symm.trans isAccessor
  exact ⟨located, given⟩

theorem checkNull_given {α : Type} (accessorName : String) (accessor : α)
    (given : address.actualStorage ≠ .null) :
    checkNull accessorName address accessor = .ok accessor := by
  rw [checkNull]
  cases isStorage : address.actualStorage with
  | null => exact absurd isStorage given
  | _ => rfl

/-! ## Values at the addresses -/

theorem dispatch_null (isNull : address.actualStorage = .null) (type : TypeBase) :
    dispatch address type = .error (nullError type) := by
  cases type <;> simp [dispatch, checkNull, isNull, Storage.isNull, Storage.getInt,
    Storage.getDouble, Storage.getBool, Storage.getString, nullError, Except.map]

theorem dispatch_given (located : address.At type text) (given : address.actualStorage ≠ .null) :
    ∃ value, dispatch address type = .ok value ∧ value.Conforms type ∧ value.Sound text := by
  have ofType := located.ofType
  cases type with
  | record recordType =>
      exact ⟨_, checkNull_given "Record" _ given, .record recordType address,
        .of_some rfl located given⟩
  | abstractRecord typeName typeDefault listOfChilds =>
      exact ⟨_, checkNull_given "AbstractRecord" _ given,
        .abstractRecord typeName typeDefault listOfChilds address, .of_some rfl located given⟩
  | array typeOfValues lowerBound upperBound =>
      obtain ⟨size, isSize, lower, upper⟩ := ofType.size_bounds given
      exact ⟨_, checkNull_given "Array" _ given, .array isSize lower upper,
        .of_some rfl located given⟩
  | integer lowerBound upperBound =>
      generalize isStorage : address.actualStorage = storage at ofType given
      cases ofType with
      | null => exact absurd rfl given
      | @integer _ _ value lower upper =>
          refine ⟨.int value, ?_, .int lower upper, .of_none rfl⟩
          rw [dispatch, isStorage]
          rfl
  | double lowerBound upperBound =>
      generalize isStorage : address.actualStorage = storage at ofType given
      cases ofType with
      | null => exact absurd rfl given
      | @double _ _ value lower upper =>
          refine ⟨.double value, ?_, .double lower upper, .of_none rfl⟩
          rw [dispatch, isStorage]
          rfl
  | bool =>
      generalize isStorage : address.actualStorage = storage at ofType given
      cases ofType with
      | null => exact absurd rfl given
      | @bool value =>
          refine ⟨.bool value, ?_, .bool value, .of_none rfl⟩
          rw [dispatch, isStorage]
          rfl
  | selection selection =>
      generalize isStorage : address.actualStorage = storage at ofType given
      cases ofType with
      | null => exact absurd rfl given
      | @selection _ name value isKey =>
          refine ⟨.enum value, ?_, .enum isKey, .of_none rfl⟩
          rw [dispatch, isStorage]
          rfl
  | string =>
      generalize isStorage : address.actualStorage = storage at ofType given
      cases ofType with
      | null => exact absurd rfl given
      | @string value =>
          refine ⟨.string value, ?_, .string value, .of_none rfl⟩
          rw [dispatch, isStorage]
          rfl
  | fileName fileType =>
      generalize isStorage : address.actualStorage = storage at ofType given
      cases ofType with
      | null => exact absurd rfl given
      | @fileName _ value isName =>
          refine ⟨.filePath fileType value, ?_, .filePath isName, .of_none rfl⟩
          rw [dispatch, isStorage]
          rfl

/-! ## Iterators at the addresses -/

/-- What an iterator gives at the item to which a turn goes down. -/
theorem deref_of_turn {item : Storage} {idx : ℕ} {label : String} (located : address.At type text)
    (turned : Address.turn address.actualStorage idx type = .ok (label, below, item))
    (ofType : Typed below item) :
    (Iterator.mk below address idx).Answers below ∧
      ∀ next, (Iterator.mk below address idx).deref = .ok next → next.Sound (text ++ label) := by
  obtain ⟨inner, isInner, isItem, innerAt⟩ := located.down turned ofType
  have getItem := (Address.turn_ok turned).2
  have isGiven : (Iterator.mk below address idx).isGiven = .ok !item.isNull := by
    simp only [Iterator.isGiven, getItem, bind, Except.bind]
  have isDeref : (Iterator.mk below address idx).deref = dispatch inner below := by
    simp only [Iterator.deref, isInner, bind, Except.bind]
  by_cases isNull : item = .null
  · have failed := dispatch_null (isItem.trans isNull) below
    refine ⟨.missing (by rw [isGiven, isNull]; rfl) (isDeref.trans failed), fun next returned => ?_⟩
    cases (isDeref.symm.trans returned).symm.trans failed
  · obtain ⟨value, returned, conforms, sound⟩ := dispatch_given innerAt (isItem ▸ isNull)
    have notNull : item.isNull = false := by
      cases item with
      | null => exact absurd rfl isNull
      | _ => rfl
    refine ⟨.given (by rw [isGiven, notNull]; rfl) (isDeref.trans returned) conforms, ?_⟩
    intro next again
    cases returned.symm.trans (isDeref.symm.trans again)
    exact sound

theorem getItem_of_deref {it : Iterator} {next : Value} (returned : it.deref = .ok next) :
    ∃ item, it.address.actualStorage.getItem it.index = .ok item := by
  rw [Iterator.deref, Address.down] at returned
  cases isItem : it.address.actualStorage.getItem it.index with
  | error error =>
      rw [isItem] at returned
      cases returned
  | ok item => exact ⟨item, rfl⟩

theorem keyIterator_ok {record : Record} {key : String} {keyIndex : ℕ}
    {declared : TypeKey TypeBase} (found : record.keyIterator key = .ok (keyIndex, declared)) :
    record.recordType.keys[keyIndex]? = some declared ∧ declared.key = key := by
  rw [Record.keyIterator] at found
  cases isRow : record.recordType.keys.zipIdx.find? (fun row => row.1.key = key) with
  | none =>
      rw [isRow] at found
      cases found
  | some row =>
      rw [isRow] at found
      cases found
      have member := List.mem_of_find?_eq_some isRow
      exact ⟨(List.mem_zipIdx_iff_getElem?.mp member), by simpa using List.find?_some isRow⟩

theorem keyIterator_of_find {record : Record} {key : String} {declared : TypeKey TypeBase}
    (found : record.recordType.keys.find? (fun row => row.key = key) = some declared) :
    ∃ keyIndex, record.keyIterator key = .ok (keyIndex, declared) := by
  rw [← List.zipIdx_map_fst 0 record.recordType.keys, List.find?_map] at found
  obtain ⟨⟨key', keyIndex⟩, isRow, rfl⟩ := Option.map_eq_some_iff.mp found
  refine ⟨keyIndex, ?_⟩
  rw [Record.keyIterator]
  rw [show record.recordType.keys.zipIdx.find? (fun row => row.1.key = key) =
    some (key', keyIndex) from isRow]

theorem create_ok {ret : DispatchType} {idx : ℕ} {it : Iterator}
    (created : Iterator.create ret type address idx = .ok it) : it = ⟨type, address, idx⟩ := by
  rw [Iterator.create] at created
  split at created
  · cases created
    rfl
  · cases created

theorem create_of_accepts {ret : DispatchType} (accepted : Iterator.accepts ret type = true)
    (address : Address) (idx : ℕ) :
    Iterator.create ret type address idx = .ok ⟨type, address, idx⟩ := by
  rw [Iterator.create, if_pos accepted]

theorem find_ok {ret : DispatchType} {key : String} {record : Record} {it : Iterator}
    (found : record.find ret key = .ok it) :
    ∃ keyIndex declared, record.recordType.keys[keyIndex]? = some declared ∧
      declared.key = key ∧ it = ⟨declared.type, record.address, keyIndex⟩ := by
  rw [Record.find] at found
  cases isKey : record.keyIterator key with
  | error error =>
      rw [isKey] at found
      cases found
  | ok row =>
      obtain ⟨keyIndex, declared⟩ := row
      simp only [isKey, bind, Except.bind] at found
      obtain ⟨isRow, isName⟩ := keyIterator_ok isKey
      exact ⟨keyIndex, declared, isRow, isName, create_ok found⟩

theorem find_of_accepts {ret : DispatchType} {key : String} {record : Record} {keyIndex : ℕ}
    {declared : TypeKey TypeBase} (found : record.keyIterator key = .ok (keyIndex, declared))
    (accepted : Iterator.accepts ret declared.type = true) :
    record.find ret key = .ok ⟨declared.type, record.address, keyIndex⟩ := by
  simp only [Record.find, found, bind, Except.bind]
  exact create_of_accepts accepted record.address keyIndex

theorem toRecord_of_child {accessor : AbstractRecord} {record : TypeRecord TypeBase} {typeId : ℤ}
    (first : accessor.address.actualStorage.getItem 0 = .ok (.int typeId))
    (isChild : getDescendant accessor.listOfChilds typeId = .ok record)
    (given : accessor.address.actualStorage ≠ .null) :
    accessor.toRecord = .ok ⟨record, accessor.address⟩ := by
  simp only [AbstractRecord.toRecord, AbstractRecord.type, first, Storage.getInt, isChild, bind,
    Except.bind]
  exact checkNull_given "Record" _ given

/-! ## Steps of a walk -/

variable {value next : Value} {step : Access} {steps : List Access}

/-- The descendant of an abstract record is at the same address. -/
theorem descendant_at {accessor : AbstractRecord} {record : TypeRecord TypeBase} {typeId : ℤ}
    (located : accessor.address.At (.abstractRecord accessor.typeName accessor.typeDefault
      accessor.listOfChilds) text)
    (first : accessor.address.actualStorage.getItem 0 = .ok (.int typeId))
    (isChild : getDescendant accessor.listOfChilds typeId = .ok record)
    (ofRecord : Typed (.record record) accessor.address.actualStorage) :
    accessor.address.At (.record record) text := by
  obtain ⟨reached, followed, same⟩ := located.follows
  refine ⟨ofRecord, reached, followed, fun idx => ?_⟩
  rw [same idx]
  simp only [Address.turn, first, Storage.getInt, isChild, bind, Except.bind]

theorem sound_of_access (sound : value.Sound text)
    (returned : value.access step = some (.ok next)) : next.Sound (text ++ step.label) := by
  cases step with
  | key ret key =>
      cases value with
      | record accessor =>
          obtain ⟨located, given⟩ := sound _ _ rfl
          cases found : accessor.find ret key with
          | error error =>
              simp [Value.access, Value.iterator, found, Except.bind] at returned
          | ok it =>
              simp only [Value.access, Value.iterator, found, Option.map, Except.bind,
                Option.some.injEq] at returned
              obtain ⟨keyIndex, declared, isKey, rfl, rfl⟩ := find_ok found
              obtain ⟨item, turned, ofType⟩ := located.ofType.turn_key given isKey
              exact (deref_of_turn located turned ofType).2 next returned
      | _ => cases returned
  | item ret index =>
      cases value with
      | array accessor =>
          obtain ⟨located, given⟩ := sound _ _ rfl
          cases found : accessor.iterator ret index with
          | error error =>
              simp [Value.access, Value.iterator, found, Except.bind] at returned
          | ok it =>
              simp only [Value.access, Value.iterator, found, Option.map, Except.bind,
                Option.some.injEq] at returned
              cases create_ok found
              obtain ⟨item, isItem⟩ := getItem_of_deref returned
              obtain ⟨turned, ofType⟩ := located.ofType.turn_item isItem
              exact (deref_of_turn located turned ofType).2 next returned
      | _ => cases returned
  | descendant =>
      cases value with
      | abstractRecord accessor =>
          obtain ⟨located, given⟩ := sound _ _ rfl
          obtain ⟨record, typeId, first, isChild, member, ofRecord⟩ :=
            located.ofType.descendant given
          simp only [Value.access, toRecord_of_child first isChild given, Except.map,
            Option.some.injEq] at returned
          cases returned
          exact .of_some rfl (by
            rw [Access.label, String.append_empty]
            exact descendant_at located first isChild ofRecord) given
      | _ => cases returned

theorem sound_of_walk {start : Value} (walk : Walk start steps value) (sound : start.Sound "") :
    value.Sound (labels steps) := by
  induction walk with
  | nil => exact sound
  | snoc _ returned ih =>
      rw [labels_snoc]
      exact sound_of_access ih returned

/-! ## What the accessors give -/

theorem answers_of_sound (sound : value.Sound text) (asks : value.Asks step type) :
    ∃ it, value.iterator step = some (.ok it) ∧ it.Answers type := by
  cases asks with
  | @key accessor ret key declared found accepted =>
      obtain ⟨located, given⟩ := sound _ _ rfl
      obtain ⟨keyIndex, isKey⟩ := keyIterator_of_find found
      obtain ⟨item, turned, ofType⟩ := located.ofType.turn_key given (keyIterator_ok isKey).1
      refine ⟨⟨declared.type, accessor.address, keyIndex⟩, ?_,
        (deref_of_turn located turned ofType).1⟩
      rw [Value.iterator, find_of_accepts isKey accepted]
  | @item accessor ret index size isSize inside accepted =>
      obtain ⟨located, given⟩ := sound _ _ rfl
      obtain ⟨item, isItem⟩ := Storage.getItem_of_lt isSize inside
      obtain ⟨turned, ofType⟩ := located.ofType.turn_item isItem
      refine ⟨⟨accessor.typeOfValues, accessor.address, index⟩, ?_,
        (deref_of_turn located turned ofType).1⟩
      rw [Value.iterator, Array.iterator, create_of_accepts accepted]

/-- The three ways to read a key agree; they differ in what they do at a null. -/
theorem keyed_of_sound {accessor : Record} {ret : DispatchType} {key : String}
    {declared : TypeKey TypeBase} (sound : (Value.record accessor).Sound text)
    (found : accessor.recordType.keys.find? (fun row => row.key = key) = some declared)
    (accepted : Iterator.accepts ret declared.type = true) :
    ∃ found, accessor.optVal ret key = .ok found ∧
      (∀ next, found = some next → next.Conforms declared.type) ∧
      (∀ defaultVal, accessor.valOr ret key defaultVal = .ok (found.getD defaultVal)) ∧
      accessor.val ret key = found.elim (.error (nullError declared.type)) .ok := by
  obtain ⟨it, isIterator, answers⟩ := answers_of_sound sound (.key found accepted)
  have isFound : accessor.find ret key = .ok it := Option.some.inj isIterator
  cases answers with
  | @given next isGiven returned conforms =>
      refine ⟨some next, ?_, fun other isNext => ?_, fun defaultVal => ?_, ?_⟩
      · simp [Record.optVal, isFound, isGiven, returned, bind, Except.bind]
      · cases isNext
        exact conforms
      · simp [Record.valOr, isFound, isGiven, returned, bind, Except.bind]
      · simp [Record.val, isFound, returned, bind, Except.bind]
  | missing notGiven failed =>
      refine ⟨none, ?_, fun other isNext => ?_, fun defaultVal => ?_, ?_⟩
      · simp [Record.optVal, isFound, notGiven, bind, Except.bind]
      · cases isNext
      · simp [Record.valOr, isFound, notGiven, bind, Except.bind]
      · simp [Record.val, isFound, failed, bind, Except.bind]

/-- The loop over an array stops only at a null. -/
theorem copyTo_meets {accessor : Array} {ret : DispatchType}
    (sound : (Value.array accessor).Sound text)
    (accepted : Iterator.accepts ret accessor.typeOfValues = true) :
    Meets (fun error => error = nullError accessor.typeOfValues)
      (fun values => accessor.size = .ok values.length ∧
        ∀ one ∈ values, one.Conforms accessor.typeOfValues) (accessor.copyTo ret) := by
  obtain ⟨located, given⟩ := sound _ _ rfl
  obtain ⟨size, isSize, _, _⟩ := located.ofType.size_bounds given
  have isLength : accessor.size = .ok size := isSize
  simp only [Array.copyTo, isLength, bind, Except.bind]
  have each : ∀ index ∈ List.range size,
      Meets (fun error => error = nullError accessor.typeOfValues)
        (fun one => one.Conforms accessor.typeOfValues)
        ((accessor.iterator ret index).bind Iterator.deref) := by
    intro index member
    obtain ⟨it, isIterator, answers⟩ := answers_of_sound sound
      (.item isLength (List.mem_range.mp member) accepted)
    rw [Value.iterator] at isIterator
    rw [Option.some.inj isIterator]
    cases answers with
    | given _ returned conforms =>
        rw [Except.bind, returned]
        exact conforms
    | missing _ failed =>
        rw [Except.bind, failed]
        exact rfl
  refine (Meets.mapM each).mono fun values related => ⟨?_, ?_⟩
  · rw [← related.length_eq, List.length_range]
  · intro one member
    obtain ⟨index, inside, rfl⟩ := List.getElem_of_mem member
    exact related.get (related.length_eq ▸ inside) inside

theorem reads_of_sound (sound : value.Sound (labels steps)) : value.Reads steps where
  fullAddress type address isAccessor := by
    rw [(sound type address isAccessor).1.makeFullAddress]
    rfl
  answers step type asks := answers_of_sound sound asks
  keyed accessor ret key declared isRecord found accepted := by
    subst isRecord
    exact keyed_of_sound sound found accepted
  descendant accessor isAbstract := by
    subst isAbstract
    obtain ⟨located, given⟩ := sound _ _ rfl
    obtain ⟨record, typeId, first, isChild, member, _⟩ := located.ofType.descendant given
    exact ⟨_, toRecord_of_child first isChild given, member⟩
  copied accessor ret isArray accepted := by
    subst isArray
    exact copyTo_meets sound accepted

/-- Along any walk over what the reader has stored for a document, the accessors know their
addresses, and what they are asked for in the declared C++ type they give, or tell that there is
nothing. -/
theorem walk_reads {document : Node} {rootType : TypeBase} {storage : Storage}
    {ret : DispatchType} {root value : Value} {steps : List Access}
    (declared : rootType.Declared)
    (read : makeStorage.Ends (JSONPath.ofRoot document, rootType) (.ok storage))
    (opened : getRootInterface ret rootType storage = .ok root) (walk : Walk root steps value) :
    value.Reads steps := by
  have located := Address.At.ofRoot (typed_of_ends declared read)
  have sound : root.Sound "" := by
    rw [getRootInterface] at opened
    split at opened
    case isTrue =>
      by_cases isNull : storage = .null
      · cases (dispatch_null isNull rootType).symm.trans opened
      · obtain ⟨other, returned, _, sound⟩ := dispatch_given located isNull
        cases returned.symm.trans opened
        exact sound
    case isFalse => cases opened
  exact reads_of_sound (sound_of_walk walk sound)

def constantRecord : TypeRecord TypeBase :=
  ⟨"FieldConstant", [
    ⟨"TYPE", .selection ⟨"Field_TYPE_selection", [("FieldConstant", 0)]⟩,
      ⟨"FieldConstant", .defaultAtDeclaration⟩⟩,
    ⟨"value", .double 0 10, ⟨"OBLIGATORY", .noDefaultObligatoryType⟩⟩], some 1⟩

def fieldsType : TypeBase :=
  .record ⟨"Data", [⟨"fields", .array (.abstractRecord "Field"
    ⟨"FieldConstant", .defaultAtDeclaration⟩ [constantRecord]) 1 3,
      ⟨"OBLIGATORY", .noDefaultObligatoryType⟩⟩], none⟩

theorem fieldsType_declared : fieldsType.Declared := by
  refine .record fun key inKeys => ?_
  rw [List.mem_singleton.mp inKeys]
  refine .array 1 3 (.abstractRecord _ (fun record member => ?_) fun record member => ?_)
  · rw [List.mem_singleton.mp member]
    exact ⟨rfl, by decide⟩
  · rw [List.mem_singleton.mp member]
    refine .record fun key inKeys => ?_
    rcases List.mem_pair.mp inKeys with rfl | rfl
    · exact .selection _
    · exact .double _ _

/-- `fields = [ 5 ]` -/
def fieldsStorage : Storage := .array [.array [.array [.int 0, .double 5]]]

theorem fieldsStorage_read : makeStorage.Ends
    (JSONPath.ofRoot (.obj [("fields", .array [.int 5])]), fieldsType) (.ok fieldsStorage) :=
  ⟨5, by rfl⟩

def fieldsRoot : Value := .record ⟨⟨"Data", [⟨"fields", .array (.abstractRecord "Field"
    ⟨"FieldConstant", .defaultAtDeclaration⟩ [constantRecord]) 1 3,
      ⟨"OBLIGATORY", .noDefaultObligatoryType⟩⟩], none⟩, .ofRoot fieldsStorage fieldsType⟩

/-- `fields`, `0` and the descendant. -/
def constantAddress : Address where
  rootType := fieldsType
  rootStorage := fieldsStorage
  descendantOrders := [0, 0]
  actualStorage := .array [.int 0, .double 5]

theorem constant_walk : Walk fieldsRoot [.key .array "fields", .item .abstractRecord 0, .descendant]
    (.record ⟨constantRecord, constantAddress⟩) :=
  .snoc (.snoc (.snoc (.nil _) rfl) rfl) rfl

theorem walk_reads_constant :
    constantAddress.makeFullAddress = .ok "/fields/0" ∧
      ∃ it, (Value.record ⟨constantRecord, constantAddress⟩).iterator (.key .double "value") =
        some (.ok it) ∧ it.Answers (.double 0 10) := by
  have reads := walk_reads fieldsType_declared fieldsStorage_read
    (show getRootInterface .record fieldsType fieldsStorage = .ok fieldsRoot from rfl) constant_walk
  have asks := @Value.Asks.key ⟨constantRecord, constantAddress⟩ .double "value"
    ⟨"value", .double 0 10, ⟨"OBLIGATORY", .noDefaultObligatoryType⟩⟩ rfl rfl
  exact ⟨reads.fullAddress _ _ rfl, reads.answers _ _ asks⟩

end Input

end Flow123d
