import Flow123d.Library.Procedure
import Flow123d.Input.InputType
import Flow123d.Input.JsonPath

/-!
# From JSON to the storage

The reader checks a document against a type and stores its values. It is a recursive
procedure: the value at a path is read as a type, and a reference is read where it leads.
-/

set_option autoImplicit false

namespace Flow123d

open Flow123d.Library

inductive Storage where
  | array (items : List Storage)
  | int (value : ℤ)
  | double (value : ℚ)
  | bool (value : Bool)
  | string (value : String)
  | null

inductive ReadError where
  | path (error : PathError)
  | inputError (specification : String) (errorAddress : JSONPath) (jsonType : Option String)
      (inputType : TypeBase)
  /-- With the key name `UNKNOWN KEY`. -/
  | wrongDefault (error : WrongDefault)
  | storageTypeMismatch (requestedType : String)
  | programError (message : String)

namespace JSONToStorage

/-! ## Defaults -/

def orWrongDefault {α : Type} (store : α → Storage) :
    Except WrongDefault α → Except ReadError Storage
  | .ok value => .ok (store value)
  | .error error => .error (.wrongDefault error)

mutual

def makeStorageFromDefault (dfltStr : String) : TypeBase → Except ReadError Storage
  | .abstractRecord _ typeDefault listOfChilds =>
      if typeDefault.hasValueAtDeclaration then
        descendantFromDefault dfltStr typeDefault.value listOfChilds
      else .error (.programError
        "Can not initialize (non-auto-convertible) AbstractRecord '%s' by default value\n")
  | .record record => recordFromDefault dfltStr record
  | .array typeOfValues lowerBound upperBound =>
      if TypeBase.matchSize lowerBound upperBound 1 then do
        let item ← makeStorageFromDefault dfltStr typeOfValues
        .ok (.array [item])
      else .error (.programError
        "Can not initialize Array '%s' by default value, size 1 not allowed.\n")
  | .integer lowerBound upperBound =>
      orWrongDefault .int (TypeBase.integerFromDefault lowerBound upperBound dfltStr)
  | .double lowerBound upperBound =>
      orWrongDefault .double (TypeBase.doubleFromDefault lowerBound upperBound dfltStr)
  | .bool => orWrongDefault .bool (TypeBase.boolFromDefault dfltStr)
  | .selection selection => orWrongDefault .int (selection.fromDefault dfltStr)
  | .string => .ok (.string dfltStr)
  | .fileName type => orWrongDefault .string (TypeBase.fileNameFromDefault type dfltStr)

/-- The record has to be auto-convertible. -/
def recordFromDefault (dfltStr : String) : TypeRecord TypeBase → Except ReadError Storage
  | ⟨_, keys, autoConversionKeyIdx⟩ =>
      match autoConversionKeyIdx with
      | some autoKeyIdx => do
          let items ← keysFromDefault dfltStr autoKeyIdx 0 keys
          .ok (.array items)
      | none => .error (.programError
          "Can not initialize (non-auto-convertible) Record '%s' by default value\n")

/-- One key is initialised by the default of the record, the others by their own. -/
def keysFromDefault (dfltStr : String) (autoKeyIdx : ℕ) :
    ℕ → List (TypeKey TypeBase) → Except ReadError (List Storage)
  | _, [] => .ok []
  | keyIndex, key :: rest => do
      let item ← keyFromDefault dfltStr (keyIndex = autoKeyIdx) key
      let items ← keysFromDefault dfltStr autoKeyIdx (keyIndex + 1) rest
      .ok (item :: items)

def keyFromDefault (dfltStr : String) (isAutoKey : Bool) :
    TypeKey TypeBase → Except ReadError Storage
  | ⟨_, type, dflt⟩ => makeStorageFromDefault (if isAutoKey then dfltStr else dflt.value) type

def descendantFromDefault (dfltStr typeName : String) :
    List (TypeRecord TypeBase) → Except ReadError Storage
  | [] => .error (.programError "Wrong default descendant of AbstractRecord.")
  | record :: rest =>
      if record.typeName = typeName then recordFromDefault dfltStr record
      else descendantFromDefault dfltStr typeName rest

end

/-! ## Types -/

abbrev Reading (α : Type) := Body (JSONPath × TypeBase) Storage ReadError α

def makeStorageKey (path : JSONPath) (record : TypeRecord TypeBase) (key : TypeKey TypeBase) :
    Reading Storage :=
  match path.down (.key key.key) with
  | some below => .call (below, key.type) .ret
  | none =>
      if key.dflt.isObligatory then
        .throw (.inputError ("Missing obligatory key '" ++ key.key ++ "'.") path none
          (.record record))
      else if key.dflt.hasValueAtDeclaration then
        .lift (makeStorageFromDefault key.dflt.value key.type)
      else .ret .null

/-- One key is read from the value itself, the others have their defaults. -/
def autoConvertKey (path : JSONPath) (autoKeyIdx : ℕ) (key : TypeKey TypeBase × ℕ) :
    Reading Storage :=
  if key.2 = autoKeyIdx then .call (path, key.1.type) .ret
  else .lift (makeStorageFromDefault key.1.dflt.value key.1.type)

def makeStorageRecord (path : JSONPath) (record : TypeRecord TypeBase) : Reading Storage :=
  match path.head with
  | .obj _ => do
      let items ← Body.collect (makeStorageKey path record) record.keys
      pure (.array items)
  | node =>
      match record.autoConversionKeyIdx with
      | some autoKeyIdx => do
          let items ← Body.collect (autoConvertKey path autoKeyIdx) record.keys.zipIdx
          pure (.array items)
      | none => .throw (.inputError "The value should be 'JSON object', but we found: " path
          (some node.typeName) (.record record))

/-- The default descendant, if the type has one. -/
def autoConvertAbstract (path : JSONPath) (typeDefault : Default)
    (listOfChilds : List (TypeRecord TypeBase)) (error : ReadError) : Reading Storage :=
  if typeDefault.hasValueAtDeclaration then
    match getDefaultDescendant typeDefault listOfChilds with
    | some record => makeStorageRecord path record
    | none => .throw (.programError "Wrong default descendant of AbstractRecord.")
  else .throw error

/-- The descendant with the index that is stored for the key `TYPE`. -/
def makeStorageDescendant (path : JSONPath) (listOfChilds : List (TypeRecord TypeBase)) :
    Storage → Reading Storage
  | .int descendantIndex =>
      match listOfChilds[descendantIndex.toNat]? with
      | some record => makeStorageRecord path record
      | none => .throw (.programError "Size mismatch.\n")
  | _ => .throw (.storageTypeMismatch "int")

def makeStorageAbstractRecord (path : JSONPath) (typeName : String) (typeDefault : Default)
    (listOfChilds : List (TypeRecord TypeBase)) : Reading Storage :=
  let type := TypeBase.abstractRecord typeName typeDefault listOfChilds
  match path.head with
  | .obj _ =>
      match path.down (.key "TYPE") with
      | none => autoConvertAbstract path typeDefault listOfChilds
          (.inputError "Missing key 'TYPE' in AbstractRecord." path none type)
      | some typePath =>
          .call (typePath, .selection (typeSelection typeName listOfChilds))
            (makeStorageDescendant path listOfChilds)
  | node => autoConvertAbstract path typeDefault listOfChilds
      (.inputError "The value should be 'JSON object', but we found: " path
        (some node.typeName) type)

def makeStorageItem (path : JSONPath) (typeOfValues : TypeBase) (idx : ℕ) : Reading Storage :=
  match path.down (.index idx) with
  | some below => .call (below, typeOfValues) .ret
  | none => .throw (.programError "index out of size of Array")

def makeStorageArray (path : JSONPath) (typeOfValues : TypeBase) (lowerBound upperBound : ℕ) :
    Reading Storage :=
  let type := TypeBase.array typeOfValues lowerBound upperBound
  match path.head with
  | .array items =>
      if TypeBase.matchSize lowerBound upperBound items.length then do
        let stored ← Body.collect (makeStorageItem path typeOfValues) (List.range items.length)
        pure (.array stored)
      else .throw (.inputError "Do not fit into size limits of the Array." path none type)
  | node =>
      -- an array with one element
      if TypeBase.matchSize lowerBound upperBound 1 then
        .call (path, typeOfValues) fun item => pure (.array [item])
      else .throw (.inputError
        "Automatic conversion to array not allowed. The value should be 'JSON array', but we found: "
        path (some node.typeName) type)

def makeStorageSelection (path : JSONPath) (selection : TypeSelection) : Reading Storage :=
  match path.head with
  | .str itemName =>
      match selection.nameToInt itemName with
      | some value => pure (.int value)
      | none => .throw (.inputError ("Wrong value '" ++ itemName ++ "' of the Selection.") path
          (some "") (.selection selection))
  | node => .throw (.inputError "The value should be 'JSON string', but we found: " path
      (some node.typeName) (.selection selection))

def makeStorageBool (path : JSONPath) : Reading Storage :=
  match path.head with
  | .bool value => pure (.bool value)
  | node => .throw (.inputError "The value should be 'JSON bool', but we found: " path
      (some node.typeName) .bool)

/-- `get_int` keeps the lowest 32 bits. -/
def getInt (value : ℤ) : ℤ := value.bmod (2 ^ 32)

def makeStorageInteger (path : JSONPath) (lowerBound upperBound : ℤ) : Reading Storage :=
  match path.head with
  | .int value =>
      if TypeBase.matchInt lowerBound upperBound (getInt value) then
        pure (.int (getInt value))
      else .throw (.inputError "Value out of bounds." path none
        (.integer lowerBound upperBound))
  | node => .throw (.inputError "The value should be 'JSON int', but we found: " path
      (some node.typeName) (.integer lowerBound upperBound))

def storeDouble (path : JSONPath) (lowerBound upperBound value : ℚ) : Reading Storage :=
  if TypeBase.matchDouble lowerBound upperBound value then pure (.double value)
  else .throw (.inputError "Value out of bounds." path none (.double lowerBound upperBound))

def makeStorageDouble (path : JSONPath) (lowerBound upperBound : ℚ) : Reading Storage :=
  match path.head with
  | .real value => storeDouble path lowerBound upperBound value
  | .int value => storeDouble path lowerBound upperBound (getInt value)
  | node => .throw (.inputError "The value should be 'JSON real', but we found: " path
      (some node.typeName) (.double lowerBound upperBound))

/-- Strings and file names. -/
def makeStorageString (path : JSONPath) (isMatching : String → Bool) (type : TypeBase) :
    Reading Storage :=
  match path.head with
  | .str value =>
      if isMatching value then pure (.string value)
      else .throw (.inputError
        ("Output file can not be given by absolute path: '" ++ value ++ "'") path (some "") type)
  | node => .throw (.inputError "The value should be 'JSON string', but we found: " path
      (some node.typeName) type)

/-! ## The dispatch -/

/-- The value at the path, which is not a reference. -/
def makeStorageValue (path : JSONPath) (type : TypeBase) : Reading Storage :=
  match path.head with
  | .null => pure .null
  | _ =>
      match type with
      | .record record => makeStorageRecord path record
      | .abstractRecord typeName typeDefault listOfChilds =>
          makeStorageAbstractRecord path typeName typeDefault listOfChilds
      | .array typeOfValues lowerBound upperBound =>
          makeStorageArray path typeOfValues lowerBound upperBound
      | .integer lowerBound upperBound => makeStorageInteger path lowerBound upperBound
      | .double lowerBound upperBound => makeStorageDouble path lowerBound upperBound
      | .bool => makeStorageBool path
      | .selection selection => makeStorageSelection path selection
      | .string => makeStorageString path (fun _ => true) .string
      | .fileName fileType =>
          makeStorageString path (TypeBase.matchFileName fileType) (.fileName fileType)

/-- The data are taken from where the reference leads. -/
def makeStorageReference (type : TypeBase) : Except PathError JSONPath → Reading Storage
  | .error error => .throw (.path error)
  | .ok refPath => .call (refPath, type) .ret

def makeStorage : Procedure (JSONPath × TypeBase) Storage ReadError
  | (path, type) =>
      match path.getRefFromHead with
      | .error error => .throw (.path error)
      | .ok (some refAddress) => makeStorageReference type (path.findRefNode refAddress)
      | .ok none => makeStorageValue path type

end JSONToStorage

end Flow123d
