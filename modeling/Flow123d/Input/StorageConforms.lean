import Flow123d.Input.JsonReferences
import Flow123d.Library.Outcome

/-!
# The storage of a document

What a storage has to hold to be the storage of a document of a type: one item for each key
of a record, arrays of an allowed size, numbers of the document within their bounds and
values of the selections.
-/

set_option autoImplicit false

namespace Flow123d

open Flow123d.Library

namespace JSONPath

/-- The references at the path lead to the last one. -/
inductive Resolves : JSONPath → JSONPath → Prop where
  | here {path : JSONPath} (isValue : path.getRefFromHead = .ok none) : Resolves path path
  | reference {path target final : JSONPath} {refAddress : String}
      (isReference : path.getRefFromHead = .ok (some refAddress))
      (found : path.findRefNode refAddress = .ok target) (rest : Resolves target final) :
      Resolves path final

/-- The descendant of an abstract record that the document asks for. -/
inductive Descendant (path : JSONPath) (typeDefault : Default)
    (listOfChilds : List (TypeRecord TypeBase)) (record : TypeRecord TypeBase) : Prop where
  | named {typePath final : JSONPath} {name : String}
      (isKey : path.down (.key "TYPE") = some typePath) (resolves : typePath.Resolves final)
      (isName : final.head = .str name)
      (found : listOfChilds.find? (fun child => child.typeName = name) = some record)
  | byDefault (noKey : path.down (.key "TYPE") = none)
      (hasDefault : typeDefault.hasValueAtDeclaration = true)
      (found : getDefaultDescendant typeDefault listOfChilds = some record)

end JSONPath

namespace Node

def IsObject : Node → Prop
  | .obj _ => True
  | _ => False

def IsArray : Node → Prop
  | .array _ => True
  | _ => False

end Node

namespace JSONToStorage

/-- A stored value of the type, wherever it comes from. -/
inductive Admits : TypeBase → Storage → Prop where
  | null {type} : Admits type .null
  | record {record : TypeRecord TypeBase} {items : List Storage}
      (size : items.length = record.keys.length)
      (ofType : ∀ (i : ℕ) (key : TypeKey TypeBase) (item : Storage),
        record.keys[i]? = some key → items[i]? = some item → Admits key.type item)
      (given : ∀ (i : ℕ) (key : TypeKey TypeBase) (item : Storage),
        record.keys[i]? = some key → items[i]? = some item → key.dflt.isObligatory = true →
          item ≠ .null) :
      Admits (.record record) (.array items)
  | abstractRecord {typeName typeDefault listOfChilds record stored}
      (isChild : record ∈ listOfChilds) (ofType : Admits (.record record) stored) :
      Admits (.abstractRecord typeName typeDefault listOfChilds) stored
  | array {typeOfValues lowerBound upperBound} {items : List Storage}
      (lower : lowerBound ≤ items.length) (upper : items.length ≤ upperBound)
      (ofType : ∀ item ∈ items, Admits typeOfValues item) :
      Admits (.array typeOfValues lowerBound upperBound) (.array items)
  | integer {lowerBound upperBound value} (lower : lowerBound ≤ value)
      (upper : value ≤ upperBound) : Admits (.integer lowerBound upperBound) (.int value)
  | double {lowerBound upperBound value} (lower : lowerBound ≤ value)
      (upper : value ≤ upperBound) : Admits (.double lowerBound upperBound) (.double value)
  | bool {value} : Admits .bool (.bool value)
  | selection {selection name value} (isKey : selection.nameToInt name = some value) :
      Admits (.selection selection) (.int value)
  | string {value} : Admits .string (.string value)
  | fileName {type value} (isName : TypeBase.matchFileName type value = true) :
      Admits (.fileName type) (.string value)

/-- A key that the document does not give. -/
inductive Unset (key : TypeKey TypeBase) : Storage → Prop where
  | fromDefault {stored} (ofType : Admits key.type stored) (given : stored ≠ .null) :
      Unset key stored
  | optional (optional : key.dflt.isObligatory = false) : Unset key .null

/-- The storage for the value at the path. An integer may be changed as `number` says, and a
key may hold what `allowed` says. -/
inductive Stored (number : ℤ → ℤ → Prop) (allowed : TypeKey TypeBase → Storage → Prop) :
    JSONPath → TypeBase → Storage → Prop where
  | reference {path target : JSONPath} {refAddress type stored}
      (isReference : path.getRefFromHead = .ok (some refAddress))
      (found : path.findRefNode refAddress = .ok target)
      (there : Stored number allowed target type stored) :
      Stored number allowed path type stored
  | null {path : JSONPath} {type} (isNull : path.head = .null) :
      Stored number allowed path type .null
  | record {path : JSONPath} {record : TypeRecord TypeBase} {items : List Storage}
      (isValue : path.getRefFromHead = .ok none) (isObject : path.head.IsObject)
      (size : items.length = record.keys.length)
      (given : ∀ (i : ℕ) (key : TypeKey TypeBase) (item : Storage) (below : JSONPath),
        record.keys[i]? = some key → items[i]? = some item →
          path.down (.key key.key) = some below → Stored number allowed below key.type item)
      (unset : ∀ (i : ℕ) (key : TypeKey TypeBase) (item : Storage),
        record.keys[i]? = some key → items[i]? = some item →
          path.down (.key key.key) = none → Unset key item)
      (holds : ∀ (i : ℕ) (key : TypeKey TypeBase) (item : Storage),
        record.keys[i]? = some key → items[i]? = some item → allowed key item) :
      Stored number allowed path (.record record) (.array items)
  | autoRecord {path : JSONPath} {record : TypeRecord TypeBase} {autoKeyIdx : ℕ}
      {items : List Storage} (noObject : ¬ path.head.IsObject) (noNull : path.head ≠ .null)
      (isAuto : record.autoConversionKeyIdx = some autoKeyIdx)
      (size : items.length = record.keys.length)
      (given : ∀ (key : TypeKey TypeBase) (item : Storage),
        record.keys[autoKeyIdx]? = some key → items[autoKeyIdx]? = some item →
          Stored number allowed path key.type item)
      (unset : ∀ (i : ℕ) (key : TypeKey TypeBase) (item : Storage), i ≠ autoKeyIdx →
        record.keys[i]? = some key → items[i]? = some item → Unset key item)
      (holds : ∀ (i : ℕ) (key : TypeKey TypeBase) (item : Storage),
        record.keys[i]? = some key → items[i]? = some item → allowed key item) :
      Stored number allowed path (.record record) (.array items)
  | abstractRecord {path : JSONPath} {typeName typeDefault listOfChilds record stored}
      (isValue : path.getRefFromHead = .ok none) (noNull : path.head ≠ .null)
      (descendant : path.Descendant typeDefault listOfChilds record)
      (ofDescendant : Stored number allowed path (.record record) stored) :
      Stored number allowed path (.abstractRecord typeName typeDefault listOfChilds) stored
  | array {path : JSONPath} {typeOfValues lowerBound upperBound} {values : List Node}
      {items : List Storage} (isArray : path.head = .array values)
      (lower : lowerBound ≤ items.length) (upper : items.length ≤ upperBound)
      (size : items.length = values.length)
      (each : ∀ (i : ℕ) (item : Storage) (below : JSONPath), items[i]? = some item →
        path.down (.index i) = some below → Stored number allowed below typeOfValues item) :
      Stored number allowed path (.array typeOfValues lowerBound upperBound) (.array items)
  | autoArray {path : JSONPath} {typeOfValues lowerBound upperBound item}
      (isValue : path.getRefFromHead = .ok none) (noArray : ¬ path.head.IsArray)
      (noNull : path.head ≠ .null) (lower : lowerBound ≤ 1) (upper : 1 ≤ upperBound)
      (only : Stored number allowed path typeOfValues item) :
      Stored number allowed path (.array typeOfValues lowerBound upperBound) (.array [item])
  | integer {path : JSONPath} {lowerBound upperBound value stored}
      (isHead : path.head = .int value) (isNumber : number value stored)
      (lower : lowerBound ≤ stored) (upper : stored ≤ upperBound) :
      Stored number allowed path (.integer lowerBound upperBound) (.int stored)
  | real {path : JSONPath} {lowerBound upperBound value} (isHead : path.head = .real value)
      (lower : lowerBound ≤ value) (upper : value ≤ upperBound) :
      Stored number allowed path (.double lowerBound upperBound) (.double value)
  | double {path : JSONPath} {lowerBound upperBound : ℚ} {value stored : ℤ}
      (isHead : path.head = .int value) (isNumber : number value stored)
      (lower : lowerBound ≤ stored) (upper : stored ≤ upperBound) :
      Stored number allowed path (.double lowerBound upperBound) (.double stored)
  | bool {path : JSONPath} {value} (isHead : path.head = .bool value) :
      Stored number allowed path .bool (.bool value)
  | selection {path : JSONPath} {selection name value} (isHead : path.head = .str name)
      (isKey : selection.nameToInt name = some value) :
      Stored number allowed path (.selection selection) (.int value)
  | string {path : JSONPath} {value} (isHead : path.head = .str value) :
      Stored number allowed path .string (.string value)
  | fileName {path : JSONPath} {type value} (isHead : path.head = .str value)
      (isName : TypeBase.matchFileName type value = true) :
      Stored number allowed path (.fileName type) (.string value)

/-- The storage is the one of the document: integers are as they stand there, and obligatory
keys are given. -/
abbrev Conforms : JSONPath → TypeBase → Storage → Prop :=
  Stored (fun value stored => stored = value)
    fun key item => key.dflt.isObligatory = true → item ≠ .null

end JSONToStorage

end Flow123d

/-!
## The reader fills the storage as the type says

The reader keeps the lowest bits of an integer and stores a null wherever it finds one. So the
storage is the one of the document just where this makes no difference.
-/

namespace Flow123d

open Flow123d.Library

namespace TypeBase

theorem matchSize_iff {lowerBound upperBound size : ℕ} :
    matchSize lowerBound upperBound size = true ↔ lowerBound ≤ size ∧ size ≤ upperBound := by
  simp [matchSize]

theorem matchInt_iff {lowerBound upperBound value : ℤ} :
    matchInt lowerBound upperBound value = true ↔ lowerBound ≤ value ∧ value ≤ upperBound := by
  simp [matchInt]

theorem matchDouble_iff {lowerBound upperBound value : ℚ} :
    matchDouble lowerBound upperBound value = true ↔
      lowerBound ≤ value ∧ value ≤ upperBound := by
  simp [matchDouble]

end TypeBase

namespace JSONPath

variable {path : JSONPath}

theorem item_of_down {below : JSONPath} {item : PathItem} (found : path.down item = some below) :
    ∃ node, path.head.item? item = some node := by
  obtain ⟨place, descended, _⟩ := Option.map_eq_some_iff.mp found
  unfold JSONPlace.down at descended
  split at descended
  · cases descended
  case h_2 node isItem => exact ⟨node, isItem⟩

theorem isObject_of_down {below : JSONPath} {key : String}
    (found : path.down (.key key) = some below) : path.head.IsObject := by
  obtain ⟨node, isItem⟩ := item_of_down found
  cases isHead : path.head with
  | obj members => trivial
  | _ =>
      rw [isHead] at isItem
      cases isItem

theorem down_key_of_not_object (noObject : ¬ path.head.IsObject) (key : String) :
    path.down (.key key) = none := by
  cases found : path.down (.key key) with
  | none => rfl
  | some below => exact absurd (isObject_of_down found) noObject

theorem array_of_down {below : JSONPath} {i : ℕ} (found : path.down (.index i) = some below) :
    ∃ values, path.head = .array values ∧ i < values.length := by
  obtain ⟨node, isItem⟩ := item_of_down found
  cases isHead : path.head with
  | array values =>
      rw [isHead] at isItem
      exact ⟨values, rfl, (List.getElem?_eq_some_iff.mp isItem).1⟩
  | _ =>
      rw [isHead] at isItem
      cases isItem

end JSONPath

namespace JSONToStorage

/-! ## Defaults -/

/-- The items are of the types of the keys, and there is something in each of them. -/
abbrev Supplied (keys : List (TypeKey TypeBase)) (items : List Storage) : Prop :=
  List.Forall₂ (fun key item => Admits key.type item ∧ item ≠ .null) keys items

theorem Supplied.admits {record : TypeRecord TypeBase} {items : List Storage}
    (supplied : Supplied record.keys items) : Admits (.record record) (.array items) := by
  refine .record supplied.length_eq.symm ?_ ?_
  · intro i key item isKey isItem
    exact (forall₂_getElem? supplied isKey isItem).1
  · intro i key item isKey isItem _
    exact (forall₂_getElem? supplied isKey isItem).2

theorem orWrongDefault_ok {α : Type} {store : α → Storage} {outcome : Except WrongDefault α}
    {stored : Storage} (returned : orWrongDefault store outcome = .ok stored) :
    ∃ value, outcome = .ok value ∧ stored = store value := by
  cases outcome with
  | error wrong => cases returned
  | ok value =>
      cases returned
      exact ⟨value, rfl, rfl⟩

theorem integerFromDefault_ok {lowerBound upperBound value : ℤ} {str : String}
    (returned : TypeBase.integerFromDefault lowerBound upperBound str = .ok value) :
    lowerBound ≤ value ∧ value ≤ upperBound := by
  unfold TypeBase.integerFromDefault at returned
  split at returned
  · split at returned
    case isTrue fits =>
      cases returned
      exact TypeBase.matchInt_iff.mp fits
    case isFalse => cases returned
  · cases returned

theorem doubleFromDefault_ok {lowerBound upperBound value : ℚ} {str : String}
    (returned : TypeBase.doubleFromDefault lowerBound upperBound str = .ok value) :
    lowerBound ≤ value ∧ value ≤ upperBound := by
  unfold TypeBase.doubleFromDefault at returned
  split at returned
  · split at returned
    case isTrue fits =>
      cases returned
      exact TypeBase.matchDouble_iff.mp fits
    case isFalse => cases returned
  · cases returned

theorem selectionFromDefault_ok {selection : TypeSelection} {value : ℤ} {str : String}
    (returned : selection.fromDefault str = .ok value) :
    selection.nameToInt str = some value := by
  unfold TypeSelection.fromDefault at returned
  split at returned
  case h_1 found isKey =>
    cases returned
    exact isKey
  case h_2 => cases returned

theorem fileNameFromDefault_ok {type : FileType} {value str : String}
    (returned : TypeBase.fileNameFromDefault type str = .ok value) :
    TypeBase.matchFileName type value = true := by
  unfold TypeBase.fileNameFromDefault at returned
  split at returned
  · cases returned
    assumption
  · cases returned

mutual

theorem makeStorageFromDefault_ok {dfltStr : String} {stored : Storage} :
    ∀ type, makeStorageFromDefault dfltStr type = .ok stored →
      Admits type stored ∧ stored ≠ .null
  | .abstractRecord _ typeDefault listOfChilds, returned => by
      rw [makeStorageFromDefault] at returned
      split at returned
      · obtain ⟨record, isChild, ofType, given⟩ :=
          descendantFromDefault_ok listOfChilds returned
        exact ⟨.abstractRecord isChild ofType, given⟩
      · cases returned
  | .record record, returned => recordFromDefault_ok record returned
  | .array typeOfValues lowerBound upperBound, returned => by
      rw [makeStorageFromDefault] at returned
      split at returned
      case isTrue fits =>
        cases item : makeStorageFromDefault dfltStr typeOfValues with
        | error itemError =>
            rw [item] at returned
            cases returned
        | ok value =>
            rw [item] at returned
            cases returned
            have bounds := TypeBase.matchSize_iff.mp fits
            refine ⟨.array bounds.1 bounds.2 ?_, nofun⟩
            intro one member
            rw [List.mem_singleton.mp member]
            exact (makeStorageFromDefault_ok typeOfValues item).1
      case isFalse => cases returned
  | .integer _ _, returned => by
      obtain ⟨value, given, rfl⟩ := orWrongDefault_ok returned
      have bounds := integerFromDefault_ok given
      exact ⟨.integer bounds.1 bounds.2, nofun⟩
  | .double _ _, returned => by
      obtain ⟨value, given, rfl⟩ := orWrongDefault_ok returned
      have bounds := doubleFromDefault_ok given
      exact ⟨.double bounds.1 bounds.2, nofun⟩
  | .bool, returned => by
      obtain ⟨value, _, rfl⟩ := orWrongDefault_ok returned
      exact ⟨.bool, nofun⟩
  | .selection _, returned => by
      obtain ⟨value, given, rfl⟩ := orWrongDefault_ok returned
      exact ⟨.selection (selectionFromDefault_ok given), nofun⟩
  | .string, returned => by
      cases returned
      exact ⟨.string, nofun⟩
  | .fileName _, returned => by
      obtain ⟨value, given, rfl⟩ := orWrongDefault_ok returned
      exact ⟨.fileName (fileNameFromDefault_ok given), nofun⟩

theorem recordFromDefault_ok {dfltStr : String} {stored : Storage} :
    ∀ record, recordFromDefault dfltStr record = .ok stored →
      Admits (.record record) stored ∧ stored ≠ .null
  | ⟨_, keys, autoConversionKeyIdx⟩, returned => by
      cases autoConversionKeyIdx with
      | none => cases returned
      | some autoKeyIdx =>
          simp only [recordFromDefault] at returned
          cases items : keysFromDefault dfltStr autoKeyIdx 0 keys with
          | error itemsError =>
              simp only [items] at returned
              cases returned
          | ok values =>
              simp only [items] at returned
              cases returned
              exact ⟨Supplied.admits (keysFromDefault_ok 0 keys items), nofun⟩

theorem keysFromDefault_ok {dfltStr : String} {autoKeyIdx : ℕ} {values : List Storage} :
    ∀ keyIndex keys, keysFromDefault dfltStr autoKeyIdx keyIndex keys = .ok values →
      Supplied keys values
  | _, [], returned => by
      cases returned
      exact .nil
  | keyIndex, key :: rest, returned => by
      rw [keysFromDefault] at returned
      cases item : keyFromDefault dfltStr (keyIndex = autoKeyIdx) key with
      | error itemError =>
          rw [item] at returned
          cases returned
      | ok value =>
          cases items : keysFromDefault dfltStr autoKeyIdx (keyIndex + 1) rest with
          | error itemsError =>
              rw [item, items] at returned
              cases returned
          | ok others =>
              rw [item, items] at returned
              cases returned
              exact .cons (keyFromDefault_ok _ key item) (keysFromDefault_ok _ rest items)

theorem keyFromDefault_ok {dfltStr : String} {stored : Storage} :
    ∀ isAutoKey key, keyFromDefault dfltStr isAutoKey key = .ok stored →
      Admits key.type stored ∧ stored ≠ .null
  | _, ⟨_, type, _⟩, returned => makeStorageFromDefault_ok type returned

theorem descendantFromDefault_ok {dfltStr typeName : String} {stored : Storage} :
    ∀ listOfChilds, descendantFromDefault dfltStr typeName listOfChilds = .ok stored →
      ∃ record ∈ listOfChilds, Admits (.record record) stored ∧ stored ≠ .null
  | [], returned => nomatch returned
  | record :: rest, returned => by
      rw [descendantFromDefault] at returned
      split at returned
      · exact ⟨record, List.mem_cons_self, recordFromDefault_ok record returned⟩
      · obtain ⟨other, member, holds⟩ := descendantFromDefault_ok rest returned
        exact ⟨other, List.mem_cons_of_mem _ member, holds⟩

end

/-! ## What the reader stores -/

/-- What the reader stores for a value as a type. -/
abbrev Filled (position : JSONPath × TypeBase) (stored : Storage) : Prop :=
  Stored (fun value stored => stored = getInt value) (fun _ _ => True) position.1 position.2
    stored

variable {path : JSONPath}

theorem not_isObject {node : Node} (noObject : ∀ members, node = .obj members → False) :
    ¬ node.IsObject := by
  cases node with
  | obj members => exact (noObject members rfl).elim
  | _ => exact id

theorem not_isArray {node : Node} (noArray : ∀ items, node = .array items → False) :
    ¬ node.IsArray := by
  cases node with
  | array items => exact (noArray items rfl).elim
  | _ => exact id

theorem makeStorageKey_returns (record : TypeRecord TypeBase) (key : TypeKey TypeBase) :
    (makeStorageKey path record key).Returns Filled fun item =>
      (∀ below, path.down (.key key.key) = some below → Filled (below, key.type) item) ∧
        (path.down (.key key.key) = none → Unset key item) := by
  unfold makeStorageKey
  split
  case h_1 below found =>
    intro reply replied
    refine ⟨fun other also => ?_, fun missing => ?_⟩
    · cases found.symm.trans also
      exact replied
    · cases found.symm.trans missing
  case h_2 missing =>
    have noBelow : ∀ item : Storage, ∀ below, path.down (.key key.key) = some below →
        Filled (below, key.type) item := by
      intro item below found
      cases missing.symm.trans found
    split
    · trivial
    · split
      · refine Body.Returns.lift fun item returned => ⟨noBelow item, fun _ => ?_⟩
        obtain ⟨ofType, given⟩ := makeStorageFromDefault_ok key.type returned
        exact .fromDefault ofType given
      · refine ⟨noBelow .null, fun _ => .optional ?_⟩
        exact Bool.eq_false_iff.mpr ‹_›

theorem autoConvertKey_returns (autoKeyIdx : ℕ) (key : TypeKey TypeBase × ℕ) :
    (autoConvertKey path autoKeyIdx key).Returns Filled fun item =>
      (key.2 = autoKeyIdx → Filled (path, key.1.type) item) ∧
        (key.2 ≠ autoKeyIdx → Unset key.1 item) := by
  unfold autoConvertKey
  split
  case isTrue isAuto =>
    exact fun reply replied => ⟨fun _ => replied, fun other => absurd isAuto other⟩
  case isFalse isOther =>
    refine Body.Returns.lift fun item returned => ⟨fun isAuto => absurd isAuto isOther, ?_⟩
    intro _
    obtain ⟨ofType, given⟩ := makeStorageFromDefault_ok key.1.type returned
    exact .fromDefault ofType given

theorem makeStorageRecord_returns (isValue : path.getRefFromHead = .ok none)
    (noNull : path.head ≠ .null) (record : TypeRecord TypeBase) :
    (makeStorageRecord path record).Returns Filled (Filled (path, .record record)) := by
  unfold makeStorageRecord
  split
  case h_1 members isHead =>
    have isObject : path.head.IsObject := by
      rw [isHead]
      trivial
    refine (Body.Returns.collect fun key _ => makeStorageKey_returns record key).bind
      fun items related => ?_
    refine .record isValue isObject related.length_eq.symm ?_ ?_ fun _ _ _ _ _ => trivial
    · intro i key item below isKey isItem found
      exact (forall₂_getElem? related isKey isItem).1 below found
    · intro i key item isKey isItem missing
      exact (forall₂_getElem? related isKey isItem).2 missing
  case h_2 noObject =>
    split
    case h_1 autoKeyIdx isAuto =>
      refine (Body.Returns.collect fun key _ => autoConvertKey_returns autoKeyIdx key).bind
        fun items related => ?_
      have numbered : ∀ {i : ℕ} {key : TypeKey TypeBase}, record.keys[i]? = some key →
          record.keys.zipIdx[i]? = some (key, i) := by
        intro i key isKey
        rw [List.getElem?_zipIdx, isKey]
        simp
      refine .autoRecord (not_isObject noObject) noNull isAuto ?_ ?_ ?_
        fun _ _ _ _ _ => trivial
      · rw [← related.length_eq, List.length_zipIdx]
      · intro key item isKey isItem
        exact (forall₂_getElem? related (numbered isKey) isItem).1 rfl
      · intro i key item isOther isKey isItem
        exact (forall₂_getElem? related (numbered isKey) isItem).2 isOther
    · trivial

theorem autoConvertAbstract_returns (isValue : path.getRefFromHead = .ok none)
    (noNull : path.head ≠ .null) (noKey : path.down (.key "TYPE") = none) (typeName : String)
    (typeDefault : Default) (listOfChilds : List (TypeRecord TypeBase)) (error : ReadError) :
    (autoConvertAbstract path typeDefault listOfChilds error).Returns Filled
      (Filled (path, .abstractRecord typeName typeDefault listOfChilds)) := by
  unfold autoConvertAbstract
  split
  case isTrue hasDefault =>
    split
    case h_1 record found =>
      refine (makeStorageRecord_returns isValue noNull record).mono fun stored filled => ?_
      exact .abstractRecord isValue noNull (.byDefault noKey hasDefault found) filled
    case h_2 => trivial
  case isFalse => trivial

/-- The value of a selection is that of the name to which the references lead. -/
theorem Stored.selection_int {number : ℤ → ℤ → Prop}
    {allowed : TypeKey TypeBase → Storage → Prop} {selection : TypeSelection} {value : ℤ}
    (stored : Stored number allowed path (.selection selection) (.int value)) :
    ∃ final name, path.Resolves final ∧ final.head = .str name ∧
      selection.nameToInt name = some value := by
  generalize isType : TypeBase.selection selection = type at stored
  generalize isStored : Storage.int value = item at stored
  induction stored with
  | reference isReference found there ih =>
      obtain ⟨final, name, resolves, isHead, isKey⟩ := ih isType isStored
      exact ⟨final, name, .reference isReference found resolves, isHead, isKey⟩
  | @selection path selection name value isHead isKey =>
      cases isType
      cases isStored
      refine ⟨path, name, .here ?_, isHead, isKey⟩
      rw [JSONPath.getRefFromHead, isHead]
  | _ => cases isType <;> cases isStored

theorem typeSelection_lookup {listOfChilds : List (TypeRecord TypeBase)} {name : String}
    {value : ℤ} {start : ℕ}
    (isKey : ((listOfChilds.zipIdx start).map fun child =>
      (child.1.typeName, (child.2 : ℤ))).lookup name = some value) :
    ∃ i : ℕ, value = start + i ∧
      listOfChilds.find? (fun child => child.typeName = name) = listOfChilds[i]? := by
  induction listOfChilds generalizing start with
  | nil => cases isKey
  | cons child rest ih =>
      rw [List.zipIdx_cons, List.map_cons, List.lookup_cons] at isKey
      cases same : name == child.typeName with
      | true =>
          rw [same] at isKey
          cases isKey
          refine ⟨0, by simp, ?_⟩
          simp [(beq_iff_eq.mp same).symm]
      | false =>
          rw [same] at isKey
          obtain ⟨i, isValue, found⟩ := ih isKey
          refine ⟨i + 1, by push_cast at isValue ⊢; omega, ?_⟩
          have other : child.typeName ≠ name := fun equal => by simp [equal] at same
          rw [List.find?_cons_of_neg (by simpa using other), found]
          rfl

theorem makeStorageDescendant_returns (isValue : path.getRefFromHead = .ok none)
    (noNull : path.head ≠ .null) {typePath : JSONPath}
    (isKey : path.down (.key "TYPE") = some typePath) (typeName : String)
    (typeDefault : Default) (listOfChilds : List (TypeRecord TypeBase)) {reply : Storage}
    (replied : Filled (typePath, .selection (typeSelection typeName listOfChilds)) reply) :
    (makeStorageDescendant path listOfChilds reply).Returns Filled
      (Filled (path, .abstractRecord typeName typeDefault listOfChilds)) := by
  unfold makeStorageDescendant
  split
  case h_1 descendantIndex =>
    split
    case h_1 record isChild =>
      obtain ⟨final, name, resolves, isName, hasValue⟩ := replied.selection_int
      obtain ⟨i, isIndex, found⟩ := typeSelection_lookup hasValue
      have position : descendantIndex.toNat = i := by omega
      rw [position] at isChild
      refine (makeStorageRecord_returns isValue noNull record).mono fun stored filled => ?_
      exact .abstractRecord isValue noNull
        (.named isKey resolves isName (found.trans isChild)) filled
    case h_2 => trivial
  case h_2 => trivial

theorem makeStorageAbstractRecord_returns (isValue : path.getRefFromHead = .ok none)
    (noNull : path.head ≠ .null) (typeName : String)
    (typeDefault : Default) (listOfChilds : List (TypeRecord TypeBase)) :
    (makeStorageAbstractRecord path typeName typeDefault listOfChilds).Returns Filled
      (Filled (path, .abstractRecord typeName typeDefault listOfChilds)) := by
  unfold makeStorageAbstractRecord
  dsimp only
  split
  case h_1 members isHead =>
    split
    case h_1 noKey => exact autoConvertAbstract_returns isValue noNull noKey ..
    case h_2 typePath isKey =>
      intro reply replied
      exact makeStorageDescendant_returns isValue noNull isKey typeName typeDefault _ replied
  case h_2 noObject =>
    have noKey := JSONPath.down_key_of_not_object (not_isObject noObject) "TYPE"
    exact autoConvertAbstract_returns isValue noNull noKey ..

theorem makeStorageItem_returns (typeOfValues : TypeBase) (idx : ℕ) :
    (makeStorageItem path typeOfValues idx).Returns Filled fun item =>
      ∀ below, path.down (.index idx) = some below → Filled (below, typeOfValues) item := by
  unfold makeStorageItem
  split
  case h_1 below found =>
    intro reply replied other also
    cases found.symm.trans also
    exact replied
  case h_2 => trivial

theorem makeStorageArray_returns (isValue : path.getRefFromHead = .ok none)
    (noNull : path.head ≠ .null) (typeOfValues : TypeBase) (lowerBound upperBound : ℕ) :
    (makeStorageArray path typeOfValues lowerBound upperBound).Returns Filled
      (Filled (path, .array typeOfValues lowerBound upperBound)) := by
  unfold makeStorageArray
  dsimp only
  split
  case h_1 values isHead =>
    split
    case isTrue fits =>
      refine (Body.Returns.collect fun idx _ => makeStorageItem_returns typeOfValues idx).bind
        fun items related => ?_
      have size : items.length = values.length := by
        rw [← related.length_eq, List.length_range]
      have bounds := TypeBase.matchSize_iff.mp (size ▸ fits)
      refine .array isHead bounds.1 bounds.2 size ?_
      intro i item below isItem found
      have inside : i < values.length :=
        size ▸ (List.getElem?_eq_some_iff.mp isItem).1
      exact forall₂_getElem? related (List.getElem?_range inside) isItem below found
    case isFalse => trivial
  case h_2 noArray =>
    split
    case isTrue fits =>
      have bounds := TypeBase.matchSize_iff.mp fits
      exact fun reply replied =>
        .autoArray isValue (not_isArray noArray) noNull bounds.1 bounds.2 replied
    case isFalse => trivial

theorem makeStorageSelection_returns (selection : TypeSelection) :
    (makeStorageSelection path selection).Returns Filled
      (Filled (path, .selection selection)) := by
  unfold makeStorageSelection
  split
  case h_1 itemName isHead =>
    split
    case h_1 value isKey => exact .selection isHead isKey
    case h_2 => trivial
  case h_2 => trivial

theorem makeStorageBool_returns : (makeStorageBool path).Returns Filled (Filled (path, .bool)) := by
  unfold makeStorageBool
  split
  case h_1 value isHead => exact .bool isHead
  case h_2 => trivial

theorem makeStorageInteger_returns (lowerBound upperBound : ℤ) :
    (makeStorageInteger path lowerBound upperBound).Returns Filled
      (Filled (path, .integer lowerBound upperBound)) := by
  unfold makeStorageInteger
  split
  case h_1 value isHead =>
    split
    case isTrue fits =>
      have bounds := TypeBase.matchInt_iff.mp fits
      exact .integer isHead rfl bounds.1 bounds.2
    case isFalse => trivial
  case h_2 => trivial

theorem makeStorageDouble_returns (lowerBound upperBound : ℚ) :
    (makeStorageDouble path lowerBound upperBound).Returns Filled
      (Filled (path, .double lowerBound upperBound)) := by
  unfold makeStorageDouble storeDouble
  split
  case h_1 value isHead =>
    split
    case isTrue fits =>
      have bounds := TypeBase.matchDouble_iff.mp fits
      exact .real isHead bounds.1 bounds.2
    case isFalse => trivial
  case h_2 value isHead =>
    split
    case isTrue fits =>
      have bounds := TypeBase.matchDouble_iff.mp fits
      exact .double isHead rfl bounds.1 bounds.2
    case isFalse => trivial
  case h_3 => trivial

theorem makeStorageString_returns {isMatching : String → Bool} {type : TypeBase}
    (stores : ∀ value, path.head = .str value → isMatching value = true →
      Filled (path, type) (.string value)) :
    (makeStorageString path isMatching type).Returns Filled (Filled (path, type)) := by
  unfold makeStorageString
  split
  case h_1 value isHead =>
    split
    case isTrue isMatch => exact stores value isHead isMatch
    case isFalse => trivial
  case h_2 => trivial

theorem makeStorageValue_returns (isValue : path.getRefFromHead = .ok none)
    (type : TypeBase) : (makeStorageValue path type).Returns Filled (Filled (path, type)) := by
  unfold makeStorageValue
  split
  case h_1 isNull => exact .null isNull
  case h_2 noNull =>
    cases type with
    | record record => exact makeStorageRecord_returns isValue noNull record
    | abstractRecord typeName typeDefault listOfChilds =>
        exact makeStorageAbstractRecord_returns isValue noNull ..
    | array typeOfValues lowerBound upperBound =>
        exact makeStorageArray_returns isValue noNull ..
    | integer lowerBound upperBound => exact makeStorageInteger_returns ..
    | double lowerBound upperBound => exact makeStorageDouble_returns ..
    | bool => exact makeStorageBool_returns
    | selection selection => exact makeStorageSelection_returns selection
    | string => exact makeStorageString_returns fun value isHead _ => .string isHead
    | fileName type => exact makeStorageString_returns fun value isHead => .fileName isHead

theorem makeStorage_returns (position : JSONPath × TypeBase) :
    (makeStorage position).Returns Filled (Filled position) := by
  obtain ⟨path, type⟩ := position
  cases reference : path.getRefFromHead with
  | error error =>
      rw [makeStorage, reference]
      trivial
  | ok address =>
      cases address with
      | none =>
          rw [makeStorage, reference]
          exact makeStorageValue_returns reference type
      | some refAddress =>
          rw [makeStorage_reference reference, makeStorageReference.eq_def]
          split
          case h_1 => trivial
          case h_2 target found =>
            exact fun reply replied => .reference reference found replied

/-- What the reader returns is filled as the type says, but for its own integers and nulls. -/
theorem filled_of_ends {position : JSONPath × TypeBase} {stored : Storage}
    (ended : makeStorage.Ends position (.ok stored)) : Filled position stored :=
  ended.of_returns makeStorage_returns

end JSONToStorage

end Flow123d
