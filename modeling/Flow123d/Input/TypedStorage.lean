import Flow123d.Input.StorageConforms

/-!
# Storages that can be read along their types

The accessors find the descendant of an abstract record by the index in the first item of its
storage. The reader stores this index if the types are declared as `derive_from` and `finish` do.
-/

set_option autoImplicit false

namespace Flow123d

open Flow123d.Library

/-! ## Declared types -/

/-- What `derive_from` makes of a descendant: its first key is `TYPE` with its own name as the
default, and no value is converted to this key. -/
structure TypeRecord.IsDescendant (typeName : String) (listOfChilds : List (TypeRecord TypeBase))
    (record : TypeRecord TypeBase) : Prop where
  typeKey : record.keys.head? = some ⟨"TYPE", .selection (typeSelection typeName listOfChilds),
    ⟨record.typeName, .defaultAtDeclaration⟩⟩
  conversion : record.autoConversionKeyIdx ≠ some 0

/-- All descendants of abstract records are derived from them. -/
inductive TypeBase.Declared : TypeBase → Prop
  | record {record : TypeRecord TypeBase} (types : ∀ key ∈ record.keys, Declared key.type) :
      Declared (.record record)
  | abstractRecord {typeName : String} (typeDefault : Default)
      {listOfChilds : List (TypeRecord TypeBase)}
      (derived : ∀ record ∈ listOfChilds, record.IsDescendant typeName listOfChilds)
      (types : ∀ record ∈ listOfChilds, Declared (.record record)) :
      Declared (.abstractRecord typeName typeDefault listOfChilds)
  | array {typeOfValues : TypeBase} (lowerBound upperBound : ℕ)
      (type : Declared typeOfValues) : Declared (.array typeOfValues lowerBound upperBound)
  | integer (lowerBound upperBound : ℤ) : Declared (.integer lowerBound upperBound)
  | double (lowerBound upperBound : ℚ) : Declared (.double lowerBound upperBound)
  | bool : Declared .bool
  | selection (selection : TypeSelection) : Declared (.selection selection)
  | string : Declared .string
  | fileName (type : FileType) : Declared (.fileName type)

namespace JSONToStorage

/-- A storage along the type, with a null anywhere. -/
inductive Typed : TypeBase → Storage → Prop where
  | null {type : TypeBase} : Typed type .null
  | record {record : TypeRecord TypeBase} {items : List Storage}
      (size : items.length = record.keys.length)
      (ofType : ∀ (i : ℕ) (key : TypeKey TypeBase) (item : Storage),
        record.keys[i]? = some key → items[i]? = some item → Typed key.type item) :
      Typed (.record record) (.array items)
  | abstractRecord {typeName : String} {typeDefault : Default}
      {listOfChilds : List (TypeRecord TypeBase)} {record : TypeRecord TypeBase}
      {descendantIndex : ℤ} {items : List Storage}
      (isChild : listOfChilds[descendantIndex.toNat]? = some record)
      (ofRecord : Typed (.record record) (.array (.int descendantIndex :: items))) :
      Typed (.abstractRecord typeName typeDefault listOfChilds)
        (.array (.int descendantIndex :: items))
  | array {typeOfValues : TypeBase} {lowerBound upperBound : ℕ} {items : List Storage}
      (lower : lowerBound ≤ items.length) (upper : items.length ≤ upperBound)
      (ofType : ∀ item ∈ items, Typed typeOfValues item) :
      Typed (.array typeOfValues lowerBound upperBound) (.array items)
  | integer {lowerBound upperBound value : ℤ} (lower : lowerBound ≤ value)
      (upper : value ≤ upperBound) : Typed (.integer lowerBound upperBound) (.int value)
  | double {lowerBound upperBound value : ℚ} (lower : lowerBound ≤ value)
      (upper : value ≤ upperBound) : Typed (.double lowerBound upperBound) (.double value)
  | bool {value : Bool} : Typed .bool (.bool value)
  | selection {selection : TypeSelection} {name : String} {value : ℤ}
      (isKey : selection.nameToInt name = some value) :
      Typed (.selection selection) (.int value)
  | string {value : String} : Typed .string (.string value)
  | fileName {type : FileType} {value : String}
      (isName : TypeBase.matchFileName type value = true) :
      Typed (.fileName type) (.string value)

/-! ## Records -/

theorem Typed.ofKeys {record : TypeRecord TypeBase} {items : List Storage}
    (related : List.Forall₂ (fun key item => Typed key.type item) record.keys items) :
    Typed (.record record) (.array items) :=
  .record related.length_eq.symm fun _ _ _ isKey isItem => forall₂_getElem? related isKey isItem

/-- A descendant with its index in the first item. -/
theorem Typed.ofDescendant {typeName : String} {typeDefault : Default}
    {listOfChilds : List (TypeRecord TypeBase)} {record : TypeRecord TypeBase}
    {descendantIndex : ℤ} {items : List Storage}
    (isChild : listOfChilds[descendantIndex.toNat]? = some record)
    (ofRecord : Typed (.record record) (.array items))
    (first : items.head? = some (.int descendantIndex)) :
    Typed (.abstractRecord typeName typeDefault listOfChilds) (.array items) := by
  cases items with
  | nil => cases first
  | cons item rest =>
      cases first
      exact .abstractRecord isChild ofRecord

theorem typeSelection_child {typeName name : String} {value : ℤ}
    {listOfChilds : List (TypeRecord TypeBase)} {record : TypeRecord TypeBase}
    (isKey : (typeSelection typeName listOfChilds).nameToInt name = some value)
    (found : listOfChilds.find? (fun child => child.typeName = name) = some record) :
    listOfChilds[value.toNat]? = some record := by
  obtain ⟨i, isIndex, isChild⟩ := typeSelection_lookup isKey
  have position : value.toNat = i := by omega
  rw [position, ← isChild, found]

theorem typeName_of_find {name : String} {listOfChilds : List (TypeRecord TypeBase)}
    {record : TypeRecord TypeBase}
    (found : listOfChilds.find? (fun child => child.typeName = name) = some record) :
    record.typeName = name := by
  simpa using List.find?_some found

/-- The default of the key `TYPE` of a descendant that is found by its name. -/
theorem typeDefault_child {typeName name : String} {listOfChilds : List (TypeRecord TypeBase)}
    {record : TypeRecord TypeBase} {item : Storage}
    (found : listOfChilds.find? (fun child => child.typeName = name) = some record)
    (returned : makeStorageFromDefault record.typeName
      (.selection (typeSelection typeName listOfChilds)) = .ok item) :
    ∃ value, item = .int value ∧ listOfChilds[value.toNat]? = some record := by
  obtain ⟨value, isKey, rfl⟩ := orWrongDefault_ok returned
  rw [typeName_of_find found] at isKey
  exact ⟨value, rfl, typeSelection_child (selectionFromDefault_ok isKey) found⟩

/-! ## Defaults -/

theorem keysFromDefault_head {dfltStr : String} {autoKeyIdx keyIndex : ℕ}
    {key : TypeKey TypeBase} {rest : List (TypeKey TypeBase)} {items : List Storage}
    (other : keyIndex ≠ autoKeyIdx)
    (returned : keysFromDefault dfltStr autoKeyIdx keyIndex (key :: rest) = .ok items) :
    ∃ item, items.head? = some item ∧
      makeStorageFromDefault key.dflt.value key.type = .ok item := by
  rw [keysFromDefault] at returned
  cases first : keyFromDefault dfltStr (keyIndex = autoKeyIdx) key with
  | error itemError =>
      rw [first] at returned
      cases returned
  | ok item =>
      cases others : keysFromDefault dfltStr autoKeyIdx (keyIndex + 1) rest with
      | error itemsError =>
          rw [first, others] at returned
          cases returned
      | ok values =>
          rw [first, others] at returned
          cases returned
          refine ⟨item, rfl, ?_⟩
          rw [keyFromDefault, decide_eq_false other] at first
          exact first

theorem keysFromDefault_ofType {dfltStr : String} {autoKeyIdx : ℕ} {values : List Storage} :
    ∀ {keyIndex : ℕ} {keys : List (TypeKey TypeBase)},
      (∀ key ∈ keys, ∀ dflt stored, makeStorageFromDefault dflt key.type = .ok stored →
        Typed key.type stored) →
      keysFromDefault dfltStr autoKeyIdx keyIndex keys = .ok values →
        List.Forall₂ (fun key item => Typed key.type item) keys values := by
  intro keyIndex keys types returned
  induction keys generalizing keyIndex values with
  | nil =>
      cases returned
      exact .nil
  | cons key rest ih =>
      rw [keysFromDefault] at returned
      cases item : keyFromDefault dfltStr (keyIndex = autoKeyIdx) key with
      | error itemError =>
          rw [item] at returned
          cases returned
      | ok value =>
          cases items : keysFromDefault dfltStr autoKeyIdx (keyIndex + 1) rest with
          | error itemsError =>
              rw [item, items] at returned
              cases returned
          | ok others =>
              rw [item, items] at returned
              cases returned
              rw [keyFromDefault] at item
              exact .cons (types key List.mem_cons_self _ _ item)
                (ih (fun other member => types other (List.mem_cons_of_mem _ member)) items)

/-- A record from a default: the converted key is not the first one of a descendant. -/
theorem recordFromDefault_keys {dfltStr : String} {record : TypeRecord TypeBase}
    {stored : Storage} (returned : recordFromDefault dfltStr record = .ok stored) :
    ∃ autoKeyIdx items, record.autoConversionKeyIdx = some autoKeyIdx ∧ stored = .array items ∧
      keysFromDefault dfltStr autoKeyIdx 0 record.keys = .ok items := by
  obtain ⟨name, keys, autoConversionKeyIdx⟩ := record
  cases autoConversionKeyIdx with
  | none => cases returned
  | some autoKeyIdx =>
      simp only [recordFromDefault] at returned
      cases values : keysFromDefault dfltStr autoKeyIdx 0 keys with
      | error itemsError =>
          simp only [values] at returned
          cases returned
      | ok items =>
          simp only [values] at returned
          cases returned
          exact ⟨autoKeyIdx, items, rfl, rfl, values⟩

theorem descendantFromDefault_found {dfltStr name : String} {stored : Storage}
    {listOfChilds : List (TypeRecord TypeBase)}
    (returned : descendantFromDefault dfltStr name listOfChilds = .ok stored) :
    ∃ record, listOfChilds.find? (fun child => child.typeName = name) = some record ∧
      recordFromDefault dfltStr record = .ok stored := by
  induction listOfChilds with
  | nil => cases returned
  | cons child rest ih =>
      rw [descendantFromDefault] at returned
      by_cases same : child.typeName = name
      · rw [if_pos same] at returned
        exact ⟨child, List.find?_cons_of_pos (by simpa using same), returned⟩
      · rw [if_neg same] at returned
        obtain ⟨record, found, stores⟩ := ih returned
        exact ⟨record, by rw [List.find?_cons_of_neg (by simpa using same), found], stores⟩

theorem makeStorageFromDefault_ofType {type : TypeBase} (declared : type.Declared)
    {dfltStr : String} {stored : Storage}
    (returned : makeStorageFromDefault dfltStr type = .ok stored) : Typed type stored := by
  induction declared generalizing dfltStr stored with
  | @record record types ih =>
      rw [makeStorageFromDefault] at returned
      obtain ⟨autoKeyIdx, items, _, rfl, values⟩ := recordFromDefault_keys returned
      exact .ofKeys (keysFromDefault_ofType (fun key member _ _ => ih key member) values)
  | @abstractRecord typeName typeDefault listOfChilds derived types ih =>
      rw [makeStorageFromDefault] at returned
      split at returned
      · obtain ⟨record, found, stores⟩ := descendantFromDefault_found returned
        have isMember := List.mem_of_find?_eq_some found
        have asRecord : makeStorageFromDefault dfltStr (.record record) = .ok stored := by
          rw [makeStorageFromDefault, stores]
        have ofRecord := ih record isMember asRecord
        obtain ⟨autoKeyIdx, items, isAuto, rfl, values⟩ := recordFromDefault_keys stores
        have other : 0 ≠ autoKeyIdx := by
          rintro rfl
          exact (derived record isMember).conversion isAuto
        have isKey := (derived record isMember).typeKey
        cases keys : record.keys with
        | nil =>
            rw [keys] at isKey
            cases isKey
        | cons key rest =>
            rw [keys] at isKey values
            cases isKey
            obtain ⟨first, isFirst, ofType⟩ := keysFromDefault_head other values
            obtain ⟨value, rfl, isChild⟩ := typeDefault_child found ofType
            exact .ofDescendant isChild ofRecord isFirst
      · cases returned
  | @array typeOfValues lowerBound upperBound type ih =>
      rw [makeStorageFromDefault] at returned
      split at returned
      case isTrue fits =>
        cases item : makeStorageFromDefault dfltStr typeOfValues with
        | error itemError =>
            rw [item] at returned
            cases returned
        | ok value =>
            rw [item] at returned
            cases returned
            have bounds := TypeBase.matchSize_iff.mp fits
            refine .array bounds.1 bounds.2 fun one member => ?_
            rw [List.mem_singleton.mp member]
            exact ih item
      case isFalse => cases returned
  | integer lowerBound upperBound =>
      obtain ⟨value, given, rfl⟩ := orWrongDefault_ok returned
      have bounds := integerFromDefault_ok given
      exact .integer bounds.1 bounds.2
  | double lowerBound upperBound =>
      obtain ⟨value, given, rfl⟩ := orWrongDefault_ok returned
      have bounds := doubleFromDefault_ok given
      exact .double bounds.1 bounds.2
  | bool =>
      obtain ⟨value, _, rfl⟩ := orWrongDefault_ok returned
      exact .bool
  | selection selection =>
      obtain ⟨value, given, rfl⟩ := orWrongDefault_ok returned
      exact .selection (selectionFromDefault_ok given)
  | string =>
      cases returned
      exact .string
  | fileName type =>
      obtain ⟨value, given, rfl⟩ := orWrongDefault_ok returned
      exact .fileName (fileNameFromDefault_ok given)

/-! ## Values of a document -/

/-- What is stored for a key of a record: the value in the document, the whole value where it is
converted to the key, the default of the key or a null. -/
inductive KeyStored (replies : JSONPath × TypeBase → Storage → Prop) (path : JSONPath)
    (record : TypeRecord TypeBase) (i : ℕ) (key : TypeKey TypeBase) (item : Storage) : Prop where
  | given {below : JSONPath} (found : path.down (.key key.key) = some below)
      (replied : replies (below, key.type) item)
  | converted (isAuto : record.autoConversionKeyIdx = some i)
      (replied : replies (path, key.type) item)
  | byDefault (missing : path.down (.key key.key) = none)
      (returned : makeStorageFromDefault key.dflt.value key.type = .ok item)
  | optional (noDefault : key.dflt.hasValueAtDeclaration = false) (isNull : item = .null)

/-- One item for each key. -/
def KeysStored (replies : JSONPath × TypeBase → Storage → Prop) (path : JSONPath)
    (record : TypeRecord TypeBase) (stored : Storage) : Prop :=
  ∃ items, stored = .array items ∧ items.length = record.keys.length ∧
    ∀ (i : ℕ) (key : TypeKey TypeBase) (item : Storage), record.keys[i]? = some key →
      items[i]? = some item → KeyStored replies path record i key item

section Reading

variable {replies : JSONPath × TypeBase → Storage → Prop} {path : JSONPath}

theorem makeStorageKey_stores (record : TypeRecord TypeBase) (key : TypeKey TypeBase) :
    (makeStorageKey path record key).Returns replies fun item =>
      ∀ i, KeyStored replies path record i key item := by
  unfold makeStorageKey
  split
  case h_1 below found => exact fun reply replied i => .given found replied
  case h_2 missing =>
    split
    · trivial
    · split
      case isTrue => exact Body.Returns.lift fun item returned i => .byDefault missing returned
      case isFalse noDefault => exact fun i => .optional (Bool.eq_false_iff.mpr noDefault) rfl

theorem autoConvertKey_stores {record : TypeRecord TypeBase} {autoKeyIdx : ℕ}
    (noObject : ¬ path.head.IsObject) (isAuto : record.autoConversionKeyIdx = some autoKeyIdx)
    (key : TypeKey TypeBase × ℕ) :
    (autoConvertKey path autoKeyIdx key).Returns replies fun item =>
      KeyStored replies path record key.2 key.1 item := by
  unfold autoConvertKey
  split
  case isTrue same => exact fun reply replied => .converted (same ▸ isAuto) replied
  case isFalse =>
    exact Body.Returns.lift fun item returned =>
      .byDefault (JSONPath.down_key_of_not_object noObject key.1.key) returned

theorem makeStorageRecord_stores (record : TypeRecord TypeBase) :
    (makeStorageRecord path record).Returns replies (KeysStored replies path record) := by
  unfold makeStorageRecord
  split
  case h_1 members isHead =>
    refine (Body.Returns.collect fun key _ => makeStorageKey_stores record key).bind
      fun items related => ?_
    exact ⟨items, rfl, related.length_eq.symm, fun i key item isKey isItem =>
      forall₂_getElem? related isKey isItem i⟩
  case h_2 noObject =>
    split
    case h_1 autoKeyIdx isAuto =>
      refine (Body.Returns.collect fun key _ =>
        autoConvertKey_stores (not_isObject noObject) isAuto key).bind fun items related => ?_
      refine ⟨items, rfl, ?_, fun i key item isKey isItem => ?_⟩
      · rw [← related.length_eq, List.length_zipIdx]
      · have numbered : record.keys.zipIdx[i]? = some (key, i) := by
          rw [List.getElem?_zipIdx, isKey]
          simp
        exact forall₂_getElem? related numbered isItem
    case h_2 => trivial

end Reading

/-- What is known of the replies to the calls. -/
def Known (position : JSONPath × TypeBase) (stored : Storage) : Prop :=
  makeStorage.Ends position (.ok stored) ∧ (position.2.Declared → Typed position.2 stored)

section Typing

variable {path : JSONPath}

theorem KeysStored.typed {record : TypeRecord TypeBase}
    (declared : (TypeBase.record record).Declared) {stored : Storage}
    (keys : KeysStored Known path record stored) : Typed (.record record) stored := by
  obtain ⟨items, rfl, size, each⟩ := keys
  cases declared with
  | record types =>
      refine .record size fun i key item isKey isItem => ?_
      have declared := types key (List.mem_of_getElem? isKey)
      cases each i key item isKey isItem with
      | given _ replied => exact replied.2 declared
      | converted _ replied => exact replied.2 declared
      | byDefault _ returned => exact makeStorageFromDefault_ofType declared returned
      | optional _ isNull =>
          rw [isNull]
          exact .null

/-- The descendant whose index is in the first item. -/
theorem KeysStored.typedDescendant {typeName : String} {typeDefault : Default}
    {listOfChilds : List (TypeRecord TypeBase)} {record : TypeRecord TypeBase} {stored : Storage}
    (declared : (TypeBase.abstractRecord typeName typeDefault listOfChilds).Declared)
    (keys : KeysStored Known path record stored) (isMember : record ∈ listOfChilds)
    (first : ∀ item, KeyStored Known path record 0
      ⟨"TYPE", .selection (typeSelection typeName listOfChilds),
        ⟨record.typeName, .defaultAtDeclaration⟩⟩ item →
      ∃ value, item = .int value ∧ listOfChilds[value.toNat]? = some record) :
    Typed (.abstractRecord typeName typeDefault listOfChilds) stored := by
  cases declared with
  | abstractRecord _ derived types =>
      have ofRecord := keys.typed (types record isMember)
      obtain ⟨items, rfl, size, each⟩ := keys
      have isKey := (derived record isMember).typeKey
      cases items with
      | nil =>
          rw [List.head?_eq_getElem?] at isKey
          obtain ⟨inside, _⟩ := List.getElem?_eq_some_iff.mp isKey
          rw [← size] at inside
          cases inside
      | cons item rest =>
          rw [List.head?_eq_getElem?] at isKey
          obtain ⟨value, rfl, isChild⟩ := first item (each 0 _ item isKey rfl)
          exact .ofDescendant isChild ofRecord rfl

variable {typeName : String} {typeDefault : Default} {listOfChilds : List (TypeRecord TypeBase)}

theorem autoConvertAbstract_ofType (noKey : path.down (.key "TYPE") = none) (error : ReadError) :
    (autoConvertAbstract path typeDefault listOfChilds error).Returns Known fun stored =>
      (TypeBase.abstractRecord typeName typeDefault listOfChilds).Declared →
        Typed (.abstractRecord typeName typeDefault listOfChilds) stored := by
  unfold autoConvertAbstract
  split
  case isTrue =>
    split
    case h_1 record found =>
      refine (makeStorageRecord_stores record).mono fun stored keys declared => ?_
      have isMember := List.mem_of_find?_eq_some found
      refine keys.typedDescendant declared isMember fun item isStored => ?_
      cases isStored with
      | given isKey _ => cases noKey.symm.trans isKey
      | converted isAuto _ =>
          cases declared with
          | abstractRecord _ derived _ =>
              exact absurd isAuto (derived record isMember).conversion
      | byDefault _ returned => exact typeDefault_child found returned
      | optional noDefault _ => cases noDefault
    case h_2 => trivial
  case isFalse => trivial

theorem makeStorageDescendant_ofType {typePath : JSONPath}
    (isKey : path.down (.key "TYPE") = some typePath) {reply : Storage}
    (replied : Known (typePath, .selection (typeSelection typeName listOfChilds)) reply) :
    (makeStorageDescendant path listOfChilds reply).Returns Known fun stored =>
      (TypeBase.abstractRecord typeName typeDefault listOfChilds).Declared →
        Typed (.abstractRecord typeName typeDefault listOfChilds) stored := by
  unfold makeStorageDescendant
  split
  case h_1 descendantIndex =>
    split
    case h_1 record isChild =>
      refine (makeStorageRecord_stores record).mono fun stored keys declared => ?_
      have isMember := List.mem_of_getElem? isChild
      refine keys.typedDescendant declared isMember fun item isStored => ?_
      cases isStored with
      | given found again =>
          -- the same value is read once more
          cases isKey.symm.trans found
          cases replied.1.unique again.1
          exact ⟨descendantIndex, rfl, isChild⟩
      | converted isAuto _ =>
          cases declared with
          | abstractRecord _ derived _ =>
              exact absurd isAuto (derived record isMember).conversion
      | byDefault missing _ => cases missing.symm.trans isKey
      | optional noDefault _ => cases noDefault
    case h_2 => trivial
  case h_2 => trivial

theorem makeStorageAbstractRecord_ofType :
    (makeStorageAbstractRecord path typeName typeDefault listOfChilds).Returns Known fun stored =>
      (TypeBase.abstractRecord typeName typeDefault listOfChilds).Declared →
        Typed (.abstractRecord typeName typeDefault listOfChilds) stored := by
  unfold makeStorageAbstractRecord
  dsimp only
  split
  case h_1 members isHead =>
    split
    case h_1 noKey => exact autoConvertAbstract_ofType noKey _
    case h_2 typePath isKey => exact fun reply replied => makeStorageDescendant_ofType isKey replied
  case h_2 noObject =>
    exact autoConvertAbstract_ofType
      (JSONPath.down_key_of_not_object (not_isObject noObject) "TYPE") _

theorem makeStorageArray_ofType (typeOfValues : TypeBase) (lowerBound upperBound : ℕ) :
    (makeStorageArray path typeOfValues lowerBound upperBound).Returns Known fun stored =>
      (TypeBase.array typeOfValues lowerBound upperBound).Declared →
        Typed (.array typeOfValues lowerBound upperBound) stored := by
  unfold makeStorageArray
  dsimp only
  split
  case h_1 values isHead =>
    split
    case isTrue fits =>
      have each : ∀ idx ∈ List.range values.length,
          (makeStorageItem path typeOfValues idx).Returns Known fun item =>
            typeOfValues.Declared → Typed typeOfValues item := by
        intro idx _
        unfold makeStorageItem
        split
        case h_1 below found => exact fun reply replied => replied.2
        case h_2 => trivial
      refine (Body.Returns.collect each).bind fun items related => ?_
      have size : items.length = values.length := by
        rw [← related.length_eq, List.length_range]
      have bounds := TypeBase.matchSize_iff.mp (size ▸ fits)
      intro declared
      cases declared with
      | array _ _ type =>
          refine .array bounds.1 bounds.2 fun item member => ?_
          obtain ⟨i, inside, rfl⟩ := List.getElem_of_mem member
          exact forall₂_getElem? related (List.getElem?_range (size ▸ inside))
            (List.getElem?_eq_getElem inside) type
    case isFalse => trivial
  case h_2 =>
    split
    case isTrue fits =>
      intro reply replied declared
      have bounds := TypeBase.matchSize_iff.mp fits
      cases declared with
      | array _ _ type =>
          refine .array bounds.1 bounds.2 fun item member => ?_
          rw [List.mem_singleton.mp member]
          exact replied.2 type
    case isFalse => trivial

/-- Values that are read without a call. -/
theorem Stored.typed_leaf {number : ℤ → ℤ → Prop} {allowed : TypeKey TypeBase → Storage → Prop}
    {type : TypeBase} {stored : Storage} (filled : Stored number allowed path type stored)
    (noRecord : ∀ record, type ≠ .record record)
    (noAbstract : ∀ name dflt childs, type ≠ .abstractRecord name dflt childs)
    (noArray : ∀ values lower upper, type ≠ .array values lower upper) : Typed type stored := by
  induction filled with
  | reference _ _ _ ih => exact ih noRecord noAbstract noArray
  | null => exact .null
  | record => exact absurd rfl (noRecord _)
  | autoRecord => exact absurd rfl (noRecord _)
  | abstractRecord => exact absurd rfl (noAbstract _ _ _)
  | array => exact absurd rfl (noArray _ _ _)
  | autoArray => exact absurd rfl (noArray _ _ _)
  | integer _ _ lower upper => exact .integer lower upper
  | real _ lower upper => exact .double lower upper
  | double _ _ lower upper => exact .double lower upper
  | bool => exact .bool
  | selection _ isKey => exact .selection isKey
  | string => exact .string
  | fileName _ isName => exact .fileName isName

theorem makeStorageValue_ofType (isValue : path.getRefFromHead = .ok none) (type : TypeBase) :
    (makeStorageValue path type).Returns Known fun stored => type.Declared → Typed type stored := by
  -- the values that are read without a call are filled as the type says
  have leaf : (∀ record, type ≠ .record record) →
      (∀ name dflt childs, type ≠ .abstractRecord name dflt childs) →
        (∀ values lower upper, type ≠ .array values lower upper) →
          (makeStorageValue path type).Returns Known fun stored =>
            type.Declared → Typed type stored := by
    intro noRecord noAbstract noArray
    have returns : (makeStorageValue path type).Returns Known (Filled (path, type)) :=
      (makeStorageValue_returns isValue type).of_known
        fun argument reply replied => filled_of_ends replied.1
    exact returns.mono fun stored filled _ => filled.typed_leaf noRecord noAbstract noArray
  cases type with
  | record record =>
      unfold makeStorageValue
      split
      case h_1 => exact fun _ => .null
      case h_2 =>
        exact (makeStorageRecord_stores record).mono fun stored keys declared =>
          keys.typed declared
  | abstractRecord typeName typeDefault listOfChilds =>
      unfold makeStorageValue
      split
      case h_1 => exact fun _ => .null
      case h_2 => exact makeStorageAbstractRecord_ofType
  | array typeOfValues lowerBound upperBound =>
      unfold makeStorageValue
      split
      case h_1 => exact fun _ => .null
      case h_2 => exact makeStorageArray_ofType ..
  | _ => exact leaf (by simp) (by simp) (by simp)

theorem makeStorage_ofType (position : JSONPath × TypeBase) :
    (makeStorage position).Returns Known fun stored =>
      position.2.Declared → Typed position.2 stored := by
  obtain ⟨path, type⟩ := position
  cases reference : path.getRefFromHead with
  | error error =>
      rw [makeStorage, reference]
      trivial
  | ok address =>
      cases address with
      | none =>
          rw [makeStorage, reference]
          exact makeStorageValue_ofType reference type
      | some refAddress =>
          rw [makeStorage_reference reference, makeStorageReference.eq_def]
          split
          case h_1 => trivial
          case h_2 target found => exact fun reply replied => replied.2

/-- What the reader returns can be read along declared types. -/
theorem typed_of_ends {position : JSONPath × TypeBase} {stored : Storage}
    (declared : position.2.Declared) (ended : makeStorage.Ends position (.ok stored)) :
    Typed position.2 stored :=
  ended.of_returns_ends makeStorage_ofType declared

end Typing

end JSONToStorage

end Flow123d
