import Flow123d.Input.StorageConforms

/-!
# Documents that are stored as they stand

The storage is that of the document just where the document gives no null for an obligatory
key and every integer that is read as a number fits in 32 bits.
-/

set_option autoImplicit false

namespace Flow123d

open Flow123d.Library

namespace TypeBase

def IsNumber : TypeBase → Prop
  | .integer _ _ => True
  | .double _ _ => True
  | _ => False

end TypeBase

namespace JSONToStorage

/-- A position of the document is read as a type for another one. -/
inductive Part : JSONPath × TypeBase → JSONPath × TypeBase → Prop where
  | reference {path target : JSONPath} {refAddress type}
      (isReference : path.getRefFromHead = .ok (some refAddress))
      (found : path.findRefNode refAddress = .ok target) : Part (path, type) (target, type)
  | key {path below : JSONPath} {record : TypeRecord TypeBase} {key : TypeKey TypeBase}
      (isValue : path.getRefFromHead = .ok none) (isKey : key ∈ record.keys)
      (found : path.down (.key key.key) = some below) :
      Part (path, .record record) (below, key.type)
  | autoKey {path : JSONPath} {record : TypeRecord TypeBase} {autoKeyIdx : ℕ}
      {key : TypeKey TypeBase} (noObject : ¬ path.head.IsObject) (noNull : path.head ≠ .null)
      (isAuto : record.autoConversionKeyIdx = some autoKeyIdx)
      (isKey : record.keys[autoKeyIdx]? = some key) :
      Part (path, .record record) (path, key.type)
  | descendant {path : JSONPath} {typeName typeDefault listOfChilds record}
      (isValue : path.getRefFromHead = .ok none) (noNull : path.head ≠ .null)
      (descendant : path.Descendant typeDefault listOfChilds record) :
      Part (path, .abstractRecord typeName typeDefault listOfChilds) (path, .record record)
  | item {path below : JSONPath} {typeOfValues lowerBound upperBound} {i : ℕ}
      (found : path.down (.index i) = some below) :
      Part (path, .array typeOfValues lowerBound upperBound) (below, typeOfValues)
  | autoItem {path : JSONPath} {typeOfValues lowerBound upperBound}
      (isValue : path.getRefFromHead = .ok none) (noArray : ¬ path.head.IsArray)
      (noNull : path.head ≠ .null) :
      Part (path, .array typeOfValues lowerBound upperBound) (path, typeOfValues)

/-- All positions that are read, with their types. -/
abbrev Within : JSONPath × TypeBase → JSONPath × TypeBase → Prop := Relation.ReflTransGen Part

/-- A number fits in 32 bits, and the obligatory keys are not null. -/
structure Faithful (position : JSONPath × TypeBase) : Prop where
  fits : ∀ value : ℤ, position.1.head = .int value → position.2.IsNumber →
    -2 ^ 31 ≤ value ∧ value < 2 ^ 31
  given : ∀ (record : TypeRecord TypeBase) (key : TypeKey TypeBase) (below final : JSONPath),
    position.2 = .record record → position.1.getRefFromHead = .ok none → key ∈ record.keys →
      key.dflt.isObligatory = true → position.1.down (.key key.key) = some below →
        below.Resolves final → final.head ≠ .null

end JSONToStorage

theorem JSONPlace.down_of_item {place : JSONPlace} {item : PathItem} {node : Node}
    (isItem : place.head.item? item = some node) : ∃ below, place.down item = some below := by
  unfold JSONPlace.down
  split
  case h_1 noItem => cases noItem.symm.trans isItem
  case h_2 => exact ⟨_, rfl⟩

namespace JSONPath

theorem isValue_of_not_object {path : JSONPath} (noObject : ¬ path.head.IsObject) :
    path.getRefFromHead = .ok none := by
  unfold getRefFromHead
  split
  case h_1 key value isHead =>
    rw [isHead] at noObject
    exact absurd trivial noObject
  case h_2 => rfl

theorem Resolves.unique {path first second : JSONPath} (one : path.Resolves first)
    (two : path.Resolves second) : first = second := by
  induction one with
  | here isValue =>
      cases two with
      | here _ => rfl
      | reference isReference _ _ => cases isValue.symm.trans isReference
  | reference isReference found _ ih =>
      cases two with
      | here isValue => cases isValue.symm.trans isReference
      | reference also target rest =>
          cases isReference.symm.trans also
          cases found.symm.trans target
          exact ih rest

theorem Descendant.unique {path : JSONPath} {typeDefault : Default}
    {listOfChilds : List (TypeRecord TypeBase)} {first second : TypeRecord TypeBase}
    (one : path.Descendant typeDefault listOfChilds first)
    (two : path.Descendant typeDefault listOfChilds second) : first = second := by
  cases one with
  | named isKey resolves isName found =>
      cases two with
      | named also resolvesAlso isNameAlso foundAlso =>
          cases isKey.symm.trans also
          cases resolves.unique resolvesAlso
          cases isName.symm.trans isNameAlso
          exact Option.some.inj (found.symm.trans foundAlso)
      | byDefault noKey _ _ => cases isKey.symm.trans noKey
  | byDefault noKey _ found =>
      cases two with
      | named isKey _ _ _ => cases isKey.symm.trans noKey
      | byDefault _ _ foundAlso => exact Option.some.inj (found.symm.trans foundAlso)

theorem Descendant.mem {path : JSONPath} {typeDefault : Default}
    {listOfChilds : List (TypeRecord TypeBase)} {record : TypeRecord TypeBase}
    (descendant : path.Descendant typeDefault listOfChilds record) : record ∈ listOfChilds := by
  cases descendant with
  | named _ _ _ found => exact List.mem_of_find?_eq_some found
  | byDefault _ _ found => exact List.mem_of_find?_eq_some found

theorem down_index {path : JSONPath} {values : List Node} {i : ℕ}
    (isArray : path.head = .array values) (inside : i < values.length) :
    ∃ below, path.down (.index i) = some below := by
  have isItem : path.head.item? (.index i) = some values[i] := by
    rw [isArray]
    exact List.getElem?_eq_getElem inside
  obtain ⟨place, descended⟩ := JSONPlace.down_of_item isItem
  exact ⟨_, Option.map_eq_some_iff.mpr ⟨place, descended, rfl⟩⟩

end JSONPath

namespace JSONToStorage

theorem getInt_eq_iff {value : ℤ} :
    getInt value = value ↔ -2 ^ 31 ≤ value ∧ value < 2 ^ 31 := by
  unfold getInt
  simp only [Int.bmod]
  omega

theorem Unset.given {key : TypeKey TypeBase} {item : Storage} (unset : Unset key item)
    (isObligatory : key.dflt.isObligatory = true) : item ≠ .null := by
  cases unset with
  | fromDefault _ given => exact given
  | optional isOptional => cases isOptional.symm.trans isObligatory

/-! ## Storages of a document are storages of its type -/

theorem Unset.admits {key : TypeKey TypeBase} {item : Storage} (unset : Unset key item) :
    Admits key.type item := by
  cases unset with
  | fromDefault ofType _ => exact ofType
  | optional _ => exact .null

theorem Conforms.admits {path : JSONPath} {type : TypeBase} {stored : Storage}
    (conforms : Conforms path type stored) : Admits type stored := by
  induction conforms with
  | reference _ _ _ ih => exact ih
  | null _ => exact .null
  | record _ _ size _ unset holds ih =>
      refine .record size ?_ holds
      intro i key item isKey isItem
      cases found : JSONPath.down _ (.key key.key) with
      | none => exact (unset i key item isKey isItem found).admits
      | some below => exact ih i key item below isKey isItem found
  | @autoRecord _ _ autoKeyIdx _ _ _ _ size _ unset holds ih =>
      refine .record size ?_ holds
      intro i key item isKey isItem
      by_cases same : i = autoKeyIdx
      · subst same
        exact ih key item isKey isItem
      · exact (unset i key item same isKey isItem).admits
  | abstractRecord _ _ descendant _ ih => exact .abstractRecord descendant.mem ih
  | @array path _ _ _ values items isArray lower upper size _ ih =>
      refine .array lower upper fun item member => ?_
      obtain ⟨i, isItem⟩ := List.getElem?_of_mem member
      have inside : i < values.length := size ▸ (List.getElem?_eq_some_iff.mp isItem).1
      obtain ⟨below, found⟩ := JSONPath.down_index isArray inside
      exact ih i item below isItem found
  | autoArray _ _ _ lower upper _ ih =>
      refine .array lower upper fun item member => ?_
      rw [List.mem_singleton.mp member]
      exact ih
  | integer _ _ lower upper => exact .integer lower upper
  | real _ lower upper => exact .double lower upper
  | double _ _ lower upper => exact .double lower upper
  | bool _ => exact .bool
  | selection _ isKey => exact .selection isKey
  | string _ => exact .string
  | fileName _ isName => exact .fileName isName

/-! ## What is stored at the parts of a position -/

section Parts

variable {number : ℤ → ℤ → Prop} {allowed : TypeKey TypeBase → Storage → Prop}
  {path : JSONPath} {type : TypeBase} {stored : Storage}

theorem Stored.at_reference (filled : Stored number allowed path type stored)
    {refAddress : String} {target : JSONPath}
    (isReference : path.getRefFromHead = .ok (some refAddress))
    (found : path.findRefNode refAddress = .ok target) :
    Stored number allowed target type stored := by
  have isHead := JSONPath.getRefFromHead_head isReference
  cases filled with
  | reference also foundAlso there =>
      cases isReference.symm.trans also
      cases found.symm.trans foundAlso
      exact there
  | record isValue => cases isValue.symm.trans isReference
  | abstractRecord isValue => cases isValue.symm.trans isReference
  | autoArray isValue => cases isValue.symm.trans isReference
  | autoRecord noObject =>
      cases (JSONPath.isValue_of_not_object noObject).symm.trans isReference
  | null isNull => cases isHead.symm.trans isNull
  | array isAlso => cases isHead.symm.trans isAlso
  | integer isAlso => cases isHead.symm.trans isAlso
  | real isAlso => cases isHead.symm.trans isAlso
  | double isAlso => cases isHead.symm.trans isAlso
  | bool isAlso => cases isHead.symm.trans isAlso
  | selection isAlso => cases isHead.symm.trans isAlso
  | string isAlso => cases isHead.symm.trans isAlso
  | fileName isAlso => cases isHead.symm.trans isAlso

theorem Stored.at_key {record : TypeRecord TypeBase} {key : TypeKey TypeBase} {i : ℕ}
    {below : JSONPath} (filled : Stored number allowed path (.record record) stored)
    (isValue : path.getRefFromHead = .ok none) (isKey : record.keys[i]? = some key)
    (found : path.down (.key key.key) = some below) :
    ∃ items item, stored = .array items ∧ items[i]? = some item ∧
      Stored number allowed below key.type item ∧ allowed key item := by
  have isObject := JSONPath.isObject_of_down found
  cases filled with
  | reference isReference => cases isValue.symm.trans isReference
  | null isNull =>
      rw [isNull] at isObject
      cases isObject
  | @record _ _ items _ _ size given unset holds =>
      have inside : i < items.length := size ▸ (List.getElem?_eq_some_iff.mp isKey).1
      have isItem : items[i]? = some items[i] := List.getElem?_eq_getElem inside
      exact ⟨items, items[i], rfl, isItem, given i key _ below isKey isItem found,
        holds i key _ isKey isItem⟩
  | autoRecord noObject => exact absurd isObject noObject

theorem Stored.at_autoKey {record : TypeRecord TypeBase} {autoKeyIdx : ℕ}
    {key : TypeKey TypeBase} (filled : Stored number allowed path (.record record) stored)
    (noObject : ¬ path.head.IsObject) (noNull : path.head ≠ .null)
    (isAuto : record.autoConversionKeyIdx = some autoKeyIdx)
    (isKey : record.keys[autoKeyIdx]? = some key) :
    ∃ items item, stored = .array items ∧ items[autoKeyIdx]? = some item ∧
      Stored number allowed path key.type item := by
  cases filled with
  | reference isReference =>
      cases (JSONPath.isValue_of_not_object noObject).symm.trans isReference
  | null isNull => exact absurd isNull noNull
  | record _ isObject => exact absurd isObject noObject
  | @autoRecord _ _ _ items _ _ also size given =>
      cases isAuto.symm.trans also
      have inside : autoKeyIdx < items.length :=
        size ▸ (List.getElem?_eq_some_iff.mp isKey).1
      have isItem : items[autoKeyIdx]? = some items[autoKeyIdx] :=
        List.getElem?_eq_getElem inside
      exact ⟨items, items[autoKeyIdx], rfl, isItem, given key _ isKey isItem⟩

theorem Stored.at_descendant {typeName : String} {typeDefault : Default}
    {listOfChilds : List (TypeRecord TypeBase)} {record : TypeRecord TypeBase}
    (filled : Stored number allowed path
      (.abstractRecord typeName typeDefault listOfChilds) stored)
    (isValue : path.getRefFromHead = .ok none) (noNull : path.head ≠ .null)
    (descendant : path.Descendant typeDefault listOfChilds record) :
    Stored number allowed path (.record record) stored := by
  cases filled with
  | reference isReference => cases isValue.symm.trans isReference
  | null isNull => exact absurd isNull noNull
  | abstractRecord _ _ also ofDescendant =>
      cases descendant.unique also
      exact ofDescendant

theorem Stored.at_item {typeOfValues : TypeBase} {lowerBound upperBound i : ℕ}
    {below : JSONPath}
    (filled : Stored number allowed path (.array typeOfValues lowerBound upperBound) stored)
    (found : path.down (.index i) = some below) :
    ∃ items item, stored = .array items ∧ items[i]? = some item ∧
      Stored number allowed below typeOfValues item := by
  obtain ⟨values, isArray, inside⟩ := JSONPath.array_of_down found
  have noObject : ¬ path.head.IsObject := by
    rw [isArray]
    exact id
  cases filled with
  | reference isReference =>
      cases (JSONPath.isValue_of_not_object noObject).symm.trans isReference
  | null isNull => cases isArray.symm.trans isNull
  | @array _ _ _ _ values items also _ _ size each =>
      cases isArray.symm.trans also
      have inside : i < items.length := by omega
      have isItem : items[i]? = some items[i] := List.getElem?_eq_getElem inside
      exact ⟨items, _, rfl, isItem, each i _ below isItem found⟩
  | autoArray _ noArray =>
      rw [isArray] at noArray
      exact absurd trivial noArray

theorem Stored.at_autoItem {typeOfValues : TypeBase} {lowerBound upperBound : ℕ}
    (filled : Stored number allowed path (.array typeOfValues lowerBound upperBound) stored)
    (isValue : path.getRefFromHead = .ok none) (noArray : ¬ path.head.IsArray)
    (noNull : path.head ≠ .null) :
    ∃ item, stored = .array [item] ∧ Stored number allowed path typeOfValues item := by
  cases filled with
  | reference isReference => cases isValue.symm.trans isReference
  | null isNull => exact absurd isNull noNull
  | array isArray =>
      rw [isArray] at noArray
      exact absurd trivial noArray
  | @autoArray _ _ _ _ item _ _ _ _ _ only => exact ⟨item, rfl, only⟩

/-- An integer that is read as a number. -/
theorem Stored.at_number {value : ℤ} (filled : Stored number allowed path type stored)
    (isHead : path.head = .int value) (isNumber : type.IsNumber) :
    ∃ held : ℤ, number value held ∧ (stored = .int held ∨ stored = .double held) := by
  have noObject : ¬ path.head.IsObject := by
    rw [isHead]
    exact id
  cases filled with
  | reference isReference =>
      cases (JSONPath.isValue_of_not_object noObject).symm.trans isReference
  | null isNull => cases isHead.symm.trans isNull
  | @integer _ _ _ _ held also isNumber =>
      cases isHead.symm.trans also
      exact ⟨held, isNumber, .inl rfl⟩
  | @double _ _ _ _ held also isNumber =>
      cases isHead.symm.trans also
      exact ⟨held, isNumber, .inr rfl⟩
  | real also => cases isHead.symm.trans also
  | _ => cases isNumber

theorem Stored.resolves_null (filled : Stored number allowed path type .null) :
    ∃ final, path.Resolves final ∧ final.head = .null := by
  generalize isNull : Storage.null = stored at filled
  induction filled with
  | reference isReference found _ ih =>
      obtain ⟨final, resolves, isHead⟩ := ih isNull
      exact ⟨final, .reference isReference found resolves, isHead⟩
  | @null path type isHead =>
      refine ⟨path, .here (JSONPath.isValue_of_not_object ?_), isHead⟩
      rw [isHead]
      exact id
  | abstractRecord _ _ _ _ ih => exact ih isNull
  | _ => cases isNull

theorem Stored.null_of_resolves (filled : Stored number allowed path type stored)
    {final : JSONPath} (resolves : path.Resolves final) (isNull : final.head = .null) :
    stored = .null := by
  induction resolves with
  | here =>
      cases filled with
      | reference isReference =>
          have isHead := JSONPath.getRefFromHead_head isReference
          cases isNull.symm.trans isHead
      | null _ => rfl
      | record _ isObject =>
          rw [isNull] at isObject
          cases isObject
      | autoRecord _ noNull => exact absurd isNull noNull
      | abstractRecord _ noNull => exact absurd isNull noNull
      | autoArray _ _ noNull => exact absurd isNull noNull
      | array isHead => cases isNull.symm.trans isHead
      | integer isHead => cases isNull.symm.trans isHead
      | real isHead => cases isNull.symm.trans isHead
      | double isHead => cases isNull.symm.trans isHead
      | bool isHead => cases isNull.symm.trans isHead
      | selection isHead => cases isNull.symm.trans isHead
      | string isHead => cases isNull.symm.trans isHead
      | fileName isHead => cases isNull.symm.trans isHead
  | reference isReference found _ ih => exact ih (filled.at_reference isReference found) isNull

end Parts

/-! ## The storage of the document -/

variable {path : JSONPath} {type : TypeBase} {stored : Storage}

theorem Filled.faithful (filled : Filled (path, type) stored)
    (conforms : Conforms path type stored) : Faithful (path, type) where
  fits value isHead isNumber := by
    obtain ⟨held, low, isHeld⟩ := filled.at_number isHead isNumber
    obtain ⟨other, same, isOther⟩ := conforms.at_number isHead isNumber
    refine getInt_eq_iff.mp ?_
    rcases isHeld with rfl | rfl
    · rcases isOther with also | also
      · cases also
        exact low.symm.trans same
      · cases also
    · rcases isOther with also | also
      · cases also
      · have equal : held = other := by exact_mod_cast Storage.double.inj also
        rw [← low, ← same, equal]
  given record key below final isRecord isValue isKey isObligatory found resolves isNull := by
    cases isRecord
    obtain ⟨i, isKey⟩ := List.getElem?_of_mem isKey
    obtain ⟨items, item, _, _, there, given⟩ := conforms.at_key isValue isKey found
    exact given isObligatory (there.null_of_resolves resolves isNull)

theorem Filled.part (filled : Filled (path, type) stored)
    (conforms : Conforms path type stored) {other : JSONPath × TypeBase}
    (part : Part (path, type) other) :
    ∃ item, Filled other item ∧ Conforms other.1 other.2 item := by
  cases part with
  | reference isReference found =>
      exact ⟨stored, filled.at_reference isReference found,
        conforms.at_reference isReference found⟩
  | key isValue isKey found =>
      obtain ⟨i, isKey⟩ := List.getElem?_of_mem isKey
      obtain ⟨items, item, rfl, isItem, there, _⟩ := filled.at_key isValue isKey found
      obtain ⟨others, same, equal, isAlso, also, _⟩ := conforms.at_key isValue isKey found
      cases equal
      cases isItem.symm.trans isAlso
      exact ⟨item, there, also⟩
  | autoKey noObject noNull isAuto isKey =>
      obtain ⟨items, item, rfl, isItem, there⟩ :=
        filled.at_autoKey noObject noNull isAuto isKey
      obtain ⟨others, same, equal, isAlso, also⟩ :=
        conforms.at_autoKey noObject noNull isAuto isKey
      cases equal
      cases isItem.symm.trans isAlso
      exact ⟨item, there, also⟩
  | descendant isValue noNull descendant =>
      exact ⟨stored, filled.at_descendant isValue noNull descendant,
        conforms.at_descendant isValue noNull descendant⟩
  | item found =>
      obtain ⟨items, item, rfl, isItem, there⟩ := filled.at_item found
      obtain ⟨others, same, equal, isAlso, also⟩ := conforms.at_item found
      cases equal
      cases isItem.symm.trans isAlso
      exact ⟨item, there, also⟩
  | autoItem isValue noArray noNull =>
      obtain ⟨item, rfl, there⟩ := filled.at_autoItem isValue noArray noNull
      obtain ⟨same, equal, also⟩ := conforms.at_autoItem isValue noArray noNull
      cases equal
      exact ⟨item, there, also⟩

theorem Filled.faithful_within {position other : JSONPath × TypeBase}
    (within : Within position other) (filled : Filled position stored)
    (conforms : Conforms position.1 position.2 stored) : Faithful other := by
  induction within using Relation.ReflTransGen.head_induction_on generalizing stored with
  | refl => exact filled.faithful conforms
  | head part _ ih =>
      obtain ⟨item, there, also⟩ := filled.part conforms part
      exact ih there also

theorem Filled.conforms (filled : Filled (path, type) stored)
    (faithful : ∀ other, Within (path, type) other → Faithful other) :
    Conforms path type stored := by
  have held : Stored (fun value stored => stored = getInt value) (fun _ _ => True)
      path type stored := filled
  clear filled
  induction held with
  | reference isReference found _ ih =>
      refine .reference isReference found (ih fun other within => faithful other ?_)
      exact within.head (.reference isReference found)
  | null isNull => exact .null isNull
  | record isValue isObject size given unset _ ih =>
      refine .record isValue isObject size ?_ unset ?_
      · intro i key item below isKey isItem found
        refine ih i key item below isKey isItem found fun other within => faithful other ?_
        exact within.head (.key isValue (List.mem_of_getElem? isKey) found)
      · intro i key item isKey isItem isObligatory
        cases found : JSONPath.down _ (.key key.key) with
        | none => exact (unset i key item isKey isItem found).given isObligatory
        | some below =>
            rintro rfl
            obtain ⟨final, resolves, isNull⟩ :=
              (given i key .null below isKey isItem found).resolves_null
            exact (faithful _ .refl).given _ key below final rfl isValue
              (List.mem_of_getElem? isKey) isObligatory found resolves isNull
  | @autoRecord _ _ autoKeyIdx _ noObject noNull isAuto size given unset _ ih =>
      refine .autoRecord noObject noNull isAuto size ?_ unset ?_
      · intro key item isKey isItem
        refine ih key item isKey isItem fun other within => faithful other ?_
        exact within.head (.autoKey noObject noNull isAuto isKey)
      · intro i key item isKey isItem isObligatory
        by_cases same : i = autoKeyIdx
        · subst same
          rintro rfl
          -- the value itself is not null
          obtain ⟨final, resolves, isNull⟩ := (given key .null isKey isItem).resolves_null
          have here := resolves.unique (.here (JSONPath.isValue_of_not_object noObject))
          exact noNull (here ▸ isNull)
        · exact (unset i key item same isKey isItem).given isObligatory
  | abstractRecord isValue noNull descendant _ ih =>
      refine .abstractRecord isValue noNull descendant (ih fun other within => faithful other ?_)
      exact within.head (.descendant isValue noNull descendant)
  | array isArray lower upper size _ ih =>
      refine .array isArray lower upper size fun i item below isItem found => ?_
      refine ih i item below isItem found fun other within => faithful other ?_
      exact within.head (.item found)
  | autoArray isValue noArray noNull lower upper _ ih =>
      refine .autoArray isValue noArray noNull lower upper
        (ih fun other within => faithful other ?_)
      exact within.head (.autoItem isValue noArray noNull)
  | integer isHead isNumber lower upper =>
      have fits := (faithful _ .refl).fits _ isHead trivial
      exact .integer isHead (isNumber.trans (getInt_eq_iff.mpr fits)) lower upper
  | real isHead lower upper => exact .real isHead lower upper
  | double isHead isNumber lower upper =>
      have fits := (faithful _ .refl).fits _ isHead trivial
      exact .double isHead (isNumber.trans (getInt_eq_iff.mpr fits)) lower upper
  | bool isHead => exact .bool isHead
  | selection isHead isKey => exact .selection isHead isKey
  | string isHead => exact .string isHead
  | fileName isHead isName => exact .fileName isHead isName

/-- For every type and every document for which the reader returns. -/
theorem makeStorage_conforms_iff
    (returned : makeStorage.Ends (path, type) (.ok stored)) :
    Conforms path type stored ↔ ∀ other, Within (path, type) other → Faithful other := by
  have filled := filled_of_ends returned
  constructor
  · exact fun conforms other within => filled.faithful_within within conforms
  · exact filled.conforms

/-! ## A record with one obligatory key -/

def numberKey : TypeKey TypeBase := ⟨"number", .integer 0 5, ⟨"", .noDefaultObligatoryType⟩⟩

def timeSteps : TypeBase := .record ⟨"Steps", [numberKey], none⟩

def timeStepsOf (number : Node) : JSONPath := JSONPath.ofRoot (.obj [("number", number)])

theorem makeStorage_conforms_iff_three :
    Conforms (timeStepsOf (.int 3)) timeSteps (.array [.int 3]) ↔
      ∀ other, Within (timeStepsOf (.int 3), timeSteps) other → Faithful other :=
  makeStorage_conforms_iff ⟨2, rfl⟩

theorem not_always_conforms : ¬ ∀ (path : JSONPath) (type : TypeBase) (stored : Storage),
    makeStorage.Ends (path, type) (.ok stored) → Conforms path type stored := by
  intro always
  have conforms := always (timeStepsOf .null) timeSteps (.array [.null]) ⟨2, rfl⟩
  have isKey : [numberKey][0]? = some numberKey := rfl
  obtain ⟨items, item, same, isItem, _, given⟩ := conforms.at_key rfl isKey rfl
  cases same
  cases isItem
  exact given rfl rfl

end JSONToStorage

end Flow123d
