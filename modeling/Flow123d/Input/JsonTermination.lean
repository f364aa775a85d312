import Mathlib.Data.Finset.Card
import Mathlib.Data.Prod.Lex
import Flow123d.Input.JsonToStorage

/-!
# The reader ends

Each call of the reader is for a smaller type, or follows a reference whose string is in the
document and has not been followed before.
-/

set_option autoImplicit false

namespace Flow123d

open Flow123d.Library

/-! ## The strings of a document -/

namespace Node

mutual

/-- All strings in the value. -/
def strings : Node → List String
  | .obj members => membersStrings members
  | .array items => itemsStrings items
  | .str value => [value]
  | .bool _ => []
  | .int _ => []
  | .real _ => []
  | .null => []

def itemsStrings : List Node → List String
  | [] => []
  | node :: rest => strings node ++ itemsStrings rest

def membersStrings : List (String × Node) → List String
  | [] => []
  | member :: rest => memberStrings member ++ membersStrings rest

def memberStrings : String × Node → List String
  | (_, node) => strings node

end

theorem mem_itemsStrings {value : String} {node : Node} {items : List Node}
    (member : node ∈ items) (inside : value ∈ node.strings) : value ∈ itemsStrings items := by
  induction member with
  | head rest => exact List.mem_append_left _ inside
  | tail first _ ih => exact List.mem_append_right _ ih

theorem mem_membersStrings {value key : String} {node : Node}
    {members : List (String × Node)} (found : members.lookup key = some node)
    (inside : value ∈ node.strings) : value ∈ membersStrings members := by
  induction members with
  | nil => cases found
  | cons member rest ih =>
      obtain ⟨name, other⟩ := member
      rw [List.lookup_cons] at found
      split at found
      · cases found
        exact List.mem_append_left _ inside
      · exact List.mem_append_right _ (ih found)

theorem mem_strings_of_item {value : String} {node below : Node} {item : PathItem}
    (found : node.item? item = some below) (inside : value ∈ below.strings) :
    value ∈ node.strings := by
  cases item with
  | index index =>
      cases node with
      | array items => exact mem_itemsStrings (List.mem_of_getElem? found) inside
      | _ => cases found
  | key key =>
      cases node with
      | obj members => exact mem_membersStrings found inside
      | _ => cases found

end Node

namespace JSONPlace

theorem mem_strings_of_head {root : Node} {levels : List (PathItem × Node)} {value : String}
    (descends : Descends root levels) (inside : value ∈ (headOf root levels).strings) :
    value ∈ root.strings := by
  induction levels with
  | nil => exact inside
  | cons level above ih =>
      obtain ⟨found, rest⟩ := descends
      exact ih rest (Node.mem_strings_of_item found inside)

theorem down_root {place below : JSONPlace} {item : PathItem}
    (found : place.down item = some below) : below.root = place.root := by
  unfold down at found
  split at found
  · cases found
  · cases found
    rfl

theorem followComponent_root {first : Bool} {component : String} {place next : JSONPlace}
    (followed : followComponent first component place = .ok next) : next.root = place.root := by
  unfold followComponent at followed
  split at followed
  · cases followed
    rfl
  split at followed
  · split at followed
    · split at followed
      · cases followed
      case h_2 found =>
        cases followed
        exact down_root found
    · cases followed
  split at followed
  · split at followed
    · cases followed
    · cases followed
      rfl
  · split at followed
    · split at followed
      · cases followed
      case h_2 found =>
        cases followed
        exact down_root found
    · cases followed

theorem followComponents_root {first : Bool} {components : List String}
    {place next : JSONPlace} (followed : followComponents first components place = .ok next) :
    next.root = place.root := by
  induction components generalizing first place with
  | nil =>
      cases followed
      rfl
  | cons component rest ih =>
      rw [followComponents] at followed
      split at followed
      · cases followed
      case h_2 one => exact (ih followed).trans (followComponent_root one)

end JSONPlace

namespace JSONPath

theorem down_spec {path below : JSONPath} {item : PathItem}
    (found : path.down item = some below) :
    below.root = path.root ∧ below.previousReferences = path.previousReferences := by
  obtain ⟨place, descended, rfl⟩ := Option.map_eq_some_iff.mp found
  exact ⟨JSONPlace.down_root descended, rfl⟩

theorem followReference_spec {path next : JSONPath} {refAddress : String}
    (followed : path.followReference refAddress = .ok next) :
    path.toJSONPlace.follow refAddress = .ok next.toJSONPlace ∧
      next.previousReferences = refAddress :: path.previousReferences := by
  unfold followReference at followed
  split at followed
  · cases followed
  case h_2 reached =>
    cases followed
    exact ⟨reached, rfl⟩

theorem followReference_root {path next : JSONPath} {refAddress : String}
    (followed : path.followReference refAddress = .ok next) : next.root = path.root :=
  JSONPlace.followComponents_root (followReference_spec followed).1

theorem findRefNode_of_mem {path : JSONPath} {refAddress : String}
    (before : refAddress ∈ path.previousReferences) : path.findRefNode refAddress =
      .error (.referenceNotFound path path refAddress "cannot follow reference") :=
  if_pos before

theorem findRefNode_of_notMem {path : JSONPath} {refAddress : String}
    (new : refAddress ∉ path.previousReferences) :
    path.findRefNode refAddress = path.followReference refAddress :=
  if_neg new

theorem getRefFromHead_head {path : JSONPath} {refAddress : String}
    (reference : path.getRefFromHead = .ok (some refAddress)) :
    path.head = .obj [("REF", .str refAddress)] := by
  unfold getRefFromHead at reference
  split at reference
  case h_1 key value isHead =>
    split at reference
    case isTrue named =>
      split at reference
      · cases reference
        rw [isHead, named]
      · cases reference
    case isFalse => cases reference
  case h_2 => cases reference

theorem mem_strings_of_reference {path : JSONPath} {refAddress : String}
    (reference : path.getRefFromHead = .ok (some refAddress)) :
    refAddress ∈ path.root.strings := by
  apply JSONPlace.mem_strings_of_head path.descends
  have isHead := getRefFromHead_head reference
  unfold JSONPlace.head at isHead
  rw [isHead]
  exact List.mem_append_left _ (List.mem_singleton.mpr rfl)

/-- The strings of the document that have not been followed. -/
def remaining (path : JSONPath) : ℕ :=
  (path.root.strings.toFinset \ path.previousReferences.toFinset).card

theorem followReference_remaining {path next : JSONPath} {refAddress : String}
    (reference : path.getRefFromHead = .ok (some refAddress))
    (new : refAddress ∉ path.previousReferences)
    (followed : path.followReference refAddress = .ok next) :
    next.remaining < path.remaining := by
  have inside := mem_strings_of_reference reference
  apply Finset.card_lt_card
  rw [followReference_root followed, (followReference_spec followed).2]
  refine Finset.ssubset_iff_subset_ne.mpr ⟨?_, ?_⟩
  · intro value member
    simp only [Finset.mem_sdiff, List.mem_toFinset, List.mem_cons, not_or] at member ⊢
    exact ⟨member.1, member.2.2⟩
  · intro same
    have member : refAddress ∈
        path.root.strings.toFinset \ path.previousReferences.toFinset := by
      simp [inside, new]
    rw [← same] at member
    simp at member

end JSONPath

/-! ## The calls of the reader -/

namespace TypeBase

/-- The selection of an abstract record is below it. -/
noncomputable def rank : TypeBase → ℕ
  | .selection _ => 0
  | type => sizeOf type

theorem rank_le (type : TypeBase) : type.rank ≤ sizeOf type := by
  cases type with
  | selection selection => exact Nat.zero_le _
  | _ => exact Nat.le_refl _

theorem rank_record (record : TypeRecord TypeBase) : (TypeBase.record record).rank =
    1 + sizeOf record :=
  TypeBase.record.sizeOf_spec record

theorem rank_abstractRecord (typeName : String) (typeDefault : Default)
    (listOfChilds : List (TypeRecord TypeBase)) :
    (TypeBase.abstractRecord typeName typeDefault listOfChilds).rank =
      1 + sizeOf typeName + sizeOf typeDefault + sizeOf listOfChilds :=
  TypeBase.abstractRecord.sizeOf_spec typeName typeDefault listOfChilds

theorem rank_array (typeOfValues : TypeBase) (lowerBound upperBound : ℕ) :
    typeOfValues.rank < (TypeBase.array typeOfValues lowerBound upperBound).rank := by
  have below := typeOfValues.rank_le
  have same : (TypeBase.array typeOfValues lowerBound upperBound).rank =
      1 + sizeOf typeOfValues + sizeOf lowerBound + sizeOf upperBound :=
    TypeBase.array.sizeOf_spec typeOfValues lowerBound upperBound
  omega

theorem rank_key_lt {record : TypeRecord TypeBase} {key : TypeKey TypeBase}
    (member : key ∈ record.keys) : key.type.rank < sizeOf record := by
  have inKeys := List.sizeOf_lt_of_mem member
  have below := key.type.rank_le
  cases record
  cases key
  simp only [TypeRecord.mk.sizeOf_spec, TypeKey.mk.sizeOf_spec] at inKeys below ⊢
  omega

end TypeBase

namespace JSONToStorage

/-- The call is for the same document, with the same references followed, and a type below
the bound. -/
def Below (path : JSONPath) (bound : ℕ) (call : JSONPath × TypeBase) : Prop :=
  call.1.root = path.root ∧ call.1.previousReferences = path.previousReferences ∧
    call.2.rank < bound

/-- References are not followed here. -/
def NoPathError (error : ReadError) : Prop := ∀ pathError, error ≠ .path pathError

theorem orWrongDefault_error {α : Type} {store : α → Storage} {outcome : Except WrongDefault α}
    {error : ReadError} (failed : orWrongDefault store outcome = .error error) :
    NoPathError error := by
  intro pathError same
  cases outcome with
  | ok value => cases failed
  | error wrong =>
      cases failed
      cases same

mutual

theorem makeStorageFromDefault_error {dfltStr : String} {error : ReadError} :
    ∀ type, makeStorageFromDefault dfltStr type = .error error → NoPathError error
  | .abstractRecord _ typeDefault listOfChilds, failed => by
      rw [makeStorageFromDefault] at failed
      split at failed
      · exact descendantFromDefault_error listOfChilds failed
      · cases failed
        exact nofun
  | .record record, failed => recordFromDefault_error record failed
  | .array typeOfValues _ _, failed => by
      rw [makeStorageFromDefault] at failed
      split at failed
      · cases item : makeStorageFromDefault dfltStr typeOfValues with
        | error itemError =>
            rw [item] at failed
            cases failed
            exact makeStorageFromDefault_error typeOfValues item
        | ok value =>
            rw [item] at failed
            cases failed
      · cases failed
        exact nofun
  | .integer _ _, failed => orWrongDefault_error failed
  | .double _ _, failed => orWrongDefault_error failed
  | .bool, failed => orWrongDefault_error failed
  | .selection _, failed => orWrongDefault_error failed
  | .string, failed => nomatch failed
  | .fileName _, failed => orWrongDefault_error failed

theorem recordFromDefault_error {dfltStr : String} {error : ReadError} :
    ∀ record, recordFromDefault dfltStr record = .error error → NoPathError error
  | ⟨_, keys, autoConversionKeyIdx⟩, failed => by
      cases autoConversionKeyIdx with
      | none =>
          cases failed
          exact nofun
      | some autoKeyIdx =>
          simp only [recordFromDefault] at failed
          cases items : keysFromDefault dfltStr autoKeyIdx 0 keys with
          | error itemsError =>
              simp only [items] at failed
              cases failed
              exact keysFromDefault_error 0 keys items
          | ok values =>
              simp only [items] at failed
              cases failed

theorem keysFromDefault_error {dfltStr : String} {autoKeyIdx : ℕ} {error : ReadError} :
    ∀ keyIndex keys, keysFromDefault dfltStr autoKeyIdx keyIndex keys = .error error →
      NoPathError error
  | _, [], failed => nomatch failed
  | keyIndex, key :: rest, failed => by
      rw [keysFromDefault] at failed
      cases item : keyFromDefault dfltStr (keyIndex = autoKeyIdx) key with
      | error itemError =>
          rw [item] at failed
          cases failed
          exact keyFromDefault_error _ key item
      | ok value =>
          cases items : keysFromDefault dfltStr autoKeyIdx (keyIndex + 1) rest with
          | error itemsError =>
              rw [item, items] at failed
              cases failed
              exact keysFromDefault_error _ rest items
          | ok values =>
              rw [item, items] at failed
              cases failed

theorem keyFromDefault_error {dfltStr : String} {error : ReadError} :
    ∀ isAutoKey key, keyFromDefault dfltStr isAutoKey key = .error error → NoPathError error
  | _, ⟨_, type, _⟩, failed => makeStorageFromDefault_error type failed

theorem descendantFromDefault_error {dfltStr typeName : String} {error : ReadError} :
    ∀ listOfChilds, descendantFromDefault dfltStr typeName listOfChilds = .error error →
      NoPathError error
  | [], failed => by
      cases failed
      exact nofun
  | record :: rest, failed => by
      rw [descendantFromDefault] at failed
      split at failed
      · exact recordFromDefault_error record failed
      · exact descendantFromDefault_error rest failed

end

theorem makeStorageRecord_within (path : JSONPath) (record : TypeRecord TypeBase) :
    (makeStorageRecord path record).Within (Below path (sizeOf record)) NoPathError := by
  unfold makeStorageRecord
  split
  · refine (Body.Within.collect ?_).bind fun _ => trivial
    intro key member
    unfold makeStorageKey
    split
    case h_1 below found =>
      obtain ⟨root, previous⟩ := JSONPath.down_spec found
      exact ⟨⟨root, previous, TypeBase.rank_key_lt member⟩, fun _ => trivial⟩
    · split
      · exact nofun
      · split
        · exact Body.Within.lift fun _ => makeStorageFromDefault_error key.type
        · trivial
  · split
    · refine (Body.Within.collect ?_).bind fun _ => trivial
      intro key member
      unfold autoConvertKey
      split
      · have inKeys := List.fst_mem_of_mem_zipIdx member
        exact ⟨⟨rfl, rfl, TypeBase.rank_key_lt inKeys⟩, fun _ => trivial⟩
      · exact Body.Within.lift fun _ => makeStorageFromDefault_error key.1.type
    · exact nofun

theorem makeStorageRecord_within_child (path : JSONPath) {typeName : String}
    {typeDefault : Default} {listOfChilds : List (TypeRecord TypeBase)}
    {record : TypeRecord TypeBase} (member : record ∈ listOfChilds) :
    (makeStorageRecord path record).Within
      (Below path (TypeBase.abstractRecord typeName typeDefault listOfChilds).rank)
      NoPathError := by
  refine (makeStorageRecord_within path record).mono ?_ fun _ allowed => allowed
  rintro call ⟨root, previous, below⟩
  have inChilds := List.sizeOf_lt_of_mem member
  refine ⟨root, previous, ?_⟩
  rw [TypeBase.rank_abstractRecord]
  omega

theorem autoConvertAbstract_within (path : JSONPath) (typeName : String)
    (typeDefault : Default) (listOfChilds : List (TypeRecord TypeBase)) {error : ReadError}
    (noPath : NoPathError error) :
    (autoConvertAbstract path typeDefault listOfChilds error).Within
      (Below path (TypeBase.abstractRecord typeName typeDefault listOfChilds).rank)
      NoPathError := by
  unfold autoConvertAbstract
  split
  · split
    case h_1 record found =>
      exact makeStorageRecord_within_child path (List.mem_of_find?_eq_some found)
    · exact nofun
  · exact noPath

theorem makeStorageAbstractRecord_within (path : JSONPath) (typeName : String)
    (typeDefault : Default) (listOfChilds : List (TypeRecord TypeBase)) :
    (makeStorageAbstractRecord path typeName typeDefault listOfChilds).Within
      (Below path (TypeBase.abstractRecord typeName typeDefault listOfChilds).rank)
      NoPathError := by
  unfold makeStorageAbstractRecord
  split
  · split
    · exact autoConvertAbstract_within path typeName typeDefault listOfChilds nofun
    case h_2 typePath found =>
      obtain ⟨root, previous⟩ := JSONPath.down_spec found
      refine ⟨⟨root, previous, ?_⟩, ?_⟩
      · rw [TypeBase.rank_abstractRecord]
        change 0 < _
        omega
      · intro reply
        unfold makeStorageDescendant
        split
        · split
          case h_1 record found =>
            exact makeStorageRecord_within_child path (List.mem_of_getElem? found)
          · exact nofun
        · exact nofun
  · exact autoConvertAbstract_within path typeName typeDefault listOfChilds nofun

theorem makeStorageArray_within (path : JSONPath) (typeOfValues : TypeBase)
    (lowerBound upperBound : ℕ) :
    (makeStorageArray path typeOfValues lowerBound upperBound).Within
      (Below path (TypeBase.array typeOfValues lowerBound upperBound).rank) NoPathError := by
  have smaller := TypeBase.rank_array typeOfValues lowerBound upperBound
  unfold makeStorageArray
  split
  · split
    · refine (Body.Within.collect ?_).bind fun _ => trivial
      intro idx _
      unfold makeStorageItem
      split
      case h_1 below found =>
        obtain ⟨root, previous⟩ := JSONPath.down_spec found
        exact ⟨⟨root, previous, smaller⟩, fun _ => trivial⟩
      · exact nofun
    · exact nofun
  · split
    · exact ⟨⟨rfl, rfl, smaller⟩, fun _ => trivial⟩
    · exact nofun

/-- The calls for a value that is not a reference. -/
theorem makeStorageValue_within (path : JSONPath) (type : TypeBase) :
    (makeStorageValue path type).Within (Below path type.rank) NoPathError := by
  unfold makeStorageValue
  split
  · trivial
  cases type with
  | record record =>
      refine (makeStorageRecord_within path record).mono ?_ fun _ allowed => allowed
      rintro call ⟨root, previous, below⟩
      refine ⟨root, previous, ?_⟩
      rw [TypeBase.rank_record]
      omega
  | abstractRecord typeName typeDefault listOfChilds =>
      exact makeStorageAbstractRecord_within path typeName typeDefault listOfChilds
  | array typeOfValues lowerBound upperBound =>
      exact makeStorageArray_within path typeOfValues lowerBound upperBound
  | integer lowerBound upperBound =>
      simp only [makeStorageInteger]
      repeat' split
      all_goals first | trivial | exact nofun
  | double lowerBound upperBound =>
      simp only [makeStorageDouble, storeDouble]
      repeat' split
      all_goals first | trivial | exact nofun
  | bool =>
      simp only [makeStorageBool]
      split
      all_goals first | trivial | exact nofun
  | selection selection =>
      simp only [makeStorageSelection]
      repeat' split
      all_goals first | trivial | exact nofun
  | string =>
      simp only [makeStorageString]
      repeat' split
      all_goals first | trivial | exact nofun
  | fileName fileType =>
      simp only [makeStorageString]
      repeat' split
      all_goals first | trivial | exact nofun

/-! ## Termination -/

def Smaller (first second : JSONPath × TypeBase) : Prop :=
  Prod.Lex (· < ·) (· < ·) (first.1.remaining, first.2.rank) (second.1.remaining, second.2.rank)

theorem smaller_wellFounded : WellFounded Smaller :=
  InvImage.wf (fun call : JSONPath × TypeBase => (call.1.remaining, call.2.rank))
    (Prod.lex ⟨_, wellFounded_lt⟩ ⟨_, wellFounded_lt⟩).wf

/-- For every type and every document the reader ends. -/
theorem makeStorage_ends (path : JSONPath) (type : TypeBase) :
    ∃ result, makeStorage.Ends (path, type) result := by
  refine Procedure.ends_of_smaller smaller_wellFounded ?_ (path, type)
  rintro ⟨path, type⟩
  rw [makeStorage]
  split
  · trivial
  case h_2 refAddress reference =>
    by_cases before : refAddress ∈ path.previousReferences
    · rw [JSONPath.findRefNode_of_mem before]
      trivial
    · rw [JSONPath.findRefNode_of_notMem before]
      cases followed : path.followReference refAddress with
      | error error => trivial
      | ok refPath =>
          exact ⟨.left _ _ (JSONPath.followReference_remaining reference before followed),
            fun _ => trivial⟩
  · refine (makeStorageValue_within path type).mono ?_ fun _ _ => trivial
    rintro ⟨other, smaller⟩ ⟨root, previous, below⟩
    have same : other.remaining = path.remaining := by
      rw [JSONPath.remaining, JSONPath.remaining, root, previous]
    unfold Smaller
    rw [same]
    exact .right _ below

end JSONToStorage

end Flow123d
