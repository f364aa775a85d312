import Flow123d.Input.AutoConversion
import Flow123d.Input.JsonAddress
import Flow123d.Input.JsonTermination

/-!
# What is read by automatic conversion

The reader does the same on a value that is converted and on the value that is written out, call
by call.
-/

set_option autoImplicit false

namespace Flow123d

open Flow123d.Library

/-! ## Call by call -/

namespace JSONPath

variable {path : JSONPath} {item : PathItem}

theorem down_none (missing : path.head.item? item = none) : path.down item = none := by
  rw [down, JSONPlace.down_eq_none missing]
  rfl

theorem down_some {node : Node} (found : path.head.item? item = some node) :
    ∃ below, path.down item = some below ∧ below.head = node := by
  cases stepped : path.toJSONPlace.down item with
  | none =>
      unfold JSONPlace.down at stepped
      split at stepped
      next missing => rw [missing] at found; cases found
      next => cases stepped
  | some place =>
      obtain ⟨node', found', root, levels⟩ := JSONPlace.down_eq_some_iff.mp stepped
      rw [found] at found'
      cases found'
      refine ⟨{ toJSONPlace := place, previousReferences := path.previousReferences }, ?_, ?_⟩
      · rw [down, stepped]
        rfl
      · rw [JSONPlace.head, levels]
        rfl

theorem getRefFromHead_of_free (free : path.head.ReferenceFree) :
    path.getRefFromHead = .ok none := by
  cases free with
  | intro noReference below =>
      unfold getRefFromHead
      split
      next key value single =>
        rw [if_neg fun named => noReference value (by rw [single, named])]
      next => rfl

end JSONPath

/-- An exception without the address. The text about an array is not compared: it is another one
if a value can not be converted than if a written array does not fit. -/
inductive Failure where
  | path
  | inputError (text : Option (String × Option String)) (inputType : TypeBase)
  | wrongDefault (error : WrongDefault)
  | storageTypeMismatch (requestedType : String)
  | programError (message : String)

def ReadError.failure : ReadError → Failure
  | .path _ => .path
  | .inputError _ _ _ (.array typeOfValues lowerBound upperBound) =>
      .inputError none (.array typeOfValues lowerBound upperBound)
  | .inputError specification _ jsonType inputType =>
      .inputError (some (specification, jsonType)) inputType
  | .wrongDefault error => .wrongDefault error
  | .storageTypeMismatch requestedType => .storageTypeMismatch requestedType
  | .programError message => .programError message

namespace JSONToStorage

def SameFailure (error error' : ReadError) : Prop := error.failure = error'.failure

theorem sameFailure_refl (error : ReadError) : SameFailure error error := rfl

def Replies (call : JSONPath × TypeBase) (reply : Storage) : Prop :=
  makeStorage.Ends call (.ok reply)

/-- The second call reads what the first one reads, written out. -/
structure Matched (call call' : JSONPath × TypeBase) : Prop where
  type : call.2 = call'.2
  finished : call.2.Finished
  free : call.1.head.ReferenceFree
  writesOut : WritesOut call.2 call.1.head call'.1.head

section

variable {path path' : JSONPath}

theorem inputError_same (specification : String) (jsonType : Option String)
    (inputType : TypeBase) :
    SameFailure (.inputError specification path jsonType inputType)
      (.inputError specification path' jsonType inputType) := by
  cases inputType <;> rfl

/-- Both records have the key, or none of them. -/
def KeyMatched (value written : Node) (key : TypeKey TypeBase) : Prop :=
  (value.item? (.key key.key) = none ∧ written.item? (.key key.key) = none) ∨
    ∃ below below', value.item? (.key key.key) = some below ∧
      written.item? (.key key.key) = some below' ∧ WritesOut key.type below below'

theorem makeStorageKey_lockstep (record : TypeRecord TypeBase) {key : TypeKey TypeBase}
    (finished : key.type.Finished) (free : path.head.ReferenceFree)
    (keys : KeyMatched path.head path'.head key) :
    (makeStorageKey path record key).Lockstep Matched Replies SameFailure
      (makeStorageKey path' record key) := by
  unfold makeStorageKey
  cases keys with
  | inl missing =>
      rw [JSONPath.down_none missing.1, JSONPath.down_none missing.2]
      by_cases obligatory : key.dflt.isObligatory = true
      · simp only [if_pos obligatory]
        exact inputError_same _ _ _
      · simp only [if_neg obligatory]
        split
        · exact Body.Lockstep.lift sameFailure_refl _
        · exact rfl
  | inr present =>
      obtain ⟨value, written, found, found', writesOut⟩ := present
      obtain ⟨below, stepped, head⟩ := JSONPath.down_some found
      obtain ⟨below', stepped', head'⟩ := JSONPath.down_some found'
      rw [stepped, stepped']
      refine ⟨⟨rfl, finished, ?_, ?_⟩, fun _ _ => rfl⟩
      · rw [head]
        exact free.item _ found
      · rw [head, head']
        exact writesOut

theorem makeStorageRecord_obj {members : List (String × Node)} (record : TypeRecord TypeBase)
    (head : path.head = .obj members) : makeStorageRecord path record =
      (do let items ← Body.collect (makeStorageKey path record) record.keys
          pure (.array items)) := by
  unfold makeStorageRecord
  rw [head]

theorem makeStorageRecord_convert {record : TypeRecord TypeBase} {autoKeyIdx : ℕ}
    (noObject : path.head.isObj = false) (auto : record.autoConversionKeyIdx = some autoKeyIdx) :
    makeStorageRecord path record =
      (do let items ← Body.collect (autoConvertKey path autoKeyIdx) record.keys.zipIdx
          pure (.array items)) := by
  unfold makeStorageRecord
  split
  next members head => rw [head] at noObject; cases noObject
  next => rw [auto]

theorem makeStorageRecord_throw {record : TypeRecord TypeBase} (noObject : path.head.isObj = false)
    (auto : record.autoConversionKeyIdx = none) :
    makeStorageRecord path record =
      .throw (.inputError "The value should be 'JSON object', but we found: " path
        (some path.head.typeName) (.record record)) := by
  unfold makeStorageRecord
  split
  next members head => rw [head] at noObject; cases noObject
  next => rw [auto]

theorem makeStorageRecord_lockstep_members {record : TypeRecord TypeBase}
    {members members' : List (String × Node)} (finished : (TypeBase.record record).Finished)
    (free : path.head.ReferenceFree) (head : path.head = .obj members)
    (head' : path'.head = .obj members')
    (keys : ∀ key ∈ record.keys, KeyMatched path.head path'.head key) :
    (makeStorageRecord path record).Lockstep Matched Replies SameFailure
      (makeStorageRecord path' record) := by
  rw [makeStorageRecord_obj record head, makeStorageRecord_obj record head']
  refine Body.Lockstep.bind (Body.Lockstep.collect ?_) fun items => rfl
  refine List.forall₂_same.mpr fun key inKeys => ?_
  exact makeStorageKey_lockstep record (finished.key inKeys) free (keys key inKeys)

/-- The record with the one key for conversions. -/
theorem convertKey_lockstep {record : TypeRecord TypeBase} {autoKey : TypeKey TypeBase}
    {autoKeyIdx : ℕ} {written : Node} {key : TypeKey TypeBase × ℕ}
    (finished : (TypeBase.record record).Finished)
    (auto : record.autoConversionKeyIdx = some autoKeyIdx)
    (isAuto : record.keys[autoKeyIdx]? = some autoKey) (member : key ∈ record.keys.zipIdx)
    (free : path.head.ReferenceFree) (head' : path'.head = .obj [(autoKey.key, written)])
    (writesOut : WritesOut autoKey.type path.head written) :
    (autoConvertKey path autoKeyIdx key).Lockstep Matched Replies SameFailure
      (makeStorageKey path' record key.1) := by
  have place := List.mem_zipIdx_iff_getElem?.mp member
  have inKeys : key.1 ∈ record.keys := List.mem_of_getElem? place
  have item : path'.head.item? (.key key.1.key) =
      if key.1.key = autoKey.key then some written else none := by
    rw [head']
    exact lookup_singleton autoKey.key key.1.key written
  unfold autoConvertKey makeStorageKey
  by_cases same : key.2 = autoKeyIdx
  · rw [same, isAuto] at place
    cases place
    rw [if_pos rfl] at item
    obtain ⟨below, stepped, head⟩ := JSONPath.down_some item
    rw [if_pos same, stepped]
    refine ⟨⟨rfl, finished.key inKeys, free, ?_⟩, fun _ _ => rfl⟩
    rw [head]
    exact writesOut
  · have other : key.1.key ≠ autoKey.key := by
      intro named
      cases finished with
      | record distinct identifiers conversion types =>
          have first : (record.keys.map TypeKey.key)[key.2]? = some key.1.key := by
            rw [List.getElem?_map, place]
            rfl
          have second : (record.keys.map TypeKey.key)[autoKeyIdx]? = some autoKey.key := by
            rw [List.getElem?_map, isAuto]
            rfl
          have inside := (List.getElem?_eq_some_iff.mp first).1
          exact same ((List.getElem?_inj inside distinct).mp (by rw [first, second, named]))
    have given : key.1.dflt.hasValueAtDeclaration = true := by
      cases finished with
      | record distinct identifiers conversion types =>
          exact (conversion autoKeyIdx auto).2 key member same
    have optional : key.1.dflt.isObligatory = false := by
      rw [Default.hasValueAtDeclaration, decide_eq_true_iff] at given
      rw [Default.isObligatory, given]
      rfl
    rw [if_neg other] at item
    rw [if_neg same, JSONPath.down_none item]
    simp only [optional, given, Bool.false_eq_true, if_false, if_true]
    exact Body.Lockstep.lift sameFailure_refl _

theorem makeStorageRecord_lockstep {record : TypeRecord TypeBase} {value written : Node}
    (finished : (TypeBase.record record).Finished) (free : path.head.ReferenceFree)
    (head : path.head = value) (head' : path'.head = written)
    (writesOut : WritesOut (.record record) value written) :
    (makeStorageRecord path record).Lockstep Matched Replies SameFailure
      (makeStorageRecord path' record) := by
  cases writesOut with
  | same type value =>
      cases isObject : value.isObj with
      | true =>
          cases value with
          | obj members =>
              refine makeStorageRecord_lockstep_members finished free head head' ?_
              intro key inKeys
              rw [KeyMatched, head, head']
              cases (Node.obj members).item? (.key key.key) with
              | none => exact Or.inl ⟨rfl, rfl⟩
              | some below => exact Or.inr ⟨below, below, rfl, rfl, .same _ _⟩
          | _ => cases isObject
      | false =>
          rw [← head] at isObject
          have isObject' : path'.head.isObj = false := by rw [head', ← head]; exact isObject
          cases auto : record.autoConversionKeyIdx with
          | none =>
              rw [makeStorageRecord_throw isObject auto, makeStorageRecord_throw isObject' auto,
                head, head']
              exact inputError_same _ _ _
          | some autoKeyIdx =>
              rw [makeStorageRecord_convert isObject auto, makeStorageRecord_convert isObject' auto]
              refine Body.Lockstep.bind (Body.Lockstep.collect ?_) fun items => rfl
              refine List.forall₂_same.mpr fun key member => ?_
              have inKeys := List.fst_mem_of_mem_zipIdx member
              unfold autoConvertKey
              split
              · refine ⟨⟨rfl, finished.key inKeys, free, ?_⟩, fun _ _ => rfl⟩
                rw [head, head']
                exact .same _ _
              · exact Body.Lockstep.lift sameFailure_refl _
  | record noObject nonNull autoKey member =>
      rename_i key written
      obtain ⟨autoKeyIdx, auto, isAuto⟩ := Option.bind_eq_some_iff.mp autoKey
      rw [← head] at noObject
      rw [makeStorageRecord_convert noObject auto, makeStorageRecord_obj record head']
      refine Body.Lockstep.bind (Body.Lockstep.collect ?_) fun items => rfl
      have each : List.Forall₂ (fun one key => (autoConvertKey path autoKeyIdx one).Lockstep
          Matched Replies SameFailure (makeStorageKey path' record key))
          record.keys.zipIdx (record.keys.zipIdx.map Prod.fst) := by
        refine List.forall₂_map_right_iff.mpr (List.forall₂_same.mpr fun one inKeys => ?_)
        exact convertKey_lockstep finished auto isAuto inKeys free head' (head.symm ▸ member)
      rw [List.zipIdx_map_fst] at each
      exact each
  | members names unused each =>
      rename_i members members'
      refine makeStorageRecord_lockstep_members finished free head head' ?_
      intro key inKeys
      rw [KeyMatched, head, head']
      change (members.lookup key.key = none ∧ members'.lookup key.key = none) ∨ ∃ below below',
        members.lookup key.key = some below ∧ members'.lookup key.key = some below' ∧ _
      cases found : members.lookup key.key with
      | none => exact Or.inl ⟨rfl, (lookup_eq_none_iff_of_names names key.key).mp found⟩
      | some below =>
          cases found' : members'.lookup key.key with
          | none =>
              rw [(lookup_eq_none_iff_of_names names key.key).mpr found'] at found
              cases found
          | some below' => exact Or.inr ⟨below, below', rfl, rfl, each key inKeys _ _ found found'⟩

/-! ### Arrays -/

theorem makeStorageArray_items {typeOfValues : TypeBase} {items : List Node}
    (lowerBound upperBound : ℕ) (head : path.head = .array items) :
    makeStorageArray path typeOfValues lowerBound upperBound =
      if TypeBase.matchSize lowerBound upperBound items.length then do
        let stored ← Body.collect (makeStorageItem path typeOfValues) (List.range items.length)
        pure (.array stored)
      else .throw (.inputError "Do not fit into size limits of the Array." path none
        (.array typeOfValues lowerBound upperBound)) := by
  unfold makeStorageArray
  rw [head]

theorem makeStorageArray_convert (typeOfValues : TypeBase) (lowerBound upperBound : ℕ)
    (noArray : path.head.isArray = false) :
    makeStorageArray path typeOfValues lowerBound upperBound =
      if TypeBase.matchSize lowerBound upperBound 1 then
        .call (path, typeOfValues) fun item => pure (.array [item])
      else .throw (.inputError
        "Automatic conversion to array not allowed. The value should be 'JSON array', but we found: "
        path (some path.head.typeName) (.array typeOfValues lowerBound upperBound)) := by
  unfold makeStorageArray
  split
  next items head => rw [head] at noArray; cases noArray
  next => rfl

theorem makeStorageItem_lockstep {typeOfValues : TypeBase} {idx : ℕ} {value written : Node}
    (finished : typeOfValues.Finished) (free : path.head.ReferenceFree)
    (found : path.head.item? (.index idx) = some value)
    (found' : path'.head.item? (.index idx) = some written)
    (writesOut : WritesOut typeOfValues value written) :
    (makeStorageItem path typeOfValues idx).Lockstep Matched Replies SameFailure
      (makeStorageItem path' typeOfValues idx) := by
  obtain ⟨below, stepped, head⟩ := JSONPath.down_some found
  obtain ⟨below', stepped', head'⟩ := JSONPath.down_some found'
  rw [makeStorageItem, makeStorageItem, stepped, stepped']
  refine ⟨⟨rfl, finished, ?_, ?_⟩, fun _ _ => rfl⟩
  · rw [head]
    exact free.item _ found
  · rw [head, head']
    exact writesOut

theorem makeStorageArray_lockstep_items {typeOfValues : TypeBase} {items items' : List Node}
    (lowerBound upperBound : ℕ) (finished : typeOfValues.Finished)
    (free : path.head.ReferenceFree) (head : path.head = .array items)
    (head' : path'.head = .array items') (length : items.length = items'.length)
    (each : ∀ (idx : ℕ) (value written : Node), items[idx]? = some value →
      items'[idx]? = some written → WritesOut typeOfValues value written) :
    (makeStorageArray path typeOfValues lowerBound upperBound).Lockstep Matched Replies SameFailure
      (makeStorageArray path' typeOfValues lowerBound upperBound) := by
  rw [makeStorageArray_items lowerBound upperBound head,
    makeStorageArray_items lowerBound upperBound head', ← length]
  split
  · refine Body.Lockstep.bind (Body.Lockstep.collect ?_) fun stored => rfl
    refine List.forall₂_same.mpr fun idx member => ?_
    have inside : idx < items.length := List.mem_range.mp member
    have found : items[idx]? = some items[idx] := List.getElem?_eq_getElem inside
    have found' : items'[idx]? = some (items'[idx]) :=
      List.getElem?_eq_getElem (length ▸ inside)
    exact makeStorageItem_lockstep finished free (head ▸ found) (head' ▸ found')
      (each idx _ _ found found')
  · exact inputError_same _ _ _

theorem makeStorageArray_lockstep {typeOfValues : TypeBase} {lowerBound upperBound : ℕ}
    {value written : Node} (finished : typeOfValues.Finished) (free : path.head.ReferenceFree)
    (head : path.head = value) (head' : path'.head = written)
    (writesOut : WritesOut (.array typeOfValues lowerBound upperBound) value written) :
    (makeStorageArray path typeOfValues lowerBound upperBound).Lockstep Matched Replies SameFailure
      (makeStorageArray path' typeOfValues lowerBound upperBound) := by
  cases writesOut with
  | same type value =>
      cases isArray : value.isArray with
      | true =>
          cases value with
          | array items =>
              refine makeStorageArray_lockstep_items lowerBound upperBound finished free head head'
                rfl fun idx value written found found' => ?_
              rw [found] at found'
              cases found'
              exact .same _ _
          | _ => cases isArray
      | false =>
          rw [makeStorageArray_convert typeOfValues lowerBound upperBound (head ▸ isArray),
            makeStorageArray_convert typeOfValues lowerBound upperBound (head' ▸ isArray)]
          split
          · refine ⟨⟨rfl, finished, free, ?_⟩, fun _ _ => rfl⟩
            rw [head, head']
            exact .same _ _
          · exact rfl
  | array lowerBound upperBound noArray nonNull item =>
      rename_i written
      rw [makeStorageArray_convert typeOfValues lowerBound upperBound (head ▸ noArray),
        makeStorageArray_items lowerBound upperBound head']
      change Body.Lockstep Matched Replies SameFailure
        (if TypeBase.matchSize lowerBound upperBound 1 then _ else _)
        (if TypeBase.matchSize lowerBound upperBound 1 then _ else _)
      split
      · have found : path'.head.item? (.index 0) = some written := by rw [head']; rfl
        obtain ⟨below, stepped, belowHead⟩ := JSONPath.down_some found
        have single : Body.collect (makeStorageItem path' typeOfValues) (List.range 1) =
            .call (below, typeOfValues) fun item => pure [item] := by
          change Body.collect (makeStorageItem path' typeOfValues) [0] = _
          rw [Body.collect, makeStorageItem, stepped]
          rfl
        change Body.Lockstep Matched Replies SameFailure _
          (Body.collect (makeStorageItem path' typeOfValues) (List.range 1) >>= _)
        rw [single]
        refine ⟨⟨rfl, finished, free, ?_⟩, fun _ _ => rfl⟩
        rw [head, belowHead]
        exact item
      · exact rfl
  | items lowerBound upperBound length each =>
      exact makeStorageArray_lockstep_items lowerBound upperBound finished free head head' length
        each

/-! ### Scalars -/

theorem makeStorageBool_lockstep (same : path.head = path'.head) :
    (makeStorageBool path).Lockstep Matched Replies SameFailure (makeStorageBool path') := by
  unfold makeStorageBool
  rw [← same]
  split
  · exact rfl
  · exact inputError_same _ _ _

theorem makeStorageInteger_lockstep (lowerBound upperBound : ℤ) (same : path.head = path'.head) :
    (makeStorageInteger path lowerBound upperBound).Lockstep Matched Replies SameFailure
      (makeStorageInteger path' lowerBound upperBound) := by
  unfold makeStorageInteger
  rw [← same]
  split
  · split
    · exact rfl
    · exact inputError_same _ _ _
  · exact inputError_same _ _ _

theorem storeDouble_lockstep (lowerBound upperBound value : ℚ) :
    (storeDouble path lowerBound upperBound value).Lockstep Matched Replies SameFailure
      (storeDouble path' lowerBound upperBound value) := by
  unfold storeDouble
  split
  · exact rfl
  · exact inputError_same _ _ _

theorem makeStorageDouble_lockstep (lowerBound upperBound : ℚ) (same : path.head = path'.head) :
    (makeStorageDouble path lowerBound upperBound).Lockstep Matched Replies SameFailure
      (makeStorageDouble path' lowerBound upperBound) := by
  unfold makeStorageDouble
  rw [← same]
  split
  · exact storeDouble_lockstep lowerBound upperBound _
  · exact storeDouble_lockstep lowerBound upperBound _
  · exact inputError_same _ _ _

theorem makeStorageSelection_lockstep (selection : TypeSelection)
    (same : path.head = path'.head) :
    (makeStorageSelection path selection).Lockstep Matched Replies SameFailure
      (makeStorageSelection path' selection) := by
  unfold makeStorageSelection
  rw [← same]
  split
  · split
    · exact rfl
    · exact inputError_same _ _ _
  · exact inputError_same _ _ _

theorem makeStorageString_lockstep (isMatching : String → Bool) (type : TypeBase)
    (same : path.head = path'.head) :
    (makeStorageString path isMatching type).Lockstep Matched Replies SameFailure
      (makeStorageString path' isMatching type) := by
  unfold makeStorageString
  rw [← same]
  split
  · split
    · exact rfl
    · exact inputError_same _ _ _
  · exact inputError_same _ _ _

/-! ### Abstract records -/

theorem makeStorageAbstractRecord_default (typeName : String) {typeDefault : Default}
    {listOfChilds : List (TypeRecord TypeBase)} {record : TypeRecord TypeBase}
    (noType : path.head.item? (.key "TYPE") = none)
    (given : typeDefault.hasValueAtDeclaration = true)
    (found : getDefaultDescendant typeDefault listOfChilds = some record) :
    makeStorageAbstractRecord path typeName typeDefault listOfChilds =
      makeStorageRecord path record := by
  have converts : ∀ error, autoConvertAbstract path typeDefault listOfChilds error =
      makeStorageRecord path record := by
    intro error
    rw [autoConvertAbstract, if_pos given, found]
  unfold makeStorageAbstractRecord
  split
  · rw [JSONPath.down_none noType]
    exact converts _
  · exact converts _

theorem makeStorageAbstractRecord_typed {typeNode : Node} (typeName : String)
    (typeDefault : Default) (listOfChilds : List (TypeRecord TypeBase))
    (typed : path.head.item? (.key "TYPE") = some typeNode) :
    ∃ typePath : JSONPath, typePath.head = typeNode ∧
      makeStorageAbstractRecord path typeName typeDefault listOfChilds =
        .call (typePath, .selection (typeSelection typeName listOfChilds))
          (makeStorageDescendant path listOfChilds) := by
  obtain ⟨typePath, stepped, head⟩ := JSONPath.down_some typed
  refine ⟨typePath, head, ?_⟩
  unfold makeStorageAbstractRecord
  split
  · rw [stepped]
  next noObject =>
    generalize path.head = node at typed noObject
    cases node with
    | obj members => exact absurd rfl (noObject members)
    | _ => cases typed

theorem autoConvertAbstract_lockstep {typeName : String} {typeDefault : Default}
    {listOfChilds : List (TypeRecord TypeBase)} {error error' : ReadError}
    (finished : (TypeBase.abstractRecord typeName typeDefault listOfChilds).Finished)
    (free : path.head.ReferenceFree) (same : path.head = path'.head)
    (sameError : SameFailure error error') :
    (autoConvertAbstract path typeDefault listOfChilds error).Lockstep Matched Replies SameFailure
      (autoConvertAbstract path' typeDefault listOfChilds error') := by
  unfold autoConvertAbstract
  split
  · cases found : getDefaultDescendant typeDefault listOfChilds with
    | none => exact rfl
    | some record =>
        exact makeStorageRecord_lockstep (finished.child (List.mem_of_find?_eq_some found)) free
          same rfl (.same _ _)
  · exact sameError

theorem makeStorageDescendant_lockstep {typeName : String} {typeDefault : Default}
    {listOfChilds : List (TypeRecord TypeBase)}
    (finished : (TypeBase.abstractRecord typeName typeDefault listOfChilds).Finished)
    (free : path.head.ReferenceFree) (same : path.head = path'.head) (reply : Storage) :
    (makeStorageDescendant path listOfChilds reply).Lockstep Matched Replies SameFailure
      (makeStorageDescendant path' listOfChilds reply) := by
  unfold makeStorageDescendant
  split
  · split
    next record found =>
      exact makeStorageRecord_lockstep (finished.child (List.mem_of_getElem? found)) free same rfl
        (.same _ _)
    · exact rfl
  · exact rfl

/-- What the selection of a descendant replies. -/
theorem reply_of_type {typePath : JSONPath} {name : String} {selection : TypeSelection}
    {descendantIndex : ℤ} {reply : Storage} (head : typePath.head = .str name)
    (selected : selection.nameToInt name = some descendantIndex)
    (replied : Replies (typePath, .selection selection) reply) : reply = .int descendantIndex := by
  have body : makeStorage (typePath, .selection selection) = .ret (.int descendantIndex) := by
    have noReference : typePath.getRefFromHead = .ok none := by
      unfold JSONPath.getRefFromHead
      rw [head]
    rw [makeStorage, noReference]
    change makeStorageValue typePath (.selection selection) = _
    unfold makeStorageValue makeStorageSelection
    rw [head]
    simp only [selected]
    rfl
  have ends := Procedure.ends_iff_yields.mp replied
  rw [body] at ends
  have same := ends.unique (Procedure.yields_ret _)
  cases same
  rfl

theorem makeStorageAbstractRecord_lockstep {typeName : String} {typeDefault : Default}
    {listOfChilds : List (TypeRecord TypeBase)} {value written : Node}
    (finished : (TypeBase.abstractRecord typeName typeDefault listOfChilds).Finished)
    (free : path.head.ReferenceFree) (head : path.head = value) (head' : path'.head = written)
    (writesOut : WritesOut (.abstractRecord typeName typeDefault listOfChilds) value written) :
    (makeStorageAbstractRecord path typeName typeDefault listOfChilds).Lockstep Matched Replies
      SameFailure (makeStorageAbstractRecord path' typeName typeDefault listOfChilds) := by
  cases writesOut with
  | same type value =>
      have same : path.head = path'.head := head.trans head'.symm
      cases typed : value.item? (.key "TYPE") with
      | some typeNode =>
          obtain ⟨typePath, typeHead, body⟩ := makeStorageAbstractRecord_typed typeName typeDefault
            listOfChilds (head ▸ typed)
          obtain ⟨typePath', typeHead', body'⟩ := makeStorageAbstractRecord_typed typeName
            typeDefault listOfChilds (head' ▸ typed)
          rw [body, body']
          refine ⟨⟨rfl, .selection _, ?_, ?_⟩, fun reply _ =>
            makeStorageDescendant_lockstep finished free same reply⟩
          · rw [typeHead]
            exact (head ▸ free).item _ typed
          · rw [typeHead, typeHead']
            exact .same _ _
      | none =>
          unfold makeStorageAbstractRecord
          rw [JSONPath.down_none (head ▸ typed), JSONPath.down_none (head' ▸ typed), ← same]
          split
          · exact autoConvertAbstract_lockstep finished free same (inputError_same _ _ _)
          · exact autoConvertAbstract_lockstep finished free same (inputError_same _ _ _)
  | defaultDescendant typeName given found noType noType' asRecord =>
      rw [makeStorageAbstractRecord_default typeName (head ▸ noType) given found,
        makeStorageAbstractRecord_default typeName (head' ▸ noType') given found]
      exact makeStorageRecord_lockstep (finished.child (List.mem_of_find?_eq_some found)) free head
        head' asRecord
  | descendant typeDefault type type' selected found asRecord =>
      rename_i record name descendantIndex members members'
      obtain ⟨typePath, typeHead, body⟩ := @makeStorageAbstractRecord_typed path (.str name)
        typeName typeDefault listOfChilds (head ▸ type)
      obtain ⟨typePath', typeHead', body'⟩ := @makeStorageAbstractRecord_typed path' (.str name)
        typeName typeDefault listOfChilds (head' ▸ type')
      rw [body, body']
      refine ⟨⟨rfl, .selection _, ?_, ?_⟩, fun reply replied => ?_⟩
      · rw [typeHead]
        exact ⟨nofun, fun item below found => by cases item <;> cases found⟩
      · rw [typeHead, typeHead']
        exact .same _ _
      · rw [reply_of_type typeHead selected replied, makeStorageDescendant, makeStorageDescendant,
          found]
        exact makeStorageRecord_lockstep (finished.child (List.mem_of_getElem? found)) free head
          head' asRecord

/-! ### The dispatch -/

theorem makeStorageValue_nonNull (type : TypeBase) (nonNull : path.head ≠ .null) :
    makeStorageValue path type =
      match type with
      | .record record => makeStorageRecord path record
      | .abstractRecord typeName typeDefault listOfChilds =>
          makeStorageAbstractRecord path typeName typeDefault listOfChilds
      | .array typeOfValues lowerBound upperBound =>
          makeStorageArray path typeOfValues lowerBound upperBound
      | .integer lowerBound upperBound => makeStorageInteger path lowerBound upperBound
      | .double lowerBound upperBound => makeStorageDouble path lowerBound upperBound
      | .bool => makeStorageBool path
      | .selection selection => makeStorageSelection path selection
      | .string => makeStorageString path (fun _ => true) .string
      | .fileName fileType =>
          makeStorageString path (TypeBase.matchFileName fileType) (.fileName fileType) := by
  unfold makeStorageValue
  split
  next null => exact absurd null nonNull
  next => rfl

theorem makeStorage_free (type : TypeBase) (free : path.head.ReferenceFree) :
    makeStorage (path, type) = makeStorageValue path type := by
  rw [makeStorage, JSONPath.getRefFromHead_of_free free]

theorem makeStorageValue_lockstep {type : TypeBase} {value written : Node}
    (finished : type.Finished) (free : path.head.ReferenceFree) (head : path.head = value)
    (head' : path'.head = written) (writesOut : WritesOut type value written) :
    (makeStorageValue path type).Lockstep Matched Replies SameFailure
      (makeStorageValue path' type) := by
  by_cases null : value = .null
  · have null' := writesOut.null_iff.mp null
    unfold makeStorageValue
    rw [head, head', null, null']
    exact rfl
  · have null' : written ≠ .null := mt writesOut.null_iff.mpr null
    rw [makeStorageValue_nonNull type (head ▸ null), makeStorageValue_nonNull type (head' ▸ null')]
    cases type with
    | record record => exact makeStorageRecord_lockstep finished free head head' writesOut
    | abstractRecord typeName typeDefault listOfChilds =>
        exact makeStorageAbstractRecord_lockstep finished free head head' writesOut
    | array typeOfValues lowerBound upperBound =>
        cases finished with
        | array lowerBound upperBound type =>
            exact makeStorageArray_lockstep type free head head' writesOut
    | integer lowerBound upperBound =>
        cases writesOut
        exact makeStorageInteger_lockstep lowerBound upperBound (head.trans head'.symm)
    | double lowerBound upperBound =>
        cases writesOut
        exact makeStorageDouble_lockstep lowerBound upperBound (head.trans head'.symm)
    | bool =>
        cases writesOut
        exact makeStorageBool_lockstep (head.trans head'.symm)
    | selection selection =>
        cases writesOut
        exact makeStorageSelection_lockstep selection (head.trans head'.symm)
    | string =>
        cases writesOut
        exact makeStorageString_lockstep _ _ (head.trans head'.symm)
    | fileName fileType =>
        cases writesOut
        exact makeStorageString_lockstep _ _ (head.trans head'.symm)

theorem makeStorage_lockstep (call call' : JSONPath × TypeBase) (matched : Matched call call') :
    (makeStorage call).Lockstep Matched Replies SameFailure (makeStorage call') := by
  obtain ⟨path, type⟩ := call
  obtain ⟨path', type'⟩ := call'
  obtain ⟨same, finished, free, writesOut⟩ := matched
  cases same
  rw [makeStorage_free type free,
    makeStorage_free type (writesOut.referenceFree finished free)]
  exact makeStorageValue_lockstep finished free rfl rfl writesOut

end

/-! ## The outcome -/

/-- At any place of any document the one value is read as the other one is: the reader ends with
the same storage, or with the same failure. -/
def SameReading (type : TypeBase) (value : Node) (type' : TypeBase) (value' : Node) : Prop :=
  ∀ path path' : JSONPath, path.head = value → path'.head = value' →
    ∃ result result', makeStorage.Ends (path, type) result ∧
      makeStorage.Ends (path', type') result' ∧ SameOutcome SameFailure result result'

theorem sameReading_of_lockstep {type type' : TypeBase} {value value' : Node}
    (lockstep : ∀ path path' : JSONPath, path.head = value → path'.head = value' →
      (makeStorage (path, type)).Lockstep Matched Replies SameFailure
        (makeStorage (path', type'))) : SameReading type value type' value' := by
  intro path path' head head'
  obtain ⟨result, ended⟩ := makeStorage_ends path type
  obtain ⟨result', yielded, same⟩ := (Procedure.ends_iff_yields.mp ended).of_lockstep
    makeStorage_lockstep (lockstep path path' head head')
  exact ⟨result, result', ended, Procedure.ends_iff_yields.mpr yielded, same⟩

theorem sameReading_of_writesOut {type : TypeBase} {value written : Node}
    (finished : type.Finished) (free : value.ReferenceFree)
    (writesOut : WritesOut type value written) : SameReading type value type written := by
  apply sameReading_of_lockstep
  rintro path path' rfl rfl
  exact makeStorage_lockstep _ _ ⟨rfl, finished, free, writesOut⟩

theorem sameReading_defaultDescendant {typeName : String} {typeDefault : Default}
    {listOfChilds : List (TypeRecord TypeBase)} {record : TypeRecord TypeBase} {value : Node}
    (finished : (TypeBase.abstractRecord typeName typeDefault listOfChilds).Finished)
    (free : value.ReferenceFree) (nonNull : value ≠ .null) (noObject : value.isObj = false)
    (given : typeDefault.hasValueAtDeclaration = true)
    (found : getDefaultDescendant typeDefault listOfChilds = some record) :
    SameReading (.abstractRecord typeName typeDefault listOfChilds) value (.record record)
      value := by
  apply sameReading_of_lockstep
  intro path path' head head'
  have noType : path.head.item? (.key "TYPE") = none := by
    rw [head]
    cases value with
    | obj members => cases noObject
    | _ => rfl
  rw [makeStorage_free _ (head ▸ free), makeStorage_free _ (head' ▸ free),
    makeStorageValue_nonNull _ (head ▸ nonNull), makeStorageValue_nonNull _ (head' ▸ nonNull)]
  change (makeStorageAbstractRecord path typeName typeDefault listOfChilds).Lockstep Matched
    Replies SameFailure (makeStorageRecord path' record)
  rw [makeStorageAbstractRecord_default typeName noType given found]
  exact makeStorageRecord_lockstep (finished.child (List.mem_of_find?_eq_some found))
    (head ▸ free) head head' (.same _ _)

/-- A value that is converted is read as what it stands for, and so is every value with any
conversions written out in it. -/
theorem autoConversion_writtenOut {type : TypeBase} {value : Node} (finished : type.Finished)
    (free : value.ReferenceFree) (nonNull : value ≠ .null) :
    (∀ typeOfValues lowerBound upperBound, type = .array typeOfValues lowerBound upperBound →
      value.isArray = false → SameReading type value type (.array [value])) ∧
    (∀ record key, type = .record record → record.autoConversionKey = some key →
      value.isObj = false → SameReading type value type (.obj [(key.key, value)])) ∧
    (∀ typeName typeDefault listOfChilds record,
      type = .abstractRecord typeName typeDefault listOfChilds →
      typeDefault.hasValueAtDeclaration = true →
      getDefaultDescendant typeDefault listOfChilds = some record →
      value.isObj = false → SameReading type value (.record record) value) ∧
    ∀ written, WritesOut type value written → SameReading type value type written := by
  have all : ∀ written, WritesOut type value written → SameReading type value type written :=
    fun written writesOut => sameReading_of_writesOut finished free writesOut
  refine ⟨?_, ?_, ?_, all⟩
  · rintro typeOfValues lowerBound upperBound rfl noArray
    exact all _ (.array lowerBound upperBound noArray nonNull (.same _ _))
  · rintro record key rfl autoKey noObject
    exact all _ (.record noObject nonNull autoKey (.same _ _))
  · rintro typeName typeDefault listOfChilds record rfl given found noObject
    exact sameReading_defaultDescendant finished free nonNull noObject given found

def sampleValueKey : TypeKey TypeBase :=
  ⟨"value", .double 0 10, ⟨"OBLIGATORY", .noDefaultObligatoryType⟩⟩

def sampleDescendant : TypeRecord TypeBase :=
  ⟨"Constant", [
    ⟨"TYPE", .selection ⟨"Field_TYPE_selection", [("Constant", 0)]⟩,
      ⟨"Constant", .defaultAtDeclaration⟩⟩, sampleValueKey], some 1⟩

def sampleField : TypeBase :=
  .abstractRecord "Field" ⟨"Constant", .defaultAtDeclaration⟩ [sampleDescendant]

theorem sampleField_finished : sampleField.Finished := by
  refine .abstractRecord _ _ fun record member => ?_
  rw [List.mem_singleton.mp member]
  refine .record (by decide) (by decide) (fun autoKeyIdx auto => ?_) fun key inKeys => ?_
  · cases auto
    exact ⟨by decide, by decide⟩
  · rcases List.mem_pair.mp inKeys with rfl | rfl
    · exact .selection _
    · exact .double _ _

theorem autoConversion_writtenOut_field :
    SameReading (.array sampleField 1 3) (.int 5) (.array sampleField 1 3)
      (.array [.obj [("value", .int 5)]]) := by
  have free : (Node.int 5).ReferenceFree := ⟨nofun, fun item below found => by
    cases item <;> cases found⟩
  have value : WritesOut (.record sampleDescendant) (.int 5) (.obj [("value", .int 5)]) :=
    @WritesOut.record sampleDescendant sampleValueKey (.int 5) (.int 5) rfl nofun rfl (.same _ _)
  exact (autoConversion_writtenOut (.array 1 3 sampleField_finished) free nofun).2.2.2 _
    (.array 1 3 rfl nofun (.defaultDescendant "Field" rfl rfl rfl rfl value))

end JSONToStorage

end Flow123d
