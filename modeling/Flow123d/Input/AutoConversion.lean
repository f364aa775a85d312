import Flow123d.Input.DerivedRecord
import Flow123d.Input.JsonPath

/-!
# Automatic conversion

Where an array, a record or an abstract record is expected, another value can stand for the one
that is written out in full.
-/

set_option autoImplicit false

namespace Flow123d

/-! ## Finished types -/

def TypeRecord.autoConversionKey {T : Type} (record : TypeRecord T) : Option (TypeKey T) :=
  record.autoConversionKeyIdx.bind fun autoKeyIdx => record.keys[autoKeyIdx]?

/-- What `declare_key` and `finish` check of the keys. -/
inductive TypeBase.Finished : TypeBase → Prop
  | record {record : TypeRecord TypeBase}
      (distinct : (record.keys.map TypeKey.key).Nodup)
      (identifiers : ∀ key ∈ record.keys, key.key = "TYPE" ∨ isValidIdentifier key.key = true)
      (conversion : ∀ autoKeyIdx, record.autoConversionKeyIdx = some autoKeyIdx →
        autoKeyIdx < record.keys.length ∧ ∀ key ∈ record.keys.zipIdx, key.2 ≠ autoKeyIdx →
          key.1.dflt.hasValueAtDeclaration = true)
      (types : ∀ key ∈ record.keys, Finished key.type) : Finished (.record record)
  | abstractRecord (typeName : String) (typeDefault : Default)
      {listOfChilds : List (TypeRecord TypeBase)}
      (types : ∀ record ∈ listOfChilds, Finished (.record record)) :
      Finished (.abstractRecord typeName typeDefault listOfChilds)
  | array {typeOfValues : TypeBase} (lowerBound upperBound : ℕ)
      (type : Finished typeOfValues) : Finished (.array typeOfValues lowerBound upperBound)
  | integer (lowerBound upperBound : ℤ) : Finished (.integer lowerBound upperBound)
  | double (lowerBound upperBound : ℚ) : Finished (.double lowerBound upperBound)
  | bool : Finished .bool
  | selection (selection : TypeSelection) : Finished (.selection selection)
  | string : Finished .string
  | fileName (type : FileType) : Finished (.fileName type)

/-! ## Writing out -/

namespace Node

def isObj : Node → Bool
  | .obj _ => true
  | _ => false

def isArray : Node → Bool
  | .array _ => true
  | _ => false

/-- There is no reference in the value. -/
inductive ReferenceFree : Node → Prop
  | intro {node : Node} (noReference : ∀ value, node ≠ .obj [("REF", value)])
      (below : ∀ item value, node.item? item = some value → ReferenceFree value) :
      ReferenceFree node

end Node

/-- The value is written out at some places, at any depth: a value that is not an array as an array
with one element, one that is not a record as a record with the key for conversions, and one of an
abstract record as that of its descendant. -/
inductive WritesOut : TypeBase → Node → Node → Prop
  | same (type : TypeBase) (value : Node) : WritesOut type value value
  | array {typeOfValues : TypeBase} (lowerBound upperBound : ℕ) {value written : Node}
      (noArray : value.isArray = false) (nonNull : value ≠ .null)
      (item : WritesOut typeOfValues value written) :
      WritesOut (.array typeOfValues lowerBound upperBound) value (.array [written])
  | items {typeOfValues : TypeBase} (lowerBound upperBound : ℕ) {items items' : List Node}
      (length : items.length = items'.length)
      (each : ∀ (idx : ℕ) (value written : Node), items[idx]? = some value →
        items'[idx]? = some written → WritesOut typeOfValues value written) :
      WritesOut (.array typeOfValues lowerBound upperBound) (.array items) (.array items')
  | record {record : TypeRecord TypeBase} {key : TypeKey TypeBase} {value written : Node}
      (noObject : value.isObj = false) (nonNull : value ≠ .null)
      (autoKey : record.autoConversionKey = some key)
      (member : WritesOut key.type value written) :
      WritesOut (.record record) value (.obj [(key.key, written)])
  | members {record : TypeRecord TypeBase} {members members' : List (String × Node)}
      (names : members.map Prod.fst = members'.map Prod.fst)
      (unused : ∀ name, (∀ key ∈ record.keys, key.key ≠ name) →
        members.lookup name = members'.lookup name)
      (each : ∀ key ∈ record.keys, ∀ value written, members.lookup key.key = some value →
        members'.lookup key.key = some written → WritesOut key.type value written) :
      WritesOut (.record record) (.obj members) (.obj members')
  | defaultDescendant (typeName : String) {typeDefault : Default}
      {listOfChilds : List (TypeRecord TypeBase)} {record : TypeRecord TypeBase}
      {value written : Node} (given : typeDefault.hasValueAtDeclaration = true)
      (found : getDefaultDescendant typeDefault listOfChilds = some record)
      (noType : value.item? (.key "TYPE") = none)
      (noType' : written.item? (.key "TYPE") = none)
      (asRecord : WritesOut (.record record) value written) :
      WritesOut (.abstractRecord typeName typeDefault listOfChilds) value written
  | descendant {typeName : String} (typeDefault : Default)
      {listOfChilds : List (TypeRecord TypeBase)} {record : TypeRecord TypeBase} {name : String}
      {descendantIndex : ℤ} {members members' : List (String × Node)}
      (type : members.lookup "TYPE" = some (.str name))
      (type' : members'.lookup "TYPE" = some (.str name))
      (selected : (typeSelection typeName listOfChilds).nameToInt name = some descendantIndex)
      (found : listOfChilds[descendantIndex.toNat]? = some record)
      (asRecord : WritesOut (.record record) (.obj members) (.obj members')) :
      WritesOut (.abstractRecord typeName typeDefault listOfChilds) (.obj members) (.obj members')

theorem WritesOut.null_iff {type : TypeBase} {value written : Node}
    (writesOut : WritesOut type value written) : value = .null ↔ written = .null := by
  induction writesOut with
  | same type value => rfl
  | array lowerBound upperBound noArray nonNull item ih => exact iff_of_false nonNull nofun
  | items lowerBound upperBound length each ih => exact iff_of_false nofun nofun
  | record noObject nonNull autoKey member ih => exact iff_of_false nonNull nofun
  | members names unused each ih => exact iff_of_false nofun nofun
  | defaultDescendant typeName given found noType noType' asRecord ih => exact ih
  | descendant typeDefault type type' selected found asRecord ih => exact ih

/-! ## References -/

theorem lookup_eq_none_iff_names (members : List (String × Node)) (name : String) :
    members.lookup name = none ↔ name ∉ members.map Prod.fst := by
  rw [List.lookup_eq_none_iff, List.mem_map]
  constructor
  · rintro absent ⟨member, inMembers, same⟩
    exact bne_iff_ne.mp (absent member inMembers) same.symm
  · intro absent member inMembers
    exact bne_iff_ne.mpr fun same => absent ⟨member, inMembers, same.symm⟩

theorem lookup_eq_none_iff_of_names {members members' : List (String × Node)}
    (names : members.map Prod.fst = members'.map Prod.fst) (name : String) :
    members.lookup name = none ↔ members'.lookup name = none := by
  rw [lookup_eq_none_iff_names, lookup_eq_none_iff_names, names]

theorem lookup_singleton (name other : String) (value : Node) :
    [(name, value)].lookup other = if other = name then some value else none := by
  rw [List.lookup_cons]
  by_cases same : other = name
  · rw [if_pos same, same, beq_self_eq_true]
  · rw [if_neg same, beq_eq_false_iff_ne.mpr same]
    rfl

theorem not_isValidIdentifier_ref : isValidIdentifier "REF" = false := by decide

theorem autoConversionKey_mem {record : TypeRecord TypeBase} {key : TypeKey TypeBase}
    (autoKey : record.autoConversionKey = some key) : key ∈ record.keys := by
  obtain ⟨autoKeyIdx, _, found⟩ := Option.bind_eq_some_iff.mp autoKey
  exact List.mem_of_getElem? found

theorem TypeBase.Finished.ne_ref {record : TypeRecord TypeBase}
    (finished : (TypeBase.record record).Finished) {key : TypeKey TypeBase}
    (member : key ∈ record.keys) : key.key ≠ "REF" := by
  intro same
  cases finished with
  | record distinct identifiers conversion types =>
      cases identifiers key member with
      | inl isType => rw [same] at isType; exact absurd isType (by decide)
      | inr valid => rw [same, not_isValidIdentifier_ref] at valid; cases valid

theorem TypeBase.Finished.key {record : TypeRecord TypeBase}
    (finished : (TypeBase.record record).Finished) {key : TypeKey TypeBase}
    (member : key ∈ record.keys) : key.type.Finished := by
  cases finished with
  | record distinct identifiers conversion types => exact types key member

theorem TypeBase.Finished.child {typeName : String} {typeDefault : Default}
    {listOfChilds : List (TypeRecord TypeBase)}
    (finished : (TypeBase.abstractRecord typeName typeDefault listOfChilds).Finished)
    {record : TypeRecord TypeBase} (member : record ∈ listOfChilds) :
    (TypeBase.record record).Finished := by
  cases finished with
  | abstractRecord typeName typeDefault types => exact types record member

theorem Node.ReferenceFree.item {node value : Node} (free : node.ReferenceFree) (item : PathItem)
    (found : node.item? item = some value) : value.ReferenceFree := by
  cases free with
  | intro noReference below => exact below item value found

/-- Writing out makes no references: no key has the name `REF`. -/
theorem WritesOut.referenceFree {type : TypeBase} {value written : Node}
    (writesOut : WritesOut type value written) (finished : type.Finished)
    (free : value.ReferenceFree) : written.ReferenceFree := by
  induction writesOut with
  | same type value => exact free
  | array lowerBound upperBound noArray nonNull item ih =>
      cases finished with
      | array lowerBound upperBound type =>
          refine ⟨nofun, fun place below found => ?_⟩
          cases place with
          | key name => cases found
          | index index =>
              cases index with
              | zero =>
                  cases found
                  exact ih type free
              | succ index => cases found
  | items lowerBound upperBound length each ih =>
      rename_i items items'
      cases finished with
      | array lowerBound upperBound type =>
          refine ⟨nofun, fun place below found => ?_⟩
          cases place with
          | key name => cases found
          | index index =>
              obtain ⟨inside, same⟩ := List.getElem?_eq_some_iff.mp found
              have before : items[index]? = some (items[index]) := List.getElem?_eq_getElem _
              exact ih index _ below before found type
                (free.item (.index index) before)
  | record noObject nonNull autoKey member ih =>
      rename_i record key value written
      have inKeys := autoConversionKey_mem autoKey
      refine ⟨fun other same => ?_, fun place below found => ?_⟩
      · have named : key.key = "REF" := by
          injection same with members
          injection members with pair
          exact congrArg Prod.fst pair
        exact finished.ne_ref inKeys named
      · cases place with
        | index index => cases found
        | key name =>
            change [(key.key, written)].lookup name = some below at found
            rw [lookup_singleton] at found
            split at found
            · cases found
              exact ih (finished.key inKeys) free
            · cases found
  | members names unused each ih =>
      rename_i record members members'
      refine ⟨fun other same => ?_, fun place below found => ?_⟩
      · injection same with alone
        rw [alone] at names
        obtain ⟨member, single, name⟩ := List.map_eq_singleton_iff.mp names
        have alone' : members = [("REF", member.2)] := by
          rw [single, ← show member.1 = "REF" from name]
        cases free with
        | intro noReference below => exact noReference member.2 (congrArg Node.obj alone')
      · cases place with
        | index index => cases found
        | key name =>
            change members'.lookup name = some below at found
            by_cases used : ∃ key ∈ record.keys, key.key = name
            · obtain ⟨key, inKeys, rfl⟩ := used
              cases before : members.lookup key.key with
              | none =>
                  rw [(lookup_eq_none_iff_of_names names key.key).mp before] at found
                  cases found
              | some value =>
                  exact ih key inKeys value below before found (finished.key inKeys)
                    (free.item (.key key.key) before)
            · have same := unused name fun key inKeys named => used ⟨key, inKeys, named⟩
              exact free.item (.key name) (same.trans found)
  | defaultDescendant typeName given found noType noType' asRecord ih =>
      exact ih (finished.child (List.mem_of_find?_eq_some found)) free
  | descendant typeDefault type type' selected found asRecord ih =>
      exact ih (finished.child (List.mem_of_getElem? found)) free

end Flow123d
