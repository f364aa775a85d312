import Flow123d.Input.InputType
import Flow123d.Library.Fold
import Mathlib.Data.List.Nodup
import Mathlib.Data.List.InsertIdx

/-!
# Keys of derived records

The declaration of the keys of a record and their merge with the keys of its abstract parent.
-/

set_option autoImplicit false

namespace Flow123d

open Flow123d.Library

/-- `boost::algorithm::trim`. -/
def trim (value : String) : String :=
  String.ofList ((value.toList.dropWhile isSpace).reverse.dropWhile isSpace).reverse

/-- The default given by a value at the declaration. -/
def Default.ofValue (value : String) : Default := ⟨trim value, .defaultAtDeclaration⟩

/-- What `declare_key` is called with. -/
structure KeyDeclaration (T : Type) where
  key : String
  type : T
  dflt : Default
  description : String

/-- `Record::Key`; `type` stands for the type and the pointer to a type that is not finished. -/
structure RecordKey (T : Type) where
  keyIndex : ℕ
  key : String
  description : String
  type : T
  dflt : Default
  derived : Bool

structure RecordData (T : Type) where
  typeName : String
  keys : List (RecordKey T)
  keyToIndex : String → Option ℕ
  finished : Bool
  derived : Bool

variable {T : Type}

def RecordKey.declaration (k : RecordKey T) : KeyDeclaration T :=
  ⟨k.key, k.type, k.dflt, k.description⟩

def KeyDeclaration.tmpKey (declared : KeyDeclaration T) (keyIndex : ℕ) : RecordKey T :=
  ⟨keyIndex, declared.key, declared.description, declared.type, declared.dflt, false⟩

def isValidIdentifier (key : String) : Bool :=
  key.toList.all fun char => char.isLower || char.isDigit || char = '_'

namespace RecordData

def new (typeName : String) : RecordData T := ⟨typeName, [], fun _ => none, false, false⟩

def declareKey (data : RecordData T) (declared : KeyDeclaration T) :
    Except String (RecordData T) :=
  if data.finished then
    .error (s!"Declaration of key: {declared.key} in finished Record type: " ++
      s!"{data.typeName}\n")
  else if declared.key ≠ "TYPE" ∧ ¬ isValidIdentifier declared.key then
    .error (s!"Invalid key identifier {declared.key} in declaration of Record type: " ++
      s!"{data.typeName}\n")
  else
    match data.keyToIndex declared.key with
    | none =>
        .ok { data with
          keyToIndex := Function.update data.keyToIndex declared.key (some data.keys.length)
          keys := data.keys ++ [declared.tmpKey data.keys.length] }
    | some index =>
        if data.keys[index]?.map RecordKey.derived = some true then
          .ok { data with keys := data.keys.set index (declared.tmpKey index) }
        else
          .error (s!"Re-declaration of the key: {declared.key} in Record type: " ++
            s!"{data.typeName}\n")

/-- The keys so far, the map from their names, and how many keys of the parent are inserted. -/
structure Merging (T : Type) where
  keys : List (RecordKey T)
  keyToIndex : String → Option ℕ
  nInserted : ℕ

/-- The keys of the parent are inserted one after the other at the beginning. -/
def Merging.insert (state : Merging T) (keyHash : String) (tmpKey : RecordKey T) : Merging T :=
  { keys := state.keys.insertIdx state.nInserted tmpKey
    keyToIndex := Function.update state.keyToIndex keyHash (some tmpKey.keyIndex)
    nInserted := state.nInserted + 1 }

/-- The key of the parent, with the name of the record as the default of `TYPE`. -/
def inheritedKey (typeName : String) (parentKey : RecordKey T) : RecordKey T :=
  { parentKey with
    derived := true
    dflt := if parentKey.key = "TYPE" then Default.ofValue typeName else parentKey.dflt }

/-- The key of the record in the place of the parent's. -/
def ownKey (parentKey k : RecordKey T) : RecordKey T := { k with
  keyIndex := parentKey.keyIndex
  derived := false }

/-- A duplicate is marked by an empty name. -/
def Merging.copyKey (typeName : String) (state : Merging T) (parentKey : RecordKey T) :
    Merging T :=
  match state.keyToIndex parentKey.key with
  | none => state.insert parentKey.key (inheritedKey typeName parentKey)
  | some index =>
      match state.keys[index + state.nInserted]? with
      | none => state.insert parentKey.key (inheritedKey typeName parentKey)
      | some k =>
          let keys := state.keys.set (index + state.nInserted) { k with key := "" }
          { state with keys }.insert parentKey.key (ownKey parentKey k)

/-- The loop from the index `i` on: marked keys are erased, the others get their index. -/
def eraseMarked (i : ℕ) (keyToIndex : String → Option ℕ) :
    List (RecordKey T) → List (RecordKey T) × (String → Option ℕ)
  | [] => ([], keyToIndex)
  | k :: rest =>
      if k.key = "" then eraseMarked i keyToIndex rest
      else
        let (keys, table) :=
          eraseMarked (i + 1) (Function.update keyToIndex k.key (some i)) rest
        ({ k with keyIndex := i } :: keys, table)

def makeDeriveFrom (data parent : RecordData T) : RecordData T :=
  if data.derived then data
  else
    let merged := parent.keys.foldl (Merging.copyKey data.typeName) ⟨data.keys, data.keyToIndex, 0⟩
    let (keys, keyToIndex) := eraseMarked 0 merged.keyToIndex merged.keys
    { data with keys, keyToIndex, derived := true }

/-! ## Records that can be declared -/

/-- The keys of a record that is not derived yet. -/
def IsDeclared (data : RecordData T) : Prop :=
  ∃ typeName declarations, List.foldlM declareKey (new typeName) declarations = .ok data

/-- An abstract record declares `TYPE` first and can be derived from another one. -/
inductive IsAbstract : RecordData T → Prop
  | declared {data : RecordData T} (typeName : String) (declaration : KeyDeclaration T)
      (declarations : List (KeyDeclaration T)) (isType : declaration.key = "TYPE")
      (accepted : List.foldlM declareKey (new typeName) (declaration :: declarations) = .ok data) :
      IsAbstract data
  | derived {data parent : RecordData T} (own : IsAbstract data) (above : IsAbstract parent) :
      IsAbstract (data.makeDeriveFrom parent)

def names (data : RecordData T) : List String := data.keys.map RecordKey.key

/-- The merge of the keys of the parent and the record. -/
structure Merged (parent data result : RecordData T) : Prop where
  order : result.names = parent.names ++ data.names.filter (· ∉ parent.names)
  once : result.names.Nodup
  own : ∀ k ∈ data.keys, k.declaration ∈ result.keys.map RecordKey.declaration
  inherited : ∀ p ∈ parent.keys, p.key ∉ data.names → ∃ r ∈ result.keys,
    r.key = p.key ∧ r.type = p.type ∧ r.description = p.description ∧
      (p.key ≠ "TYPE" → r.dflt = p.dflt)
  typeDefault : ∀ r ∈ result.keys, r.key = "TYPE" →
    r.dflt = ⟨data.typeName, .defaultAtDeclaration⟩
  indices : ∀ (i : ℕ) (r : RecordKey T), result.keys[i]? = some r → r.keyIndex = i
  table : ∀ name i, result.keyToIndex name = some i ↔ result.names[i]? = some name

/-! ## Declared keys -/

/-- The keys have different names, and the map gives their places. -/
structure WellIndexed (data : RecordData T) : Prop where
  distinct : data.names.Nodup
  table : ∀ name i, data.keyToIndex name = some i ↔ data.names[i]? = some name
  underived : ∀ k ∈ data.keys, k.derived = false

theorem wellIndexed_new (typeName : String) : (new typeName : RecordData T).WellIndexed where
  distinct := List.nodup_nil
  table name i := by simp [new, names]
  underived := nofun

theorem WellIndexed.keyToIndex_eq_none {data : RecordData T} (valid : data.WellIndexed)
    {name : String} : data.keyToIndex name = none ↔ name ∉ data.names := by
  rw [Option.eq_none_iff_forall_ne_some, List.mem_iff_getElem?, not_exists]
  exact forall_congr' fun i => not_congr (valid.table name i)

/-- A key that is accepted is new, and it is appended. -/
theorem declareKey_cases {data after : RecordData T} {declared : KeyDeclaration T}
    (valid : data.WellIndexed) (accepted : data.declareKey declared = .ok after) :
    declared.key ∉ data.names ∧ after = { data with
      keyToIndex := Function.update data.keyToIndex declared.key (some data.keys.length)
      keys := data.keys ++ [declared.tmpKey data.keys.length] } := by
  unfold declareKey at accepted
  split_ifs at accepted with finished identifier
  split at accepted
  case h_1 absent =>
    cases accepted
    exact ⟨valid.keyToIndex_eq_none.mp absent, rfl⟩
  case h_2 index found =>
    split_ifs at accepted with derived
    obtain ⟨k, place, isDerived⟩ := Option.map_eq_some_iff.mp derived
    rw [valid.underived k (List.mem_of_getElem? place)] at isDerived
    cases isDerived

theorem WellIndexed.declareKey {data after : RecordData T} {declared : KeyDeclaration T}
    (valid : data.WellIndexed) (accepted : data.declareKey declared = .ok after) :
    after.WellIndexed := by
  obtain ⟨unused, rfl⟩ := declareKey_cases valid accepted
  have extended : ∀ keyToIndex, ({ data with
      keyToIndex
      keys := data.keys ++ [declared.tmpKey data.keys.length] } : RecordData T).names =
        data.names ++ [declared.key] := fun _ => by simp [names, KeyDeclaration.tmpKey]
  refine ⟨?_, ?_, ?_⟩
  · rw [extended]
    exact List.nodup_append.mpr ⟨valid.distinct, List.nodup_singleton _, by
      intro name member other single
      rw [List.mem_singleton.mp single]
      exact fun same => unused (same ▸ member)⟩
  · intro name i
    rw [extended]
    change Function.update _ _ _ _ = _ ↔ _
    have length : data.names.length = data.keys.length := List.length_map _
    by_cases here : name = declared.key
    · subst here
      rw [Function.update_self, Option.some_inj]
      constructor
      · rintro rfl
        rw [← length, List.getElem?_concat_length]
      · intro place
        by_contra other
        have inside : i < data.names.length := by
          have bound := (List.getElem?_eq_some_iff.mp place).1
          rw [List.length_append, List.length_singleton] at bound
          omega
        rw [List.getElem?_append_left inside] at place
        exact unused (List.mem_of_getElem? place)
    · rw [Function.update_of_ne here, valid.table]
      constructor
      · intro place
        have inside := (List.getElem?_eq_some_iff.mp place).1
        rwa [List.getElem?_append_left inside]
      · intro place
        by_cases inside : i < data.names.length
        · rwa [List.getElem?_append_left inside] at place
        · rw [List.getElem?_append_right (not_lt.mp inside)] at place
          exact absurd (List.mem_singleton.mp (List.mem_of_getElem? place)) here
  · intro k member
    obtain before | last := List.mem_append.mp member
    · exact valid.underived k before
    · rw [List.mem_singleton.mp last]
      rfl

/-! ## The loop over the keys of the parent -/

def copied (data : RecordData T) (p : RecordKey T) : RecordKey T :=
  match data.keys.find? (·.key = p.key) with
  | some k => ownKey p k
  | none => inheritedKey data.typeName p

def marked (names : List String) (k : RecordKey T) : RecordKey T :=
  if k.key ∈ names then { k with key := "" } else k

/-- The keys of the parent that are `seen` are copied, and their duplicates are marked. -/
structure MergedUpTo (data : RecordData T) (seen : List (RecordKey T)) (state : Merging T) :
    Prop where
  keys : state.keys =
    seen.map data.copied ++ data.keys.map (marked (seen.map RecordKey.key))
  count : state.nInserted = seen.length
  table : ∀ name, name ∉ seen.map RecordKey.key → state.keyToIndex name = data.keyToIndex name

theorem find?_key {keys : List (RecordKey T)} (distinct : (keys.map RecordKey.key).Nodup)
    {k : RecordKey T} (member : k ∈ keys) : keys.find? (·.key = k.key) = some k := by
  cases found : keys.find? (·.key = k.key) with
  | none =>
      have absent := List.find?_eq_none.mp found k member
      simp at absent
  | some other =>
      have same : other.key = k.key := by simpa using List.find?_some found
      rw [List.inj_on_of_nodup_map distinct (List.mem_of_find?_eq_some found) member same]

theorem insertIdx_length {α : Type} (front back : List α) (item : α) :
    (front ++ back).insertIdx front.length item = front ++ item :: back := by
  induction front with
  | nil => rfl
  | cons first front ih =>
      rw [List.length_cons, List.cons_append, List.insertIdx_succ_cons, ih, List.cons_append]

section Copy

variable {data : RecordData T} {seen : List (RecordKey T)} {state : Merging T} {p : RecordKey T}

theorem marked_append_of_ne {done : List String} {name : String} {k : RecordKey T}
    (other : k.key ≠ name) : marked (done ++ [name]) k = marked done k := by
  simp [marked, other]

/-- Marking the duplicate of the next key of the parent. -/
theorem set_marked {done : List String} (distinct : data.names.Nodup) {index : ℕ}
    {k : RecordKey T} (place : data.keys[index]? = some k) :
    (data.keys.map (marked done)).set index { k with key := "" } =
      data.keys.map (marked (done ++ [k.key])) := by
  have inside := (List.getElem?_eq_some_iff.mp place).1
  apply List.ext_getElem?
  intro j
  rw [List.getElem?_map]
  by_cases here : index = j
  · subst here
    rw [List.getElem?_set_self (by simpa using inside), place]
    simp [marked]
  · rw [List.getElem?_set_ne here, List.getElem?_map]
    cases other : data.keys[j]? with
    | none => rfl
    | some k' =>
        have different : k'.key ≠ k.key := by
          intro same
          have first : data.names[index]? = some k.key := by
            rw [names, List.getElem?_map, place]
            rfl
          have second : data.names[j]? = some k.key := by
            rw [names, List.getElem?_map, other, ← same]
            rfl
          obtain ⟨bound1, value1⟩ := List.getElem?_eq_some_iff.mp first
          obtain ⟨bound2, value2⟩ := List.getElem?_eq_some_iff.mp second
          exact here ((distinct.getElem_inj_iff).mp (value1.trans value2.symm))
        rw [Option.map_some, Option.map_some, marked_append_of_ne different]

theorem MergedUpTo.insert {keyHash : String} {tmpKey : RecordKey T} (same : keyHash = p.key)
    (copy : tmpKey = data.copied p)
    (keys : state.keys = seen.map data.copied ++
      data.keys.map (marked ((seen ++ [p]).map RecordKey.key)))
    (count : state.nInserted = seen.length)
    (table : ∀ name, name ∉ seen.map RecordKey.key →
      state.keyToIndex name = data.keyToIndex name) :
    MergedUpTo data (seen ++ [p]) (state.insert keyHash tmpKey) := by
  subst same copy
  refine ⟨?_, ?_, ?_⟩
  · have front : seen.length = (seen.map data.copied).length := (List.length_map _).symm
    change state.keys.insertIdx state.nInserted _ = _
    rw [count, keys, front, insertIdx_length, List.map_append (f := data.copied)]
    exact (List.append_cons ..)
  · change state.nInserted + 1 = _
    rw [count, List.length_append, List.length_singleton]
  · intro name absent
    rw [List.map_append, List.mem_append, not_or] at absent
    have other : name ≠ p.key := fun same => absent.2 (by simp [same])
    exact (Function.update_of_ne other _ _).trans (table name absent.1)

theorem MergedUpTo.copyKey (valid : data.WellIndexed) (merged : MergedUpTo data seen state)
    (unseen : p.key ∉ seen.map RecordKey.key) :
    MergedUpTo data (seen ++ [p]) (state.copyKey data.typeName p) := by
  have looked := merged.table p.key unseen
  unfold Merging.copyKey
  rw [looked]
  cases found : data.keyToIndex p.key with
  | none =>
      have absent := valid.keyToIndex_eq_none.mp found
      have other : ∀ k ∈ data.keys, k.key ≠ p.key := fun k member same =>
        absent (same ▸ List.mem_map_of_mem member)
      refine .insert rfl ?_ ?_ merged.count merged.table
      · have nothing : data.keys.find? (·.key = p.key) = none := by
          rw [List.find?_eq_none]
          simpa using other
        rw [copied, nothing]
      · rw [merged.keys, List.map_append]
        congr 1
        apply List.map_congr_left
        intro k member
        exact (marked_append_of_ne (other k member)).symm
  | some index =>
      obtain ⟨k, place, name⟩ : ∃ k, data.keys[index]? = some k ∧ k.key = p.key :=
        Option.map_eq_some_iff.mp (by rw [← List.getElem?_map]; exact (valid.table _ _).mp found)
      have front : seen.length = (seen.map data.copied).length := (List.length_map _).symm
      have unmarked : marked (seen.map RecordKey.key) k = k := by
        rw [marked, if_neg (by rwa [name])]
      have taken : state.keys[index + state.nInserted]? = some k := by
        rw [merged.keys, merged.count, List.getElem?_append_right (by omega), front,
          Nat.add_sub_cancel, List.getElem?_map, place, Option.map_some, unmarked]
      simp only [taken]
      refine .insert rfl ?_ ?_ merged.count merged.table
      · have here : data.keys.find? (·.key = p.key) = some k := by
          rw [← name]
          exact find?_key valid.distinct (List.mem_of_getElem? place)
        rw [copied, here]
      · change state.keys.set _ _ = _
        rw [merged.keys, merged.count, front, Nat.add_comm, List.set_append_right _ _ (by omega),
          Nat.add_sub_cancel_left, set_marked valid.distinct place, name, List.map_append]
        rfl

theorem foldl_copyKey {parent : RecordData T} (valid : data.WellIndexed)
    (distinct : parent.names.Nodup) :
    MergedUpTo data parent.keys
      (parent.keys.foldl (Merging.copyKey data.typeName) ⟨data.keys, data.keyToIndex, 0⟩) := by
  refine foldl_preserves _ _ _ (MergedUpTo data) ⟨?_, rfl, fun _ _ => rfl⟩ ?_
  · have unmarked : ∀ k : RecordKey T, marked [] k = k := fun k => if_neg List.not_mem_nil
    exact ((List.map_congr_left fun k _ => unmarked k).trans (List.map_id _)).symm
  · intro seen p remaining state split merged
    apply merged.copyKey valid
    intro before
    rw [names, split, List.map_append, List.map_cons] at distinct
    exact (List.nodup_append.mp distinct).2.2 _ before _ List.mem_cons_self rfl

end Copy

/-! ## The loop that erases the marked keys -/

def kept (keys : List (RecordKey T)) : List (RecordKey T) := keys.filter fun k => k.key ≠ ""

/-- The kept keys are numbered from `i` on. -/
structure Erased (i : ℕ) (table : String → Option ℕ) (keys : List (RecordKey T))
    (result : List (RecordKey T) × (String → Option ℕ)) : Prop where
  declarations : result.1.map RecordKey.declaration = (kept keys).map RecordKey.declaration
  indices : ∀ (j : ℕ) (r : RecordKey T), result.1[j]? = some r → r.keyIndex = i + j
  others : ∀ name, name ∉ (kept keys).map RecordKey.key → result.2 name = table name
  entries : ((kept keys).map RecordKey.key).Nodup → ∀ (j : ℕ) (name : String),
    ((kept keys).map RecordKey.key)[j]? = some name → result.2 name = some (i + j)

theorem eraseMarked_spec (i : ℕ) (table : String → Option ℕ) (keys : List (RecordKey T)) :
    Erased i table keys (eraseMarked i table keys) := by
  induction keys generalizing i table with
  | nil => exact ⟨rfl, nofun, fun _ _ => rfl, nofun⟩
  | cons k rest ih =>
      unfold eraseMarked
      by_cases empty : k.key = ""
      · have dropped : kept (k :: rest) = kept rest :=
          List.filter_cons_of_neg (by simpa using empty)
        rw [if_pos empty]
        obtain ⟨declarations, indices, others, entries⟩ := ih i table
        rw [← dropped] at declarations others entries
        exact ⟨declarations, indices, others, entries⟩
      · have stays : kept (k :: rest) = k :: kept rest :=
          List.filter_cons_of_pos (by simpa using empty)
        rw [if_neg empty]
        obtain ⟨declarations, indices, others, entries⟩ :=
          ih (i + 1) (Function.update table k.key (some i))
        refine ⟨?_, ?_, ?_, ?_⟩
        · rw [stays, List.map_cons]
          exact congrArg (k.declaration :: ·) declarations
        · intro j r place
          cases j with
          | zero =>
              cases place
              rfl
          | succ j =>
              rw [indices j r place]
              omega
        · intro name absent
          rw [stays, List.map_cons, List.mem_cons, not_or] at absent
          exact (others name absent.2).trans (Function.update_of_ne absent.1 _ _)
        · intro distinct j name place
          rw [stays, List.map_cons] at distinct place
          obtain ⟨unused, distinct⟩ := List.nodup_cons.mp distinct
          cases j with
          | zero =>
              cases place
              exact (others k.key unused).trans (Function.update_self ..)
          | succ j =>
              rw [entries distinct j name place]
              congr 1
              omega

/-! ## The merged keys -/

/-- The keys in the order of the merge, before the marked ones are erased. -/
def mergedKeys (data parent : RecordData T) : List (RecordKey T) :=
  parent.keys.map data.copied ++ data.keys.map (marked parent.names)

theorem key_copied (data : RecordData T) (p : RecordKey T) : (data.copied p).key = p.key := by
  unfold copied
  cases found : data.keys.find? (·.key = p.key) with
  | none => rfl
  | some k =>
      have same := List.find?_some found
      simpa [ownKey] using same

/-- The names that are kept: those of the parent, then the new ones of the record. -/
theorem names_kept (data parent : RecordData T) :
    (kept (data.mergedKeys parent)).map RecordKey.key =
      (parent.names ++ data.names.filter (· ∉ parent.names)).filter (· ≠ "") := by
  have copies : (kept (parent.keys.map data.copied)).map RecordKey.key =
      parent.names.filter (· ≠ "") := by
    simp only [kept, names, List.filter_map, List.map_map, Function.comp_def, key_copied]
  have rest : ∀ keys : List (RecordKey T),
      (kept (keys.map (marked parent.names))).map RecordKey.key =
        ((keys.map RecordKey.key).filter (· ∉ parent.names)).filter (· ≠ "") := by
    intro keys
    induction keys with
    | nil => rfl
    | cons k keys ih =>
        by_cases taken : k.key ∈ parent.names
        · simpa [kept, marked, taken] using ih
        · have unmarked : marked parent.names k = k := if_neg taken
          by_cases empty : k.key = ""
          · rw [List.map_cons, unmarked, kept, List.filter_cons_of_neg (by simpa using empty),
              List.map_cons, List.filter_cons_of_pos (by simpa using taken),
              List.filter_cons_of_neg (by simpa using empty)]
            exact ih
          · simpa [kept, unmarked, taken, empty] using ih
  rw [mergedKeys, kept, List.filter_append, List.map_append, List.filter_append]
  exact congrArg₂ (· ++ ·) copies (rest data.keys)

/-- What `make_derive_from` makes of the keys, whatever their names. -/
structure Derived (parent data result : RecordData T) : Prop where
  declarations : result.keys.map RecordKey.declaration =
    (kept (data.mergedKeys parent)).map RecordKey.declaration
  order : result.names =
    (parent.names ++ data.names.filter (· ∉ parent.names)).filter (· ≠ "")
  distinct : result.names.Nodup
  indices : ∀ (j : ℕ) (r : RecordKey T), result.keys[j]? = some r → r.keyIndex = j
  table : ∀ name, (name = "" → "" ∉ parent.names ∧ "" ∉ data.names) →
    ∀ j, result.keyToIndex name = some j ↔ result.names[j]? = some name

theorem nodup_merged {data parent : RecordData T} (own : data.names.Nodup)
    (distinct : parent.names.Nodup) :
    (parent.names ++ data.names.filter (· ∉ parent.names)).Nodup := by
  refine List.nodup_append.mpr ⟨distinct, own.filter _, ?_⟩
  rintro name above other new rfl
  have absent := (List.mem_filter.mp new).2
  exact of_decide_eq_true absent above

theorem map_key_eq {keys keys' : List (RecordKey T)}
    (same : keys.map RecordKey.declaration = keys'.map RecordKey.declaration) :
    keys.map RecordKey.key = keys'.map RecordKey.key := by
  have names := congrArg (List.map KeyDeclaration.key) same
  rwa [List.map_map, List.map_map] at names

theorem makeDeriveFrom_derived {data parent : RecordData T} (valid : data.WellIndexed)
    (underived : data.derived = false) (distinct : parent.names.Nodup) :
    Derived parent data (data.makeDeriveFrom parent) := by
  let state := parent.keys.foldl (Merging.copyKey data.typeName) ⟨data.keys, data.keyToIndex, 0⟩
  have merged : MergedUpTo data parent.keys state := foldl_copyKey valid distinct
  have erased := eraseMarked_spec 0 state.keyToIndex (data.mergedKeys parent)
  have result : data.makeDeriveFrom parent = { data with
      keys := (eraseMarked 0 state.keyToIndex (data.mergedKeys parent)).1
      keyToIndex := (eraseMarked 0 state.keyToIndex (data.mergedKeys parent)).2
      derived := true } := by
    unfold makeDeriveFrom
    rw [if_neg (by simp [underived])]
    have keys : state.keys = data.mergedKeys parent := merged.keys
    rw [← keys]
  generalize eraseMarked 0 state.keyToIndex (data.mergedKeys parent) = outcome at erased result
  have order : outcome.1.map RecordKey.key =
      (parent.names ++ data.names.filter (· ∉ parent.names)).filter (· ≠ "") :=
    (map_key_eq erased.declarations).trans (names_kept data parent)
  have unique : (outcome.1.map RecordKey.key).Nodup := by
    rw [order]
    exact (nodup_merged valid.distinct distinct).filter _
  have kept_ : (kept (data.mergedKeys parent)).map RecordKey.key = outcome.1.map RecordKey.key :=
    (map_key_eq erased.declarations).symm
  rw [result]
  refine ⟨erased.declarations, order, unique, ?_, ?_⟩
  · intro j r place
    rw [erased.indices j r place, Nat.zero_add]
  · intro name filled j
    change outcome.2 name = some j ↔ (outcome.1.map RecordKey.key)[j]? = some name
    have entries := erased.entries (kept_ ▸ unique)
    rw [kept_] at entries
    constructor
    · intro found
      by_cases member : name ∈ outcome.1.map RecordKey.key
      · obtain ⟨k, place⟩ := List.mem_iff_getElem?.mp member
        have index := entries k name place
        rw [found, Option.some_inj, Nat.zero_add] at index
        rwa [index]
      · have outside : name ∉ parent.names ∧ name ∉ data.names := by
          by_cases empty : name = ""
          · rw [empty]
            exact filled empty
          · rw [order, List.mem_filter, decide_eq_true_iff, and_iff_left empty, List.mem_append,
              not_or, List.mem_filter, decide_eq_true_iff] at member
            exact ⟨member.1, fun own => member.2 ⟨own, member.1⟩⟩
        have stale : outcome.2 name = data.keyToIndex name :=
          (erased.others name (kept_ ▸ member)).trans (merged.table name outside.1)
        rw [stale, valid.keyToIndex_eq_none.mpr outside.2] at found
        cases found
    · intro place
      rw [entries j name place, Nat.zero_add]

/-! ## Abstract parents -/

theorem wellIndexed_of_declared {data : RecordData T} {typeName : String}
    {declarations : List (KeyDeclaration T)}
    (accepted : declarations.foldlM declareKey (new typeName) = .ok data) :
    data.WellIndexed ∧ data.derived = false ∧ ∀ d ∈ declarations, d.key ∈ data.names := by
  refine foldlM_preserves accepted (fun seen state => state.WellIndexed ∧
      state.derived = false ∧ ∀ d ∈ seen, d.key ∈ state.names)
    ⟨wellIndexed_new typeName, rfl, nofun⟩ ?_
  intro seen declaration _ state after _ ⟨valid, underived, present⟩ declared
  refine ⟨valid.declareKey declared, ?_, ?_⟩
  · rw [(declareKey_cases valid declared).2]
    exact underived
  · intro d member
    rw [(declareKey_cases valid declared).2, names, List.map_append, List.mem_append]
    obtain before | last := List.mem_append.mp member
    · exact .inl (present d before)
    · rw [List.mem_singleton.mp last]
      exact .inr List.mem_cons_self

theorem IsAbstract.spec {data : RecordData T} (abstract : data.IsAbstract) :
    data.names.Nodup ∧ "TYPE" ∈ data.names ∧ (data.derived = false → data.WellIndexed) := by
  induction abstract with
  | declared typeName declaration declarations isType accepted =>
      obtain ⟨valid, _, present⟩ := wellIndexed_of_declared accepted
      exact ⟨valid.distinct, isType ▸ present declaration List.mem_cons_self, fun _ => valid⟩
  | @derived data parent own above ownIH aboveIH =>
      cases already : data.derived with
      | true =>
          rw [makeDeriveFrom, if_pos already]
          exact ownIH
      | false =>
          have derived := makeDeriveFrom_derived (ownIH.2.2 already) already aboveIH.1
          refine ⟨derived.distinct, ?_, ?_⟩
          · rw [derived.order]
            exact List.mem_filter.mpr ⟨List.mem_append_left _ aboveIH.2.1, by decide⟩
          · intro underived
            rw [makeDeriveFrom, if_neg (by simp [already])] at underived
            cases underived

/-! ## The merge -/

/-- No name is empty, and `TYPE` has the name of the record as its default already or gets it
unchanged. -/
structure KeepsKeys (data parent : RecordData T) : Prop where
  above : "" ∉ parent.names
  own : "" ∉ data.names
  ownType : ∀ k ∈ data.keys, k.key = "TYPE" → k.dflt = ⟨data.typeName, .defaultAtDeclaration⟩
  inheritedType : "TYPE" ∉ data.names → trim data.typeName = data.typeName

section Merge

variable {parent data result : RecordData T}

theorem copied_of_own (valid : data.WellIndexed) {p k : RecordKey T} (member : k ∈ data.keys)
    (same : k.key = p.key) : data.copied p = ownKey p k := by
  have found := find?_key valid.distinct member
  rw [same] at found
  rw [copied, found]

theorem copied_of_inherited {p : RecordKey T} (absent : p.key ∉ data.names) :
    data.copied p = inheritedKey data.typeName p := by
  have nothing : data.keys.find? (·.key = p.key) = none := by
    rw [List.find?_eq_none]
    intro k member same
    exact absent (of_decide_eq_true same ▸ List.mem_map_of_mem member)
  rw [copied, nothing]

theorem Derived.exists_result (derived : Derived parent data result) {m : RecordKey T}
    (member : m ∈ data.mergedKeys parent) (filled : m.key ≠ "") :
    ∃ r ∈ result.keys, r.declaration = m.declaration := by
  have listed : m.declaration ∈ (kept (data.mergedKeys parent)).map RecordKey.declaration :=
    List.mem_map_of_mem (List.mem_filter.mpr ⟨member, decide_eq_true filled⟩)
  rw [← derived.declarations] at listed
  exact List.mem_map.mp listed

theorem Derived.exists_merged (derived : Derived parent data result) {r : RecordKey T}
    (member : r ∈ result.keys) : ∃ m ∈ data.mergedKeys parent, m.declaration = r.declaration := by
  have listed : r.declaration ∈ result.keys.map RecordKey.declaration :=
    List.mem_map_of_mem member
  rw [derived.declarations] at listed
  obtain ⟨m, isKept, same⟩ := List.mem_map.mp listed
  exact ⟨m, (List.mem_filter.mp isKept).1, same⟩

theorem copied_mem (data : RecordData T) {p : RecordKey T} (member : p ∈ parent.keys) :
    data.copied p ∈ data.mergedKeys parent :=
  List.mem_append_left _ (List.mem_map_of_mem member)

theorem Derived.keepsKeys_of_merged (derived : Derived parent data result)
    (merged : Merged parent data result) (hasType : "TYPE" ∈ parent.names) :
    KeepsKeys data parent := by
  have nonempty : "" ∉ parent.names ++ data.names.filter (· ∉ parent.names) := by
    rw [← merged.order, derived.order]
    intro member
    exact of_decide_eq_true (List.mem_filter.mp member).2 rfl
  rw [List.mem_append, not_or, List.mem_filter] at nonempty
  refine ⟨nonempty.1, ?_, ?_, ?_⟩
  · intro own
    exact nonempty.2 ⟨own, decide_eq_true nonempty.1⟩
  · intro k member isType
    obtain ⟨r, stored, same⟩ := List.mem_map.mp (merged.own k member)
    have name : r.key = "TYPE" := (congrArg KeyDeclaration.key same).trans isType
    rw [← merged.typeDefault r stored name]
    exact congrArg KeyDeclaration.dflt same.symm
  · intro absent
    obtain ⟨p, member, isType⟩ := List.mem_map.mp hasType
    have copy : data.copied p = inheritedKey data.typeName p :=
      copied_of_inherited (isType ▸ absent)
    obtain ⟨r, stored, same⟩ := derived.exists_result (copied_mem data member)
      (by rw [key_copied, isType]; decide)
    rw [copy] at same
    have name : r.key = "TYPE" := (congrArg KeyDeclaration.key same).trans isType
    have dflt : r.dflt = Default.ofValue data.typeName :=
      (congrArg KeyDeclaration.dflt same).trans (if_pos isType)
    rw [merged.typeDefault r stored name] at dflt
    exact (congrArg Default.value dflt).symm

theorem Derived.merged (derived : Derived parent data result) (valid : data.WellIndexed)
    (keeps : KeepsKeys data parent) (hasType : "TYPE" ∈ parent.names) :
    Merged parent data result := by
  have filled : ∀ name ∈ parent.names ++ data.names.filter (· ∉ parent.names), name ≠ "" := by
    rintro name member rfl
    obtain above | own := List.mem_append.mp member
    · exact keeps.above above
    · exact keeps.own (List.mem_filter.mp own).1
  have order : result.names = parent.names ++ data.names.filter (· ∉ parent.names) := by
    rw [derived.order, List.filter_eq_self.mpr]
    exact fun name member => decide_eq_true (filled name member)
  refine ⟨order, derived.distinct, ?_, ?_, ?_, derived.indices, ?_⟩
  · intro k member
    have name : k.key ≠ "" := fun empty => keeps.own (empty ▸ List.mem_map_of_mem member)
    by_cases above : k.key ∈ parent.names
    · obtain ⟨p, inParent, same⟩ := List.mem_map.mp above
      have copy := copied_of_own valid member same.symm
      obtain ⟨r, stored, content⟩ := derived.exists_result (copied_mem data inParent)
        (by rwa [key_copied, same])
      rw [copy] at content
      exact List.mem_map.mpr ⟨r, stored, content⟩
    · have unmarked : marked parent.names k = k := if_neg above
      have listed : marked parent.names k ∈ data.mergedKeys parent :=
        List.mem_append_right _ (List.mem_map_of_mem member)
      rw [unmarked] at listed
      obtain ⟨r, stored, content⟩ := derived.exists_result listed name
      exact List.mem_map.mpr ⟨r, stored, content⟩
  · intro p member absent
    have name : p.key ≠ "" := fun empty => keeps.above (empty ▸ List.mem_map_of_mem member)
    obtain ⟨r, stored, content⟩ := derived.exists_result (copied_mem data member)
      (by rwa [key_copied])
    rw [copied_of_inherited absent] at content
    refine ⟨r, stored, congrArg KeyDeclaration.key content, congrArg KeyDeclaration.type content,
      congrArg KeyDeclaration.description content, fun other => ?_⟩
    exact (congrArg KeyDeclaration.dflt content).trans (if_neg other)
  · intro r stored isType
    obtain ⟨m, member, content⟩ := derived.exists_merged stored
    have name : m.key = "TYPE" := (congrArg KeyDeclaration.key content).trans isType
    refine (congrArg KeyDeclaration.dflt content).symm.trans ?_
    change m.dflt = _
    obtain copy | own := List.mem_append.mp member
    · obtain ⟨p, _, rfl⟩ := List.mem_map.mp copy
      rw [key_copied] at name
      by_cases present : p.key ∈ data.names
      · obtain ⟨k, inData, same⟩ := List.mem_map.mp present
        rw [copied_of_own valid inData same]
        exact keeps.ownType k inData (same.trans name)
      · rw [copied_of_inherited present]
        refine (if_pos name).trans ?_
        rw [Default.ofValue, keeps.inheritedType (name ▸ present)]
    · obtain ⟨k, _, rfl⟩ := List.mem_map.mp own
      by_cases above : k.key ∈ parent.names
      · rw [marked, if_pos above] at name
        exact absurd name (show "" ≠ "TYPE" by decide)
      · rw [marked, if_neg above] at name
        exact absurd (name ▸ hasType) above
  · intro name i
    exact derived.table name (fun _ => ⟨keeps.above, keeps.own⟩) i

end Merge

/-- The keys of a record are merged with those of its parent as they should if and only if no key
has the empty name and `TYPE` can keep its default. -/
theorem makeDeriveFrom_merged_iff {data parent : RecordData T} (declared : data.IsDeclared)
    (abstract : parent.IsAbstract) :
    Merged parent data (data.makeDeriveFrom parent) ↔ KeepsKeys data parent := by
  obtain ⟨typeName, declarations, accepted⟩ := declared
  obtain ⟨valid, underived, _⟩ := wellIndexed_of_declared accepted
  obtain ⟨distinct, hasType, _⟩ := abstract.spec
  have derived := makeDeriveFrom_derived valid underived distinct
  exact ⟨fun merged => derived.keepsKeys_of_merged merged hasType,
    fun keeps => derived.merged valid keeps hasType⟩

/-- An abstract record with the keys `TYPE` and `a`. -/
def baseDeclarations : List (KeyDeclaration Unit) :=
  [⟨"TYPE", (), ⟨"OBLIGATORY", .noDefaultObligatoryType⟩, "Sub-record selection."⟩,
    ⟨"a", (), ⟨"1", .defaultAtDeclaration⟩, "the first"⟩]

def childDeclarations : List (KeyDeclaration Unit) :=
  [⟨"b", (), ⟨"2", .defaultAtDeclaration⟩, "its own"⟩,
    ⟨"a", (), ⟨"3", .defaultAtDeclaration⟩, "another default"⟩]

def emptyKeyDeclarations : List (KeyDeclaration Unit) :=
  [⟨"", (), ⟨"2", .defaultAtDeclaration⟩, "its own"⟩]

def build (typeName : String) (declarations : List (KeyDeclaration T)) : RecordData T :=
  (declarations.foldlM declareKey (new typeName)).toOption.getD (new typeName)

theorem foldlM_build {typeName : String} {declarations : List (KeyDeclaration T)}
    (accepted : (declarations.foldlM declareKey (new typeName)).toOption.isSome) :
    declarations.foldlM declareKey (new typeName) = .ok (build typeName declarations) := by
  unfold build
  cases outcome : declarations.foldlM declareKey (new typeName) with
  | error message =>
      rw [outcome] at accepted
      cases accepted
  | ok data => rfl

theorem isAbstract_base : (build "Base" baseDeclarations).IsAbstract :=
  .declared "Base" _ _ rfl (foldlM_build (by decide +kernel))

theorem makeDeriveFrom_merged_iff_child :
    Merged (build "Base" baseDeclarations) (build "Child" childDeclarations)
      ((build "Child" childDeclarations).makeDeriveFrom (build "Base" baseDeclarations)) := by
  refine (makeDeriveFrom_merged_iff ⟨"Child", _, foldlM_build (by decide +kernel)⟩
    (.declared "Base" _ _ rfl (foldlM_build (by decide +kernel)))).mpr ⟨?_, ?_, ?_, ?_⟩
  · decide +kernel
  · decide +kernel
  · intro k member isType
    have inherited : "TYPE" ∉ (build "Child" childDeclarations).names := by decide +kernel
    exact absurd (isType ▸ List.mem_map_of_mem member) inherited
  · intro
    decide +kernel

theorem not_always_merged :
    (build "Base" baseDeclarations).IsAbstract ∧ (build "Child" emptyKeyDeclarations).IsDeclared ∧
      ¬ Merged (build "Base" baseDeclarations) (build "Child" emptyKeyDeclarations)
        ((build "Child" emptyKeyDeclarations).makeDeriveFrom (build "Base" baseDeclarations)) := by
  refine ⟨isAbstract_base, ⟨"Child", _, foldlM_build (by decide +kernel)⟩, ?_⟩
  intro merged
  have order := merged.order
  revert order
  decide +kernel

end RecordData

end Flow123d
