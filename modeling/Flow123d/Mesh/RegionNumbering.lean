import Flow123d.Library.Outcome
import Flow123d.Mesh.RegionDBProperties
import Mathlib.Data.List.Nodup

/-!
# Numbers, IDs and labels of regions

Regions are added by calls of several overloads, in any order and repeatedly. As long as no
call fails, each region is the one of the first call with its ID.
-/

set_option autoImplicit false

namespace Flow123d

open Flow123d.Library

namespace RegionDB

/-! ## Sequences of calls -/

namespace AddRegion

def id : AddRegion → ℕ
  | .withKind id _ _ _ => id
  | .withLabel id _ _ => id
  | .withId id _ => id
  | .implicitBoundary => RegionIdx.undefined.idx - 2

def label : AddRegion → String
  | .withKind _ label _ _ => label
  | .withLabel id label _ => if label = "" then defaultLabel id else label
  | .withId id _ => defaultLabel id
  | .implicitBoundary => "IMPLICIT BOUNDARY"

def isBoundary : AddRegion → Bool
  | .withKind _ _ _ boundary => boundary
  | .withLabel _ label _ => label.toList.head? == some '.'
  | .withId _ _ => false
  | .implicitBoundary => true

end AddRegion

def getId (db : RegionDB) (idx : ℕ) : Option ℕ := (db.itemOfIndex idx).map RegionItem.id

def getLabel (db : RegionDB) (idx : ℕ) : Option String :=
  (db.itemOfIndex idx).map RegionItem.label

/-- A call that has to succeed. -/
def addOrFail (db : RegionDB) (request : AddRegion) : Except RegionError RegionDB :=
  match db.add request with
  | (.ok _, next) => .ok next
  | (.error error, _) => .error error

def addAll (db : RegionDB) (requests : List AddRegion) : Except RegionError RegionDB :=
  requests.foldlM addOrFail db

variable {db next : RegionDB}

/-! ## Successful calls -/

structure SameIdentities (db next : RegionDB) : Prop where
  identities : (next.regionSet.map fun item => (item.index, item.id, item.label)) =
    db.regionSet.map fun item => (item.index, item.id, item.label)
  nBoundary : next.nBoundary = db.nBoundary
  nBulk : next.nBulk = db.nBulk
  closed : next.closed = db.closed

namespace SameIdentities

theorem refl (db : RegionDB) : SameIdentities db db := ⟨rfl, rfl, rfl, rfl⟩

theorem symm (same : SameIdentities db next) : SameIdentities next db :=
  ⟨same.identities.symm, same.nBoundary.symm, same.nBulk.symm, same.closed.symm⟩

theorem map {α : Type} (same : SameIdentities db next) (part : ℕ × ℕ × String → α) :
    (next.regionSet.map fun item => part (item.index, item.id, item.label)) =
      db.regionSet.map fun item => part (item.index, item.id, item.label) := by
  have mapped := congrArg (List.map part) same.identities
  rw [List.map_map, List.map_map] at mapped
  exact mapped

theorem exists_mem (same : SameIdentities db next) {item : RegionItem}
    (member : item ∈ db.regionSet) : ∃ kept ∈ next.regionSet,
      kept.index = item.index ∧ kept.id = item.id ∧ kept.label = item.label := by
  have listed := List.mem_map_of_mem (f := fun item => (item.index, item.id, item.label)) member
  rw [← same.identities] at listed
  obtain ⟨kept, keptMember, equal⟩ := List.mem_map.mp listed
  simp only [Prod.mk.injEq] at equal
  exact ⟨kept, keptMember, equal⟩

theorem replace (indices : (db.regionSet.map RegionItem.index).Nodup) {found : RegionItem}
    (member : found ∈ db.regionSet) (dim : ℕ) :
    SameIdentities db (db.replace { found with dim := dim }) := by
  refine ⟨?_, rfl, rfl, rfl⟩
  unfold RegionDB.replace
  rw [List.map_map]
  refine List.map_congr_left fun item listed => ?_
  dsimp only [Function.comp]
  split_ifs with here
  · -- only the item itself has its index
    cases List.inj_on_of_nodup_map indices listed member here
    rfl
  · rfl

theorem checkDimConsistency (indices : (db.regionSet.map RegionItem.index).Nodup)
    {found : RegionItem} (member : found ∈ db.regionSet) {dim : ℕ}
    (checked : db.checkDimConsistency found dim = .ok next) : SameIdentities db next := by
  unfold RegionDB.checkDimConsistency at checked
  split_ifs at checked with fits unknown
  · cases checked
    exact refl db
  · cases checked
    exact replace indices member dim

end SameIdentities

/-- What a successful call does. -/
inductive Adds (db : RegionDB) (id : ℕ) (label : String) (boundary : Bool) :
    RegionDB → Prop where
  | known {found : RegionItem} {next : RegionDB} (member : found ∈ db.regionSet)
      (isId : found.id = id) (same : SameIdentities db next) : Adds db id label boundary next
  | new (dim : ℕ) (noId : ∀ item ∈ db.regionSet, item.id ≠ id)
      (noLabel : ∀ item ∈ db.regionSet, item.label ≠ label)
      (fits : db.newIndex boundary < maxNRegions) :
      Adds db id label boundary { db.count boundary with
        regionSet := db.regionSet ++ [⟨db.newIndex boundary, id, label, dim⟩] }

theorem id_of_itemOfId {id : ℕ} {found : RegionItem} (known : db.itemOfId id = some found) :
    found.id = id := by
  simpa using List.find?_some known

theorem id_ne_of_itemOfId {id : ℕ} (unknown : db.itemOfId id = none) :
    ∀ item ∈ db.regionSet, item.id ≠ id := by
  simpa [itemOfId] using unknown

theorem label_ne_of_itemOfLabel {label : String} (unknown : db.itemOfLabel label = none) :
    ∀ item ∈ db.regionSet, item.label ≠ label := by
  simpa [itemOfLabel] using unknown

section Successful

variable (indices : (db.regionSet.map RegionItem.index).Nodup)

include indices

theorem addKnown_adds {found : RegionItem} (member : found ∈ db.regionSet) {label : String}
    {dim : ℕ} {boundary : Bool} {reg : RegionIdx}
    (added : db.addKnown found label dim boundary = (.ok reg, next)) :
    SameIdentities db next := by
  unfold addKnown at added
  cases checked : db.checkLabel found label with
  | error error =>
      rw [checked] at added
      cases added
  | ok passed =>
      rw [checked] at added
      cases updated : db.checkDimConsistency found dim with
      | error error =>
          rw [updated] at added
          cases added
      | ok final =>
          rw [updated] at added
          dsimp only at added
          split_ifs at added
          · cases added
            exact .checkDimConsistency indices member updated
          · cases added

omit indices in
theorem addNew_adds {id : ℕ} {label : String} {dim : ℕ} {boundary : Bool} {reg : RegionIdx}
    (noId : db.itemOfId id = none) (noLabel : db.itemOfLabel label = none)
    (added : db.addNew id label dim boundary = (.ok reg, next)) :
    Adds db id label boundary next := by
  unfold addNew at added
  dsimp only at added
  split_ifs at added with tooMany taken
  · cases added
  · cases added
  · cases added
    exact .new dim (id_ne_of_itemOfId noId) (label_ne_of_itemOfLabel noLabel)
      (Nat.lt_of_not_le tooMany)

theorem addRegion_adds {id : ℕ} {label : String} {dim : ℕ} {boundary : Bool}
    {reg : RegionIdx} (added : db.addRegion id label dim boundary = (.ok reg, next)) :
    Adds db id label boundary next := by
  unfold addRegion at added
  split_ifs at added with closed
  · cases added
  · cases known : db.itemOfId id with
    | some found =>
        rw [known] at added
        have member := itemOfId_mem known
        exact .known member (id_of_itemOfId known) (addKnown_adds indices member added)
    | none =>
        rw [known] at added
        cases named : db.itemOfLabel label with
        | some other =>
            rw [named] at added
            cases added
        | none =>
            rw [named] at added
            exact addNew_adds known named added

theorem addRegionOfId_adds {id dim : ℕ} {reg : RegionIdx}
    (added : db.addRegionOfId id dim = (.ok reg, next)) :
    Adds db id (defaultLabel id) false next := by
  unfold addRegionOfId at added
  cases known : db.itemOfId id with
  | none =>
      rw [known] at added
      exact addRegion_adds indices added
  | some found =>
      rw [known] at added
      dsimp only at added
      have member := itemOfId_mem known
      cases updated : db.checkDimConsistency found dim with
      | error error =>
          rw [updated] at added
          cases added
      | ok final =>
          rw [updated] at added
          cases added
          exact .known member (id_of_itemOfId known)
            (.checkDimConsistency indices member updated)

theorem add_adds {request : AddRegion} {reg : RegionIdx}
    (added : db.add request = (.ok reg, next)) :
    Adds db request.id request.label request.isBoundary next := by
  cases request with
  | withKind id label dim boundary => exact addRegion_adds indices added
  | withLabel id label dim =>
      change db.addRegionOfLabel id label dim = _ at added
      unfold addRegionOfLabel at added
      dsimp only [AddRegion.id, AddRegion.label, AddRegion.isBoundary]
      split_ifs at added ⊢ with empty
      · subst empty
        exact addRegion_adds indices added
      · exact addRegion_adds indices added
  | withId id dim => exact addRegionOfId_adds indices added
  | implicitBoundary => exact addRegion_adds indices added

end Successful

/-! ## The database after successful calls -/

/-- The indices are used one after the other. -/
structure Indexed (db : RegionDB) : Prop where
  indices : (db.regionSet.map RegionItem.index).Nodup
  kind : ∀ item ∈ db.regionSet, db.Counted ⟨item.index⟩
  used : ∀ reg : RegionIdx, db.Counted reg → ∃ item ∈ db.regionSet, item.index = reg.idx

structure Numbered (requests : List AddRegion) (db : RegionDB) : Prop extends Indexed db where
  ids : (db.regionSet.map RegionItem.id).Nodup
  labels : (db.regionSet.map RegionItem.label).Nodup
  fits : ∀ item ∈ db.regionSet, item.index < maxNRegions
  first : ∀ item ∈ db.regionSet, ∃ request,
    requests.find? (fun request => request.id = item.id) = some request ∧
      item.label = request.label ∧ (RegionIdx.mk item.index).isBoundary = request.isBoundary
  listed : ∀ request ∈ requests, ∃ item ∈ db.regionSet, item.id = request.id

theorem SameIdentities.counted (same : SameIdentities db next) (reg : RegionIdx) :
    next.Counted reg ↔ db.Counted reg := by
  unfold Counted
  rw [same.nBoundary, same.nBulk]

theorem counted_count_iff {boundary : Bool} {reg : RegionIdx} :
    (db.count boundary).Counted reg ↔ db.Counted reg ∨ reg.idx = db.newIndex boundary := by
  unfold Counted count newIndex RegionIdx.isBoundary
  cases boundary with
  | true =>
      simp only [if_true, beq_iff_eq]
      split_ifs <;> omega
  | false =>
      simp only [Bool.false_eq_true, if_false, beq_iff_eq]
      split_ifs <;> omega

theorem isBoundary_newIndex (db : RegionDB) (boundary : Bool) :
    (RegionIdx.mk (db.newIndex boundary)).isBoundary = boundary := by
  cases boundary with
  | true => simp [newIndex, RegionIdx.isBoundary]
  | false => simp [newIndex, RegionIdx.isBoundary, Nat.add_mod]

theorem not_counted_newIndex (db : RegionDB) (boundary : Bool) :
    ¬ db.Counted ⟨db.newIndex boundary⟩ := by
  unfold Counted
  rw [isBoundary_newIndex]
  cases boundary with
  | true => simp [newIndex]
  | false =>
      simp only [newIndex, Bool.false_eq_true, if_false]
      omega

theorem indexed_init : Indexed init where
  indices := .nil
  kind := nofun
  used := fun reg counted => by
    unfold Counted init at counted
    split_ifs at counted <;> exact absurd counted (Nat.not_lt_zero _)

theorem numbered_init : Numbered [] init where
  toIndexed := indexed_init
  ids := .nil
  labels := .nil
  fits := nofun
  first := nofun
  listed := nofun

variable {requests : List AddRegion} {request : AddRegion}

theorem Indexed.of_same (indexed : Indexed db) (same : SameIdentities db next) :
    Indexed next where
  indices := same.map (·.1) ▸ indexed.indices
  kind item listed := by
    obtain ⟨old, oldListed, index, _, _⟩ := same.symm.exists_mem listed
    rw [same.counted, ← index]
    exact indexed.kind old oldListed
  used reg counted := by
    obtain ⟨old, oldListed, isIndex⟩ := indexed.used reg ((same.counted reg).mp counted)
    obtain ⟨kept, keptListed, index, _, _⟩ := same.exists_mem oldListed
    exact ⟨kept, keptListed, index.trans isIndex⟩

theorem nodup_map_snoc {α : Type} {part : RegionItem → α} {items : List RegionItem}
    {new : RegionItem} (nodup : (items.map part).Nodup)
    (other : ∀ item ∈ items, part item ≠ part new) : ((items ++ [new]).map part).Nodup := by
  rw [List.map_append, List.map_singleton, List.nodup_append]
  refine ⟨nodup, List.nodup_singleton _, ?_⟩
  intro value inOld last inNew
  obtain ⟨item, listed, rfl⟩ := List.mem_map.mp inOld
  rw [List.mem_singleton.mp inNew]
  exact other item listed

theorem Indexed.new (indexed : Indexed db) (boundary : Bool) (id : ℕ) (label : String)
    (dim : ℕ) : Indexed { db.count boundary with
      regionSet := db.regionSet ++ [⟨db.newIndex boundary, id, label, dim⟩] } where
  indices := by
    refine nodup_map_snoc indexed.indices fun item listed same => ?_
    have counted := indexed.kind item listed
    rw [same] at counted
    exact not_counted_newIndex db _ counted
  kind item listed := by
    refine counted_count_iff.mpr ?_
    rcases List.mem_append.mp listed with old | new
    · exact .inl (indexed.kind item old)
    · exact .inr (by rw [List.mem_singleton.mp new])
  used reg counted := by
    rcases counted_count_iff.mp counted with before | isNew
    · obtain ⟨item, listed, isIndex⟩ := indexed.used reg before
      exact ⟨item, List.mem_append_left _ listed, isIndex⟩
    · exact ⟨_, List.mem_append_right _ (List.mem_singleton_self _), isNew.symm⟩

/-- The first call with an ID stays the first. -/
theorem find_snoc_of_some {id : ℕ} {found : AddRegion}
    (first : requests.find? (fun request => request.id = id) = some found) :
    (requests ++ [request]).find? (fun request => request.id = id) = some found := by
  rw [List.find?_append, first]
  rfl

theorem Numbered.known (numbered : Numbered requests db) {found : RegionItem}
    (member : found ∈ db.regionSet) (isId : found.id = request.id)
    (same : SameIdentities db next) : Numbered (requests ++ [request]) next where
  toIndexed := Indexed.of_same numbered.toIndexed same
  ids := same.map (·.2.1) ▸ numbered.ids
  labels := same.map (·.2.2) ▸ numbered.labels
  fits item listed := by
    obtain ⟨old, oldListed, index, _, _⟩ := same.symm.exists_mem listed
    exact index ▸ numbered.fits old oldListed
  first item listed := by
    obtain ⟨old, oldListed, index, id, label⟩ := same.symm.exists_mem listed
    obtain ⟨request, isFirst, isLabel, kind⟩ := numbered.first old oldListed
    rw [index] at kind
    exact ⟨request, find_snoc_of_some (id ▸ isFirst), label.symm.trans isLabel, kind⟩
  listed other inRequests := by
    rcases List.mem_append.mp inRequests with before | new
    · obtain ⟨old, oldListed, isOther⟩ := numbered.listed other before
      obtain ⟨kept, keptListed, _, id, _⟩ := same.exists_mem oldListed
      exact ⟨kept, keptListed, id.trans isOther⟩
    · rw [List.mem_singleton.mp new]
      obtain ⟨kept, keptListed, _, id, _⟩ := same.exists_mem member
      exact ⟨kept, keptListed, id.trans isId⟩

theorem Numbered.new (numbered : Numbered requests db) (dim : ℕ)
    (noId : ∀ item ∈ db.regionSet, item.id ≠ request.id)
    (noLabel : ∀ item ∈ db.regionSet, item.label ≠ request.label)
    (small : db.newIndex request.isBoundary < maxNRegions) :
    Numbered (requests ++ [request]) { db.count request.isBoundary with
      regionSet := db.regionSet ++
        [⟨db.newIndex request.isBoundary, request.id, request.label, dim⟩] } where
  toIndexed := Indexed.new numbered.toIndexed ..
  ids := nodup_map_snoc numbered.ids noId
  labels := nodup_map_snoc numbered.labels noLabel
  fits item listed := by
    rcases List.mem_append.mp listed with old | new
    · exact numbered.fits item old
    · rw [List.mem_singleton.mp new]
      exact small
  first item listed := by
    rcases List.mem_append.mp listed with old | new
    · obtain ⟨request, isFirst, labelled, kind⟩ := numbered.first item old
      exact ⟨request, find_snoc_of_some isFirst, labelled, kind⟩
    · rw [List.mem_singleton.mp new]
      have before : requests.find? (fun other => other.id = request.id) = none := by
        refine List.find?_eq_none.mpr fun other inRequests same => ?_
        obtain ⟨item, listed, isOther⟩ := numbered.listed other inRequests
        exact noId item listed (isOther.trans (of_decide_eq_true same))
      refine ⟨request, ?_, rfl, isBoundary_newIndex db _⟩
      rw [List.find?_append, before]
      simp
  listed other inRequests := by
    rcases List.mem_append.mp inRequests with before | new
    · obtain ⟨item, listed, isOther⟩ := numbered.listed other before
      exact ⟨item, List.mem_append_left _ listed, isOther⟩
    · rw [List.mem_singleton.mp new]
      exact ⟨_, List.mem_append_right _ (List.mem_singleton_self _), rfl⟩

theorem Numbered.adds (numbered : Numbered requests db)
    (adds : Adds db request.id request.label request.isBoundary next) :
    Numbered (requests ++ [request]) next := by
  cases adds with
  | known member isId same => exact numbered.known member isId same
  | new dim noId noLabel fits => exact numbered.new dim noId noLabel fits

/-- The regions are still there. -/
def Keeps (db next : RegionDB) : Prop :=
  ∀ item ∈ db.regionSet, ∃ kept ∈ next.regionSet,
    kept.index = item.index ∧ kept.id = item.id ∧ kept.label = item.label

theorem Adds.keeps {id : ℕ} {label : String} {boundary : Bool}
    (adds : Adds db id label boundary next) : Keeps db next := by
  intro item listed
  cases adds with
  | known _ _ same => exact same.exists_mem listed
  | new _ _ _ _ => exact ⟨item, List.mem_append_left _ listed, rfl, rfl, rfl⟩

theorem Keeps.trans {final : RegionDB} (first : Keeps db next) (second : Keeps next final) :
    Keeps db final := by
  intro item listed
  obtain ⟨kept, keptListed, index, id, label⟩ := first item listed
  obtain ⟨last, lastListed, indexAlso, idAlso, labelAlso⟩ := second kept keptListed
  exact ⟨last, lastListed, indexAlso.trans index, idAlso.trans id, labelAlso.trans label⟩

theorem addOrFail_meets (numbered : Numbered requests db) (request : AddRegion) :
    Meets (fun _ => True)
      (fun next => Numbered (requests ++ [request]) next ∧ Keeps db next)
      (db.addOrFail request) := by
  unfold addOrFail
  cases added : db.add request with
  | mk outcome next =>
      cases outcome with
      | error error => trivial
      | ok reg =>
          have adds := add_adds numbered.indices added
          exact ⟨numbered.adds adds, adds.keeps⟩

theorem addAll_meets (numbered : Numbered requests db) (later : List AddRegion) :
    Meets (fun _ => True)
      (fun final => Numbered (requests ++ later) final ∧ Keeps db final)
      (db.addAll later) := by
  refine Meets.foldlM_seen (fun seen state =>
    Numbered (requests ++ seen) state ∧ Keeps db state) ?_ fun seen request state holds _ => ?_
  · rw [List.append_nil]
    exact ⟨numbered, fun item listed => ⟨item, listed, rfl, rfl, rfl⟩⟩
  · refine (addOrFail_meets holds.1 request).mono fun next added => ?_
    rw [← List.append_assoc]
    exact ⟨added.1, holds.2.trans added.2⟩

/-! ## Lookup -/

theorem find_of_nodup {α : Type} [BEq α] [LawfulBEq α] {part : RegionItem → α}
    {items : List RegionItem} (nodup : (items.map part).Nodup) {item : RegionItem}
    (listed : item ∈ items) : items.find? (fun other => part other == part item) = some item := by
  cases found : items.find? fun other => part other == part item with
  | none =>
      have none := List.find?_eq_none.mp found item listed
      exact absurd (beq_self_eq_true (part item)) none
  | some other =>
      have same : part other = part item := by simpa using List.find?_some found
      have member := List.mem_of_find?_eq_some found
      rw [List.inj_on_of_nodup_map nodup member listed same]

theorem getId_eq_some (indices : (db.regionSet.map RegionItem.index).Nodup) {i id : ℕ} :
    db.getId i = some id ↔ ∃ item ∈ db.regionSet, item.index = i ∧ item.id = id := by
  unfold getId itemOfIndex
  constructor
  · intro known
    obtain ⟨item, found, isId⟩ := Option.map_eq_some_iff.mp known
    exact ⟨item, List.mem_of_find?_eq_some found, by simpa using List.find?_some found, isId⟩
  · rintro ⟨item, listed, rfl, rfl⟩
    rw [find_of_nodup indices listed]
    rfl

theorem getLabel_eq_some (indices : (db.regionSet.map RegionItem.index).Nodup) {i : ℕ}
    {label : String} :
    db.getLabel i = some label ↔
      ∃ item ∈ db.regionSet, item.index = i ∧ item.label = label := by
  unfold getLabel itemOfIndex
  constructor
  · intro known
    obtain ⟨item, found, isLabel⟩ := Option.map_eq_some_iff.mp known
    exact ⟨item, List.mem_of_find?_eq_some found, by simpa using List.find?_some found, isLabel⟩
  · rintro ⟨item, listed, rfl, rfl⟩
    rw [find_of_nodup indices listed]
    rfl

/-- What the database promises after the calls. A region exists if its index has an ID. -/
structure Sound (requests : List AddRegion) (db : RegionDB) : Prop where
  bulk : ∀ k, (∃ id, db.getId (2 * k + 1) = some id) ↔ k < db.bulkSize
  boundary : ∀ k, (∃ id, db.getId (2 * k) = some id) ↔ k < db.boundarySize
  ids : (db.regionSet.map RegionItem.id).Nodup
  labels : (db.regionSet.map RegionItem.label).Nodup
  findId : ∀ i id, db.getId i = some id → db.findId id = ⟨i⟩ ∧ (db.findId id).isValid = true
  findLabel : ∀ i label, db.getLabel i = some label →
    db.findLabel label = ⟨i⟩ ∧ (db.findLabel label).isValid = true
  otherId : ∀ id, (∀ i, db.getId i ≠ some id) → (db.findId id).isValid = false
  otherLabel : ∀ label, (∀ i, db.getLabel i ≠ some label) →
    (db.findLabel label).isValid = false
  /-- A region is the one of the first call with its ID. -/
  added : ∀ i id, db.getId i = some id → ∃ request,
    requests.find? (fun request => request.id = id) = some request ∧
      db.getLabel i = some request.label ∧ (RegionIdx.mk i).isBoundary = request.isBoundary
  kept : ∀ later final, db.addAll later = .ok final → ∀ i id label,
    db.getId i = some id → db.getLabel i = some label →
      final.getId i = some id ∧ final.getLabel i = some label
  size : ∀ i id, db.close.getId i = some id → i < db.close.size

namespace Numbered

variable (numbered : Numbered requests db)

include numbered

theorem counted_iff {i : ℕ} : (∃ id, db.getId i = some id) ↔ db.Counted ⟨i⟩ := by
  constructor
  · rintro ⟨id, known⟩
    obtain ⟨item, listed, rfl, _⟩ := (getId_eq_some numbered.indices).mp known
    exact numbered.kind item listed
  · intro counted
    obtain ⟨item, listed, isIndex⟩ := numbered.used ⟨i⟩ counted
    exact ⟨item.id, (getId_eq_some numbered.indices).mpr ⟨item, listed, isIndex, rfl⟩⟩

theorem isValid {item : RegionItem} (listed : item ∈ db.regionSet) :
    (RegionIdx.mk item.index).isValid = true := by
  have fits := numbered.fits item listed
  unfold maxNRegions at fits
  simp only [RegionIdx.isValid, RegionIdx.undefined, bne_iff_ne, ne_eq, RegionIdx.mk.injEq]
  omega

theorem findId_item {item : RegionItem} (listed : item ∈ db.regionSet) :
    db.findId item.id = ⟨item.index⟩ := by
  unfold findId itemOfId
  rw [find_of_nodup numbered.ids listed]
  rfl

theorem findLabel_item {item : RegionItem} (listed : item ∈ db.regionSet) :
    db.findLabel item.label = ⟨item.index⟩ := by
  unfold findLabel itemOfLabel
  rw [find_of_nodup numbered.labels listed]
  rfl

theorem sound : Sound requests db where
  bulk k := by
    rw [numbered.counted_iff]
    simp only [Counted, RegionIdx.isBoundary, bulkSize, beq_iff_eq]
    split_ifs <;> omega
  boundary k := by
    rw [numbered.counted_iff]
    simp only [Counted, RegionIdx.isBoundary, boundarySize, beq_iff_eq]
    split_ifs <;> omega
  ids := numbered.ids
  labels := numbered.labels
  findId i id known := by
    obtain ⟨item, listed, rfl, rfl⟩ := (getId_eq_some numbered.indices).mp known
    rw [numbered.findId_item listed]
    exact ⟨rfl, numbered.isValid listed⟩
  findLabel i label known := by
    obtain ⟨item, listed, rfl, rfl⟩ := (getLabel_eq_some numbered.indices).mp known
    rw [numbered.findLabel_item listed]
    exact ⟨rfl, numbered.isValid listed⟩
  otherId id other := by
    cases known : db.itemOfId id with
    | none => rw [RegionDB.findId, known]; rfl
    | some found =>
        exact absurd ((getId_eq_some numbered.indices).mpr
          ⟨found, itemOfId_mem known, rfl, id_of_itemOfId known⟩) (other found.index)
  otherLabel label other := by
    cases known : db.itemOfLabel label with
    | none => rw [RegionDB.findLabel, known]; rfl
    | some found =>
        have isLabel : found.label = label := by simpa using List.find?_some known
        exact absurd ((getLabel_eq_some numbered.indices).mpr
          ⟨found, List.mem_of_find?_eq_some known, rfl, isLabel⟩) (other found.index)
  added i id known := by
    obtain ⟨item, listed, rfl, rfl⟩ := (getId_eq_some numbered.indices).mp known
    obtain ⟨request, isFirst, isLabel, kind⟩ := numbered.first item listed
    exact ⟨request, isFirst,
      (getLabel_eq_some numbered.indices).mpr ⟨item, listed, rfl, isLabel⟩, kind⟩
  kept later final added i id label isId isLabel := by
    obtain ⟨numberedFinal, keeps⟩ := (addAll_meets numbered later).of_ok added
    obtain ⟨item, listed, rfl, rfl⟩ := (getId_eq_some numbered.indices).mp isId
    obtain ⟨same, sameListed, sameIndex, rfl⟩ := (getLabel_eq_some numbered.indices).mp isLabel
    cases List.inj_on_of_nodup_map numbered.indices sameListed listed sameIndex
    obtain ⟨kept, keptListed, index, isId, isLabel⟩ := keeps item listed
    exact ⟨(getId_eq_some numberedFinal.indices).mpr ⟨kept, keptListed, index, isId⟩,
      (getLabel_eq_some numberedFinal.indices).mpr ⟨kept, keptListed, index, isLabel⟩⟩
  size i id known := by
    have same := SameRegions.close db
    have before : db.getId i = some id := by
      unfold getId itemOfIndex at known ⊢
      rwa [same.regionSet] at known
    have counted := numbered.counted_iff.mp ⟨id, before⟩
    exact ((same.counted ⟨i⟩).mpr counted).lt_size

end Numbered

/-- For every sequence of calls that succeed. -/
theorem addAll_sound (added : init.addAll requests = .ok db) : Sound requests db := by
  have meets := addAll_meets numbered_init requests
  rw [List.nil_append] at meets
  exact (meets.of_ok added).1.sound

/-- A boundary region, a region without a dimension that is added again, and one without a
label. -/
def threeRegions : List AddRegion :=
  [.withLabel 7 ".side" 2, .withKind 1 "rock" undefinedDim false, .withId 4 3, .withId 1 3]

theorem addAll_sound_threeRegions : Sound threeRegions
    ⟨[⟨0, 7, ".side", 2⟩, ⟨1, 1, "rock", 3⟩, ⟨3, 4, "region_4", 3⟩], false, 1, 2, fun _ => none⟩ :=
  addAll_sound (by rfl)

end RegionDB

end Flow123d
