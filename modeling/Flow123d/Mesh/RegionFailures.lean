import Flow123d.Mesh.RegionNumbering

/-!
# Failed calls on the database of regions

When an exception of `add_region` leaves the database as it was, and no label that was not
found is read.
-/

set_option autoImplicit false

namespace Flow123d

/-- The exceptions for regions that do not fit those of the database, and for a closed one. -/
def RegionError.isMismatch : RegionError → Bool
  | .addToClosed => true
  | .nonuniqueID _ _ _ => true
  | .nonuniqueLabel _ _ _ => true
  | .inconsistentBoundary _ _ => true
  | .inconsistentDimension _ _ => true
  | .cantAdd _ _ => false
  | .tooManyRegions => false
  | .endDereferenced => false

namespace RegionDB

namespace AddRegion

def dim : AddRegion → ℕ
  | .withKind _ _ dim _ => dim
  | .withLabel _ _ dim => dim
  | .withId _ dim => dim
  | .implicitBoundary => undefinedDim

/-- The overload without a label does not look up the label of a known region. -/
def namesLabel : AddRegion → Bool
  | .withKind _ _ _ _ => true
  | .withLabel _ _ _ => true
  | .withId _ _ => false
  | .implicitBoundary => true

end AddRegion

variable {db : RegionDB}

/-- What a call returned and left, where it was called on `db`. -/
structure Clean (db : RegionDB) (result : Except RegionError RegionIdx × RegionDB) : Prop where
  found : result.1 ≠ .error .endDereferenced
  unchanged : ∀ error, result.1 = .error error → error.isMismatch = true → result.2 = db

/-- The region that has the ID already has its dimension, but the label is unknown; or it has
none yet and would be given one, but is of the other kind. -/
def Confused (db : RegionDB) (found : RegionItem) (label : String) (dim : ℕ) (boundary : Bool) :
    Prop :=
  (found.dim ≠ undefinedDim ∧ db.itemOfLabel label = none) ∨
    (found.dim = undefinedDim ∧ dim ≠ undefinedDim ∧
      (RegionIdx.mk found.index).isBoundary ≠ boundary)

/-- An open database with a region of the ID of the call is not confused by it. -/
def Unconfused (db : RegionDB) (request : AddRegion) : Prop :=
  db.closed = false → request.namesLabel = true → ∀ found, db.itemOfId request.id = some found →
    ¬ db.Confused found request.label request.dim request.isBoundary

/-! ## What the parts of a call do -/

theorem Clean.of_same {result : Except RegionError RegionIdx}
    (found : result ≠ .error .endDereferenced) : Clean db (result, db) :=
  ⟨found, fun _ _ _ => rfl⟩

theorem Clean.of_ok (reg : RegionIdx) (next : RegionDB) : Clean db (.ok reg, next) :=
  ⟨nofun, nofun⟩

theorem replace_ne {found : RegionItem} {dim : ℕ} (member : found ∈ db.regionSet)
    (other : found.dim ≠ dim) : db.replace { found with dim := dim } ≠ db := by
  intro same
  have items := congrArg RegionDB.regionSet same
  have replaced := List.map_inj_left.mp (items.trans (List.map_id _).symm) found member
  rw [if_pos rfl] at replaced
  exact other (congrArg RegionItem.dim replaced).symm

theorem addKnown_clean_iff {found : RegionItem} (member : found ∈ db.regionSet) (label : String)
    (dim : ℕ) (boundary : Bool) : Clean db (db.addKnown found label dim boundary) ↔
      ¬ db.Confused found label dim boundary := by
  unfold addKnown checkLabel Confused
  by_cases unknown : found.dim = undefinedDim
  · rw [if_pos unknown]
    dsimp only
    unfold checkDimConsistency
    by_cases same : found.dim = dim
    · -- no dimension is given, and none is replaced
      rw [if_pos same]
      dsimp only
      split_ifs with kind
      · exact iff_of_true (.of_ok _ _) (by simp [unknown, kind])
      · refine iff_of_true (.of_same nofun) ?_
        simp [unknown, ← same]
    · rw [if_neg same, if_pos unknown]
      dsimp only
      split_ifs with kind
      · exact iff_of_true (.of_ok _ _) (by simp [unknown, kind])
      · refine iff_of_false (fun clean => ?_) ?_
        · exact replace_ne member same (clean.unchanged _ rfl rfl)
        · rw [not_not]
          exact .inr ⟨unknown, fun given => same (unknown.trans given.symm), kind⟩
  · rw [if_neg unknown]
    cases named : db.itemOfLabel label with
    | none =>
        refine iff_of_false (fun clean => clean.found rfl) ?_
        rw [not_not]
        exact .inl ⟨unknown, rfl⟩
    | some other =>
        refine iff_of_true ?_ (by simp [unknown])
        dsimp only
        by_cases index : found.index = other.index
        · rw [if_pos index]
          dsimp only
          unfold checkDimConsistency
          rw [if_neg unknown]
          by_cases same : found.dim = dim
          · rw [if_pos same]
            dsimp only
            by_cases kind : (RegionIdx.mk found.index).isBoundary = boundary
            · rw [if_pos kind]
              exact .of_ok _ _
            · rw [if_neg kind]
              exact .of_same nofun
          · rw [if_neg same]
            exact .of_same nofun
        · rw [if_neg index]
          exact .of_same nofun

theorem addNew_clean (db : RegionDB) (id : ℕ) (label : String) (dim : ℕ) (boundary : Bool) :
    Clean db (db.addNew id label dim boundary) := by
  unfold addNew
  dsimp only
  split_ifs
  · exact ⟨by simp, by rintro error ⟨⟩ mismatch; cases mismatch⟩
  · exact ⟨by simp, by rintro error ⟨⟩ mismatch; cases mismatch⟩
  · exact .of_ok _ _

theorem addRegion_clean_iff (db : RegionDB) (id : ℕ) (label : String) (dim : ℕ)
    (boundary : Bool) : Clean db (db.addRegion id label dim boundary) ↔
      (db.closed = false → ∀ found, db.itemOfId id = some found →
        ¬ db.Confused found label dim boundary) := by
  unfold addRegion
  cases closed : db.closed with
  | true => exact iff_of_true (.of_same nofun) (by simp)
  | false =>
      cases known : db.itemOfId id with
      | some found =>
          simpa using addKnown_clean_iff (itemOfId_mem known) label dim boundary
      | none =>
          refine iff_of_true ?_ (by simp)
          cases db.itemOfLabel label with
          | some other => exact .of_same nofun
          | none => exact addNew_clean db id label dim boundary

theorem addRegionOfId_clean (db : RegionDB) (id dim : ℕ) :
    Clean db (db.addRegionOfId id dim) := by
  unfold addRegionOfId
  cases known : db.itemOfId id with
  | none =>
      refine (addRegion_clean_iff db id (defaultLabel id) dim false).mpr ?_
      simp [known]
  | some found =>
      dsimp only
      unfold checkDimConsistency
      split_ifs
      · exact .of_ok _ _
      · exact .of_ok _ _
      · exact .of_same nofun

/-- A call of any overload fails cleanly exactly when it does not confuse the database. -/
theorem add_clean_iff (db : RegionDB) (request : AddRegion) :
    Clean db (db.add request) ↔ db.Unconfused request := by
  unfold Unconfused
  cases request with
  | withKind id label dim boundary =>
      exact (addRegion_clean_iff db id label dim boundary).trans (by simp [AddRegion.namesLabel,
        AddRegion.id, AddRegion.label, AddRegion.dim, AddRegion.isBoundary])
  | withLabel id label dim =>
      change Clean db (db.addRegionOfLabel id label dim) ↔ _
      unfold addRegionOfLabel
      split_ifs with empty
      · refine (addRegion_clean_iff db id (defaultLabel id) dim false).trans ?_
        simp [AddRegion.namesLabel, AddRegion.id, AddRegion.label, AddRegion.dim,
          AddRegion.isBoundary, empty]
      · refine (addRegion_clean_iff db id label dim _).trans ?_
        simp [AddRegion.namesLabel, AddRegion.id, AddRegion.label, AddRegion.dim,
          AddRegion.isBoundary, empty]
  | withId id dim =>
      exact iff_of_true (addRegionOfId_clean db id dim) fun _ named =>
        absurd named Bool.false_ne_true
  | implicitBoundary =>
      exact (addRegion_clean_iff db _ _ _ _).trans (by simp [AddRegion.namesLabel,
        AddRegion.id, AddRegion.label, AddRegion.dim, AddRegion.isBoundary])

/-- A region that the mesh record named without a dimension. -/
def namedTop : RegionDB := (init.add (.withKind 7 "top" undefinedDim false)).2

/-- The second call gives the region the dimension 2 before it finds that the kinds differ. -/
theorem not_always_clean : ¬ ∀ (db : RegionDB) (request : AddRegion),
    Clean db (db.add request) := by
  intro always
  have unchanged := (always namedTop (.withKind 7 "top" 2 true)).unchanged _ rfl rfl
  have items := congrArg (fun db => db.regionSet.map RegionItem.dim) unchanged
  revert items
  decide

end RegionDB

end Flow123d
