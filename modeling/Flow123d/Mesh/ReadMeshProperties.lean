import Flow123d.System.PrintedLines

/-!
# Meshes that are read

What holds of a mesh that `GmshMeshReader::read_mesh` returns, whatever the file is.
-/

set_option autoImplicit false

namespace Flow123d

open Flow123d.Library

namespace RegionDB

variable {db next : RegionDB}

/-- A region that has its dimension is left as it is. -/
def KeepsDims (db next : RegionDB) : Prop :=
  ∀ item ∈ db.regionSet, item.dim ≠ undefinedDim → item ∈ next.regionSet

theorem KeepsDims.refl (db : RegionDB) : KeepsDims db db := fun _ member _ => member

theorem KeepsDims.trans {final : RegionDB} (first : KeepsDims db next)
    (second : KeepsDims next final) : KeepsDims db final := fun item member known =>
  second item (first item member known) known

theorem KeepsDims.replace (indices : (db.regionSet.map RegionItem.index).Nodup)
    {found : RegionItem} (member : found ∈ db.regionSet) (unknown : found.dim = undefinedDim)
    (dim : ℕ) : KeepsDims db (db.replace { found with dim := dim }) := by
  intro item listed known
  refine List.mem_map.mpr ⟨item, listed, if_neg fun same => ?_⟩
  have isFound : item = found := List.inj_on_of_nodup_map indices listed member same
  exact known (isFound ▸ unknown)

/-- What a successful call of `add_region(id, dim)` does. -/
structure GivesRegion (db : RegionDB) (id dim : ℕ) (reg : RegionIdx) (next : RegionDB) :
    Prop where
  keeps : KeepsDims db next
  region : ∃ item ∈ next.regionSet, item.index = reg.idx ∧ item.id = id ∧ item.dim = dim

theorem addRegionOfId_gives (indices : (db.regionSet.map RegionItem.index).Nodup) {id dim : ℕ}
    {reg : RegionIdx} (added : db.addRegionOfId id dim = (.ok reg, next)) :
    GivesRegion db id dim reg next := by
  unfold addRegionOfId at added
  cases known : db.itemOfId id with
  | none =>
      rw [known] at added
      unfold addRegion at added
      rw [known] at added
      split_ifs at added with closed
      · cases added
      · cases named : db.itemOfLabel (defaultLabel id) with
        | some other =>
            rw [named] at added
            cases added
        | none =>
            rw [named] at added
            unfold addNew at added
            dsimp only at added
            split_ifs at added with tooMany taken
            · cases added
            · cases added
            · cases added
              refine ⟨fun item listed _ => List.mem_append_left _ listed, _,
                List.mem_append_right _ (List.mem_singleton_self _), rfl, rfl, rfl⟩
  | some found =>
      have member := itemOfId_mem known
      have isId := id_of_itemOfId known
      rw [known] at added
      dsimp only at added
      unfold checkDimConsistency at added
      split_ifs at added with fits unknown
      · cases added
        exact ⟨.refl _, found, member, rfl, isId, fits⟩
      · cases added
        refine ⟨.replace indices member unknown dim, { found with dim := dim }, ?_, rfl, isId, rfl⟩
        exact List.mem_map.mpr ⟨found, member, if_pos rfl⟩
      · cases added

end RegionDB

namespace InputMesh

/-- The element has as many nodes as it needs, which are nodes of the mesh, and it lies in a
region of its dimension. -/
structure AcceptedElement (mesh : InputMesh) (ele : MeshElement) : Prop where
  dimLe : ele.dim ≤ 3
  nodeCount : ele.node.length = ele.dim + 1
  inNodes : ∀ node ∈ ele.node, node < mesh.nodeVector.size
  region : ∃ item ∈ mesh.regionDb.regionSet,
    item.index = ele.regionIdx.idx ∧ item.dim = ele.dim

structure WellFormed (mesh : InputMesh) : Prop where
  nodes : mesh.nodeVector.Consistent
  elements : mesh.element.Consistent
  bcElements : mesh.bcElements.Consistent
  regions : ∃ requests, RegionDB.Numbered requests mesh.regionDb
  bulk : ∀ ele ∈ mesh.element.storage,
    mesh.AcceptedElement ele ∧ ele.regionIdx.isBoundary = false ∧ 0 < ele.dim
  boundary : ∀ ele ∈ mesh.bcElements.storage,
    mesh.AcceptedElement ele ∧ ele.regionIdx.isBoundary = true

variable {mesh : InputMesh}

theorem wellFormed_ofRegions {requests : List RegionDB.AddRegion} {db : RegionDB}
    (numbered : RegionDB.Numbered requests db) : (ofRegions db).WellFormed where
  nodes := VectorId.consistent_empty
  elements := VectorId.consistent_empty
  bcElements := VectorId.consistent_empty
  regions := ⟨requests, numbered⟩
  bulk ele member := by cases member
  boundary ele member := by cases member

theorem AcceptedElement.keeps {ele : MeshElement} {db : RegionDB}
    (accepted : mesh.AcceptedElement ele) (keeps : RegionDB.KeepsDims mesh.regionDb db) :
    ({ mesh with regionDb := db } : InputMesh).AcceptedElement ele where
  dimLe := accepted.dimLe
  nodeCount := accepted.nodeCount
  inNodes := accepted.inNodes
  region := by
    obtain ⟨item, listed, isRegion, isDim⟩ := accepted.region
    have known : item.dim ≠ RegionDB.undefinedDim := by
      have small := accepted.dimLe
      unfold RegionDB.undefinedDim
      omega
    exact ⟨item, keeps item listed known, isRegion, isDim⟩

theorem WellFormed.withRegions {db : RegionDB} {requests : List RegionDB.AddRegion}
    (wellFormed : mesh.WellFormed) (keeps : RegionDB.KeepsDims mesh.regionDb db)
    (numbered : RegionDB.Numbered requests db) :
    ({ mesh with regionDb := db } : InputMesh).WellFormed where
  nodes := wellFormed.nodes
  elements := wellFormed.elements
  bcElements := wellFormed.bcElements
  regions := ⟨requests, numbered⟩
  bulk ele member :=
    ⟨(wellFormed.bulk ele member).1.keeps keeps, (wellFormed.bulk ele member).2⟩
  boundary ele member :=
    ⟨(wellFormed.boundary ele member).1.keeps keeps, (wellFormed.boundary ele member).2⟩

/-- An accepted element is put where its region belongs. -/
theorem WellFormed.addElement (wellFormed : mesh.WellFormed) {ele : MeshElement}
    (accepted : mesh.AcceptedElement ele)
    (noBulkPoint : ¬(ele.regionIdx.isBoundary = false ∧ ele.dim = 0)) (id : ℤ) :
    (mesh.addElement id ele).WellFormed ∧
      (mesh.addElement id ele).nAllInputElements = mesh.nAllInputElements + 1 := by
  unfold InputMesh.addElement
  cases kind : ele.regionIdx.isBoundary with
  | true =>
      refine ⟨⟨wellFormed.nodes, wellFormed.elements, wellFormed.bcElements.addItem id ele,
        wellFormed.regions, fun other member => ?_, fun other member => ?_⟩, ?_⟩
      · obtain ⟨ok, rest⟩ := wellFormed.bulk other member
        exact ⟨⟨ok.dimLe, ok.nodeCount, ok.inNodes, ok.region⟩, rest⟩
      · rcases List.mem_append.mp member with old | new
        · obtain ⟨ok, rest⟩ := wellFormed.boundary other old
          exact ⟨⟨ok.dimLe, ok.nodeCount, ok.inNodes, ok.region⟩, rest⟩
        · rw [List.mem_singleton.mp new]
          exact ⟨⟨accepted.dimLe, accepted.nodeCount, accepted.inNodes, accepted.region⟩, kind⟩
      · change mesh.element.size + (mesh.bcElements.addItem id ele).size = _
        rw [VectorId.size_addItem]
        rfl
  | false =>
      refine ⟨⟨wellFormed.nodes, wellFormed.elements.addItem id ele, wellFormed.bcElements,
        wellFormed.regions, fun other member => ?_, fun other member => ?_⟩, ?_⟩
      · rcases List.mem_append.mp member with old | new
        · obtain ⟨ok, rest⟩ := wellFormed.bulk other old
          exact ⟨⟨ok.dimLe, ok.nodeCount, ok.inNodes, ok.region⟩, rest⟩
        · rw [List.mem_singleton.mp new]
          exact ⟨⟨accepted.dimLe, accepted.nodeCount, accepted.inNodes, accepted.region⟩, kind,
            Nat.pos_of_ne_zero fun point => noBulkPoint ⟨kind, point⟩⟩
      · obtain ⟨ok, rest⟩ := wellFormed.boundary other member
        exact ⟨⟨ok.dimLe, ok.nodeCount, ok.inNodes, ok.region⟩, rest⟩
      · change (mesh.element.addItem id ele).size + mesh.bcElements.size = _
        rw [VectorId.size_addItem]
        exact Nat.succ_add ..

end InputMesh

namespace GmshMeshReader

variable {lexer : Lexer} {mesh : InputMesh} {tk : Tokenizer}

/-! ## Sections -/

/-- The mesh has regions and nothing else. -/
def OnlyRegions (read : InputMesh × Tokenizer) : Prop :=
  ∃ requests db, RegionDB.Numbered requests db ∧ read.1 = .ofRegions db

theorem readPhysicalName_meets {requests : List RegionDB.AddRegion} {db : RegionDB}
    (numbered : RegionDB.Numbered requests db) (tk : Tokenizer) :
    Meets (fun _ => True) OnlyRegions (readPhysicalName lexer (.ofRegions db) tk) := by
  unfold readPhysicalName
  refine Meets.bind (Meets.any _) fun (dim, tk) _ => ?_
  refine Meets.bind (Meets.any _) fun (id, tk) _ => ?_
  refine Meets.bind (Meets.any _) fun (name, tk) _ => ?_
  dsimp only
  cases added : (InputMesh.ofRegions db).regionDb.addRegion id name dim
      (name.toList.head? == some '.') with
  | mk outcome next =>
      cases outcome with
      | error error => trivial
      | ok reg =>
          have adds := RegionDB.addRegion_adds numbered.indices added
          have nextNumbered : RegionDB.Numbered (requests ++
              [.withKind id name dim (name.toList.head? == some '.')]) next := numbered.adds adds
          exact ⟨_, next, nextNumbered, rfl⟩

theorem readPhysicalLines_meets {requests : List RegionDB.AddRegion} {db : RegionDB}
    (numbered : RegionDB.Numbered requests db) (count : ℕ) (tk : Tokenizer) :
    Meets (fun _ => True) OnlyRegions (readPhysicalLines lexer count (.ofRegions db) tk) := by
  induction count generalizing requests db tk with
  | zero => exact ⟨requests, db, numbered, rfl⟩
  | succ count ih =>
      refine Meets.bind (readPhysicalName_meets numbered tk) fun (next, tk) read => ?_
      obtain ⟨more, nextDb, nextNumbered, isNext⟩ := read
      dsimp only at isNext ⊢
      rw [isNext]
      exact ih nextNumbered tk

theorem readPhysicalNames_meets {requests : List RegionDB.AddRegion} {db : RegionDB}
    (numbered : RegionDB.Numbered requests db) (tk : Tokenizer) :
    Meets (fun _ => True) OnlyRegions (readPhysicalNames lexer (.ofRegions db) tk) := by
  unfold readPhysicalNames
  rcases tk.skipUntil lexer "$PhysicalNames" "$Nodes" with ⟨found, tk⟩
  cases found with
  | false => exact ⟨requests, db, numbered, rfl⟩
  | true =>
      refine Meets.bind (Meets.any _) fun (count, tk) _ => ?_
      exact readPhysicalLines_meets numbered count tk

theorem readNodeLines_meets {nodes : VectorId MeshNode} (consistent : nodes.Consistent)
    (count : ℕ) (tk : Tokenizer) :
    Meets (fun _ => True) (fun read => read.1.Consistent ∧ read.1.size = nodes.size + count)
      (readNodeLines lexer count nodes tk) := by
  induction count generalizing nodes tk with
  | zero => exact ⟨consistent, rfl⟩
  | succ count ih =>
      have step : Meets (fun _ => True)
          (fun read => read.1.Consistent ∧ read.1.size = nodes.size + 1)
          (readNode lexer nodes tk) := by
        unfold readNode
        refine Meets.bind (Meets.any _) fun (id, tk) _ => ?_
        refine Meets.bind (Meets.any _) fun (x, tk) _ => ?_
        refine Meets.bind (Meets.any _) fun (y, tk) _ => ?_
        refine Meets.bind (Meets.any _) fun (z, tk) _ => ?_
        exact ⟨consistent.addItem _ _, VectorId.size_addItem _ _⟩
      refine Meets.bind step fun (next, tk) read => ?_
      refine (ih read.1 tk).mono fun final after => ⟨after.1, ?_⟩
      rw [after.2, read.2, Nat.add_assoc, Nat.add_comm 1]

/-- There is a node, and no element yet. -/
theorem readNodes_meets {requests : List RegionDB.AddRegion} {db : RegionDB}
    (numbered : RegionDB.Numbered requests db) (tk : Tokenizer) :
    Meets (fun _ => True)
      (fun read => read.1.WellFormed ∧ 0 < read.1.nodeVector.size ∧
        read.1.nAllInputElements = 0)
      (readNodes lexer (.ofRegions db) tk) := by
  unfold readNodes
  rcases tk.skipTo lexer "$Nodes" with ⟨found, tk⟩
  cases found with
  | false => trivial
  | true =>
      refine Meets.bind (Meets.any _) fun (nNodes, tk) _ => ?_
      dsimp only
      split_ifs with zero
      · trivial
      · refine Meets.bind (readNodeLines_meets VectorId.consistent_empty nNodes tk) ?_
        rintro ⟨nodes, tk⟩ ⟨consistent, size⟩
        have fresh := InputMesh.wellFormed_ofRegions numbered
        refine ⟨⟨consistent, fresh.elements, fresh.bcElements, fresh.regions, nofun, nofun⟩, ?_, rfl⟩
        change 0 < nodes.size
        rw [size]
        exact Nat.lt_of_lt_of_le (Nat.pos_of_ne_zero zero) (Nat.le_add_left _ _)

/-! ## Elements -/

theorem elementDim_le {type dim : ℕ} (supported : elementDim type = some dim) : dim ≤ 3 := by
  unfold elementDim at supported
  split at supported <;> cases supported <;> decide

theorem readElementHead_meets (tk : Tokenizer) :
    Meets (fun _ => True) (fun read => read.1.dim ≤ 3) (readElementHead lexer tk) := by
  unfold readElementHead
  refine Meets.bind (Meets.any _) fun (id, tk) _ => ?_
  refine Meets.bind (Meets.any _) fun (type, tk) _ => ?_
  dsimp only
  cases supported : elementDim type with
  | none => trivial
  | some dim =>
      have small := elementDim_le supported
      unfold readTags
      refine Meets.bind (Meets.any _) fun (nTags, tk) _ => ?_
      dsimp only
      split_ifs with few more
      · trivial
      · refine Meets.bind (Meets.any _) fun (regionId, tk) _ => ?_
        refine Meets.bind (Meets.any _) fun (objectId, tk) _ => ?_
        exact Meets.bind (Meets.any _) fun _ _ => small
      · refine Meets.bind (Meets.any _) fun (regionId, tk) _ => ?_
        exact Meets.bind (Meets.any _) fun _ _ => small

theorem readElementNodes_meets {nodes : VectorId MeshNode} (consistent : nodes.Consistent)
    (id count : ℕ) (tk : Tokenizer) :
    Meets (fun _ => True)
      (fun read => read.1.length = count ∧ ∀ node ∈ read.1, node < nodes.size)
      (readElementNodes lexer nodes id count tk) := by
  induction count generalizing tk with
  | zero => exact ⟨rfl, nofun⟩
  | succ count ih =>
      refine Meets.bind (Meets.any _) fun (nodeId, tk) _ => ?_
      dsimp only
      cases found : nodes.findId (asInt nodeId) with
      | none => trivial
      | some node =>
          refine Meets.bind (ih tk) fun (rest, tk) read => ?_
          refine ⟨congrArg (· + 1) read.1, fun other member => ?_⟩
          rcases List.mem_cons.mp member with rfl | later
          · exact consistent.findId_lt found
          · exact read.2 other later

theorem readElement_meets (elToRegMap : ℕ → Option ℕ) (wellFormed : mesh.WellFormed)
    (tk : Tokenizer) :
    Meets (fun _ => True)
      (fun read => read.1.WellFormed ∧ read.1.nodeVector = mesh.nodeVector ∧
        read.1.nAllInputElements = mesh.nAllInputElements + 1)
      (readElement lexer elToRegMap mesh tk) := by
  unfold readElement
  refine Meets.bind (readElementHead_meets tk) fun (head, tk) small => ?_
  dsimp only at small ⊢
  cases added : mesh.regionDb.addRegionOfId ((elToRegMap head.id).getD head.regionId) head.dim with
  | mk outcome db =>
      cases outcome with
      | error error => trivial
      | ok reg =>
          obtain ⟨requests, numbered⟩ := wellFormed.regions
          have gives := RegionDB.addRegionOfId_gives numbered.indices added
          have adds := RegionDB.addRegionOfId_adds numbered.indices added
          have dbNumbered : RegionDB.Numbered (requests ++ [.withId _ head.dim]) db :=
            numbered.adds adds
          have updated := wellFormed.withRegions gives.keeps dbNumbered
          dsimp only
          split_ifs with bulkPoint
          · trivial
          · refine Meets.bind (readElementNodes_meets wellFormed.nodes head.id _ tk) ?_
            rintro ⟨nodes, tk⟩ ⟨nodeCount, inNodes⟩
            obtain ⟨item, listed, isRegion, _, isDim⟩ := gives.region
            have accepted : ({ mesh with regionDb := db } : InputMesh).AcceptedElement
                ⟨head.dim, reg, asInt head.partitionId, nodes⟩ :=
              ⟨small, nodeCount, inNodes, item, listed, isRegion, isDim⟩
            obtain ⟨kept, counted⟩ := updated.addElement accepted bulkPoint (asInt head.id)
            refine ⟨kept, ?_, counted⟩
            change (InputMesh.addElement _ _ _).nodeVector = _
            unfold InputMesh.addElement
            split_ifs <;> rfl

theorem readElementLines_meets (elToRegMap : ℕ → Option ℕ) (wellFormed : mesh.WellFormed)
    (count : ℕ) (tk : Tokenizer) :
    Meets (fun _ => True)
      (fun read => read.1.WellFormed ∧ read.1.nodeVector = mesh.nodeVector ∧
        read.1.nAllInputElements = mesh.nAllInputElements + count)
      (readElementLines lexer elToRegMap count mesh tk) := by
  induction count generalizing mesh tk with
  | zero => exact ⟨wellFormed, rfl, rfl⟩
  | succ count ih =>
      refine Meets.bind (readElement_meets elToRegMap wellFormed tk) fun (next, tk) read => ?_
      obtain ⟨kept, sameNodes, counted⟩ := read
      refine (ih kept tk).mono fun final after => ⟨after.1, after.2.1.trans sameNodes, ?_⟩
      rw [after.2.2, counted, Nat.add_assoc, Nat.add_comm 1]

/-- A line element with a boundary element at its first node. -/
def segmentLines : List String :=
  ["$MeshFormat", "2 0 8", "$EndMeshFormat", "$PhysicalNames", "1", "0 7 .left",
    "$EndPhysicalNames", "$Nodes", "2", "4 0 0 0", "9 1 0 0", "$EndNodes", "$Elements", "2",
    "1 1 2 3 3 4 9", "2 15 2 7 7 4", "$EndElements"]

end GmshMeshReader

end Flow123d
