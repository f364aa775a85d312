import Flow123d.Library.Outcome
import Flow123d.Mesh.Element
import Flow123d.Mesh.GmshMeshReader
import Flow123d.Mesh.RegionNumbering

/-!
# Reading a mesh from a GMSH file

`GmshMeshReader::read_mesh`: the sections `$PhysicalNames`, `$Nodes` and `$Elements`, with the
vectors that keep the numbers of their items. Warnings are left out.
-/

set_option autoImplicit false

namespace Flow123d

open Flow123d.Library

/-! ## Items with the numbers of the input -/

/-- `flow::VectorId`. The check of `add_item` for a number that exists is an assertion. -/
structure VectorId (T : Type) where
  storage : List T
  idStorage : List ℤ
  idMap : ℤ → Option ℕ

namespace VectorId

variable {T : Type}

def empty : VectorId T := ⟨[], [], fun _ => none⟩

def size (items : VectorId T) : ℕ := items.storage.length

/-- `add_item`, and what its caller puts into the new item. -/
def addItem (items : VectorId T) (id : ℤ) (item : T) : VectorId T where
  storage := items.storage ++ [item]
  idStorage := items.idStorage ++ [id]
  idMap := Function.update items.idMap id (some items.size)

def findId (items : VectorId T) (id : ℤ) : Option ℕ := items.idMap id

def getId (items : VectorId T) (i : ℕ) : Option ℤ := items.idStorage[i]?

/-- A number is found at the last item that has it. -/
structure Consistent (items : VectorId T) : Prop where
  numbered : items.idStorage.length = items.storage.length
  found : ∀ id i, items.findId id = some i →
    items.getId i = some id ∧ ∀ j, items.getId j = some id → j ≤ i
  known : ∀ id ∈ items.idStorage, (items.findId id).isSome

theorem consistent_empty : (empty : VectorId T).Consistent where
  numbered := rfl
  found id i isFound := by cases isFound
  known id member := by cases member

variable {items : VectorId T}

@[simp] theorem size_addItem (id : ℤ) (item : T) : (items.addItem id item).size = items.size + 1 :=
  List.length_append

theorem Consistent.addItem (consistent : items.Consistent) (id : ℤ) (item : T) :
    (items.addItem id item).Consistent where
  numbered := by
    simp only [VectorId.addItem, List.length_append, List.length_singleton, consistent.numbered]
  found other i isFound := by
    have last : items.idStorage.length = items.size := consistent.numbered
    unfold findId VectorId.addItem at isFound
    unfold getId VectorId.addItem
    by_cases same : other = id
    · subst same
      simp only [Function.update_self, Option.some.injEq] at isFound
      subst isFound
      refine ⟨by rw [← last, List.getElem?_concat_length], fun j isId => ?_⟩
      have inside := (List.getElem?_eq_some_iff.mp isId).1
      simp only [List.length_append, List.length_singleton] at inside
      omega
    · simp only [Function.update_of_ne same] at isFound
      obtain ⟨isId, latest⟩ := consistent.found other i isFound
      have before : i < items.idStorage.length := (List.getElem?_eq_some_iff.mp isId).1
      refine ⟨by rw [List.getElem?_append_left before]; exact isId, fun j isOther => ?_⟩
      by_cases old : j < items.idStorage.length
      · rw [List.getElem?_append_left old] at isOther
        exact latest j isOther
      · rw [List.getElem?_append_right (Nat.le_of_not_lt old)] at isOther
        obtain ⟨_, isNew⟩ := List.getElem?_eq_some_iff.mp isOther
        rw [List.getElem_singleton] at isNew
        exact absurd isNew.symm same
  known other member := by
    unfold findId VectorId.addItem
    by_cases same : other = id
    · simp [same]
    · simp only [Function.update_of_ne same]
      rcases List.mem_append.mp member with old | new
      · exact consistent.known other old
      · exact absurd (List.mem_singleton.mp new) same

theorem Consistent.findId_lt (consistent : items.Consistent) {id : ℤ} {i : ℕ}
    (isFound : items.findId id = some i) : i < items.size := by
  have isId := (consistent.found id i isFound).1
  exact (List.getElem?_eq_some_iff.mp isId).1.trans_eq consistent.numbered

end VectorId

/-! ## The mesh that is read -/

structure MeshNode where
  x : Double
  y : Double
  z : Double
deriving DecidableEq

/-- An `Element` as it is read. The nodes are positions in the vector of nodes. -/
structure MeshElement where
  dim : ℕ
  regionIdx : RegionIdx
  pid : ℤ
  node : List ℕ
deriving DecidableEq

structure InputMesh where
  nodeVector : VectorId MeshNode
  element : VectorId MeshElement
  bcElements : VectorId MeshElement
  regionDb : RegionDB

inductive ReadMeshError where
  | missingNodes
  | missingElements
  | zeroNodes
  | zeroElements
  | wrongNumber
  | missingToken
  | unsupportedType (id type : ℕ)
  | fewTags (id : ℕ)
  | unknownNode (nodeId id : ℕ)
  | region (error : RegionError)
  /-- A bulk point is only warned of; what follows uses a pointer that has no value. -/
  | bulkPoint (id : ℕ)
deriving DecidableEq

namespace InputMesh

def ofRegions (db : RegionDB) : InputMesh := ⟨.empty, .empty, .empty, db⟩

/-- `n_all_input_elements_`. -/
def nAllInputElements (mesh : InputMesh) : ℕ := mesh.element.size + mesh.bcElements.size

def addElement (mesh : InputMesh) (id : ℤ) (ele : MeshElement) : InputMesh :=
  if ele.regionIdx.isBoundary then { mesh with bcElements := mesh.bcElements.addItem id ele }
  else { mesh with element := mesh.element.addItem id ele }

end InputMesh

namespace GmshMeshReader

variable (lexer : Lexer)

def takeUnsigned (tk : Tokenizer) : Except ReadMeshError (ℕ × Tokenizer) :=
  tk.takeCast .missingToken .wrongNumber lexer.castUnsigned

def takeDouble (tk : Tokenizer) : Except ReadMeshError (Double × Tokenizer) :=
  tk.takeCast .missingToken .wrongNumber lexer.castDouble

/-! ## Physical names -/

/-- A line with dimension, ID and name. -/
def readPhysicalName (mesh : InputMesh) (tk : Tokenizer) :
    Except ReadMeshError (InputMesh × Tokenizer) := do
  let (dim, tk) ← takeUnsigned lexer (tk.nextLine lexer)
  let (id, tk) ← takeUnsigned lexer tk
  let (name, tk) ← tk.takeToken .missingToken
  match mesh.regionDb.addRegion id name dim (name.toList.head? == some '.') with
  | (.error error, _) => .error (.region error)
  | (.ok _, db) => .ok ({ mesh with regionDb := db }, tk)

def readPhysicalLines : ℕ → InputMesh → Tokenizer → Except ReadMeshError (InputMesh × Tokenizer)
  | 0, mesh, tk => .ok (mesh, tk)
  | count + 1, mesh, tk => do
      let (mesh, tk) ← readPhysicalName lexer mesh tk
      readPhysicalLines count mesh tk

/-- The section is optional; the search for it stops at the nodes. -/
def readPhysicalNames (mesh : InputMesh) (tk : Tokenizer) :
    Except ReadMeshError (InputMesh × Tokenizer) :=
  match tk.skipUntil lexer "$PhysicalNames" "$Nodes" with
  | (false, tk) => .ok (mesh, tk)
  | (true, tk) => do
      let (nPhysicals, tk) ← takeUnsigned lexer (tk.nextLine lexer)
      readPhysicalLines lexer nPhysicals mesh tk

/-! ## Nodes -/

/-- A line with ID and coordinates; what follows is skipped. -/
def readNode (nodes : VectorId MeshNode) (tk : Tokenizer) :
    Except ReadMeshError (VectorId MeshNode × Tokenizer) := do
  let (id, tk) ← takeUnsigned lexer (tk.nextLine lexer)
  let (x, tk) ← takeDouble lexer tk
  let (y, tk) ← takeDouble lexer tk
  let (z, tk) ← takeDouble lexer tk
  .ok (nodes.addItem (asInt id) ⟨x, y, z⟩, tk)

def readNodeLines :
    ℕ → VectorId MeshNode → Tokenizer → Except ReadMeshError (VectorId MeshNode × Tokenizer)
  | 0, nodes, tk => .ok (nodes, tk)
  | count + 1, nodes, tk => do
      let (nodes, tk) ← readNode lexer nodes tk
      readNodeLines count nodes tk

def readNodes (mesh : InputMesh) (tk : Tokenizer) :
    Except ReadMeshError (InputMesh × Tokenizer) :=
  match tk.skipTo lexer "$Nodes" with
  | (false, _) => .error .missingNodes
  | (true, tk) => do
      let (nNodes, tk) ← takeUnsigned lexer (tk.nextLine lexer)
      if nNodes = 0 then .error .zeroNodes
      else do
        let (nodes, tk) ← readNodeLines lexer nNodes mesh.nodeVector tk
        .ok ({ mesh with nodeVector := nodes }, tk)

/-! ## Elements -/

/-- What an element line holds in front of the nodes. -/
structure ElementHead where
  id : ℕ
  dim : ℕ
  regionId : ℕ
  partitionId : ℕ

/-- The dimension of an element type that is supported. -/
def elementDim : ℕ → Option ℕ
  | 1 => some 1
  | 2 => some 2
  | 4 => some 3
  | 15 => some 0
  | _ => none

/-- There is a partition number only in the new format, with a third tag. -/
def readTags (id dim : ℕ) (tk : Tokenizer) : Except ReadMeshError (ElementHead × Tokenizer) := do
  let (nTags, tk) ← takeUnsigned lexer tk
  if nTags < 2 then .error (.fewTags id)
  else do
    let (regionId, tk) ← takeUnsigned lexer tk
    let (_, tk) ← takeUnsigned lexer tk
    if 2 < nTags then do
      let (partitionId, tk) ← takeUnsigned lexer tk
      .ok (⟨id, dim, regionId, partitionId⟩, tk.dropTokens (nTags - 3))
    else .ok (⟨id, dim, regionId, 0⟩, tk)

def readElementHead (tk : Tokenizer) : Except ReadMeshError (ElementHead × Tokenizer) := do
  let (id, tk) ← takeUnsigned lexer (tk.nextLine lexer)
  let (type, tk) ← takeUnsigned lexer tk
  match elementDim type with
  | none => .error (.unsupportedType id type)
  | some dim => readTags lexer id dim tk

def readElementNodes (nodes : VectorId MeshNode) (id : ℕ) :
    ℕ → Tokenizer → Except ReadMeshError (List ℕ × Tokenizer)
  | 0, tk => .ok ([], tk)
  | count + 1, tk => do
      let (nodeId, tk) ← takeUnsigned lexer tk
      match nodes.findId (asInt nodeId) with
      | none => .error (.unknownNode nodeId id)
      | some node => do
          let (rest, tk) ← readElementNodes nodes id count tk
          .ok (node :: rest, tk)

/-- The region ID of the line may be replaced by the one of the mesh record. -/
def readElement (elToRegMap : ℕ → Option ℕ) (mesh : InputMesh) (tk : Tokenizer) :
    Except ReadMeshError (InputMesh × Tokenizer) := do
  let (head, tk) ← readElementHead lexer tk
  match mesh.regionDb.addRegionOfId ((elToRegMap head.id).getD head.regionId) head.dim with
  | (.error error, _) => .error (.region error)
  | (.ok regionIdx, db) =>
      if regionIdx.isBoundary = false ∧ head.dim = 0 then .error (.bulkPoint head.id)
      else do
        let (nodes, tk) ← readElementNodes lexer mesh.nodeVector head.id (head.dim + 1) tk
        .ok (({ mesh with regionDb := db } : InputMesh).addElement (asInt head.id)
          ⟨head.dim, regionIdx, asInt head.partitionId, nodes⟩, tk)

def readElementLines (elToRegMap : ℕ → Option ℕ) :
    ℕ → InputMesh → Tokenizer → Except ReadMeshError (InputMesh × Tokenizer)
  | 0, mesh, tk => .ok (mesh, tk)
  | count + 1, mesh, tk => do
      let (mesh, tk) ← readElement lexer elToRegMap mesh tk
      readElementLines elToRegMap count mesh tk

def readElements (elToRegMap : ℕ → Option ℕ) (mesh : InputMesh) (tk : Tokenizer) :
    Except ReadMeshError (InputMesh × Tokenizer) :=
  match tk.skipTo lexer "$Elements" with
  | (false, _) => .error .missingElements
  | (true, tk) => do
      let (nElements, tk) ← takeUnsigned lexer (tk.nextLine lexer)
      if nElements = 0 then .error .zeroElements
      else readElementLines lexer elToRegMap nElements mesh tk

def readMesh (elToRegMap : ℕ → Option ℕ) (mesh : InputMesh) (tk : Tokenizer) :
    Except ReadMeshError (InputMesh × Tokenizer) := do
  let (mesh, tk) ← readPhysicalNames lexer mesh tk
  let (mesh, tk) ← readNodes lexer mesh tk
  readElements lexer elToRegMap mesh tk

end GmshMeshReader

end Flow123d
