import Mathlib.Data.List.ProdSigma
import Flow123d.Flow.DarcyFlowMH
import Flow123d.Library.Pattern

/-!
# The entries that the assembly allocates

`assembly_steady_mh_matrix` with the zero blocks that make space for the Schur complements.
Every value that `form_schur` adds to a complement finds an allocated place.
-/

set_option autoImplicit false

namespace Flow123d

open Flow123d.Library

variable {mesh : FlowMesh}

/-- What the calls of `mat_set_values` have allocated so far, and the local array
`tmp_rows`. -/
structure Allocation (mesh : FlowMesh) where
  tmpRows : List (Option mesh.Row)
  positions : List (mesh.Row × mesh.Row)

namespace Allocation

def matSetValues (allocation : Allocation mesh) (rows cols : List mesh.Row) :
    Allocation mesh :=
  { allocation with positions := allocation.positions ++ rows ×ˢ cols }

def store (allocation : Allocation mesh) (place : ℕ) (row : mesh.Row) : Allocation mesh :=
  { allocation with tmpRows := allocation.tmpRows.set place (some row) }

/-- The rows that `count` entries of `tmp_rows` name, from the entry `start` on. -/
def stored (allocation : Allocation mesh) (start count : ℕ) : List mesh.Row :=
  ((allocation.tmpRows.drop start).take count).filterMap id

end Allocation

namespace FlowMesh

def sideRows (mesh : FlowMesh) (elm : mesh.Element) : List mesh.Row :=
  (mesh.sides elm).map .side

def edgeRows (mesh : FlowMesh) (elm : mesh.Element) : List mesh.Row :=
  (mesh.sides elm).map fun side => .edge (mesh.edgeIdx side)

/-- The local arrays `tmp_rows[100]` and `zeros[1000]` have room for every element. -/
def BuffersSuffice (mesh : FlowMesh) : Prop :=
  ∀ elm, (mesh.neighVb elm).length < 98 ∧
    (mesh.neighVb elm).length * (mesh.neighVb elm).length < 1000

end FlowMesh

namespace DarcyFlowMHSteady

def neighbourStep (nSchurs : ℕ) (elm : mesh.Element) (allocation : Allocation mesh)
    (item : FlowNeighbour mesh.nElements mesh.nEdges mesh.Side × ℕ) : Allocation mesh :=
  let named := (allocation.store 0 (.element elm)).store 1 (.edge item.1.edgeIdx)
  let coupled := named.matSetValues (named.stored 0 2) (named.stored 0 2)
  if nSchurs = 2 then
    ((coupled.matSetValues (mesh.edgeRows elm) (coupled.stored 1 1)).matSetValues
      (coupled.stored 1 1) (mesh.edgeRows elm)).store (2 + item.2) (.edge item.1.edgeIdx)
  else coupled

/-- The calls for one element before the loop over its neighbours. -/
def allocateLocal (data : FlowData mesh) (elm : mesh.Element) (allocation : Allocation mesh) :
    Allocation mesh :=
  let conditions := { allocation with
    positions := allocation.positions ++
      ((mesh.sides elm).flatMap data.sideMatrix).map
        fun (entry : mesh.MatrixEntry) => (entry.1, entry.2.1) }
  ((((conditions.matSetValues (mesh.sideRows elm) (mesh.sideRows elm)).matSetValues
    [.element elm] (mesh.sideRows elm)).matSetValues
      (mesh.sideRows elm) [.element elm]).matSetValues [.element elm] [.element elm])

/-- The `switch` after the loop. Its case 2 falls through to case 1. -/
def allocateVirtual (nSchurs : ℕ) (elm : mesh.Element) (allocation : Allocation mesh) :
    Allocation mesh :=
  let count := (mesh.neighVb elm).length
  let second :=
    if nSchurs = 2 then
      allocation.matSetValues (allocation.stored 2 count) (allocation.stored 2 count)
    else allocation
  if nSchurs = 1 ∨ nSchurs = 2 then
    ((second.matSetValues [.element elm] (mesh.edgeRows elm)).matSetValues
      (mesh.edgeRows elm) [.element elm]).matSetValues (mesh.edgeRows elm) (mesh.edgeRows elm)
  else second

def allocateElement (nSchurs : ℕ) (data : FlowData mesh) (allocation : Allocation mesh)
    (elm : mesh.Element) : Allocation mesh :=
  allocateVirtual nSchurs elm
    ((mesh.neighVb elm).zipIdx.foldl (neighbourStep nSchurs elm)
      (allocateLocal data elm allocation))

/-- The allocation by a whole call of `assembly_steady_mh_matrix`. -/
def allocate (nSchurs : ℕ) (data : FlowData mesh) : Allocation mesh :=
  (List.finRange mesh.nElements).foldl (allocateElement nSchurs data)
    ⟨List.replicate 100 none, []⟩

def allocated (nSchurs : ℕ) (data : FlowData mesh) : SetRel mesh.Row mesh.Row :=
  {position | position ∈ (allocate nSchurs data).positions}

end DarcyFlowMHSteady

/-! ## The complements -/

namespace FlowMesh

/-- The rows of the first complement. -/
def restRow (mesh : FlowMesh) : mesh.Element ⊕ mesh.Edge → mesh.Row :=
  Sum.elim .element .edge

/-- What `make_schur1` sets in `IA1`. -/
def ia1 (mesh : FlowMesh) : SetRel mesh.Side mesh.Side :=
  {position | ∃ elm, position.1 ∈ mesh.sides elm ∧ position.2 ∈ mesh.sides elm}

/-- What `make_schur2` sets in `IA2`. -/
def ia2 (mesh : FlowMesh) : SetRel mesh.Element mesh.Element :=
  {position | position.1 = position.2}

end FlowMesh

namespace DarcyFlowMHSteady

/-- The complement is added to a copy of the block `C`. -/
def firstComplement (nSchurs : ℕ) (data : FlowData mesh) :
    SetRel (mesh.Element ⊕ mesh.Edge) (mesh.Element ⊕ mesh.Edge) :=
  subPattern (allocated nSchurs data) mesh.restRow mesh.restRow

def secondComplement (nSchurs : ℕ) (data : FlowData mesh) : SetRel mesh.Edge mesh.Edge :=
  subPattern (firstComplement nSchurs data) Sum.inr Sum.inr

/-- `SUBSET_NONZERO_PATTERN` holds whenever `form_schur` adds a product to a complement. -/
structure HasSpace (nSchurs : ℕ) (data : FlowData mesh) : Prop where
  first : complementPattern (allocated nSchurs data) FlowMesh.Row.side mesh.restRow mesh.ia1 ⊆
    firstComplement nSchurs data
  second : nSchurs = 2 →
    complementPattern (firstComplement nSchurs data) Sum.inl Sum.inr mesh.ia2 ⊆
      secondComplement nSchurs data

end DarcyFlowMHSteady

end Flow123d

/-!
## The patterns of the Schur complements

What one call of `mat_set_values` adds, then what the loops over the neighbours and over the
elements add. The allocated positions contain the products of both complements.
-/

namespace Flow123d

open Flow123d.Library

open scoped SetRel

variable {mesh : FlowMesh}

namespace FlowMesh

/-- The edge is one of the element, or of a neighbour on the element. -/
def Touches (mesh : FlowMesh) (elm : mesh.Element) (edge : mesh.Edge) : Prop :=
  (∃ side ∈ mesh.sides elm, mesh.edgeIdx side = edge) ∨
    ∃ ngh ∈ mesh.neighVb elm, ngh.edgeIdx = edge

/-- Rows that some element may connect. -/
def Connects (mesh : FlowMesh) : mesh.Row → mesh.Row → Prop
  | .side side, .side other => side.1 = other.1
  | .side side, .element elm => side.1 = elm
  | .side side, .edge edge => mesh.edgeIdx side = edge
  | .element elm, .side side => side.1 = elm
  | .element elm, .element other => elm = other
  | .element elm, .edge edge => mesh.Touches elm edge
  | .edge edge, .side side => mesh.edgeIdx side = edge
  | .edge edge, .element elm => mesh.Touches elm edge
  | .edge _, .edge _ => True

theorem mem_sideRows {elm : mesh.Element} {row : mesh.Row} :
    row ∈ mesh.sideRows elm ↔ ∃ side : mesh.Side, side.1 = elm ∧ row = .side side := by
  constructor
  · intro member
    obtain ⟨side, isSide, rfl⟩ := List.mem_map.mp member
    exact ⟨side, mem_sides.mp isSide, rfl⟩
  · rintro ⟨side, here, rfl⟩
    exact List.mem_map_of_mem (mem_sides.mpr here)

theorem mem_edgeRows {elm : mesh.Element} {row : mesh.Row} :
    row ∈ mesh.edgeRows elm ↔
      ∃ side : mesh.Side, side.1 = elm ∧ row = .edge (mesh.edgeIdx side) := by
  constructor
  · intro member
    obtain ⟨side, isSide, rfl⟩ := List.mem_map.mp member
    exact ⟨side, mem_sides.mp isSide, rfl⟩
  · rintro ⟨side, here, rfl⟩
    exact List.mem_map.mpr ⟨side, mem_sides.mpr here, rfl⟩

end FlowMesh

/-! ## One call -/

namespace Allocation

theorem mem_matSetValues {allocation : Allocation mesh} {rows cols : List mesh.Row}
    {row col : mesh.Row} :
    (row, col) ∈ (allocation.matSetValues rows cols).positions ↔
      (row, col) ∈ allocation.positions ∨ row ∈ rows ∧ col ∈ cols := by
  unfold matSetValues
  rw [List.mem_append]
  exact or_congr_right List.pair_mem_product

@[simp] theorem tmpRows_matSetValues (allocation : Allocation mesh) (rows cols : List mesh.Row) :
    (allocation.matSetValues rows cols).tmpRows = allocation.tmpRows := rfl

@[simp] theorem positions_store (allocation : Allocation mesh) (place : ℕ) (row : mesh.Row) :
    (allocation.store place row).positions = allocation.positions := rfl

@[simp] theorem stored_matSetValues (allocation : Allocation mesh) (rows cols : List mesh.Row)
    (start count : ℕ) :
    (allocation.matSetValues rows cols).stored start count = allocation.stored start count :=
  rfl

/-- Beyond its first two entries the array names edges, and it has all its entries. -/
structure Valid (allocation : Allocation mesh) : Prop where
  size : allocation.tmpRows.length = 100
  edges : ∀ place row, allocation.tmpRows[2 + place]? = some (some row) →
    ∃ edge, row = .edge edge

/-- Only rows that an element connects have been allocated together. -/
def Connected (allocation : Allocation mesh) : Prop :=
  ∀ row col, (row, col) ∈ allocation.positions → mesh.Connects row col

theorem Connected.matSetValues {allocation : Allocation mesh} {rows cols : List mesh.Row}
    (connected : allocation.Connected)
    (here : ∀ row ∈ rows, ∀ col ∈ cols, mesh.Connects row col) :
    (allocation.matSetValues rows cols).Connected := by
  intro row col member
  obtain before | ⟨inRows, inCols⟩ := mem_matSetValues.mp member
  · exact connected row col before
  · exact here row inRows col inCols

theorem Valid.named {allocation : Allocation mesh} (valid : allocation.Valid)
    (first second : mesh.Row) :
    ((allocation.store 0 first).store 1 second).Valid := by
  refine ⟨?_, ?_⟩
  · simp [store, valid.size]
  · intro place row found
    refine valid.edges place row ?_
    change ((allocation.tmpRows.set 0 (some first)).set 1 (some second))[2 + place]? = _ at found
    rw [List.getElem?_set_ne (by omega), List.getElem?_set_ne (by omega)] at found
    exact found

theorem Valid.matSetValues {allocation : Allocation mesh} (valid : allocation.Valid)
    {rows cols : List mesh.Row} : (allocation.matSetValues rows cols).Valid :=
  ⟨valid.size, valid.edges⟩

theorem Valid.storeEdge {allocation : Allocation mesh} (valid : allocation.Valid) (i : ℕ)
    (edge : mesh.Edge) : (allocation.store (2 + i) (.edge edge)).Valid := by
  refine ⟨(List.length_set ..).trans valid.size, ?_⟩
  intro place row found
  change (allocation.tmpRows.set (2 + i) (some (.edge edge)))[2 + place]? = _ at found
  by_cases here : place = i
  · subst here
    rw [List.getElem?_set_self'] at found
    cases old : allocation.tmpRows[2 + place]? with
    | none =>
        rw [old] at found
        cases found
    | some entry =>
        rw [old] at found
        cases found
        exact ⟨edge, rfl⟩
  · rw [List.getElem?_set_ne (by omega)] at found
    exact valid.edges place row found

theorem Valid.stored_named {allocation : Allocation mesh} (valid : allocation.Valid)
    (first second : mesh.Row) :
    ((allocation.store 0 first).store 1 second).stored 0 2 = [first, second] ∧
      ((allocation.store 0 first).store 1 second).stored 1 1 = [second] := by
  have size := valid.size
  unfold stored store
  rcases allocation with ⟨_ | ⟨head, _ | ⟨next, rest⟩⟩, positions⟩
  · simp at size
  · simp at size
  · simp

theorem Valid.mem_stored {allocation : Allocation mesh} (valid : allocation.Valid)
    {count : ℕ} {row : mesh.Row} (member : row ∈ allocation.stored 2 count) :
    ∃ edge, row = .edge edge := by
  unfold stored at member
  obtain ⟨entry, inArray, isRow⟩ := List.mem_filterMap.mp member
  have isSome : entry = some row := isRow
  subst isSome
  obtain ⟨place, found⟩ := List.mem_iff_getElem?.mp (List.mem_of_mem_take inArray)
  rw [List.getElem?_drop] at found
  exact valid.edges place row found

end Allocation

/-! ## The loop over the neighbours -/

namespace DarcyFlowMHSteady

open Allocation

variable {nSchurs : ℕ} {elm : mesh.Element} {data : FlowData mesh}

/-- The positions that a neighbour of an element needs. -/
def NeighbourAllocated (nSchurs : ℕ) (elm : mesh.Element) (allocation : Allocation mesh)
    (edge : mesh.Edge) : Prop :=
  (.element elm, .edge edge) ∈ allocation.positions ∧
    (.edge edge, .element elm) ∈ allocation.positions ∧
      (nSchurs = 2 → ∀ own ∈ mesh.edgeRows elm, (own, .edge edge) ∈ allocation.positions ∧
        (.edge edge, own) ∈ allocation.positions)

/-- What the loop has done for the first neighbours of the element. -/
structure NeighboursDone (nSchurs : ℕ) (elm : mesh.Element) (before : Allocation mesh)
    (nghs : List (FlowNeighbour mesh.nElements mesh.nEdges mesh.Side))
    (allocation : Allocation mesh) : Prop where
  valid : allocation.Valid
  grown : before.positions ⊆ allocation.positions
  connected : before.Connected → (∀ ngh ∈ nghs, mesh.Touches elm ngh.edgeIdx) →
    allocation.Connected
  allocated : ∀ ngh ∈ nghs, NeighbourAllocated nSchurs elm allocation ngh.edgeIdx
  kept : nSchurs = 2 → nghs.length < 98 → ∀ place ngh, nghs[place]? = some ngh →
    allocation.tmpRows[2 + place]? = some (some (.edge ngh.edgeIdx))

theorem NeighbourAllocated.mono {before after : Allocation mesh} {edge : mesh.Edge}
    (allocated : NeighbourAllocated nSchurs elm before edge)
    (grown : before.positions ⊆ after.positions) :
    NeighbourAllocated nSchurs elm after edge := by
  refine ⟨grown allocated.1, grown allocated.2.1, ?_⟩
  intro two own isOwn
  exact ⟨grown (allocated.2.2 two own isOwn).1, grown (allocated.2.2 two own isOwn).2⟩

theorem mem_neighbourStep (nSchurs : ℕ) (elm : mesh.Element) {allocation : Allocation mesh}
    (valid : allocation.Valid) (ngh : FlowNeighbour mesh.nElements mesh.nEdges mesh.Side)
    (i : ℕ) (row col : mesh.Row) :
    (row, col) ∈ (neighbourStep nSchurs elm allocation (ngh, i)).positions ↔
      (row, col) ∈ allocation.positions ∨
        (row ∈ [.element elm, .edge ngh.edgeIdx] ∧ col ∈ [.element elm, .edge ngh.edgeIdx]) ∨
          (nSchurs = 2 ∧ (row ∈ mesh.edgeRows elm ∧ col = .edge ngh.edgeIdx ∨
            row = .edge ngh.edgeIdx ∧ col ∈ mesh.edgeRows elm)) := by
  obtain ⟨pair, last⟩ := valid.stored_named (.element elm) (.edge ngh.edgeIdx)
  unfold neighbourStep
  by_cases two : nSchurs = 2
  · simp only [two, ↓reduceIte, positions_store, stored_matSetValues, pair, last,
      mem_matSetValues, List.mem_singleton, true_and]
    tauto
  · simp only [two, ↓reduceIte, positions_store, pair, mem_matSetValues, false_and, or_false]

theorem neighbourStep_tmpRows_self {allocation : Allocation mesh} (valid : allocation.Valid)
    (two : nSchurs = 2) {ngh : FlowNeighbour mesh.nElements mesh.nEdges mesh.Side} {i : ℕ}
    (room : i < 98) :
    (neighbourStep nSchurs elm allocation (ngh, i)).tmpRows[2 + i]? =
      some (some (.edge ngh.edgeIdx)) := by
  have size := (valid.named (.element elm) (.edge ngh.edgeIdx)).size
  unfold neighbourStep
  simp only [two, ↓reduceIte]
  refine List.getElem?_set_self (lt_of_lt_of_eq ?_ size.symm)
  omega

theorem neighbourStep_tmpRows_of_ne (allocation : Allocation mesh)
    (ngh : FlowNeighbour mesh.nElements mesh.nEdges mesh.Side) {i place : ℕ}
    (other : place ≠ i) :
    (neighbourStep nSchurs elm allocation (ngh, i)).tmpRows[2 + place]? =
      allocation.tmpRows[2 + place]? := by
  have named : ((allocation.tmpRows.set 0 (some (.element elm))).set 1
      (some (.edge ngh.edgeIdx)))[2 + place]? = allocation.tmpRows[2 + place]? := by
    rw [List.getElem?_set_ne (by omega), List.getElem?_set_ne (by omega)]
  unfold neighbourStep
  by_cases two : nSchurs = 2
  · simp only [two, ↓reduceIte]
    exact (List.getElem?_set_ne (by omega)).trans named
  · simp only [two, ↓reduceIte]
    exact named

theorem valid_neighbourStep {allocation : Allocation mesh} (valid : allocation.Valid)
    (item : FlowNeighbour mesh.nElements mesh.nEdges mesh.Side × ℕ) :
    (neighbourStep nSchurs elm allocation item).Valid := by
  have named := valid.named (.element elm) (.edge item.1.edgeIdx)
  unfold neighbourStep
  by_cases two : nSchurs = 2
  · simp only [two, ↓reduceIte]
    exact (named.matSetValues.matSetValues.matSetValues).storeEdge item.2 item.1.edgeIdx
  · simp only [two, ↓reduceIte]
    exact named.matSetValues

theorem neighboursDone (nSchurs : ℕ) (elm : mesh.Element) (before : Allocation mesh)
    (valid : before.Valid) (nghs : List (FlowNeighbour mesh.nElements mesh.nEdges mesh.Side)) :
    NeighboursDone nSchurs elm before nghs
      (nghs.zipIdx.foldl (neighbourStep nSchurs elm) before) := by
  induction nghs using List.reverseRecOn with
  | nil =>
      refine ⟨valid, List.Subset.refl _, fun connected _ => connected, nofun, ?_⟩
      intro _ _ place ngh found
      cases found
  | append_singleton nghs ngh done =>
      rw [List.zipIdx_append, List.foldl_append]
      change NeighboursDone nSchurs elm before (nghs ++ [ngh])
        (neighbourStep nSchurs elm _ (ngh, 0 + nghs.length))
      rw [Nat.zero_add]
      generalize nghs.zipIdx.foldl (neighbourStep nSchurs elm) before = allocation at done ⊢
      have step := fun row col => mem_neighbourStep nSchurs elm done.valid ngh
        nghs.length row col
      have grown : allocation.positions ⊆
          (neighbourStep nSchurs elm allocation (ngh, nghs.length)).positions :=
        fun position member => (step _ _).mpr (.inl member)
      refine ⟨valid_neighbourStep done.valid _, List.Subset.trans done.grown grown, ?_, ?_, ?_⟩
      · intro connected touched row col member
        have before := done.connected connected fun other isNgh =>
          touched other (List.mem_append_left _ isNgh)
        have here := touched ngh (List.mem_append_right _ (List.mem_singleton_self _))
        obtain old | ⟨inRows, inCols⟩ | ⟨-, ⟨isOwn, rfl⟩ | ⟨rfl, isOwn⟩⟩ := (step row col).mp member
        · exact before row col old
        · obtain rfl | rfl := List.mem_pair.mp inRows <;>
            obtain rfl | rfl := List.mem_pair.mp inCols
          · exact rfl
          · exact here
          · exact here
          · exact trivial
        · obtain ⟨side, -, rfl⟩ := FlowMesh.mem_edgeRows.mp isOwn
          exact trivial
        · obtain ⟨side, -, rfl⟩ := FlowMesh.mem_edgeRows.mp isOwn
          exact trivial
      · intro other isNgh
        obtain earlier | last := List.mem_append.mp isNgh
        · exact (done.allocated other earlier).mono grown
        · obtain rfl := List.mem_singleton.mp last
          refine ⟨(step _ _).mpr (.inr (.inl (by simp))),
            (step _ _).mpr (.inr (.inl (by simp))), ?_⟩
          intro two own isOwn
          exact ⟨(step _ _).mpr (.inr (.inr ⟨two, .inl ⟨isOwn, rfl⟩⟩)),
            (step _ _).mpr (.inr (.inr ⟨two, .inr ⟨rfl, isOwn⟩⟩))⟩
      · intro two room place other found
        rw [List.length_append, List.length_singleton] at room
        by_cases last : place = nghs.length
        · subst last
          rw [List.getElem?_concat_length] at found
          cases found
          exact neighbourStep_tmpRows_self done.valid two (Nat.lt_of_succ_lt room)
        · have bound := (List.getElem?_eq_some_iff.mp found).1
          rw [List.length_append, List.length_singleton] at bound
          rw [List.getElem?_append_left (by omega)] at found
          rw [neighbourStep_tmpRows_of_ne allocation ngh last]
          exact done.kept two (Nat.lt_of_succ_lt room) place other found

theorem NeighboursDone.mem_stored {before allocation : Allocation mesh}
    {nghs : List (FlowNeighbour mesh.nElements mesh.nEdges mesh.Side)}
    (done : NeighboursDone nSchurs elm before nghs allocation) (two : nSchurs = 2)
    (room : nghs.length < 98) {ngh : FlowNeighbour mesh.nElements mesh.nEdges mesh.Side}
    (member : ngh ∈ nghs) : .edge ngh.edgeIdx ∈ allocation.stored 2 nghs.length := by
  obtain ⟨place, found⟩ := List.mem_iff_getElem?.mp member
  have bound := (List.getElem?_eq_some_iff.mp found).1
  have kept := done.kept two room place ngh found
  unfold stored
  refine List.mem_filterMap.mpr ⟨_, List.mem_iff_getElem?.mpr ⟨place, ?_⟩, rfl⟩
  rw [List.getElem?_take_of_lt bound, List.getElem?_drop]
  exact kept

/-! ## One element -/

/-- The positions that an element needs for the complements. -/
structure ElementDone (nSchurs : ℕ) (elm : mesh.Element) (allocation : Allocation mesh) :
    Prop where
  diagonal : (.element elm, .element elm) ∈ allocation.positions
  own : ∀ row ∈ mesh.edgeRows elm, (.element elm, row) ∈ allocation.positions ∧
    (row, .element elm) ∈ allocation.positions
  ownOwn : ∀ row ∈ mesh.edgeRows elm, ∀ col ∈ mesh.edgeRows elm,
    (row, col) ∈ allocation.positions
  neighbour : ∀ ngh ∈ mesh.neighVb elm,
    NeighbourAllocated nSchurs elm allocation ngh.edgeIdx
  neighbours : nSchurs = 2 → ∀ ngh ∈ mesh.neighVb elm, ∀ other ∈ mesh.neighVb elm,
    (.edge ngh.edgeIdx, .edge other.edgeIdx) ∈ allocation.positions

theorem ElementDone.mono {before after : Allocation mesh}
    (done : ElementDone nSchurs elm before) (grown : before.positions ⊆ after.positions) :
    ElementDone nSchurs elm after where
  diagonal := grown done.diagonal
  own row isOwn := ⟨grown (done.own row isOwn).1, grown (done.own row isOwn).2⟩
  ownOwn row isRow col isCol := grown (done.ownOwn row isRow col isCol)
  neighbour ngh isNgh := (done.neighbour ngh isNgh).mono grown
  neighbours two ngh isNgh other isOther := grown (done.neighbours two ngh isNgh other isOther)

theorem mem_allocateLocal {allocation : Allocation mesh} {row col : mesh.Row} :
    (row, col) ∈ (allocateLocal data elm allocation).positions ↔
      (row, col) ∈ allocation.positions ∨
        (∃ side ∈ mesh.sides elm, ∃ value, (row, col, value) ∈ data.sideMatrix side) ∨
          (row ∈ .element elm :: mesh.sideRows elm ∧ col ∈ .element elm :: mesh.sideRows elm) := by
  have conditions : (row, col) ∈ (((mesh.sides elm).flatMap data.sideMatrix).map
      fun (entry : mesh.MatrixEntry) => (entry.1, entry.2.1)) ↔
        ∃ side ∈ mesh.sides elm, ∃ value, (row, col, value) ∈ data.sideMatrix side := by
    simp only [List.mem_map, List.mem_flatMap, Prod.mk.injEq, Prod.exists]
    aesop
  unfold allocateLocal
  simp only [mem_matSetValues, List.mem_append, conditions, List.mem_cons, List.not_mem_nil,
    or_false, or_and_right, and_or_left, or_assoc]
  grind

theorem sideMatrix_connects {side : mesh.Side} {row col : mesh.Row} {value : ℚ}
    (member : (row, col, value) ∈ data.sideMatrix side) : mesh.Connects row col := by
  unfold FlowData.sideMatrix FlowData.conditionMatrix at member
  obtain onEdge | inC := List.mem_append.mp member
  · cases cond : mesh.cond side with
    | none =>
        rw [cond] at onEdge
        cases onEdge
    | some bcd =>
        rw [cond] at onEdge
        cases type : data.bcType bcd <;>
          simp only [type, List.mem_singleton, List.not_mem_nil, Prod.mk.injEq] at onEdge
        · obtain ⟨rfl, rfl, -⟩ := onEdge
          exact trivial
        · obtain ⟨rfl, rfl, -⟩ := onEdge
          exact trivial
  · simp only [List.mem_cons, Prod.mk.injEq, List.not_mem_nil, or_false] at inC
    obtain ⟨rfl, rfl, -⟩ | ⟨rfl, rfl, -⟩ := inC
    · exact rfl
    · exact rfl

theorem mem_allocateVirtual {allocation : Allocation mesh} {row col : mesh.Row} :
    (row, col) ∈ (allocateVirtual nSchurs elm allocation).positions ↔
      (row, col) ∈ allocation.positions ∨
        (nSchurs = 2 ∧ row ∈ allocation.stored 2 (mesh.neighVb elm).length ∧
          col ∈ allocation.stored 2 (mesh.neighVb elm).length) ∨
            ((nSchurs = 1 ∨ nSchurs = 2) ∧ (row = .element elm ∧ col ∈ mesh.edgeRows elm ∨
              row ∈ mesh.edgeRows elm ∧ col = .element elm ∨
                row ∈ mesh.edgeRows elm ∧ col ∈ mesh.edgeRows elm)) := by
  unfold allocateVirtual
  by_cases two : nSchurs = 2
  · simp only [two, ↓reduceIte, or_true, mem_matSetValues, List.mem_singleton, true_and, or_assoc]
  · by_cases one : nSchurs = 1
    · simp only [one, OfNat.one_ne_ofNat, ↓reduceIte, or_false, mem_matSetValues,
        List.mem_singleton, false_and, false_or, true_and, or_assoc]
    · simp only [two, one, ↓reduceIte, or_false, false_and, or_self]

/-- What the assembly of one element does to the allocation. -/
structure ElementStep (nSchurs : ℕ) (elm : mesh.Element) (before after : Allocation mesh) :
    Prop where
  valid : after.Valid
  grown : before.positions ⊆ after.positions
  connected : before.Connected → after.Connected
  done : nSchurs = 1 ∨ nSchurs = 2 → (mesh.neighVb elm).length < 98 →
    ElementDone nSchurs elm after

theorem allocateElement_step (nSchurs : ℕ) (elm : mesh.Element) (data : FlowData mesh)
    {before : Allocation mesh} (valid : before.Valid) :
    ElementStep nSchurs elm before (allocateElement nSchurs data before elm) := by
  have validLocal : (allocateLocal data elm before).Valid := ⟨valid.size, valid.edges⟩
  have nghs := neighboursDone nSchurs elm _ validLocal (mesh.neighVb elm)
  unfold allocateElement
  generalize (mesh.neighVb elm).zipIdx.foldl (neighbourStep nSchurs elm)
    (allocateLocal data elm before) = looped at nghs ⊢
  have grown : looped.positions ⊆ (allocateVirtual nSchurs elm looped).positions :=
    fun position member => mem_allocateVirtual.mpr (.inl member)
  have grownLocal : before.positions ⊆ (allocateLocal data elm before).positions :=
    fun position member => mem_allocateLocal.mpr (.inl member)
  refine ⟨?_, fun position member => grown (nghs.grown (grownLocal member)), ?_, ?_⟩
  · unfold allocateVirtual
    split_ifs <;> exact ⟨nghs.valid.size, nghs.valid.edges⟩
  · intro connected row col member
    have connectedLocal : (allocateLocal data elm before).Connected := by
      intro row col member
      obtain old | ⟨side, -, value, inSide⟩ | ⟨inRows, inCols⟩ := mem_allocateLocal.mp member
      · exact connected row col old
      · exact sideMatrix_connects inSide
      · obtain rfl | isSide := List.mem_cons.mp inRows <;>
          obtain rfl | isOther := List.mem_cons.mp inCols
        · exact rfl
        · obtain ⟨side, here, rfl⟩ := FlowMesh.mem_sideRows.mp isOther
          exact here
        · obtain ⟨side, here, rfl⟩ := FlowMesh.mem_sideRows.mp isSide
          exact here
        · obtain ⟨side, here, rfl⟩ := FlowMesh.mem_sideRows.mp isSide
          obtain ⟨other, there, rfl⟩ := FlowMesh.mem_sideRows.mp isOther
          exact here.trans there.symm
    have connectedLoop := nghs.connected connectedLocal fun ngh isNgh => .inr ⟨ngh, isNgh, rfl⟩
    have touches : ∀ side : mesh.Side, side.1 = elm → mesh.Touches elm (mesh.edgeIdx side) :=
      fun side here => .inl ⟨side, FlowMesh.mem_sides.mpr here, rfl⟩
    obtain old | ⟨-, inRows, inCols⟩ | ⟨-, ⟨rfl, isOwn⟩ | ⟨isOwn, rfl⟩ | ⟨isOwn, isOther⟩⟩ :=
      mem_allocateVirtual.mp member
    · exact connectedLoop row col old
    · obtain ⟨edge, rfl⟩ := nghs.valid.mem_stored inRows
      obtain ⟨other, rfl⟩ := nghs.valid.mem_stored inCols
      exact trivial
    · obtain ⟨side, here, rfl⟩ := FlowMesh.mem_edgeRows.mp isOwn
      exact touches side here
    · obtain ⟨side, here, rfl⟩ := FlowMesh.mem_edgeRows.mp isOwn
      exact touches side here
    · obtain ⟨side, -, rfl⟩ := FlowMesh.mem_edgeRows.mp isOwn
      obtain ⟨other, -, rfl⟩ := FlowMesh.mem_edgeRows.mp isOther
      exact trivial
  · intro eliminates room
    refine ⟨?_, ?_, ?_, ?_, ?_⟩
    · exact grown (nghs.grown (mem_allocateLocal.mpr
        (.inr (.inr ⟨List.mem_cons_self, List.mem_cons_self⟩))))
    · intro row isOwn
      exact ⟨mem_allocateVirtual.mpr (.inr (.inr ⟨eliminates, .inl ⟨rfl, isOwn⟩⟩)),
        mem_allocateVirtual.mpr (.inr (.inr ⟨eliminates, .inr (.inl ⟨isOwn, rfl⟩)⟩))⟩
    · intro row isRow col isCol
      exact mem_allocateVirtual.mpr (.inr (.inr ⟨eliminates, .inr (.inr ⟨isRow, isCol⟩)⟩))
    · intro ngh isNgh
      exact (nghs.allocated ngh isNgh).mono grown
    · intro two ngh isNgh other isOther
      exact mem_allocateVirtual.mpr
        (.inr (.inl ⟨two, nghs.mem_stored two room isNgh, nghs.mem_stored two room isOther⟩))

/-! ## All elements -/

/-- What the loop over the elements has done for the first ones. -/
structure ElementsDone (nSchurs : ℕ) (elements : List mesh.Element)
    (allocation : Allocation mesh) : Prop where
  valid : allocation.Valid
  connected : allocation.Connected
  done : nSchurs = 1 ∨ nSchurs = 2 → ∀ elm ∈ elements, (mesh.neighVb elm).length < 98 →
    ElementDone nSchurs elm allocation

theorem ElementsDone.step {elements : List mesh.Element} {allocation : Allocation mesh}
    (before : ElementsDone nSchurs elements allocation) (elm : mesh.Element) :
    ElementsDone nSchurs (elements ++ [elm]) (allocateElement nSchurs data allocation elm) := by
  have step := allocateElement_step nSchurs elm data before.valid
  refine ⟨step.valid, step.connected before.connected, ?_⟩
  intro eliminates other member room
  obtain earlier | last := List.mem_append.mp member
  · exact (before.done eliminates other earlier room).mono step.grown
  · obtain rfl := List.mem_singleton.mp last
    exact step.done eliminates room

theorem elementsDone_allocate :
    ElementsDone nSchurs (List.finRange mesh.nElements) (allocate nSchurs data) := by
  have loop : ∀ elements : List mesh.Element, ElementsDone nSchurs elements
      (elements.foldl (allocateElement nSchurs data) ⟨List.replicate 100 none, []⟩) := by
    intro elements
    induction elements using List.reverseRecOn with
    | nil =>
        refine ⟨⟨List.length_replicate, ?_⟩, nofun, fun _ => nofun⟩
        intro place row found
        cases List.mem_replicate.mp (List.mem_of_getElem? found) |>.2
    | append_singleton elements elm done =>
        rw [List.foldl_append]
        exact done.step elm
  exact loop _

/-! ## The products -/

theorem connects_of_allocated {row col : mesh.Row}
    (member : (row, col) ∈ allocated nSchurs data) : mesh.Connects row col :=
  elementsDone_allocate.connected row col member

end DarcyFlowMHSteady

/-! ## A fracture -/

/-- A line on the first side of a triangle. -/
def FlowMesh.fracture : FlowMesh where
  nElements := 2
  nEdges := 5
  dim := ![1, 2]
  measure := fun _ => 1
  elementCentre := fun _ => 0
  sideCentre := fun _ => 0
  sideMeasure := fun _ => 1
  edgeIdx := fun side => Fin.ofNat 5 (2 * side.1 + side.2)
  cond := fun _ => none
  boundaryMeasure := fun _ => 1
  neighVb := ![[⟨0, 2, ⟨1, 0⟩⟩], []]
  edgeSides := ![[⟨0, 0⟩], [⟨0, 1⟩], [⟨1, 0⟩], [⟨1, 1⟩], [⟨1, 2⟩]]
  edgeSides_nodup := by decide
  mem_edgeSides := by decide

/-- The fields of the fracture with local matrices of unit weight. -/
def FlowData.fracture : FlowData FlowMesh.fracture where
  crossSection := fun _ => 1
  storativity := fun _ => 1
  initPressure := fun _ => 0
  waterSourceDensity := fun _ => 0
  sigma := fun _ => 1
  bcType := fun _ => .none
  bcPressure := fun _ => 0
  bcFlux := fun _ => 0
  bcRobinSigma := fun _ => 0
  localMatrix := fun _ i j => if i = j then 1 else 0

end Flow123d
