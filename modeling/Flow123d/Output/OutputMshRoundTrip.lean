import Mathlib
import Flow123d.Mesh.ReadMeshProperties
import Flow123d.System.PrintedLines

/-!
# Reading a mesh that was written

`GmshMeshReader` gives back the nodes and the bulk elements that `OutputMSH` has written, with
new numbers and in new regions with the old IDs.
-/

set_option autoImplicit false

namespace Flow123d

open Flow123d.Library

/-! ## Regions -/

namespace RegionDB

variable {db copy next : RegionDB}

theorem defaultLabel_injective {id other : ℕ} (same : defaultLabel id = defaultLabel other) :
    id = other := by
  have letters := congrArg String.toList same
  unfold defaultLabel at letters
  rw [String.toList_append, String.toList_append] at letters
  have digits := List.append_cancel_left letters
  exact Nat.repr_injective (String.toList_inj.mp digits)

/-- Bulk regions that are added for the elements of another database's regions. -/
structure CopiesBulk (db copy : RegionDB) : Prop where
  numbered : ∃ requests, Numbered requests copy
  isOpen : copy.closed = false
  counted : copy.nBulk = copy.regionSet.length
  labels : ∀ item ∈ copy.regionSet, item.label = defaultLabel item.id
  bulk : ∀ item ∈ copy.regionSet, (RegionIdx.mk item.index).isBoundary = false
  original : ∀ item ∈ copy.regionSet, ∃ region ∈ db.regionSet,
    region.id = item.id ∧ region.dim = item.dim ∧
      (RegionIdx.mk region.index).isBoundary = false

theorem copiesBulk_init (db : RegionDB) : CopiesBulk db init where
  numbered := ⟨[], numbered_init⟩
  isOpen := rfl
  counted := rfl
  labels item member := by cases member
  bulk item member := by cases member
  original item member := by cases member

/-- The regions that are not there yet fit, as the other database holds them all. -/
theorem CopiesBulk.length_lt {requests : List AddRegion} (copies : CopiesBulk db copy)
    (numbered : Numbered requests db) {region : RegionItem} (listed : region ∈ db.regionSet)
    (isBulk : (RegionIdx.mk region.index).isBoundary = false)
    (absent : ∀ item ∈ copy.regionSet, item.id ≠ region.id) :
    2 * copy.regionSet.length + 1 < maxNRegions := by
  obtain ⟨others, copyNumbered⟩ := copies.numbered
  let bulkRegions := db.regionSet.filter fun item => (RegionIdx.mk item.index).isBoundary = false
  -- the IDs of the copies and the new one are IDs of bulk regions
  have ids : (region.id :: copy.regionSet.map RegionItem.id).Nodup := by
    refine List.nodup_cons.mpr ⟨fun member => ?_, copyNumbered.ids⟩
    obtain ⟨item, inCopy, same⟩ := List.mem_map.mp member
    exact absent item inCopy same
  have known : region.id :: copy.regionSet.map RegionItem.id ⊆ bulkRegions.map RegionItem.id := by
    intro id member
    rcases List.mem_cons.mp member with rfl | inCopy
    · exact List.mem_map_of_mem (List.mem_filter.mpr ⟨listed, decide_eq_true isBulk⟩)
    · obtain ⟨item, isItem, rfl⟩ := List.mem_map.mp inCopy
      obtain ⟨original, inDb, sameId, _, originalBulk⟩ := copies.original item isItem
      rw [← sameId]
      exact List.mem_map_of_mem (List.mem_filter.mpr ⟨inDb, decide_eq_true originalBulk⟩)
  have idCount := (List.subperm_of_subset ids known).length_le
  -- the indices of bulk regions are different odd numbers under the limit
  have halves : (bulkRegions.map fun item => item.index / 2).Nodup := by
    have indices : (bulkRegions.map RegionItem.index).Nodup :=
      numbered.indices.sublist (List.filter_sublist.map _)
    refine (List.nodup_map_iff_inj_on (List.Nodup.of_map _ indices)).mpr ?_
    intro item isItem other isOther same
    have odd : item.index % 2 = 1 := by
      have kind := of_decide_eq_true (List.mem_filter.mp isItem).2
      simpa [RegionIdx.isBoundary] using kind
    have oddOther : other.index % 2 = 1 := by
      have kind := of_decide_eq_true (List.mem_filter.mp isOther).2
      simpa [RegionIdx.isBoundary] using kind
    exact List.inj_on_of_nodup_map indices isItem isOther (by omega)
  have range : (bulkRegions.map fun item => item.index / 2) ⊆ List.range 32000 := by
    intro half member
    obtain ⟨item, isItem, rfl⟩ := List.mem_map.mp member
    have fits := numbered.fits item (List.mem_of_mem_filter isItem)
    unfold maxNRegions at fits
    exact List.mem_range.mpr (by omega)
  have halfCount := (List.subperm_of_subset halves range).length_le
  simp only [List.length_cons, List.length_map, List.length_range] at idCount halfCount
  unfold maxNRegions
  omega

theorem CopiesBulk.addRegionOfId {requests : List AddRegion} (copies : CopiesBulk db copy)
    (numbered : Numbered requests db) {region : RegionItem} (listed : region ∈ db.regionSet)
    (isBulk : (RegionIdx.mk region.index).isBoundary = false) :
    ∃ reg next, copy.addRegionOfId region.id region.dim = (.ok reg, next) ∧
      CopiesBulk db next ∧ Keeps copy next ∧ next.getId reg.idx = some region.id ∧
        reg.isBoundary = false := by
  obtain ⟨others, copyNumbered⟩ := copies.numbered
  cases known : copy.itemOfId region.id with
  | some found =>
      have inCopy := itemOfId_mem known
      have isId := id_of_itemOfId known
      obtain ⟨original, inDb, sameId, sameDim, _⟩ := copies.original found inCopy
      have isRegion : original = region :=
        List.inj_on_of_nodup_map numbered.ids inDb listed (sameId.trans isId)
      have fits : found.dim = region.dim := by rw [← sameDim, isRegion]
      refine ⟨⟨found.index⟩, copy, ?_, copies, fun item member => ⟨item, member, rfl, rfl, rfl⟩,
        ?_, copies.bulk found inCopy⟩
      · unfold RegionDB.addRegionOfId
        rw [known]
        unfold checkDimConsistency
        simp only [fits, if_true]
      · exact (getId_eq_some copyNumbered.indices).mpr ⟨found, inCopy, rfl, isId⟩
  | none =>
      have noId := id_ne_of_itemOfId known
      have small := copies.length_lt numbered listed isBulk noId
      have noLabel : copy.itemOfLabel (defaultLabel region.id) = none := by
        unfold itemOfLabel
        rw [List.find?_eq_none]
        intro item member same
        have label := (copies.labels item member).symm.trans (beq_iff_eq.mp same)
        exact noId item member (defaultLabel_injective label)
      have isIndex : copy.newIndex false = 2 * copy.regionSet.length + 1 := by
        unfold newIndex
        rw [copies.counted]
        rfl
      have free : copy.itemOfIndex (copy.newIndex false) = none := by
        unfold itemOfIndex
        rw [List.find?_eq_none]
        intro item member same
        have counted := copyNumbered.kind item member
        rw [beq_iff_eq.mp same] at counted
        exact not_counted_newIndex copy false counted
      let item : RegionItem :=
        ⟨copy.newIndex false, region.id, defaultLabel region.id, region.dim⟩
      let after : RegionDB := { copy.count false with regionSet := copy.regionSet ++ [item] }
      have added : copy.addRegionOfId region.id region.dim =
          (.ok ⟨copy.newIndex false⟩, after) := by
        unfold RegionDB.addRegionOfId RegionDB.addRegion RegionDB.addNew
        rw [known, noLabel, copies.isOpen]
        simp only [Bool.false_eq_true, if_false, free, Option.isSome_none]
        rw [if_neg (by omega)]
      have adds := addRegionOfId_adds copyNumbered.indices added
      have afterNumbered : Numbered (others ++ [.withId region.id region.dim]) after :=
        copyNumbered.adds adds
      refine ⟨_, after, added, ⟨⟨_, afterNumbered⟩, copies.isOpen, ?_, ?_, ?_, ?_⟩, adds.keeps,
        (getId_eq_some afterNumbered.indices).mpr
          ⟨item, List.mem_append_right _ (List.mem_singleton_self _), rfl, rfl⟩,
        isBoundary_newIndex copy false⟩
      · change copy.nBulk + 1 = (copy.regionSet ++ [item]).length
        rw [copies.counted, List.length_append, List.length_singleton]
      · intro other member
        rcases List.mem_append.mp member with old | new
        · exact copies.labels other old
        · rw [List.mem_singleton.mp new]
      · intro other member
        rcases List.mem_append.mp member with old | new
        · exact copies.bulk other old
        · rw [List.mem_singleton.mp new]
          exact isBoundary_newIndex copy false
      · intro other member
        rcases List.mem_append.mp member with old | new
        · exact copies.original other old
        · rw [List.mem_singleton.mp new]
          exact ⟨region, listed, rfl, rfl, isBulk⟩

end RegionDB

/-! ## Numbers of the items -/

namespace VectorId

variable {T : Type} {items : VectorId T}

/-- The items are numbered from one. -/
structure FromOne (items : VectorId T) : Prop where
  consistent : items.Consistent
  ids : items.idStorage = (List.range items.size).map fun i => ((i + 1 : ℕ) : ℤ)

theorem fromOne_empty : (empty : VectorId T).FromOne := ⟨consistent_empty, rfl⟩

theorem FromOne.addItem (fromOne : items.FromOne) (item : T) :
    (items.addItem ((items.size + 1 : ℕ) : ℤ) item).FromOne where
  consistent := fromOne.consistent.addItem _ _
  ids := by
    rw [size_addItem, List.range_succ, List.map_append, ← fromOne.ids]
    rfl

theorem FromOne.findId (fromOne : items.FromOne) {i : ℕ} (inside : i < items.size) :
    items.findId ((i + 1 : ℕ) : ℤ) = some i := by
  have isId : ∀ j id, items.getId j = some id → id = ((j + 1 : ℕ) : ℤ) := by
    intro j id known
    unfold getId at known
    rw [fromOne.ids, List.getElem?_map] at known
    obtain ⟨k, isIndex, isId⟩ := Option.map_eq_some_iff.mp known
    obtain ⟨_, same⟩ := List.getElem?_eq_some_iff.mp isIndex
    rw [List.getElem_range] at same
    rw [← isId, same]
  have member : ((i + 1 : ℕ) : ℤ) ∈ items.idStorage := by
    rw [fromOne.ids]
    exact List.mem_map.mpr ⟨i, List.mem_range.mpr inside, rfl⟩
  obtain ⟨j, found⟩ := Option.isSome_iff_exists.mp (fromOne.consistent.known _ member)
  have same := isId j _ (fromOne.consistent.found _ _ found).1
  have indices : i = j := by omega
  rw [found, indices]

end VectorId

/-! ## Words of a line -/

namespace Tokenizer

/-- Inside a file all of whose lines end with a line feed. -/
def inFile (lines : List String) (line : String) (tok : List String) : Tokenizer :=
  ⟨lines, true, false, line, tok⟩

theorem nextLine_inFile (lexer : Lexer) (next : String) (lines : List String) (line : String)
    (tok : List String) :
    (inFile (next :: lines) line tok).nextLine lexer = inFile lines next (lexer.tokens next) := by
  have read := @nextLine_cons lexer (inFile (next :: lines) line tok) rfl next lines rfl
  rw [read]
  unfold inFile
  rw [Bool.not_true, Bool.and_false]

theorem dropTokens_zero (tk : Tokenizer) : tk.dropTokens 0 = tk := rfl

section Searches

variable (lexer : Lexer) {pattern ending stop line : String} {before : List String}
  (behind tok : List String)

/-- The search ends at a line with the second pattern. -/
theorem skipUntil_ends (plainLine : containsPattern pattern line = false)
    (plainLine' : containsPattern ending line = false)
    (plain : ∀ other ∈ before,
      containsPattern pattern other = false ∧ containsPattern ending other = false)
    (notHere : containsPattern pattern stop = false)
    (ends : containsPattern ending stop = true) :
    (inFile (before ++ stop :: behind) line tok).skipUntil lexer pattern ending =
      (false, inFile behind stop (lexer.tokens stop)) := by
  induction before generalizing line tok with
  | nil =>
      rw [List.nil_append, skipUntil_turn, nextLine_inFile, skipUntil_turn]
      simp [inFile, plainLine, plainLine', notHere, ends]
  | cons next rest ih =>
      obtain ⟨nextPlain, nextPlain'⟩ := plain next List.mem_cons_self
      have later := ih (lexer.tokens next) nextPlain nextPlain'
        fun other member => plain other (List.mem_cons_of_mem _ member)
      rw [List.cons_append, skipUntil_turn, nextLine_inFile, later]
      simp [inFile, plainLine, plainLine']

theorem skipTo_here (here : containsPattern pattern line = true) :
    (inFile behind line tok).skipTo lexer pattern = (true, inFile behind line (lexer.tokens line)) := by
  rw [skipTo_turn]
  simp [inFile, here, setTokenizer]

theorem skipTo_inFile (opening : String) (plainLine : containsPattern pattern line = false)
    (plain : ∀ other ∈ before, containsPattern pattern other = false)
    (opens : containsPattern pattern opening = true) (more : behind ≠ []) :
    (inFile (before ++ opening :: behind) line tok).skipTo lexer pattern =
      (true, inFile behind opening (lexer.tokens opening)) :=
  skipTo_found lexer rfl plainLine rfl plain opens more

end Searches

end Tokenizer

namespace InputMesh

/-- The element is read back, in a region with the same ID. -/
structure SameElement (mesh : InputMesh) (db : RegionDB) (ele read : MeshElement) : Prop where
  dim : read.dim = ele.dim
  node : read.node = ele.node
  pid : read.pid = ele.pid
  region : ∃ id, mesh.regionDb.getId ele.regionIdx.idx = some id ∧
    db.getId read.regionIdx.idx = some id

theorem SameElement.keeps {mesh : InputMesh} {db next : RegionDB} {ele read : MeshElement}
    (same : SameElement mesh db ele read) (indices : (db.regionSet.map RegionItem.index).Nodup)
    (nextIndices : (next.regionSet.map RegionItem.index).Nodup) (keeps : RegionDB.Keeps db next) :
    SameElement mesh next ele read where
  dim := same.dim
  node := same.node
  pid := same.pid
  region := by
    obtain ⟨id, isId, readId⟩ := same.region
    obtain ⟨item, listed, isIndex, itemId⟩ := (RegionDB.getId_eq_some indices).mp readId
    obtain ⟨kept, keptListed, sameIndex, sameId, _⟩ := keeps item listed
    exact ⟨id, isId, (RegionDB.getId_eq_some nextIndices).mpr
      ⟨kept, keptListed, sameIndex.trans isIndex, sameId.trans itemId⟩⟩

/-- The numbers are those of the types of the source: sizes and numbers of partitions are
`int`, IDs of regions `unsigned int`. -/
structure Representable (mesh : InputMesh) : Prop where
  nodes : mesh.nodeVector.size < 2 ^ 31
  elements : mesh.element.size < 2 ^ 31
  regionIds : ∀ item ∈ mesh.regionDb.regionSet, item.id < 2 ^ 32
  pids : ∀ ele ∈ mesh.element.storage, -2 ^ 31 ≤ ele.pid ∧ ele.pid < 2 ^ 31

/-- Some elements are read back. -/
structure CopiedElements (mesh : InputMesh) (done : List MeshElement) (copy : InputMesh) :
    Prop where
  regions : RegionDB.CopiesBulk mesh.regionDb copy.regionDb
  elements : copy.element.FromOne
  same : List.Forall₂ (SameElement mesh copy.regionDb) done copy.element.storage
  bcElements : copy.bcElements.storage = []

/-- What is read of a written mesh. -/
structure SameMesh (rounded : Double → Double) (mesh read : InputMesh) : Prop where
  nodes : read.nodeVector.storage = mesh.nodeVector.storage.map fun nod =>
    ⟨rounded nod.x, rounded nod.y, rounded nod.z⟩
  nodeIds : read.nodeVector.FromOne
  elements : List.Forall₂ (SameElement mesh read.regionDb) mesh.element.storage
    read.element.storage
  elementIds : read.element.FromOne
  bcElements : read.bcElements.storage = []

end InputMesh

namespace GmshMeshReader

open Tokenizer (inFile)

variable {lexer : Lexer} {printer : Printer} {rounded : StreamFormat → Double → Double}

section Reads

variable (reads : lexer.Reads printer rounded)
include reads

theorem takeUnsigned_nat {n : ℕ} (small : n < 2 ^ 32) (lines : List String) (line : String)
    (rest : List String) :
    takeUnsigned lexer (inFile lines line (toString n :: rest)) =
      .ok (n, inFile lines line rest) :=
  Tokenizer.takeCast_ok rfl (reads.unsigned n small)

theorem takeUnsigned_int {k : ℤ} (low : -2 ^ 31 ≤ k) (high : k < 2 ^ 31) (lines : List String)
    (line : String) (rest : List String) :
    takeUnsigned lexer (inFile lines line (toString k :: rest)) =
      .ok ((k % 2 ^ 32).toNat, inFile lines line rest) :=
  Tokenizer.takeCast_ok rfl (reads.integer k low high)

theorem takeDouble_print (format : StreamFormat) (value : Double) (lines : List String)
    (line : String) (rest : List String) :
    takeDouble lexer (inFile lines line (printer.double format value :: rest)) =
      .ok (rounded format value, inFile lines line rest) :=
  Tokenizer.takeCast_ok rfl (reads.double format value)

end Reads

theorem asInt_small {n : ℕ} (small : n < 2 ^ 31) : asInt n = n := if_pos small

/-- The conversion to `unsigned int` and back. -/
theorem asInt_toNat {k : ℤ} (low : -2 ^ 31 ≤ k) (high : k < 2 ^ 31) :
    asInt (k % 2 ^ 32).toNat = k := by
  unfold asInt
  split_ifs <;> omega

/-! ## Nodes -/

open OutputMSH (nodeLine elementLine regionId gmshSimplexTypes)

section Nodes

variable (reads : lexer.Reads printer rounded) (format : StreamFormat)
include reads

theorem nodeLine_plain (nod : MeshNode) (i : ℕ) : ∀ word ∈ [toString (i + 1),
    printer.double format nod.x, printer.double format nod.y, printer.double format nod.z],
    PlainWord word := by
  simp only [List.mem_cons, List.not_mem_nil, or_false]
  rintro word (rfl | rfl | rfl | rfl)
  · exact plainWord_nat _
  all_goals exact reads.plain _ _

theorem readNode_written (nodes : VectorId MeshNode) (nod : MeshNode) {i : ℕ}
    (small : i + 1 < 2 ^ 31) (lines : List String) (line : String) (tok : List String) :
    readNode lexer nodes (inFile (nodeLine printer format nod i :: lines) line tok) =
      .ok (nodes.addItem ((i + 1 : ℕ) : ℤ) (⟨rounded format nod.x, rounded format nod.y, rounded format nod.z⟩),
        inFile lines (nodeLine printer format nod i) []) := by
  have words := reads.splits _ (List.cons_ne_nil _ _) (nodeLine_plain reads format nod i)
  unfold readNode
  rw [Tokenizer.nextLine_inFile]
  conv_lhs => enter [1, 2, 3]; unfold nodeLine
  rw [words, takeUnsigned_nat reads (by omega)]
  dsimp only [bind, Except.bind]
  rw [takeDouble_print reads]
  dsimp only
  rw [takeDouble_print reads]
  dsimp only
  rw [takeDouble_print reads]
  dsimp only
  rw [asInt_small small]

theorem readNodeLines_written {nodes : VectorId MeshNode} (fromOne : nodes.FromOne)
    (items : List MeshNode) (small : nodes.size + items.length < 2 ^ 31) (lines : List String)
    (line : String) (tok : List String) :
    ∃ read line' tok', readNodeLines lexer items.length nodes
        (inFile (((items.zipIdx nodes.size).map fun nod => nodeLine printer format nod.1 nod.2) ++
          lines) line tok) = .ok (read, inFile lines line' tok') ∧
      read.FromOne ∧ read.storage = nodes.storage ++ (items.map fun nod =>
        ⟨rounded format nod.x, rounded format nod.y, rounded format nod.z⟩) ∧
      ('$' ∉ line.toList → '$' ∉ line'.toList) := by
  induction items generalizing nodes line tok with
  | nil => exact ⟨nodes, line, tok, rfl, fromOne, (List.append_nil _).symm, id⟩
  | cons nod rest ih =>
      rw [List.length_cons] at small
      obtain ⟨read, line', tok', ran, readFromOne, storage, noDollar⟩ :=
        ih (fromOne.addItem (⟨rounded format nod.x, rounded format nod.y, rounded format nod.z⟩))
          (by rw [VectorId.size_addItem]; omega)
          (nodeLine printer format nod nodes.size) []
      refine ⟨read, line', tok', ?_, readFromOne, ?_, fun _ => noDollar ?_⟩
      · rw [List.length_cons, List.zipIdx_cons, List.map_cons, List.cons_append]
        unfold readNodeLines
        rw [readNode_written reads format nodes nod (by omega)]
        dsimp only [bind, Except.bind]
        rw [VectorId.size_addItem] at ran
        exact ran
      · rw [storage]
        exact List.append_assoc _ _ _
      · exact lineOf_noDollar (nodeLine_plain reads format nod nodes.size)

end Nodes

/-! ## Elements -/

section Elements

variable (reads : lexer.Reads printer rounded)
include reads

theorem readElementNodes_written {nodes : VectorId MeshNode} (fromOne : nodes.FromOne)
    (small : nodes.size < 2 ^ 31) (id : ℕ) {node : List ℕ} (inNodes : ∀ i ∈ node, i < nodes.size)
    (lines : List String) (line : String) :
    readElementNodes lexer nodes id node.length
        (inFile lines line (node.map fun i => toString (i + 1))) =
      .ok (node, inFile lines line []) := by
  induction node with
  | nil => rfl
  | cons i rest ih =>
      have inside := inNodes i List.mem_cons_self
      rw [List.length_cons, List.map_cons]
      unfold readElementNodes
      rw [takeUnsigned_nat reads (by omega)]
      dsimp only [bind, Except.bind]
      rw [asInt_small (by omega), fromOne.findId inside]
      dsimp only
      rw [ih fun other member => inNodes other (List.mem_cons_of_mem _ member)]

omit reads in
theorem elementDim_types {dim : ℕ} (positive : 0 < dim) (small : dim ≤ 3) :
    elementDim (gmshSimplexTypes.getD dim 0) = some dim ∧ gmshSimplexTypes.getD dim 0 < 2 ^ 32 := by
  interval_cases dim <;> decide

omit reads in
theorem elementLine_plain (mesh : InputMesh) (elm : MeshElement) (i : ℕ) :
    ∀ word ∈ [toString (i + 1), toString (gmshSimplexTypes.getD elm.dim 0), "3",
      toString (regionId mesh elm), toString (regionId mesh elm), toString elm.pid] ++
        elm.node.map fun node => toString (node + 1), PlainWord word := by
  intro word member
  rcases List.mem_append.mp member with inHead | inNodes
  · simp only [List.mem_cons, List.not_mem_nil, or_false] at inHead
    rcases inHead with rfl | rfl | rfl | rfl | rfl | rfl
    · exact plainWord_nat _
    · exact plainWord_nat _
    · exact plainWord_nat 3
    · exact plainWord_nat _
    · exact plainWord_nat _
    · exact plainWord_int _
  · obtain ⟨node, _, rfl⟩ := List.mem_map.mp inNodes
    exact plainWord_nat _

theorem readElementHead_written {mesh : InputMesh} {elm : MeshElement} {i : ℕ}
    (small : i + 1 < 2 ^ 32) (positive : 0 < elm.dim) (dimLe : elm.dim ≤ 3)
    (region : regionId mesh elm < 2 ^ 32) (low : -2 ^ 31 ≤ elm.pid) (high : elm.pid < 2 ^ 31)
    (lines : List String) (line : String) (tok : List String) :
    readElementHead lexer (inFile (elementLine mesh elm i :: lines) line tok) =
      .ok (⟨i + 1, elm.dim, regionId mesh elm, (elm.pid % 2 ^ 32).toNat⟩,
        inFile lines (elementLine mesh elm i) (elm.node.map fun node => toString (node + 1))) := by
  have words := reads.splits _ (List.append_ne_nil_of_left_ne_nil (List.cons_ne_nil _ _) _)
    (elementLine_plain mesh elm i)
  obtain ⟨isDim, typeSmall⟩ := elementDim_types positive dimLe
  have three : "3" = toString (3 : ℕ) := rfl
  unfold readElementHead
  rw [Tokenizer.nextLine_inFile]
  conv_lhs => enter [1, 2, 3]; unfold elementLine
  rw [words]
  dsimp only [List.cons_append, List.nil_append]
  rw [takeUnsigned_nat reads small]
  dsimp only [bind, Except.bind]
  rw [takeUnsigned_nat reads typeSmall]
  dsimp only
  rw [isDim]
  dsimp only
  unfold readTags
  rw [three, takeUnsigned_nat reads (by decide)]
  dsimp only [bind, Except.bind]
  rw [if_neg (by decide), takeUnsigned_nat reads region]
  dsimp only
  rw [takeUnsigned_nat reads region]
  dsimp only
  rw [if_pos (by decide), takeUnsigned_int reads low high]
  dsimp only
  rw [Nat.sub_self, Tokenizer.dropTokens_zero]

open InputMesh (SameElement Representable CopiedElements SameMesh)

theorem readElement_written {mesh copy : InputMesh} (wellFormed : mesh.WellFormed)
    (representable : Representable mesh) {done : List MeshElement}
    (copied : CopiedElements mesh done copy) (fromOne : copy.nodeVector.FromOne)
    (sameSize : copy.nodeVector.size = mesh.nodeVector.size) {ele : MeshElement}
    (member : ele ∈ mesh.element.storage) (small : copy.element.size + 1 < 2 ^ 31)
    (lines : List String) (line : String) (tok : List String) :
    ∃ next, readElement lexer (fun _ => none) copy
        (inFile (elementLine mesh ele copy.element.size :: lines) line tok) =
        .ok (next, inFile lines (elementLine mesh ele copy.element.size) []) ∧
      CopiedElements mesh (done ++ [ele]) next ∧ next.nodeVector = copy.nodeVector ∧
      next.element.size = copy.element.size + 1 := by
  obtain ⟨accepted, bulk, positive⟩ := wellFormed.bulk ele member
  obtain ⟨requests, numbered⟩ := wellFormed.regions
  obtain ⟨item, listed, isRegion, isDim⟩ := accepted.region
  obtain ⟨low, high⟩ := representable.pids ele member
  have known : mesh.regionDb.getId ele.regionIdx.idx = some item.id :=
    (RegionDB.getId_eq_some numbered.indices).mpr ⟨item, listed, isRegion, rfl⟩
  have isId : regionId mesh ele = item.id := by
    unfold regionId
    rw [known]
    rfl
  have regionSmall : regionId mesh ele < 2 ^ 32 := isId ▸ representable.regionIds item listed
  have itemBulk : (RegionIdx.mk item.index).isBoundary = false := by rw [isRegion]; exact bulk
  obtain ⟨reg, db, added, dbCopies, keeps, regId, regBulk⟩ :=
    copied.regions.addRegionOfId numbered listed itemBulk
  obtain ⟨_, copyNumbered⟩ := copied.regions.numbered
  obtain ⟨_, dbNumbered⟩ := dbCopies.numbered
  have inNodes : ∀ i ∈ ele.node, i < copy.nodeVector.size := sameSize ▸ accepted.inNodes
  have nodesSmall : copy.nodeVector.size < 2 ^ 31 := sameSize ▸ representable.nodes
  let new : MeshElement := ⟨ele.dim, reg, ele.pid, ele.node⟩
  refine ⟨⟨copy.nodeVector, copy.element.addItem ((copy.element.size + 1 : ℕ) : ℤ) new,
    copy.bcElements, db⟩, ?_, ⟨dbCopies, copied.elements.addItem new, ?_, copied.bcElements⟩, rfl,
    VectorId.size_addItem _ _⟩
  · unfold readElement
    rw [readElementHead_written reads (by omega) positive accepted.dimLe regionSmall low high]
    dsimp only [bind, Except.bind]
    rw [Option.getD_none, isId, ← isDim, added]
    dsimp only
    rw [if_neg (by rw [isDim]; omega), isDim, ← accepted.nodeCount,
      readElementNodes_written reads fromOne nodesSmall _ inNodes]
    dsimp only
    unfold InputMesh.addElement
    rw [if_neg (by rw [regBulk]; exact Bool.false_ne_true), asInt_toNat low high,
      asInt_small small]
  · refine List.rel_append (copied.same.imp fun old read same =>
      same.keeps copyNumbered.indices dbNumbered.indices keeps) ?_
    exact .cons ⟨rfl, rfl, rfl, item.id, known, regId⟩ .nil

theorem readElementLines_written {mesh copy : InputMesh} (wellFormed : mesh.WellFormed)
    (representable : Representable mesh) {done : List MeshElement}
    (copied : CopiedElements mesh done copy) (fromOne : copy.nodeVector.FromOne)
    (sameSize : copy.nodeVector.size = mesh.nodeVector.size) (elements : List MeshElement)
    (members : ∀ ele ∈ elements, ele ∈ mesh.element.storage)
    (small : copy.element.size + elements.length < 2 ^ 31) (lines : List String) (line : String)
    (tok : List String) :
    ∃ next line' tok', readElementLines lexer (fun _ => none) elements.length copy
        (inFile (((elements.zipIdx copy.element.size).map fun elm =>
          elementLine mesh elm.1 elm.2) ++ lines) line tok) =
        .ok (next, inFile lines line' tok') ∧
      CopiedElements mesh (done ++ elements) next ∧ next.nodeVector = copy.nodeVector := by
  induction elements generalizing done copy line tok with
  | nil => exact ⟨copy, line, tok, rfl, (List.append_nil done).symm ▸ copied, rfl⟩
  | cons ele rest ih =>
      rw [List.length_cons] at small
      obtain ⟨next, read, nextCopied, sameNodes, size⟩ := readElement_written reads wellFormed
        representable copied fromOne sameSize (members ele List.mem_cons_self) (by omega)
        (((rest.zipIdx (copy.element.size + 1)).map fun elm => elementLine mesh elm.1 elm.2) ++
          lines) line tok
      obtain ⟨final, line', tok', ran, finalCopied, finalNodes⟩ := ih nextCopied
        (sameNodes ▸ fromOne) (sameNodes ▸ sameSize)
        (fun other member => members other (List.mem_cons_of_mem _ member)) (by omega)
        (elementLine mesh ele copy.element.size) []
      refine ⟨final, line', tok', ?_, ?_, finalNodes.trans sameNodes⟩
      · rw [List.length_cons, List.zipIdx_cons, List.map_cons, List.cons_append]
        unfold readElementLines
        rw [read]
        dsimp only [bind, Except.bind]
        rw [size] at ran
        exact ran
      · rw [List.append_cons]
        exact finalCopied

end Elements

/-! ## The file -/

open InputMesh (Representable SameMesh)

theorem readableLines_self {raw : List String} (each : ∀ line ∈ raw, readableLines [line] = [line]) :
    readableLines raw = raw := by
  have mapped : readableLines (raw.map id) = raw.map id := readableLines_map each
  rwa [List.map_id] at mapped

theorem lineOf_nat (n : ℕ) : lineOf [toString n] = toString n := String.intercalate_singleton

theorem tokens_nat (reads : lexer.Reads printer rounded) (n : ℕ) :
    lexer.tokens (toString n) = [toString n] := by
  have words := reads.splits [toString n] (List.cons_ne_nil _ _)
    (by simpa using plainWord_nat n)
  rwa [lineOf_nat] at words

theorem readableLines_nat (n : ℕ) : readableLines [toString n] = [toString n] := by
  have line : readableLines [lineOf [toString n]] = [lineOf [toString n]] :=
    readableLines_lineOf (List.cons_ne_nil _ _) (by simpa using plainWord_nat n)
  rwa [lineOf_nat] at line

theorem nat_noDollar (n : ℕ) : '$' ∉ (toString n).toList := by
  rw [← lineOf_nat]
  exact lineOf_noDollar (by simpa using plainWord_nat n)

section File

variable (reads : lexer.Reads printer rounded) (format : StreamFormat) (mesh : InputMesh)
include reads

theorem readableLines_writeHead :
    readableLines (OutputMSH.writeHead printer format mesh) =
      OutputMSH.writeHead printer format mesh := by
  refine readableLines_self fun line member => ?_
  unfold OutputMSH.writeHead OutputMSH.writeMshHeader OutputMSH.writeMshGeometry
    OutputMSH.writeMshTopology at member
  simp only [List.cons_append, List.nil_append, List.mem_append, List.mem_cons, List.mem_map,
    List.not_mem_nil, or_false] at member
  rcases member with rfl | rfl | rfl | rfl | rfl | (⟨nod, _, rfl⟩ | rfl) | rfl | rfl |
    ⟨elm, _, rfl⟩ | rfl
  · decide +kernel
  · decide +kernel
  · decide +kernel
  · decide +kernel
  · exact readableLines_nat _
  · exact readableLines_lineOf (List.cons_ne_nil _ _) (nodeLine_plain reads format _ _)
  · decide +kernel
  · decide +kernel
  · exact readableLines_nat _
  · exact readableLines_lineOf (List.append_ne_nil_of_left_ne_nil (List.cons_ne_nil _ _) _)
      (elementLine_plain mesh _ _)
  · decide +kernel

end File

theorem noDollar_plain {line pattern : String} {rest : List Char}
    (begins : pattern.toList = '$' :: rest) (noDollar : '$' ∉ line.toList) :
    containsPattern pattern line = false :=
  containsPattern_absent begins noDollar

theorem header_plain : ∀ line ∈ OutputMSH.writeMshHeader,
    containsPattern "$PhysicalNames" line = false ∧ containsPattern "$Nodes" line = false := by
  decide +kernel

section Sections

variable (reads : lexer.Reads printer rounded) (format : StreamFormat)
include reads

omit reads in
/-- The header has no names; the search for them stops at the nodes. -/
theorem readPhysicalNames_written (mesh : InputMesh) (lines : List String) :
    readPhysicalNames lexer mesh
        (inFile (OutputMSH.writeMshHeader ++ "$Nodes" :: lines) "" []) =
      .ok (mesh, inFile lines "$Nodes" (lexer.tokens "$Nodes")) := by
  unfold readPhysicalNames
  rw [Tokenizer.skipUntil_ends lexer _ _ (by decide +kernel) (by decide +kernel) header_plain
    (by decide +kernel) (by decide +kernel)]

theorem readNodes_written (db : RegionDB) {nodes : List MeshNode} (some_ : nodes ≠ [])
    (small : nodes.length < 2 ^ 31) (lines : List String) (tok : List String) :
    ∃ read line' tok', readNodes lexer (.ofRegions db)
        (inFile (toString nodes.length ::
          ((nodes.zipIdx.map fun nod => nodeLine printer format nod.1 nod.2) ++ lines)) "$Nodes"
            tok) =
        .ok ({ InputMesh.ofRegions db with nodeVector := read }, inFile lines line' tok') ∧
      read.FromOne ∧
      read.storage = nodes.map (fun nod =>
        ⟨rounded format nod.x, rounded format nod.y, rounded format nod.z⟩) ∧
      '$' ∉ line'.toList := by
  obtain ⟨read, line', tok', ran, fromOne, storage, noDollar⟩ :=
    readNodeLines_written reads format VectorId.fromOne_empty nodes
      (by rwa [← Nat.zero_add nodes.length] at small) lines (toString nodes.length) []
  refine ⟨read, line', tok', ?_, fromOne, storage, noDollar (nat_noDollar _)⟩
  have count : nodes.length ≠ 0 := fun none_ => some_ (List.length_eq_zero_iff.mp none_)
  unfold readNodes
  rw [Tokenizer.skipTo_here lexer _ _ (by decide +kernel)]
  dsimp only
  rw [Tokenizer.nextLine_inFile, tokens_nat reads, takeUnsigned_nat reads (by omega)]
  dsimp only [bind, Except.bind]
  rw [if_neg count]
  have start : (VectorId.empty : VectorId MeshNode).size = 0 := rfl
  rw [start] at ran
  exact congrArg (fun result => result >>= fun read =>
    Except.ok ({ InputMesh.ofRegions db with nodeVector := read.1 }, read.2)) ran

theorem readElements_written {mesh : InputMesh} (copy : InputMesh) (wellFormed : mesh.WellFormed)
    (representable : Representable mesh) (some_ : 0 < mesh.element.size)
    (fresh : copy.element = .empty ∧ copy.bcElements = .empty ∧ copy.regionDb = .init)
    (fromOne : copy.nodeVector.FromOne) (sameSize : copy.nodeVector.size = mesh.nodeVector.size)
    {line : String} (noDollar : '$' ∉ line.toList) (tok lines : List String) :
    ∃ read rest, readElements lexer (fun _ => none) copy
        (inFile ("$EndNodes" :: "$Elements" :: toString mesh.element.size ::
          ((mesh.element.storage.zipIdx.map fun elm => elementLine mesh elm.1 elm.2) ++ lines))
            line tok) = .ok (read, rest) ∧
      InputMesh.CopiedElements mesh mesh.element.storage read ∧
      read.nodeVector = copy.nodeVector := by
  obtain ⟨noElements, noBoundary, noRegions⟩ := fresh
  have nothing : InputMesh.CopiedElements mesh [] copy :=
    ⟨noRegions ▸ RegionDB.copiesBulk_init mesh.regionDb, noElements ▸ VectorId.fromOne_empty,
      noElements ▸ .nil, by rw [noBoundary]; rfl⟩
  have start : copy.element.size = 0 := by rw [noElements]; rfl
  have small := representable.elements
  obtain ⟨read, line', tok', ran, copied, sameNodes⟩ := readElementLines_written reads wellFormed
    representable nothing fromOne sameSize mesh.element.storage (fun _ member => member)
    (by rw [start, Nat.zero_add]; exact small) lines (toString mesh.element.size) []
  refine ⟨read, inFile lines line' tok', ?_, copied, sameNodes⟩
  have plainEnd : ∀ other ∈ ["$EndNodes"], containsPattern "$Elements" other = false := by
    decide +kernel
  have found := Tokenizer.skipTo_inFile lexer (toString mesh.element.size ::
      ((mesh.element.storage.zipIdx.map fun elm => elementLine mesh elm.1 elm.2) ++ lines)) tok
    "$Elements" (noDollar_plain rfl noDollar) plainEnd (by decide +kernel) (List.cons_ne_nil _ _)
  unfold readElements
  rw [List.singleton_append] at found
  rw [found]
  dsimp only
  rw [Tokenizer.nextLine_inFile, tokens_nat reads, takeUnsigned_nat reads (by omega)]
  dsimp only [bind, Except.bind]
  rw [if_neg (by omega)]
  rw [start] at ran
  exact ran

/-- A mesh that was written is read again, whatever was written behind it. -/
theorem readMesh_written {mesh : InputMesh} (wellFormed : mesh.WellFormed)
    (representable : Representable mesh) (someNode : 0 < mesh.nodeVector.size)
    (someElement : 0 < mesh.element.size) (later : List String) :
    ∃ read rest, readMesh lexer (fun _ => none) (.ofRegions .init)
        (Tokenizer.ofLines (OutputMSH.writeHead printer format mesh ++ later)) =
        .ok (read, rest) ∧
      SameMesh (rounded format) mesh read := by
  have nodesSmall := representable.nodes
  have nodesSome : mesh.nodeVector.storage ≠ [] := List.ne_nil_of_length_pos someNode
  let behind := "$EndElements" :: readableLines later
  let elements := (mesh.element.storage.zipIdx.map fun elm => elementLine mesh elm.1 elm.2) ++
    behind
  let nodes := (mesh.nodeVector.storage.zipIdx.map fun nod =>
    nodeLine printer format nod.1 nod.2) ++
      "$EndNodes" :: "$Elements" :: toString mesh.element.size :: elements
  have lines : Tokenizer.ofLines (OutputMSH.writeHead printer format mesh ++ later) =
      inFile (OutputMSH.writeMshHeader ++ "$Nodes" :: toString mesh.nodeVector.storage.length ::
        nodes) "" [] := by
    unfold Tokenizer.ofLines
    rw [readableLines_append, readableLines_writeHead reads]
    unfold OutputMSH.writeHead OutputMSH.writeMshGeometry OutputMSH.writeMshTopology
    simp only [List.append_assoc, List.cons_append, List.nil_append]
    rfl
  obtain ⟨readNodes_, line', tok', ranNodes, fromOne, storage, noDollar⟩ :=
    readNodes_written reads format .init nodesSome nodesSmall
      ("$EndNodes" :: "$Elements" :: toString mesh.element.size :: elements)
      (lexer.tokens "$Nodes")
  have sameSize : readNodes_.size = mesh.nodeVector.size := by
    unfold VectorId.size
    rw [storage, List.length_map]
  obtain ⟨read, rest, ran, copied, sameNodes⟩ := readElements_written reads
    { InputMesh.ofRegions .init with nodeVector := readNodes_ } wellFormed representable
    someElement ⟨rfl, rfl, rfl⟩ fromOne sameSize noDollar tok' behind
  refine ⟨read, rest, ?_, ⟨?_, ?_, copied.same, copied.elements, copied.bcElements⟩⟩
  · unfold readMesh
    rw [lines, readPhysicalNames_written]
    dsimp only [bind, Except.bind]
    rw [ranNodes]
    exact ran
  · rw [sameNodes]
    exact storage
  · rw [sameNodes]
    exact fromOne

end Sections

/-- A line in the region 3. -/
def segmentMesh : InputMesh where
  nodeVector := (VectorId.empty.addItem 4 ⟨.fin 0, .fin 0, .fin 0⟩).addItem 9 ⟨.fin 1, .fin 0, .fin 0⟩
  element := VectorId.empty.addItem 5 ⟨1, ⟨1⟩, 2, [0, 1]⟩
  bcElements := .empty
  regionDb := (RegionDB.init.addRegionOfId 3 1).2

theorem segmentMesh_wellFormed : segmentMesh.WellFormed := by
  have added : RegionDB.init.addRegionOfId 3 1 = (.ok ⟨1⟩, segmentMesh.regionDb) := by
    unfold segmentMesh
    rfl
  have adds := RegionDB.addRegionOfId_adds RegionDB.indexed_init.indices added
  have numbered : RegionDB.Numbered ([] ++ [.withId 3 1]) segmentMesh.regionDb :=
    RegionDB.numbered_init.adds adds
  have regions := (RegionDB.addRegionOfId_gives RegionDB.indexed_init.indices added).region
  obtain ⟨item, listed, isRegion, _, isDim⟩ := regions
  refine ⟨(VectorId.consistent_empty.addItem _ _).addItem _ _, VectorId.consistent_empty.addItem _ _,
    VectorId.consistent_empty, ⟨_, numbered⟩, fun ele member => ?_, nofun⟩
  rw [List.mem_singleton.mp member]
  exact ⟨⟨by decide, rfl, by decide, item, listed, isRegion, isDim⟩, rfl, by decide⟩

theorem readMesh_written_segment : ∃ read rest,
    readMesh wordLexer (fun _ => none) (.ofRegions .init)
      (Tokenizer.ofLines (OutputMSH.writeHead wholePrinter .initial segmentMesh ++ [])) =
      .ok (read, rest) ∧
    SameMesh (fun value => .fin (wholePart value)) segmentMesh read := by
  have regionIds : ∀ item ∈ segmentMesh.regionDb.regionSet, item.id < 2 ^ 32 := by decide
  have pids : ∀ ele ∈ segmentMesh.element.storage, -2 ^ 31 ≤ ele.pid ∧ ele.pid < 2 ^ 31 := by
    decide
  exact readMesh_written wordLexer_reads .initial segmentMesh_wellFormed
    ⟨by decide, by decide, regionIds, pids⟩ (by decide) (by decide) []

end GmshMeshReader

end Flow123d
