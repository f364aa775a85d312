import Flow123d.Library.ThreeWayPartition
import Flow123d.Mesh.Element
import Mathlib.Data.List.Sort

/-!
# The bounding interval hierarchy

`BIHTree`: construction by levels and the two searches. The random numbers of
`set_median` are a stream of samples; nothing is assumed about them. Indices
and sizes are natural numbers, `axes_` of a node is an `unsigned char`.
-/

set_option autoImplicit false

namespace Flow123d

open Flow123d.Library

structure BIHNode where
  /-- The range of elements of a leaf, the two children of an inner node. -/
  child : ℕ × ℕ
  median : ℚ
  axes : ℕ
deriving DecidableEq

namespace BIHNode

def dimension : ℕ := 3

def isLeaf (node : BIHNode) : Bool := dimension ≤ node.axes

def depth (node : BIHNode) : ℕ := node.axes - dimension

def setDepth (node : BIHNode) (depth : ℕ) : BIHNode :=
  { node with axes := (depth + dimension) % 256 }

def getElementCount (node : BIHNode) : ℕ := node.child.2 - node.child.1

/-- What the arrays hold before a node is written. -/
def blank : BIHNode := ⟨(0, 0), 0, 0⟩

end BIHNode

instance : Inhabited BIHNode := ⟨BIHNode.blank⟩

structure BIHTree where
  elements : List BoundingBox
  nodes : List BIHNode
  queue : List ℕ
  queueCoors : List BoundingBox
  inLeaves : List ℕ
  listElementIndex : List ℕ
  listElementIndexNext : List ℕ
  drawn : ℕ
deriving DecidableEq

namespace BIHTree

def maxMedianCount : ℕ := 1023

def slice (values : List ℕ) (start stop : ℕ) : List ℕ :=
  (values.drop start).take (stop - start)

def coordinate (point : Point) (axes : ℕ) : ℚ := point (Fin.ofNat 3 axes)

def node (tree : BIHTree) (idx : ℕ) : BIHNode := tree.nodes.getD idx default

def element (tree : BIHTree) (idx : ℕ) : BoundingBox := tree.elements.getD idx ⟨0, 0⟩

def front (tree : BIHTree) : ℕ := tree.queue.headD 0

def actualNode (tree : BIHTree) : BIHNode := tree.node tree.front

def setActual (tree : BIHTree) (node : BIHNode) : BIHTree :=
  { tree with nodes := tree.nodes.set tree.front node }

def popFront (tree : BIHTree) : BIHTree :=
  { tree with queue := tree.queue.tail, queueCoors := tree.queueCoors.tail }

def longestAxes (area : BoundingBox) : ℕ :=
  ([1, 2].foldl (fun (best : ℚ × ℕ) i =>
    if coordinate area.maxCoordinates i - coordinate area.minCoordinates i > best.1 then
      (coordinate area.maxCoordinates i - coordinate area.minCoordinates i, i)
    else best) (coordinate area.maxCoordinates 0 - coordinate area.minCoordinates 0, 0)).2

def frontCoors (tree : BIHTree) : BoundingBox := tree.queueCoors.headD ⟨0, 0⟩

def setAxes (tree : BIHTree) : BIHTree :=
  tree.setActual { tree.actualNode with axes := longestAxes tree.frontCoors }

def medianCount (element_count : ℕ) : ℕ :=
  if maxMedianCount ≤ element_count then maxMedianCount
  else if element_count % 2 = 1 then element_count else element_count - 1

/-- Centers of the sampled elements of the processed node. -/
def sampledCoors (tree : BIHTree) (samples : ℕ → ℕ) : List ℚ :=
  let actualNode := tree.actualNode
  (List.range (medianCount actualNode.getElementCount)).map fun i =>
    let median_index := actualNode.child.1 +
      samples (tree.drawn + i) % actualNode.getElementCount
    coordinate (tree.element (tree.listElementIndex.getD median_index 0)).getCenter
      actualNode.axes

def setMedian (tree : BIHTree) (samples : ℕ → ℕ) : BIHTree :=
  let coors := tree.sampledCoors samples
  let median := (coors.insertionSort (· ≤ ·)).getD (coors.length / 2) 0
  { tree.setActual { tree.actualNode with median := median } with
    drawn := tree.drawn + coors.length }

/-- Where an element goes: to the left (`lt`), to both children, to the right. -/
def sideOf (elements : ℕ → BoundingBox) (axes : ℕ) (median : ℚ) (idx : ℕ) : Ordering :=
  if coordinate (elements idx).minCoordinates axes < median then
    if coordinate (elements idx).maxCoordinates axes > median then .eq else .lt
  else .gt

def sortElements (tree : BIHTree) : Partition ℕ :=
  let actualNode := tree.actualNode
  threeWayPartition (sideOf tree.element actualNode.axes actualNode.median)
    tree.listElementIndex actualNode.child.1 actualNode.child.2

/-- Appends the elements of both children to the next level. The ranges of the
children are the second result. -/
def distributeElements (tree : BIHTree) : BIHTree × (ℕ × ℕ) × (ℕ × ℕ) :=
  let actualNode := tree.actualNode
  let sorted := tree.sortElements
  let left := slice sorted.values actualNode.child.1 sorted.bound2
  let right := slice sorted.values sorted.bound1 actualNode.child.2
  let start := tree.listElementIndexNext.length
  ({ tree with
      listElementIndex := sorted.values
      listElementIndexNext := tree.listElementIndexNext ++ left ++ right },
    (start, start + left.length),
    (start + left.length, start + left.length + right.length))

def testNewLevel (tree : BIHTree) : BIHTree :=
  if tree.actualNode.child.2 = tree.listElementIndex.length then
    { tree with
      listElementIndex := tree.listElementIndexNext
      listElementIndexNext := [] }
  else tree

def putLeafElements (tree : BIHTree) : BIHTree :=
  let actualNode := tree.actualNode
  let lower_bound := tree.inLeaves.length
  let filled := { tree with
    inLeaves := tree.inLeaves ++
      slice tree.listElementIndex actualNode.child.1 actualNode.child.2 }
  (filled.testNewLevel.setActual
    { actualNode with child := (lower_bound, filled.inLeaves.length) }).popFront

def childCoors (area : BoundingBox) (axes : ℕ) (median : ℚ) : BoundingBox × BoundingBox :=
  (⟨area.minCoordinates, Function.update area.maxCoordinates (Fin.ofNat 3 axes) median⟩,
    ⟨Function.update area.minCoordinates (Fin.ofNat 3 axes) median, area.maxCoordinates⟩)

/-- The limits 0.8 for one child and 1.5 for both. -/
def splitRejected (count left right : ℕ) : Bool :=
  4 * count < 5 * left || 4 * count < 5 * right || 3 * count < 2 * (left + right)

/-- `list_element_index_next_.erase(begin + start, begin + stop)`. -/
def erase (values : List ℕ) (start stop : ℕ) : List ℕ :=
  values.take start ++ values.drop stop

def pushChildren (tree : BIHTree) (left right : BIHNode)
    (coors : BoundingBox × BoundingBox) : BIHTree :=
  let count := tree.nodes.length
  let linked := tree.setActual { tree.actualNode with child := (count, count + 1) }
  { linked with
    nodes := linked.nodes ++ [left, right]
    queue := linked.queue ++ [count, count + 1]
    queueCoors := linked.queueCoors ++ [coors.1, coors.2] }

def createStep (areaElementLimit : ℕ) (samples : ℕ → ℕ) (tree : BIHTree) : BIHTree :=
  if tree.queue = [] then tree
  else if tree.actualNode.getElementCount ≤ areaElementLimit then
    tree.putLeafElements
  else
    let depth := tree.actualNode.depth
    let median := tree.setAxes.setMedian samples
    let actualNode := median.actualNode
    let coors := childCoors tree.frontCoors actualNode.axes actualNode.median
    let distributed := median.distributeElements
    let left := { BIHNode.blank.setDepth (depth + 1) with child := distributed.2.1 }
    let right := { BIHNode.blank.setDepth (depth + 1) with child := distributed.2.2 }
    if splitRejected actualNode.getElementCount left.getElementCount
        right.getElementCount then
      let undone := { distributed.1 with
        listElementIndexNext := erase distributed.1.listElementIndexNext
          left.child.1 right.child.2 }
      (undone.setActual (undone.actualNode.setDepth depth)).putLeafElements
    else
      (distributed.1.testNewLevel.pushChildren left right coors).popFront

def createLoop (areaElementLimit : ℕ) (samples : ℕ → ℕ) : ℕ → BIHTree → Option BIHTree
  | 0, tree => if tree.queue = [] then some tree else none
  | turns + 1, tree =>
      if tree.queue = [] then some tree
      else createLoop areaElementLimit samples turns
        (createStep areaElementLimit samples tree)

def freeMemory (tree : BIHTree) : BIHTree :=
  { tree with
    queue := []
    queueCoors := []
    listElementIndex := []
    listElementIndexNext := [] }

def createRootNode (mesh : Mesh) : BIHTree where
  elements := mesh.elementBoxes
  nodes := [{ BIHNode.blank.setDepth 0 with child := (0, mesh.nElements) }]
  queue := [0]
  queueCoors := [BoundingBox.enclose (mesh.point 0) mesh.nodeVector]
  inLeaves := []
  listElementIndex := List.range mesh.nElements
  listElementIndexNext := []
  drawn := 0

/-- The constructor replaces a missing limit. -/
def elementLimit (areaElementLimit : ℕ) : ℕ :=
  if areaElementLimit = 0 then 20 else areaElementLimit

/-- The constructor of `BIHTree`, with the number of turns its loop may take. -/
def createTree (mesh : Mesh) (areaElementLimit : ℕ) (samples : ℕ → ℕ) (turns : ℕ) :
    Option BIHTree :=
  (createLoop (elementLimit areaElementLimit) samples turns
    (createRootNode mesh)).map freeMemory

def leafElements (tree : BIHTree) (idx : ℕ) : List ℕ :=
  slice tree.inLeaves (tree.node idx).child.1 (tree.node idx).child.2

/-- The children that `find_bounding_box` puts into its queue. -/
def boxChildren (tree : BIHTree) (boundingBox : BoundingBox) (idx : ℕ) : List ℕ :=
  let node := tree.node idx
  (if coordinate boundingBox.minCoordinates node.axes < node.median then [node.child.1] else []) ++
    if coordinate boundingBox.maxCoordinates node.axes > node.median then [node.child.2] else []

def findBoundingBoxLoop (tree : BIHTree) (boundingBox : BoundingBox) :
    ℕ → List ℕ → List ℕ → Option (List ℕ)
  | _, [], searched => some searched
  | 0, _ :: _, _ => none
  | turns + 1, idx :: queue, searched =>
      if (tree.node idx).isLeaf then
        findBoundingBoxLoop tree boundingBox turns queue
          (searched ++ (tree.leafElements idx).filter fun e =>
            (tree.element e).intersection boundingBox)
      else
        findBoundingBoxLoop tree boundingBox turns
          (queue ++ tree.boxChildren boundingBox idx) searched

/-- The search with the final `sort`, `unique` and `resize`. -/
def findBoundingBox (tree : BIHTree) (boundingBox : BoundingBox) (turns : ℕ) :
    Option (List ℕ) :=
  (findBoundingBoxLoop tree boundingBox turns
    (if tree.nodes.length ≠ 0 then [0] else []) []).map fun searched =>
      (searched.insertionSort (· ≤ ·)).dedup

def pointChild (tree : BIHTree) (point : Point) (idx : ℕ) : ℕ :=
  let node := tree.node idx
  if coordinate point node.axes < node.median then node.child.1 else node.child.2

def findPointLeaf (tree : BIHTree) (point : Point) : ℕ → ℕ → Option ℕ
  | 0, idx => if (tree.node idx).isLeaf then some idx else none
  | turns + 1, idx =>
      if (tree.node idx).isLeaf then some idx
      else findPointLeaf tree point turns (tree.pointChild point idx)

def findPoint (tree : BIHTree) (point : Point) (turns : ℕ) : Option (List ℕ) :=
  (findPointLeaf tree point turns 0).map fun idx =>
    (tree.leafElements idx).filter fun e => (tree.element e).containsPoint point

end BIHTree

end Flow123d
