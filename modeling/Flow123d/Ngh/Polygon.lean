import Flow123d.Library.ConvexPolygon
import Flow123d.Ngh.Inner

/-!
# Polygons

A polygon grows by one vertex after the other. Its center and its area are computed when they are
asked for, and kept until the next vertex.
-/

set_option autoImplicit false

namespace Flow123d.Ngh

open Flow123d.Library.Plane

variable {K : Type} [Field K] [LinearOrder K]

/-- The tolerance of the intersection library. -/
def epsilon : K := 1 / 1000000

def isEqual (x y : K) : Bool := |x - y| < epsilon

/-- Equality of points. -/
def equalPoints (P Q : TPoint K) : Bool :=
  isEqual (P 0) (Q 0) && isEqual (P 1) (Q 1) && isEqual (P 2) (Q 2)

def length (sqrt : K → K) (U : TVector K) : K := sqrt (U 0 ^ 2 + U 1 ^ 2 + U 2 ^ 2)

def TTriangle.getArea (sqrt : K → K) (T : TTriangle K) : K :=
  1 / 2 * length sqrt (cross (vector T.X1 T.X2) (vector T.X2 T.X3))

/-- The polygon, and the messages that it has printed. -/
structure TPolygon (K : Type) where
  area : K
  center : TPoint K
  normalVector : TVector K
  areaIsActual : Bool
  centerIsActual : Bool
  verteces : List (TPoint K)
  messages : List String

namespace TPolygon

def empty : TPolygon K where
  area := 0
  center := 0
  normalVector := 0
  areaIsActual := false
  centerIsActual := false
  verteces := []
  messages := []

def moreNegative : String :=
  " - TPolygon::InsertPosition - ERROR: only one vector product must be negative\n"

def noNegative : String := " - TPolygon::InsertPosition - ERROR: no vector product is negative\n"

/-- One turn of the search, with the position found so far and the messages. -/
def visitEdge (normal : TVector K) (Vx : TPoint K) (found : ℕ × List String)
    (edge : (TPoint K × TPoint K) × ℕ) : ℕ × List String :=
  let U1 := vector edge.1.1 edge.1.2
  let U2 := vector edge.1.1 Vx
  if dot (cross U1 U2) normal < 0 then
    (edge.2 + 1, if 0 < found.1 then found.2 ++ [moreNegative] else found.2)
  else found

/-- The second part is the position. -/
def insertPosition (polygon : TPolygon K) (Vx : TPoint K) : TPolygon K × ℕ :=
  match polygon.verteces with
  | [] => (polygon, 0)
  | [_] => (polygon, 1)
  | [V1, V2] => ({ polygon with normalVector := cross (vector V1 V2) (vector V1 Vx) }, 2)
  | verteces =>
      let found := (edges verteces).zipIdx.foldl (visitEdge polygon.normalVector Vx)
        (0, polygon.messages)
      ({ polygon with
          messages := if found.1 = 0 then found.2 ++ [noNegative] else found.2 }, found.1)

def add (polygon : TPolygon K) (P : TPoint K) : TPolygon K :=
  if polygon.verteces.any (equalPoints · P) then polygon
  else
    let inserted := polygon.insertPosition P
    { inserted.1 with
      areaIsActual := false
      centerIsActual := false
      verteces := polygon.verteces.insertIdx inserted.2 P }

def computeCenter (polygon : TPolygon K) : TPolygon K :=
  if polygon.verteces.length < 3 then { polygon with center := 0 }
  else
    { polygon with
      center := fun i => (polygon.verteces.map (· i)).sum / polygon.verteces.length
      centerIsActual := true }

def computeArea (sqrt : K → K) (polygon : TPolygon K) : TPolygon K :=
  if polygon.verteces.length < 3 then { polygon with area := 0, areaIsActual := true }
  else
    { polygon with
      area := ((edges polygon.verteces).map fun edge =>
        TTriangle.getArea sqrt ⟨polygon.center, edge.1, edge.2⟩).sum
      areaIsActual := true }

def getArea (sqrt : K → K) (polygon : TPolygon K) : TPolygon K × K :=
  let polygon := if polygon.centerIsActual then polygon else polygon.computeCenter
  let polygon := if polygon.areaIsActual then polygon else polygon.computeArea sqrt
  (polygon, polygon.area)

def getCenter (polygon : TPolygon K) : TPolygon K × TPoint K :=
  let polygon := if polygon.centerIsActual then polygon else polygon.computeCenter
  (polygon, polygon.center)

/-- A call of a method of the polygon. -/
inductive Call (K : Type) where
  | add (P : TPoint K)
  | getArea
  | getCenter

def call (sqrt : K → K) (polygon : TPolygon K) : Call K → TPolygon K
  | .add P => polygon.add P
  | .getArea => (polygon.getArea sqrt).1
  | .getCenter => polygon.getCenter.1

def run (sqrt : K → K) (calls : List (Call K)) : TPolygon K := calls.foldl (call sqrt) empty

/-- The points that are added. -/
def points (calls : List (Call K)) : List (TPoint K) :=
  calls.filterMap fun | .add P => some P | _ => none

/-! ## The search -/

variable {normal : TVector K} {Vx : TPoint K}

theorem foldl_visitEdge_skip {items : List ((TPoint K × TPoint K) × ℕ)}
    (inner : ∀ item ∈ items,
      ¬ dot (cross (vector item.1.1 item.1.2) (vector item.1.1 Vx)) normal < 0)
    (found : ℕ × List String) : items.foldl (visitEdge normal Vx) found = found := by
  induction items with
  | nil => rfl
  | cons item items ih =>
      have skipped : visitEdge normal Vx found item = found :=
        if_neg (inner item List.mem_cons_self)
      rw [List.foldl_cons, skipped]
      exact ih fun other member => inner other (List.mem_cons_of_mem _ member)

/-- One product is negative. -/
theorem foldl_visitEdge {front back : List (TPoint K × TPoint K)} {e : TPoint K × TPoint K}
    (visible : dot (cross (vector e.1 e.2) (vector e.1 Vx)) normal < 0)
    (inner : ∀ other ∈ front ++ back,
      ¬ dot (cross (vector other.1 other.2) (vector other.1 Vx)) normal < 0)
    (messages : List String) :
    (front ++ e :: back).zipIdx.foldl (visitEdge normal Vx) (0, messages) =
      (front.length + 1, messages) := by
  have before (item : (TPoint K × TPoint K) × ℕ) (member : item ∈ front.zipIdx) :=
    inner item.1 (List.mem_append_left _ (List.fst_mem_of_mem_zipIdx member))
  have after (item : (TPoint K × TPoint K) × ℕ)
      (member : item ∈ back.zipIdx (0 + front.length + 1)) :=
    inner item.1 (List.mem_append_right _ (List.fst_mem_of_mem_zipIdx member))
  have turn : visitEdge normal Vx (0, messages) (e, 0 + front.length) =
      (0 + front.length + 1, messages) := if_pos visible
  rw [List.zipIdx_append, List.zipIdx_cons, List.foldl_append, foldl_visitEdge_skip before,
    List.foldl_cons, turn, foldl_visitEdge_skip after, Nat.zero_add]

variable {polygon : TPolygon K}

theorem insertPosition_eq {front back : List (TPoint K × TPoint K)} {e : TPoint K × TPoint K}
    (three : 3 ≤ polygon.verteces.length) (split : edges polygon.verteces = front ++ e :: back)
    (visible : dot (cross (vector e.1 e.2) (vector e.1 Vx)) polygon.normalVector < 0)
    (inner : ∀ other ∈ front ++ back,
      ¬ dot (cross (vector other.1 other.2) (vector other.1 Vx)) polygon.normalVector < 0) :
    polygon.insertPosition Vx = (polygon, front.length + 1) := by
  have found := foldl_visitEdge visible inner polygon.messages
  rw [← split] at found
  unfold insertPosition
  split
  · next shape => simp [shape] at three
  · next shape => simp [shape] at three
  · next shape => simp [shape] at three
  · rw [found]
    rfl

theorem add_of_known {P : TPoint K} (known : polygon.verteces.any (equalPoints · P) = true) :
    polygon.add P = polygon := if_pos known

theorem add_of_new {P : TPoint K} (new : ¬ polygon.verteces.any (equalPoints · P) = true) :
    polygon.add P =
      { (polygon.insertPosition P).1 with
        areaIsActual := false
        centerIsActual := false
        verteces := polygon.verteces.insertIdx (polygon.insertPosition P).2 P } := if_neg new

/-! ## Kept results -/

def centerOf (verteces : List (TPoint K)) : TPoint K :=
  if verteces.length < 3 then 0 else fun i => (verteces.map (· i)).sum / verteces.length

def areaOf (sqrt : K → K) (verteces : List (TPoint K)) : K :=
  if verteces.length < 3 then 0
  else ((edges verteces).map fun edge =>
    TTriangle.getArea sqrt ⟨centerOf verteces, edge.1, edge.2⟩).sum

/-- What is marked as actual is. -/
structure Actual (sqrt : K → K) (polygon : TPolygon K) : Prop where
  center : polygon.centerIsActual = true → polygon.center = centerOf polygon.verteces
  area : polygon.areaIsActual = true → polygon.area = areaOf sqrt polygon.verteces

variable {sqrt : K → K}

omit [LinearOrder K] in
theorem actual_empty : Actual sqrt (empty : TPolygon K) where
  center := nofun
  area := nofun

theorem Actual.add (actual : Actual sqrt polygon) (P : TPoint K) : Actual sqrt (polygon.add P) := by
  by_cases known : polygon.verteces.any (equalPoints · P) = true
  · rw [add_of_known known]
    exact actual
  · rw [add_of_new known]
    exact ⟨nofun, nofun⟩

omit [LinearOrder K] in
theorem Actual.getCenter_eq (actual : Actual sqrt polygon) :
    ∃ marked, polygon.getCenter =
      ({ polygon with center := centerOf polygon.verteces, centerIsActual := marked },
        centerOf polygon.verteces) := by
  obtain ⟨area, center, normal, areaMark, centerMark, verteces, messages⟩ := polygon
  cases centerMark with
  | true =>
      have same := actual.center rfl
      exact ⟨true, congrArg (fun X =>
        (TPolygon.mk area X normal areaMark true verteces messages, X)) same⟩
  | false =>
      by_cases few : verteces.length < 3
      · exact ⟨false, by simp [getCenter, computeCenter, centerOf, few]⟩
      · exact ⟨true, by simp [getCenter, computeCenter, centerOf, few]⟩

omit [LinearOrder K] in
theorem Actual.getArea_eq (actual : Actual sqrt polygon) :
    ∃ marked, polygon.getArea sqrt =
      ({ polygon with
          center := centerOf polygon.verteces
          centerIsActual := marked
          area := areaOf sqrt polygon.verteces
          areaIsActual := true }, areaOf sqrt polygon.verteces) := by
  obtain ⟨marked, same⟩ := actual.getCenter_eq
  have first : polygon.getArea sqrt =
      let polygon := polygon.getCenter.1
      let polygon := if polygon.areaIsActual then polygon else polygon.computeArea sqrt
      (polygon, polygon.area) := rfl
  refine ⟨marked, ?_⟩
  rw [first, same]
  obtain ⟨area, center, normal, areaMark, centerMark, verteces, messages⟩ := polygon
  cases areaMark with
  | true =>
      have kept := actual.area rfl
      exact congrArg (fun x =>
        (TPolygon.mk x (centerOf verteces) normal true marked verteces messages, x)) kept
  | false =>
      by_cases few : verteces.length < 3
      · simp [computeArea, areaOf, few]
      · simp [computeArea, areaOf, few]

/-- The vertices change with a new point only. -/
theorem Actual.call_eq (actual : Actual sqrt polygon) (call : Call K) (asks : ∀ P, call ≠ .add P) :
    (polygon.call sqrt call).verteces = polygon.verteces ∧
      (polygon.call sqrt call).normalVector = polygon.normalVector ∧
      (polygon.call sqrt call).messages = polygon.messages := by
  cases call with
  | add P => exact absurd rfl (asks P)
  | getArea =>
      obtain ⟨marked, same⟩ := actual.getArea_eq
      rw [TPolygon.call, same]
      exact ⟨rfl, rfl, rfl⟩
  | getCenter =>
      obtain ⟨marked, same⟩ := actual.getCenter_eq
      rw [TPolygon.call, same]
      exact ⟨rfl, rfl, rfl⟩

theorem Actual.call (actual : Actual sqrt polygon) (call : Call K) :
    Actual sqrt (polygon.call sqrt call) := by
  cases call with
  | add P => exact actual.add P
  | getArea =>
      obtain ⟨marked, same⟩ := actual.getArea_eq
      rw [TPolygon.call, same]
      exact ⟨fun _ => rfl, fun _ => rfl⟩
  | getCenter =>
      obtain ⟨marked, same⟩ := actual.getCenter_eq
      rw [TPolygon.call, same]
      exact ⟨fun _ => rfl, actual.area⟩

end TPolygon

end Flow123d.Ngh
