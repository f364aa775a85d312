import Flow123d.Library.Probing
import Mathlib.Data.Fin.Basic
import Mathlib.Data.Int.Notation
import Mathlib.Data.Set.Function
import Mathlib.Order.Fin.Basic

/-!
# Timers of the profiler

`Timer` and `Profiler` of a build with `DEBUG_PROFILER` and `DEBUG`. Every access to an array is
checked against its extent. The clock and the counters of calls and of memory are left out.
-/

set_option autoImplicit false

namespace Flow123d

/-- A string of signed characters without its final zero. -/
abbrev Tag : Type := List Int8

def Tag.ofString (text : String) : Tag := text.toList.map fun letter => Int8.ofNat letter.toNat

/-- `str_hash`, with the salt zero. -/
def strHash : Tag → UInt32
  | [] => 0
  | letter :: str => strHash str * 101 + letter.toInt32.toUInt32

namespace CodePoint

def maxNTimerChilds : ℕ := 13

def hashIdx (tag : Tag) : Fin maxNTimerChilds :=
  ⟨(strHash tag).toNat % maxNTimerChilds, Nat.mod_lt _ (by decide)⟩

end CodePoint

/-- How a call of the profiler fails. -/
inductive ProfilerFailure where
  | childTimers (idx : ℕ)
  | timers (idx : ℤ)
  | tooManyChildren
  | childRunning (idx : ℕ)
  | outOfFuel
  deriving DecidableEq

structure Timer where
  tag : Tag
  fullHash : UInt32
  hashIdx : Fin CodePoint.maxNTimerChilds
  startCount : UInt32
  parentTimer : ℕ
  childTimers : Fin CodePoint.maxNTimerChilds → ℤ

namespace Timer

def maxNChilds : ℕ := CodePoint.maxNTimerChilds

/-- The constructor. -/
def create (tag : Tag) (parent : ℕ) : Timer where
  tag := tag
  fullHash := strHash tag
  hashIdx := CodePoint.hashIdx tag
  startCount := 0
  parentTimer := parent
  childTimers := fun _ => -1

def start (timer : Timer) : Timer := { timer with startCount := timer.startCount + 1 }

def stop (forced : Bool) (timer : Timer) : Timer :=
  let startCount := if forced then 1 else timer.startCount
  { timer with startCount := startCount - 1 }

def running (timer : Timer) : Bool := decide (0 < timer.startCount)

def childAt (timer : Timer) (idx : ℕ) : Except ProfilerFailure ℤ :=
  if inside : idx < maxNChilds then .ok (timer.childTimers ⟨idx, inside⟩)
  else .error (.childTimers idx)

def setChild (timer : Timer) (idx : ℕ) (childIndex : ℤ) : Except ProfilerFailure Timer :=
  if inside : idx < maxNChilds then
    .ok { timer with childTimers := Function.update timer.childTimers ⟨idx, inside⟩ childIndex }
  else .error (.childTimers idx)

/-- The loop of `add_child`, from the index before its next step. -/
def freeFrom (timer : Timer) (idx : ℕ) : ℕ → ℕ → Except ProfilerFailure ℕ
  | 0, _ => .error .outOfFuel
  | fuel + 1, i => do
      let next := if i < maxNChilds then i + 1 else 0
      if next = idx then throw .tooManyChildren
      if (← timer.childAt next) > 0 then freeFrom timer idx fuel next else return next

def addChild (fuel : ℕ) (timer : Timer) (childIndex : ℤ) (child : Timer) :
    Except ProfilerFailure Timer := do
  let idx := child.hashIdx
  if (← timer.childAt idx) > 0 then
    timer.setChild (← timer.freeFrom idx fuel idx) childIndex
  else timer.setChild idx childIndex

end Timer

structure Profiler where
  timers : List Timer
  actualNode : ℕ

namespace Profiler

def wholeProgram : Tag := .ofString "Whole Program"

/-- The constructor. -/
def create : Profiler where
  timers := [(Timer.create wholeProgram 0).start]
  actualNode := 0

variable (profiler : Profiler)

def timer (idx : ℕ) : Except ProfilerFailure Timer :=
  match profiler.timers[idx]? with
  | some timer => .ok timer
  | none => .error (.timers idx)

def setTimer (idx : ℕ) (timer : Timer) : Profiler :=
  { profiler with timers := profiler.timers.set idx timer }

/-- The loop of `find_child`. -/
def findChildFrom (tag : Tag) (timer : Timer) : ℕ → ℕ → Except ProfilerFailure ℤ
  | 0, _ => .error .outOfFuel
  | fuel + 1, idx => do
      let childIdx ← timer.childAt idx
      if childIdx < 0 then return -1
      let child ← profiler.timer childIdx.toNat
      if child.fullHash = strHash tag then return childIdx
      let next := if idx = Timer.maxNChilds then 0 else idx + 1
      if next = CodePoint.hashIdx tag then return -1
      findChildFrom tag timer fuel next

def findChild (fuel : ℕ) (tag : Tag) : Except ProfilerFailure ℤ := do
  profiler.findChildFrom tag (← profiler.timer profiler.actualNode) fuel (CodePoint.hashIdx tag)

/-- A new timer under the actual one. -/
def newChild (fuel : ℕ) (tag : Tag) : Except ProfilerFailure (Profiler × ℕ) := do
  let childIdx := profiler.timers.length
  let child := Timer.create tag profiler.actualNode
  let pushed : Profiler := { profiler with timers := profiler.timers ++ [child] }
  let actual ← (← pushed.timer profiler.actualNode).addChild fuel childIdx child
  return (pushed.setTimer profiler.actualNode actual, childIdx)

/-- The end of `start_timer`. -/
def enter (childIdx : ℕ) : Except ProfilerFailure Profiler := do
  let child ← profiler.timer childIdx
  return { profiler.setTimer childIdx child.start with actualNode := childIdx }

/-- `start_timer`. The timer that it returns is the actual one. -/
def startTimer (fuel : ℕ) (tag : Tag) : Except ProfilerFailure Profiler := do
  let childIdx ← profiler.findChild fuel tag
  if childIdx < 0 then
    let (grown, child) ← profiler.newChild fuel tag
    grown.enter child
  else profiler.enter childIdx.toNat

/-- The test that the children are closed. -/
def checkChildren (timer : Timer) : Except ProfilerFailure PUnit :=
  (List.range Timer.maxNChilds).forM fun i => do
    let childIdx ← timer.childAt i
    if childIdx > 0 then
      if (← profiler.timer childIdx.toNat).running then throw (.childRunning childIdx.toNat)

def stopActual (forced : Bool) : Except ProfilerFailure Profiler := do
  let actual ← profiler.timer profiler.actualNode
  return { profiler.setTimer profiler.actualNode (actual.stop forced) with
    actualNode := actual.parentTimer }

/-- The search above the actual timer for one to close. -/
def searchAbove (found : ℕ → Timer → Bool) : ℕ → ℕ → Except ProfilerFailure (Option ℕ)
  | 0, _ => .error .outOfFuel
  | fuel + 1, node =>
      if node = 0 then .ok none
      else do
        let timer ← profiler.timer node
        if found node timer then return some node
        searchAbove found fuel timer.parentTimer

/-- Force closing of the timers below a node. -/
def closeBelow (node : ℕ) : ℕ → Profiler → Except ProfilerFailure Profiler
  | 0, _ => .error .outOfFuel
  | fuel + 1, profiler =>
      if profiler.actualNode = node then .ok profiler
      else do closeBelow node fuel (← profiler.stopActual true)

def closeFound (fuel : ℕ) (found : ℕ → Timer → Bool) : Except ProfilerFailure Profiler := do
  match ← profiler.searchAbove found fuel profiler.actualNode with
  | some node => (← closeBelow node fuel profiler).stopActual false
  | none => return profiler

/-- `stop_timer` with a code point. -/
def stopTag (fuel : ℕ) (tag : Tag) : Except ProfilerFailure Profiler := do
  let actual ← profiler.timer profiler.actualNode
  profiler.checkChildren actual
  if strHash tag ≠ actual.fullHash then
    profiler.closeFound fuel fun _ timer => strHash tag = timer.fullHash
  else profiler.stopActual false

/-- `stop_timer` with the index of a timer. -/
def stopIndex (fuel : ℕ) (index : ℤ) : Except ProfilerFailure Profiler := do
  let timerIndex := if index < 0 then profiler.actualNode else index.toNat
  if !(← profiler.timer timerIndex).running then return profiler
  if timerIndex ≠ profiler.actualNode then
    profiler.closeFound fuel fun node _ => timerIndex = node
  else profiler.stopActual false

end Profiler

/-- The calls of the profiler that change its tree. -/
inductive ProfilerCall where
  | startTimer (tag : Tag)
  | stopTag (tag : Tag)
  | stopIndex (index : ℤ)

namespace Profiler

/-- More turns than a loop of a call takes that ends. -/
def fuel (profiler : Profiler) : ℕ := profiler.timers.length + Timer.maxNChilds + 1

def call (profiler : Profiler) : ProfilerCall → Except ProfilerFailure Profiler
  | .startTimer tag => profiler.startTimer profiler.fuel tag
  | .stopTag tag => profiler.stopTag profiler.fuel tag
  | .stopIndex index => profiler.stopIndex profiler.fuel index

end Profiler

end Flow123d
