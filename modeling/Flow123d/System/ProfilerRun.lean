import Flow123d.System.ProfilerStart
import Mathlib.Data.Finset.Card

/-!
# Runs of the profiler

Any sequence of starts and stops that never stops the root, as long as no search runs behind the
table of children.
-/

set_option autoImplicit false

namespace Flow123d

open Flow123d.Library

namespace Profiler

variable {profiler : Profiler}

/-- The counts of starts do not change the paths. -/
theorem ancestor_tree_iff (current above : ℕ) :
    Ancestor profiler.tree current above ↔ Ancestor profiler.timers current above := by
  constructor
  · intro ancestor
    induction ancestor with
    | self current => exact .self current
    | up isNode notRoot _ ih =>
        obtain ⟨timer, known, rfl⟩ := known_of_tree isNode
        exact .up known notRoot ih
  · intro ancestor
    induction ancestor with
    | self current => exact .self current
    | up known notRoot _ ih => exact .up (tree_of_known known) notRoot ih

/-- A call keeps the known timers. -/
structure Keeps (tag : Tag) (before after : Profiler) : Prop where
  kept : ∀ (idx : ℕ) (node : Timer), before.tree[idx]? = some node → ∃ table,
    after.tree[idx]? = some { node with childTimers := table }
  tags : ∀ (idx : ℕ) (node : Timer), after.tree[idx]? = some node →
    (∃ old, before.tree[idx]? = some old ∧ old.tag = node.tag) ∨ node.tag = tag

theorem Keeps.of_eq {tag : Tag} {before after : Profiler} (same : after.tree = before.tree) :
    Keeps tag before after where
  kept := fun _ node isNode => ⟨node.childTimers, same ▸ isNode⟩
  tags := fun _ node isNode => Or.inl ⟨node, same ▸ isNode, rfl⟩

/-- The paths of the old timers do not change. -/
theorem ancestor_of_kept {timers extended : List Timer} (tree : TimerTree timers)
    (kept : ∀ (idx : ℕ) (node : Timer), timers[idx]? = some node → ∃ table,
      extended[idx]? = some { node with childTimers := table })
    {current : ℕ} (inside : current < timers.length) (above : ℕ) :
    Ancestor extended current above ↔ Ancestor timers current above := by
  induction current using Nat.strong_induction_on with
  | _ current ih =>
      have isNode := List.getElem?_eq_getElem inside
      obtain ⟨table, isKept⟩ := kept current _ isNode
      by_cases root : current = 0
      · constructor <;> intro ancestor <;> cases ancestor with
        | self => exact .self _
        | up _ notRoot _ => exact absurd root notRoot
      · have lower := tree.parents current _ isNode root
        rw [TimerTree.ancestor_iff isKept root, TimerTree.ancestor_iff isNode root]
        exact or_congr_right (ih _ lower (lower.trans inside))

namespace WellFormed

variable (wellFormed : profiler.WellFormed)

include wellFormed

theorem newChild {tag : Tag} {timer : Timer} {place : Fin CodePoint.maxNTimerChilds}
    (known : profiler.timers[profiler.actualNode]? = some timer)
    (first : FirstFrom (timer.slot · = none) (CodePoint.hashIdx tag) place)
    (fresh : ∀ other child below, timer.slot other = some child →
      profiler.timers[child]? = some below → below.fullHash ≠ strHash tag) {fuel : ℕ}
    (enough : Timer.maxNChilds ≤ fuel) :
    ∃ grown, profiler.newChild fuel tag = .ok (grown, profiler.timers.length) ∧
      grown.WellFormed ∧ Keeps tag profiler grown ∧ grown.actualNode = profiler.actualNode ∧
      grown.tree[profiler.timers.length]? = some (Timer.create tag profiler.actualNode) := by
  let child := Timer.create tag profiler.actualNode
  let table := Function.update timer.childTimers place profiler.timers.length
  let grown : Profiler :=
    { timers := (profiler.timers ++ [child]).set profiler.actualNode
        { timer with childTimers := table }
      actualNode := profiler.actualNode }
  have pushed : (profiler.timers ++ [child])[profiler.actualNode]? = some timer := by
    rw [List.getElem?_append_left wellFormed.actual, known]
  have isNode := tree_of_known known
  have sameLength : profiler.tree.length = profiler.timers.length := List.length_map _
  have isTree : grown.tree =
      TimerTree.withChild profiler.tree profiler.actualNode timer.node tag place := by
    change ((profiler.timers ++ [child]).set _ _).map Timer.node = _
    rw [List.map_set, List.map_append, TimerTree.withChild, sameLength]
    rfl
  have grownTree : TimerTree grown.tree := by
    rw [isTree]
    refine TimerTree.extend wellFormed.isTree isNode first ?_
    intro other number below stored isBelow
    obtain ⟨old, isOld, rfl⟩ := known_of_tree isBelow
    exact fresh other number old stored isOld
  have keeps : ∀ (idx : ℕ) (node : Timer), profiler.tree[idx]? = some node → ∃ table,
      grown.tree[idx]? = some { node with childTimers := table } := by
    intro idx node isOld
    rw [isTree]
    exact TimerTree.withChild_kept tag place isNode isOld
  have samePath := ancestor_of_kept wellFormed.isTree keeps (sameLength ▸ wellFormed.actual)
  -- only the new child and the table of the actual timer are new
  have origin : ∀ idx new, grown.timers[idx]? = some new →
      new.startCount = 0 ∧ ¬ Ancestor profiler.tree profiler.actualNode idx ∨
        ∃ old, profiler.timers[idx]? = some old ∧ old.startCount = new.startCount := by
    intro idx new isNew
    rcases TimerTree.withChild_cases known isNew with ⟨rfl, rfl⟩ | ⟨old, _, isOld, rfl, -⟩
    · exact Or.inl ⟨rfl, fun ancestor =>
        absurd (wellFormed.isTree.ancestor_le ancestor) wellFormed.actual.not_ge⟩
    · exact Or.inr ⟨old, isOld, rfl⟩
  refine ⟨grown, ?_, ⟨grownTree, ?_, ?_, ?_⟩, ⟨keeps, ?_⟩, rfl, ?_⟩
  · have added : timer.addChild fuel profiler.timers.length child =
        .ok { timer with childTimers := table } :=
      Timer.addChild_first (wellFormed.noRoot known) first enough
    have read : ({ profiler with timers := profiler.timers ++ [child] } : Profiler).timer
        profiler.actualNode = .ok timer := timer_of_known pushed
    simp only [child] at added read
    simp only [Profiler.newChild, bind, Except.bind, read, added]
    rfl
  · have inside := wellFormed.actual
    change profiler.actualNode < ((profiler.timers ++ [child]).set _ _).length
    rw [List.length_set, List.length_append]
    omega
  · intro idx new isNew ancestor
    rw [samePath] at ancestor
    rcases origin idx new isNew with ⟨-, apart⟩ | ⟨old, isOld, sameCount⟩
    · exact absurd ancestor apart
    · rw [← sameCount]
      exact wellFormed.running idx old isOld ancestor
  · intro idx new isNew notAncestor
    rw [samePath] at notAncestor
    rcases origin idx new isNew with ⟨stopped, -⟩ | ⟨old, isOld, sameCount⟩
    · exact stopped
    · rw [← sameCount]
      exact wellFormed.closed idx old isOld notAncestor
  · intro idx node isNew
    rw [isTree] at isNew
    rcases TimerTree.withChild_cases isNode isNew with ⟨-, rfl⟩ | ⟨old, _, isOld, rfl, -⟩
    · exact Or.inr rfl
    · exact Or.inl ⟨old, isOld, rfl⟩
  · rw [isTree, ← sameLength]
    exact TimerTree.withChild_new isNode

theorem enter {child : ℕ} {node : Timer} (isNode : profiler.tree[child]? = some node)
    (notRoot : child ≠ 0) (below : node.parentTimer = profiler.actualNode) :
    ∃ next, profiler.enter child = .ok next ∧ next.WellFormed ∧ next.tree = profiler.tree ∧
      next.actualNode = child := by
  obtain ⟨timer, known, rfl⟩ := known_of_tree isNode
  let next : Profiler := { profiler.setTimer child timer.start with actualNode := child }
  have sameTree : next.tree = profiler.tree := tree_setTimer known (Timer.node_start timer)
  have path := TimerTree.ancestor_iff isNode notRoot
  have apart := wellFormed.isTree.not_ancestor_of_parent isNode notRoot
  rw [below] at path apart
  have count := wellFormed.closed _ _ known apart
  have started : timer.start.startCount = 1 := by simp [Timer.start, count]
  have timers : ∀ idx other, next.timers[idx]? = some other →
      idx = child ∧ other = timer.start ∨ idx ≠ child ∧ profiler.timers[idx]? = some other := by
    intro idx other isOther
    change (profiler.timers.set _ _)[idx]? = _ at isOther
    rw [List.getElem?_set] at isOther
    split_ifs at isOther with here
    · exact Or.inl ⟨here.symm, (Option.some.inj isOther).symm⟩
    · exact Or.inr ⟨Ne.symm here, isOther⟩
  refine ⟨next, ?_, ⟨sameTree ▸ wellFormed.isTree, ?_, ?_, ?_⟩, sameTree, rfl⟩
  · unfold Profiler.enter
    rw [timer_of_known known]
    rfl
  · change child < (profiler.timers.set _ _).length
    rw [List.length_set]
    exact (List.getElem?_eq_some_iff.mp known).1
  · intro idx other isOther ancestor
    rw [sameTree] at ancestor
    rcases timers idx other isOther with ⟨-, rfl⟩ | ⟨differs, kept⟩
    · exact started
    · exact wellFormed.running _ _ kept (((path idx).mp ancestor).resolve_left differs)
  · intro idx other isOther notAncestor
    rw [sameTree] at notAncestor
    rcases timers idx other isOther with ⟨rfl, -⟩ | ⟨-, kept⟩
    · exact absurd (.self _) notAncestor
    · exact wellFormed.closed _ _ kept fun ancestor =>
        notAncestor ((path idx).mpr (Or.inr ancestor))

/-- A start with room in the table makes the child with the tag the actual timer. -/
theorem startTimer {tag : Tag} {fuel : ℕ} (enough : Timer.maxNChilds < fuel)
    (room : profiler.HasRoom tag) :
    ∃ next, profiler.startTimer fuel tag = .ok next ∧ next.WellFormed ∧
      Keeps tag profiler next ∧ next.actualNode ≠ 0 ∧
      ∃ node, next.tree[next.actualNode]? = some node ∧
        node.parentTimer = profiler.actualNode ∧ node.fullHash = strHash tag := by
  obtain ⟨timer, known, place, fromHome, ends⟩ := room
  obtain ⟨first, isFirst⟩ := exists_firstFrom fromHome ends
  have isNode := tree_of_known known
  have bound : first.val - (CodePoint.hashIdx tag).val < fuel := by
    have := first.isLt
    unfold Timer.maxNChilds at enough
    omega
  have searched := wellFormed.findChildFrom_first known le_rfl isFirst bound
  have found : profiler.findChild fuel tag = .ok ((timer.slot first).elim (-1) Int.ofNat) := by
    unfold Profiler.findChild
    rw [timer_of_known known]
    exact searched
  unfold Profiler.startTimer
  rw [found]
  rcases isFirst.holds with free | ⟨child, stored, below, isBelow, sameHash⟩
  · have firstFree : FirstFrom (timer.slot · = none) (CodePoint.hashIdx tag) first :=
      ⟨isFirst.le, free, fun between after before isFree =>
        isFirst.before between after before (Or.inl isFree)⟩
    have fresh : ∀ other child below, timer.slot other = some child →
        profiler.timers[child]? = some below → below.fullHash ≠ strHash tag := by
      intro other child below stored isBelow same
      have homes : ∀ place child, timer.slot place = some child →
          (∃ below, profiler.timers[child]? = some below ∧ below.fullHash = strHash tag) →
            homeOf profiler.tree child = CodePoint.hashIdx tag := by
        intro place child _ hasTag
        obtain ⟨below, isBelow, hash⟩ := hasTag
        have isChild := tree_of_known isBelow
        obtain ⟨ownHash, ownIdx⟩ := wellFormed.isTree.hashed _ (List.mem_of_getElem? isChild)
        rw [homeOf, isChild]
        refine ownIdx.trans (Fin.ext ?_)
        change (strHash below.tag).toNat % _ = (strHash tag).toNat % _
        rw [← hash]
        exact congrArg (fun hash => UInt32.toNat hash % _) ownHash.symm
      exact (wellFormed.isTree.probed _ _ isNode).not_stored homes isFirst free stored
        ⟨below, isBelow, same⟩
    obtain ⟨grown, added, formed, keeps, sameActual, isNew⟩ :=
      wellFormed.newChild known firstFree fresh enough.le
    have notRoot : profiler.timers.length ≠ 0 := (Nat.zero_le _ |>.trans_lt wellFormed.actual).ne'
    obtain ⟨next, entered, nextFormed, sameTree, atChild⟩ :=
      formed.enter isNew notRoot sameActual.symm
    refine ⟨next, ?_, nextFormed, ⟨?_, ?_⟩, atChild ▸ notRoot,
      Timer.create tag profiler.actualNode, ?_, rfl, rfl⟩
    · rw [free]
      change (profiler.newChild fuel tag >>= fun pair => pair.1.enter pair.2) = _
      rw [added]
      exact entered
    · rw [sameTree]
      exact keeps.kept
    · rw [sameTree]
      exact keeps.tags
    · rw [sameTree, atChild]
      exact isNew
  · obtain ⟨notRoot, node, isChild, above⟩ :=
      wellFormed.isTree.children _ _ isNode first child stored
    have hash : node.fullHash = strHash tag := by
      have same := (tree_of_known isBelow).symm.trans isChild
      rw [← Option.some.inj same]
      exact sameHash
    obtain ⟨next, entered, nextFormed, sameTree, atChild⟩ :=
      wellFormed.enter isChild notRoot above
    refine ⟨next, ?_, nextFormed, .of_eq sameTree, atChild ▸ notRoot, node, ?_, above, hash⟩
    · rw [stored]
      exact entered
    · rw [sameTree, atChild]
      exact isChild

/-- Without room the search reads behind the table. -/
theorem startTimer_outside {tag : Tag} {fuel : ℕ} (enough : Timer.maxNChilds < fuel)
    (full : ¬ profiler.HasRoom tag) :
    profiler.startTimer fuel tag = .error (.childTimers Timer.maxNChilds) := by
  obtain ⟨timer, known⟩ := wellFormed.actual_known
  have never : ∀ place, CodePoint.hashIdx tag ≤ place → ¬ profiler.Ends tag timer place :=
    fun place fromHome ends => full ⟨timer, known, place, fromHome, ends⟩
  have bound : CodePoint.maxNTimerChilds - (CodePoint.hashIdx tag).val < fuel :=
    (Nat.sub_le _ _).trans_lt enough
  unfold Profiler.startTimer Profiler.findChild
  rw [timer_of_known known]
  have outside := wellFormed.findChildFrom_outside known le_rfl never bound
  change ((profiler.findChildFrom tag timer fuel (CodePoint.hashIdx tag)) >>= _) = _
  rw [outside]
  rfl

end WellFormed

/-! ## Runs -/

/-- What a start returned. -/
structure Started where
  parent : ℕ
  tag : Tag
  timer : ℕ

def record (profiler next : Profiler) : ProfilerCall → List Started
  | .startTimer tag => [⟨profiler.actualNode, tag, next.actualNode⟩]
  | .stopTag _ => []
  | .stopIndex _ => []

def StopsRoot (profiler : Profiler) : ProfilerCall → Prop
  | .startTimer _ => False
  | .stopTag tag => profiler.actualNode = 0 ∧
      ∃ root, profiler.timers[0]? = some root ∧ strHash tag = root.fullHash
  | .stopIndex index => profiler.actualNode = 0 ∧ index ≤ 0

/-- Starts use some tags, indices are those of timers, and the root is not stopped. -/
structure Admissible (tags : Set Tag) (profiler : Profiler) (call : ProfilerCall) : Prop where
  tag : ∀ tag, call = .startTimer tag → tag ∈ tags
  index : ∀ index, call = .stopIndex index → index < profiler.timers.length
  keepsRoot : ¬ profiler.StopsRoot call

/-- At most `maxNChilds` tags are started under the actual timer. -/
def FewChildren (history : List Started) (profiler : Profiler) (call : ProfilerCall) : Prop :=
  ∀ tag, call = .startTimer tag → (tag :: (history.filter (·.parent = profiler.actualNode)).map
    Started.tag).toFinset.card ≤ Timer.maxNChilds

def HasRoomFor (profiler : Profiler) (call : ProfilerCall) : Prop :=
  ∀ tag, call = .startTimer tag → profiler.HasRoom tag

/-- The states of the runs whose calls meet a condition, with the starts so far. -/
inductive Reached (condition : List Started → Profiler → ProfilerCall → Prop) :
    List Started → Profiler → Prop
  | initial : Reached condition [] create
  | step {history : List Started} {profiler next : Profiler} {call : ProfilerCall}
      (reached : Reached condition history profiler) (meets : condition history profiler call)
      (returned : profiler.call call = .ok next) :
      Reached condition (record profiler next call ++ history) next

/-- Same tags under the same parent are the same timer, no child is lost, and the running timers
are the path from the root to the actual one. -/
structure Consistent (history : List Started) (profiler : Profiler) : Prop where
  sameTimer : ∀ first ∈ history, ∀ second ∈ history,
    first.timer = second.timer ↔ first.parent = second.parent ∧ first.tag = second.tag
  kept : ∀ started ∈ history, ∃ (parent : Timer) (place : Fin CodePoint.maxNTimerChilds),
    profiler.timers[started.parent]? = some parent ∧ parent.childTimers place = started.timer
  running : ∀ (idx : ℕ) (timer : Timer), profiler.timers[idx]? = some timer →
    (timer.running ↔ Ancestor profiler.timers profiler.actualNode idx)

/-- What every run keeps. -/
structure Kept (tags : Set Tag) (history : List Started) (profiler : Profiler) : Prop where
  formed : profiler.WellFormed
  known : ∀ (idx : ℕ) (node : Timer), profiler.tree[idx]? = some node → idx ≠ 0 → node.tag ∈ tags
  recorded : ∀ started ∈ history, started.timer ≠ 0 ∧ started.tag ∈ tags ∧
    ∃ node, profiler.tree[started.timer]? = some node ∧ node.parentTimer = started.parent ∧
      node.tag = started.tag

theorem create_wellFormed : create.WellFormed := by
  let root := (Timer.create wholeProgram 0).node
  have only : ∀ (idx : ℕ) (node : Timer), create.tree[idx]? = some node →
      idx = 0 ∧ node = root := by
    intro idx node isNode
    cases idx with
    | zero => exact ⟨rfl, (Option.some.inj isNode).symm⟩
    | succ idx => cases isNode
  have empty : ∀ place child, root.slot place ≠ some child := by
    intro place child stored
    rw [show root.slot place = none from TimerTree.slot_create place] at stored
    cases stored
  refine ⟨⟨Nat.one_pos, ?_, ?_, ?_, ?_, ?_, ?_⟩, Nat.one_pos, ?_, ?_⟩
  · intro timer member
    rw [List.mem_singleton.mp member]
    exact ⟨rfl, rfl⟩
  · intro child timer isNode notRoot
    exact absurd (only child timer isNode).1 notRoot
  · intro parent timer isNode place child stored
    rw [(only parent timer isNode).2] at stored
    exact absurd stored (empty place child)
  · intro parent timer isNode place child stored
    rw [(only parent timer isNode).2] at stored
    exact absurd stored (empty place child)
  · intro child timer isNode notRoot
    exact absurd (only child timer isNode).1 notRoot
  · intro first second one other isFirst _ notRoot
    exact absurd (only first one isFirst).1 notRoot
  · intro current timer known _
    cases current with
    | zero => exact Option.some.inj known ▸ rfl
    | succ current => cases known
  · intro current timer known apart
    obtain ⟨rfl, -⟩ := only current _ (tree_of_known known)
    exact absurd (.self _) apart

theorem fuel_bounds (profiler : Profiler) :
    profiler.timers.length ≤ profiler.fuel ∧ Timer.maxNChilds < profiler.fuel := by
  unfold fuel
  omega

namespace Kept

variable {tags : Set Tag} {history : List Started}

theorem initial (tags : Set Tag) : Kept tags [] create where
  formed := create_wellFormed
  known := by
    intro idx node isNode notRoot
    cases idx with
    | zero => exact absurd rfl notRoot
    | succ idx => cases isNode
  recorded := by
    intro started member
    cases member

/-- A stop that keeps the tree. -/
theorem of_tree_eq (kept : Kept tags history profiler) {next : Profiler}
    (formed : next.WellFormed) (same : next.tree = profiler.tree) : Kept tags history next where
  formed := formed
  known := same ▸ kept.known
  recorded := same ▸ kept.recorded

/-- A start records the child with the tag. -/
theorem startTimer (noCollision : Set.InjOn strHash tags) (kept : Kept tags history profiler)
    {tag : Tag} (known : tag ∈ tags) (room : profiler.HasRoom tag) :
    ∃ next, profiler.call (.startTimer tag) = .ok next ∧
      Kept tags (⟨profiler.actualNode, tag, next.actualNode⟩ :: history) next := by
  obtain ⟨next, returned, formed, keeps, notRoot, node, isNode, parent, hash⟩ :=
    kept.formed.startTimer profiler.fuel_bounds.2 room
  have stillKnown : ∀ (idx : ℕ) (node : Timer), next.tree[idx]? = some node → idx ≠ 0 →
      node.tag ∈ tags := by
    intro idx node isNode notRoot
    rcases keeps.tags idx node isNode with ⟨old, isOld, same⟩ | same
    · rw [← same]
      exact kept.known idx old isOld notRoot
    · rw [same]
      exact known
  refine ⟨next, returned, formed, stillKnown, fun started member => ?_⟩
  rcases List.mem_cons.mp member with rfl | earlier
  · -- the hashes of two tags are equal only if the tags are
    have sameTag : node.tag = tag := by
      refine noCollision (stillKnown _ _ isNode notRoot) known ?_
      rw [← hash]
      exact (formed.isTree.hashed node (List.mem_of_getElem? isNode)).1.symm
    exact ⟨notRoot, known, node, isNode, parent, sameTag⟩
  · obtain ⟨apart, tagKnown, old, isOld, oldParent, oldTag⟩ := kept.recorded started earlier
    obtain ⟨table, isKept⟩ := keeps.kept _ _ isOld
    exact ⟨apart, tagKnown, _, isKept, oldParent, oldTag⟩

theorem call (noCollision : Set.InjOn strHash tags) (kept : Kept tags history profiler)
    {call : ProfilerCall} (admissible : Admissible tags profiler call)
    (room : profiler.HasRoomFor call) :
    ∃ next, profiler.call call = .ok next ∧
      Kept tags (record profiler next call ++ history) next := by
  cases call with
  | startTimer tag =>
      exact kept.startTimer noCollision (admissible.tag tag rfl) (room tag rfl)
  | stopTag tag =>
      obtain ⟨next, returned, formed, same⟩ :=
        kept.formed.stopTag profiler.fuel_bounds.1 fun atRoot timer isRoot sameHash =>
          admissible.keepsRoot ⟨atRoot, timer, isRoot, sameHash⟩
      exact ⟨next, returned, kept.of_tree_eq formed same⟩
  | stopIndex index =>
      obtain ⟨next, returned, formed, same⟩ :=
        kept.formed.stopIndex profiler.fuel_bounds.1 (admissible.index index rfl)
          fun atRoot => not_le.mp fun low => admissible.keepsRoot ⟨atRoot, low⟩
      exact ⟨next, returned, kept.of_tree_eq formed same⟩

theorem consistent (kept : Kept tags history profiler) : Consistent history profiler := by
  have table : ∀ started ∈ history, ∃ (parent : Timer) (place : Fin CodePoint.maxNTimerChilds),
      profiler.timers[started.parent]? = some parent ∧
        parent.childTimers place = started.timer := by
    intro started member
    obtain ⟨notRoot, -, node, isNode, above, -⟩ := kept.recorded started member
    obtain ⟨parent, place, isParent, stored⟩ :=
      kept.formed.isTree.registered started.timer node isNode notRoot
    obtain ⟨timer, known, rfl⟩ := known_of_tree isParent
    exact ⟨timer, place, above ▸ known, Timer.slot_eq_some_iff.mp stored⟩
  refine ⟨?_, table, ?_⟩
  · intro first inFirst second inSecond
    obtain ⟨notRoot, -, one, isOne, oneParent, oneTag⟩ := kept.recorded first inFirst
    obtain ⟨alsoNotRoot, -, other, isOther, otherParent, otherTag⟩ :=
      kept.recorded second inSecond
    constructor
    · intro same
      rw [same, isOther, Option.some.injEq] at isOne
      subst isOne
      exact ⟨oneParent.symm.trans otherParent, oneTag.symm.trans otherTag⟩
    · intro same
      have oneHash := (kept.formed.isTree.hashed one (List.mem_of_getElem? isOne)).1
      have otherHash := (kept.formed.isTree.hashed other (List.mem_of_getElem? isOther)).1
      refine kept.formed.isTree.siblings _ _ one other isOne isOther notRoot alsoNotRoot ?_ ?_
      · rw [oneParent, otherParent, same.1]
      · rw [oneHash, otherHash, oneTag, otherTag, same.2]
  · intro idx timer known
    have samePath : Ancestor profiler.timers profiler.actualNode idx ↔
        Ancestor profiler.tree profiler.actualNode idx := ancestor_tree_iff _ _ |>.symm
    rw [samePath]
    constructor
    · intro running
      by_contra apart
      rw [Timer.running, kept.formed.closed idx timer known apart] at running
      cases running
    · intro ancestor
      rw [Timer.running, kept.formed.running idx timer known ancestor]
      rfl

end Kept

theorem Reached.kept {tags : Set Tag} (noCollision : Set.InjOn strHash tags)
    {history : List Started} (reached : Reached (fun _ profiler call =>
      Admissible tags profiler call ∧ profiler.HasRoomFor call) history profiler) :
    Kept tags history profiler := by
  induction reached with
  | initial => exact .initial tags
  | step _ meets returned ih =>
      obtain ⟨next, isNext, kept⟩ := ih.call noCollision meets.1 meets.2
      rw [isNext] at returned
      cases returned
      exact kept

/-- As long as the probing has room, the tree of the timers is consistent in every run, and the
next call returns exactly if it has room. -/
theorem reached_consistent {tags : Set Tag} (noCollision : Set.InjOn strHash tags)
    {history : List Started} (reached : Reached (fun _ profiler call =>
      Admissible tags profiler call ∧ profiler.HasRoomFor call) history profiler) :
    Consistent history profiler ∧ ∀ call, Admissible tags profiler call →
      ((∃ next, profiler.call call = .ok next) ↔ profiler.HasRoomFor call) := by
  have kept := reached.kept noCollision
  refine ⟨kept.consistent, fun call admissible => ⟨fun returns tag isStart => ?_, fun room => ?_⟩⟩
  · obtain ⟨next, returned⟩ := returns
    subst isStart
    by_contra full
    have outside := kept.formed.startTimer_outside profiler.fuel_bounds.2 full
    have impossible := outside.symm.trans returned
    cases impossible
  · obtain ⟨next, returned, -⟩ := kept.call noCollision admissible room
    exact ⟨next, returned⟩

/-! ## Two tags with the last index -/

theorem create_hasRoom (tag : Tag) : create.HasRoom tag :=
  ⟨_, rfl, CodePoint.hashIdx tag, le_rfl,
    Or.inl (Timer.slot_eq_none_iff.mpr (show (-1 : ℤ) < 0 by decide))⟩

theorem admissible_start {tags : Set Tag} (profiler : Profiler) {tag : Tag} (known : tag ∈ tags) :
    Admissible tags profiler (.startTimer tag) where
  tag := fun _ isStart => ProfilerCall.startTimer.inj isStart ▸ known
  index := fun _ impossible => by cases impossible
  keepsRoot := id

theorem admissible_stop (tags : Set Tag) {profiler : Profiler} (notRoot : profiler.actualNode ≠ 0)
    {index : ℤ} (negative : index < 0) : Admissible tags profiler (.stopIndex index) where
  tag := fun _ impossible => by cases impossible
  index := by
    intro other isStop
    rw [← ProfilerCall.stopIndex.inj isStop]
    omega
  keepsRoot := fun stopsRoot => notRoot stopsRoot.1

/-- The profiler after its first start. -/
def started (tag : Tag) : Profiler := (create.call (.startTimer tag)).toOption.getD create

/-- The profiler after the first timer was stopped. -/
def stopped (tag : Tag) : Profiler := ((started tag).call (.stopIndex (-1))).toOption.getD create

theorem reached_consistent_started :
    Consistent [⟨0, .ofString "M", 1⟩] (started (.ofString "M")) ∧
      ∀ call, Admissible {.ofString "M"} (started (.ofString "M")) call →
        ((∃ next, (started (.ofString "M")).call call = .ok next) ↔
          (started (.ofString "M")).HasRoomFor call) :=
  reached_consistent (Set.injOn_singleton ..) (.step .initial
    ⟨admissible_start create rfl, fun tag _ => create_hasRoom tag⟩
    (rfl : create.call (.startTimer (.ofString "M")) = .ok (started (.ofString "M"))))

theorem fewChildren_of_length {history : List Started} (profiler : Profiler) (call : ProfilerCall)
    (short : history.length < Timer.maxNChilds) : FewChildren history profiler call := by
  intro tag _
  refine (List.toFinset_card_le _).trans ?_
  rw [List.length_cons, List.length_map]
  exact Nat.succ_le_of_lt ((List.length_filter_le _ _).trans_lt short)

/-- Two tags under the root with the last index: the second search reads behind the table. -/
theorem not_always_consistent :
    ¬ ∀ tags : Set Tag, Set.InjOn strHash tags → ∀ (history : List Started) (profiler : Profiler),
      Reached (fun history profiler call =>
        Admissible tags profiler call ∧ FewChildren history profiler call) history profiler →
      ∀ call, Admissible tags profiler call → FewChildren history profiler call →
        ∃ next, profiler.call call = .ok next := by
  intro always
  have noCollision : Set.InjOn strHash {.ofString "M", .ofString "Z"} :=
    Set.injOn_pair.mpr fun same => absurd same (by decide)
  have begun : create.call (.startTimer (.ofString "M")) = .ok (started (.ofString "M")) := rfl
  have left : (started (.ofString "M")).call (.stopIndex (-1)) =
      .ok (stopped (.ofString "M")) := rfl
  have leaves := admissible_stop {.ofString "M", .ofString "Z"}
    (show (started (.ofString "M")).actualNode ≠ 0 by decide) (show (-1 : ℤ) < 0 by decide)
  have start : Reached (fun history profiler call =>
      Admissible {.ofString "M", .ofString "Z"} profiler call ∧
        FewChildren history profiler call) [] create := .initial
  have afterStart := start.step
    ⟨admissible_start create (Or.inl rfl), fewChildren_of_length create _ (by decide)⟩ begun
  have afterStop := afterStart.step
    ⟨leaves, fewChildren_of_length (started (.ofString "M")) _ (by decide)⟩ left
  obtain ⟨next, returned⟩ := always _ noCollision _ _ afterStop (.startTimer (.ofString "Z"))
    (admissible_start _ (Or.inr rfl)) (fewChildren_of_length _ _ (by decide))
  have outside : (stopped (.ofString "M")).call (.startTimer (.ofString "Z")) =
      .error (.childTimers Timer.maxNChilds) := rfl
  cases outside.symm.trans returned

end Profiler

end Flow123d
