import Flow123d.System.Profiler

/-!
# The tree of the timers

What the calls of the profiler keep: the tables of children are probed, siblings have different
hashes, and the running timers are the path from the actual one to the root.
-/

set_option autoImplicit false

namespace Flow123d

open Flow123d.Library

namespace Timer

/-- What the tree knows of a timer. -/
def node (timer : Timer) : Timer := { timer with startCount := 0 }

/-- The child in a slot of the table. -/
def slot (timer : Timer) (place : Fin CodePoint.maxNTimerChilds) : Option ℕ :=
  if timer.childTimers place < 0 then none else some (timer.childTimers place).toNat

@[simp]
theorem node_start (timer : Timer) : timer.start.node = timer.node := rfl

@[simp]
theorem node_stop (forced : Bool) (timer : Timer) : (timer.stop forced).node = timer.node := rfl

theorem slot_eq_some_iff {timer : Timer} {place : Fin CodePoint.maxNTimerChilds} {child : ℕ} :
    timer.slot place = some child ↔ timer.childTimers place = child := by
  unfold slot
  split_ifs with free
  · simp only [false_iff]
    omega
  · rw [Option.some.injEq]
    omega

theorem slot_eq_none_iff {timer : Timer} {place : Fin CodePoint.maxNTimerChilds} :
    timer.slot place = none ↔ timer.childTimers place < 0 := by
  unfold slot
  split_ifs with free <;> simp [free]

end Timer

/-- A timer is on the way from another one to the root. -/
inductive Ancestor (timers : List Timer) : ℕ → ℕ → Prop
  | self (current : ℕ) : Ancestor timers current current
  | up {current above : ℕ} {timer : Timer} (known : timers[current]? = some timer)
      (notRoot : current ≠ 0) (ancestor : Ancestor timers timer.parentTimer above) :
      Ancestor timers current above

def homeOf (timers : List Timer) (child : ℕ) : Fin CodePoint.maxNTimerChilds :=
  (timers[child]?).elim ⟨0, by decide⟩ Timer.hashIdx

/-- The tree of the timers and the tables of their children. -/
structure TimerTree (timers : List Timer) : Prop where
  root : 0 < timers.length
  hashed : ∀ timer ∈ timers, timer.fullHash = strHash timer.tag ∧
    timer.hashIdx = CodePoint.hashIdx timer.tag
  parents : ∀ (child : ℕ) (timer : Timer), timers[child]? = some timer → child ≠ 0 →
    timer.parentTimer < child
  children : ∀ (parent : ℕ) (timer : Timer), timers[parent]? = some timer →
    ∀ place child, timer.slot place = some child → child ≠ 0 ∧
      ∃ below, timers[child]? = some below ∧ below.parentTimer = parent
  probed : ∀ (parent : ℕ) (timer : Timer), timers[parent]? = some timer →
    Probed (homeOf timers) timer.slot
  registered : ∀ (child : ℕ) (timer : Timer), timers[child]? = some timer → child ≠ 0 →
    ∃ parent place, timers[timer.parentTimer]? = some parent ∧ parent.slot place = some child
  siblings : ∀ (first second : ℕ) (one other : Timer), timers[first]? = some one →
    timers[second]? = some other → first ≠ 0 → second ≠ 0 →
      one.parentTimer = other.parentTimer → one.fullHash = other.fullHash → first = second

namespace TimerTree

variable {timers : List Timer} (tree : TimerTree timers)

include tree

theorem ancestor_le {current above : ℕ} (ancestor : Ancestor timers current above) :
    above ≤ current := by
  induction ancestor with
  | self => exact le_rfl
  | up known notRoot _ ih => exact ih.trans (tree.parents _ _ known notRoot).le

omit tree in
/-- The path of a timer is the path of its parent and the timer. -/
theorem ancestor_iff {current : ℕ} {timer : Timer} (known : timers[current]? = some timer)
    (notRoot : current ≠ 0) (above : ℕ) :
    Ancestor timers current above ↔ above = current ∨ Ancestor timers timer.parentTimer above := by
  constructor
  · intro ancestor
    cases ancestor with
    | self => exact Or.inl rfl
    | up isTimer _ rest =>
        rw [known, Option.some.injEq] at isTimer
        exact Or.inr (isTimer ▸ rest)
  · intro either
    rcases either with rfl | rest
    · exact .self above
    · exact .up known notRoot rest

theorem not_ancestor_of_parent {current : ℕ} {timer : Timer}
    (known : timers[current]? = some timer) (notRoot : current ≠ 0) :
    ¬ Ancestor timers timer.parentTimer current := fun ancestor =>
  absurd (tree.ancestor_le ancestor) (tree.parents _ _ known notRoot).not_ge

end TimerTree

namespace Profiler

/-- The tree of the profiler. -/
def tree (profiler : Profiler) : List Timer := profiler.timers.map Timer.node

/-- The running timers are the path from the actual one to the root. -/
structure WellFormed (profiler : Profiler) : Prop where
  isTree : TimerTree profiler.tree
  actual : profiler.actualNode < profiler.timers.length
  running : ∀ (current : ℕ) (timer : Timer), profiler.timers[current]? = some timer →
    Ancestor profiler.tree profiler.actualNode current → timer.startCount = 1
  closed : ∀ (current : ℕ) (timer : Timer), profiler.timers[current]? = some timer →
    ¬ Ancestor profiler.tree profiler.actualNode current → timer.startCount = 0

variable {profiler : Profiler}

theorem timer_of_known {idx : ℕ} {timer : Timer} (known : profiler.timers[idx]? = some timer) :
    profiler.timer idx = .ok timer := by
  unfold Profiler.timer
  rw [known]

theorem tree_getElem? (current : ℕ) :
    profiler.tree[current]? = (profiler.timers[current]?).map Timer.node := List.getElem?_map

theorem tree_of_known {current : ℕ} {timer : Timer}
    (known : profiler.timers[current]? = some timer) :
    profiler.tree[current]? = some timer.node := by
  rw [tree_getElem?, known]
  rfl

theorem known_of_tree {current : ℕ} {node : Timer} (known : profiler.tree[current]? = some node) :
    ∃ timer, profiler.timers[current]? = some timer ∧ timer.node = node := by
  rw [tree_getElem?] at known
  exact Option.map_eq_some_iff.mp known

/-- Starts and stops of a timer keep the tree. -/
theorem tree_setTimer {current : ℕ} {timer changed : Timer}
    (known : profiler.timers[current]? = some timer) (same : changed.node = timer.node) :
    (profiler.setTimer current changed).tree = profiler.tree := by
  apply List.ext_getElem?
  intro other
  rw [tree_getElem?, tree_getElem?]
  change Option.map _ (profiler.timers.set current changed)[other]? = _
  rw [List.getElem?_set]
  split_ifs with here inside
  · subst here
    rw [known]
    exact congrArg some same
  · subst here
    rw [List.getElem?_eq_none (Nat.not_lt.mp inside)]
  · rfl

namespace WellFormed

variable (wellFormed : profiler.WellFormed)

include wellFormed

theorem actual_known : ∃ timer, profiler.timers[profiler.actualNode]? = some timer :=
  ⟨_, List.getElem?_eq_getElem wellFormed.actual⟩

/-- Leaving the actual timer. -/
theorem stopActual (notRoot : profiler.actualNode ≠ 0) (forced : Bool) :
    ∃ next, profiler.stopActual forced = .ok next ∧ next.WellFormed ∧
      next.tree = profiler.tree ∧ ∀ node, profiler.tree[profiler.actualNode]? = some node →
        next.actualNode = node.parentTimer := by
  obtain ⟨timer, known⟩ := wellFormed.actual_known
  have isNode := tree_of_known known
  let next : Profiler := { profiler.setTimer profiler.actualNode (timer.stop forced) with
    actualNode := timer.parentTimer }
  have sameTree : next.tree = profiler.tree := tree_setTimer known (Timer.node_stop forced timer)
  have below := wellFormed.isTree.parents _ _ isNode notRoot
  have path := TimerTree.ancestor_iff isNode notRoot
  have left := wellFormed.isTree.not_ancestor_of_parent isNode notRoot
  have count := wellFormed.running _ _ known (.self _)
  have stopped : (timer.stop forced).startCount = 0 := by
    cases forced <;> simp [Timer.stop, count]
  have timers : ∀ current other, next.timers[current]? = some other →
      current = profiler.actualNode ∧ other = timer.stop forced ∨
        current ≠ profiler.actualNode ∧ profiler.timers[current]? = some other := by
    intro current other isOther
    change (profiler.timers.set _ _)[current]? = _ at isOther
    rw [List.getElem?_set] at isOther
    split_ifs at isOther with here
    · exact Or.inl ⟨here.symm, (Option.some.inj isOther).symm⟩
    · exact Or.inr ⟨Ne.symm here, isOther⟩
  refine ⟨next, ?_, ⟨sameTree ▸ wellFormed.isTree, ?_, ?_, ?_⟩, sameTree, ?_⟩
  · unfold Profiler.stopActual
    rw [timer_of_known known]
    rfl
  · change timer.parentTimer < (profiler.timers.set _ _).length
    rw [List.length_set]
    exact lt_trans below wellFormed.actual
  · intro current other isOther ancestor
    rw [sameTree] at ancestor
    rcases timers current other isOther with ⟨rfl, -⟩ | ⟨-, kept⟩
    · exact absurd ancestor left
    · exact wellFormed.running _ _ kept ((path current).mpr (Or.inr ancestor))
  · intro current other isOther notAncestor
    rw [sameTree] at notAncestor
    rcases timers current other isOther with ⟨rfl, rfl⟩ | ⟨apart, kept⟩
    · exact stopped
    · refine wellFormed.closed _ _ kept fun ancestor => notAncestor ?_
      exact ((path current).mp ancestor).resolve_left apart
  · intro node isThis
    rw [isNode, Option.some.injEq] at isThis
    rw [← isThis]
    rfl

theorem closeBelow {fuel node : ℕ} (enough : profiler.actualNode < fuel)
    (ancestor : Ancestor profiler.tree profiler.actualNode node) :
    ∃ next, closeBelow node fuel profiler = .ok next ∧ next.WellFormed ∧
      next.tree = profiler.tree ∧ next.actualNode = node := by
  induction fuel generalizing profiler with
  | zero => exact absurd enough (Nat.not_lt_zero _)
  | succ fuel ih =>
      by_cases here : profiler.actualNode = node
      · exact ⟨profiler, if_pos here, wellFormed, rfl, here⟩
      · cases ancestor with
        | self => exact absurd rfl here
        | up known notRoot above =>
            obtain ⟨next, stopped, formed, sameTree, isParent⟩ :=
              wellFormed.stopActual notRoot true
            have parent := isParent _ known
            have lower := wellFormed.isTree.parents _ _ known notRoot
            rw [← parent, ← sameTree] at above
            obtain ⟨final, closed, finalFormed, finalTree, atNode⟩ := ih formed (by omega) above
            refine ⟨final, ?_, finalFormed, finalTree.trans sameTree, atNode⟩
            rw [Profiler.closeBelow, if_neg here, stopped]
            exact closed

theorem searchAbove (found : ℕ → Timer → Bool) {fuel node : ℕ} (enough : node < fuel)
    (inside : node < profiler.timers.length) :
    ∃ result, profiler.searchAbove found fuel node = .ok result ∧
      ∀ target, result = some target → target ≠ 0 ∧ Ancestor profiler.tree node target := by
  induction fuel generalizing node with
  | zero => exact absurd enough (Nat.not_lt_zero _)
  | succ fuel ih =>
      by_cases root : node = 0
      · exact ⟨none, if_pos root, fun target impossible => by cases impossible⟩
      · have known := List.getElem?_eq_getElem inside
        have isNode := tree_of_known known
        have step : profiler.searchAbove found (fuel + 1) node =
            if found node profiler.timers[node] then .ok (some node)
            else profiler.searchAbove found fuel profiler.timers[node].parentTimer := by
          rw [Profiler.searchAbove, if_neg root, timer_of_known known]
          rfl
        rw [step]
        split_ifs
        · refine ⟨some node, rfl, fun target isTarget => ?_⟩
          cases isTarget
          exact ⟨root, .self node⟩
        · have lower := wellFormed.isTree.parents _ _ isNode root
          change profiler.timers[node].parentTimer < node at lower
          obtain ⟨result, searched, above⟩ :=
            ih (show profiler.timers[node].parentTimer < fuel by omega) (by omega)
          exact ⟨result, searched, fun target isTarget =>
            ⟨(above target isTarget).1, .up isNode root (above target isTarget).2⟩⟩

theorem closeFound (found : ℕ → Timer → Bool) {fuel : ℕ}
    (enough : profiler.timers.length ≤ fuel) :
    ∃ next, profiler.closeFound fuel found = .ok next ∧ next.WellFormed ∧
      next.tree = profiler.tree := by
  have bound := lt_of_lt_of_le wellFormed.actual enough
  obtain ⟨result, searched, above⟩ := wellFormed.searchAbove found bound wellFormed.actual
  unfold Profiler.closeFound
  rw [searched]
  cases result with
  | none => exact ⟨profiler, rfl, wellFormed, rfl⟩
  | some target =>
      obtain ⟨notRoot, ancestor⟩ := above target rfl
      obtain ⟨middle, closed, formed, middleTree, atTarget⟩ :=
        wellFormed.closeBelow bound ancestor
      obtain ⟨next, stopped, nextFormed, nextTree, -⟩ :=
        formed.stopActual (atTarget ▸ notRoot) false
      refine ⟨next, ?_, nextFormed, nextTree.trans middleTree⟩
      change Profiler.closeBelow target fuel profiler >>= (Profiler.stopActual · false) = _
      rw [closed]
      exact stopped

/-- The children of the actual timer are closed. -/
theorem checkChildren {timer : Timer}
    (known : profiler.timers[profiler.actualNode]? = some timer) :
    profiler.checkChildren timer = .ok PUnit.unit := by
  unfold Profiler.checkChildren
  have each : ∀ i ∈ List.range Timer.maxNChilds, (do
      let childIdx ← timer.childAt i
      if childIdx > 0 then
        if (← profiler.timer childIdx.toNat).running then
          throw (.childRunning childIdx.toNat)) =
        (.ok PUnit.unit : Except ProfilerFailure PUnit) := by
    intro i member
    have inside := List.mem_range.mp member
    have read : timer.childAt i = .ok (timer.childTimers ⟨i, inside⟩) := dif_pos inside
    rw [read]
    change (if timer.childTimers ⟨i, inside⟩ > 0 then _ else _) = _
    split_ifs with positive
    · have stored : timer.node.slot ⟨i, inside⟩ = some (timer.childTimers ⟨i, inside⟩).toNat :=
        Timer.slot_eq_some_iff.mpr (Int.toNat_of_nonneg positive.le).symm
      obtain ⟨notRoot, node, isNode, parent⟩ :=
        wellFormed.isTree.children _ _ (tree_of_known known) _ _ stored
      obtain ⟨child, isChild, rfl⟩ := known_of_tree isNode
      have apart := wellFormed.isTree.not_ancestor_of_parent isNode notRoot
      rw [parent] at apart
      have count := wellFormed.closed _ _ isChild apart
      rw [timer_of_known isChild]
      change (if child.running = true then _ else _) = _
      rw [Timer.running, count]
      rfl
    · rfl
  generalize List.range Timer.maxNChilds = places at each
  induction places with
  | nil => rfl
  | cons place places ih =>
      rw [List.forM_eq_forM, List.forM_cons, each place List.mem_cons_self]
      exact ih fun i member => each i (List.mem_cons_of_mem _ member)

theorem stopTag {tag : Tag} {fuel : ℕ} (enough : profiler.timers.length ≤ fuel)
    (keepsRoot : profiler.actualNode = 0 → ∀ timer, profiler.timers[0]? = some timer →
      strHash tag ≠ timer.fullHash) :
    ∃ next, profiler.stopTag fuel tag = .ok next ∧ next.WellFormed ∧
      next.tree = profiler.tree := by
  obtain ⟨timer, known⟩ := wellFormed.actual_known
  have step : profiler.stopTag fuel tag = if strHash tag ≠ timer.fullHash then
      profiler.closeFound fuel fun _ timer => strHash tag = timer.fullHash
      else profiler.stopActual false := by
    unfold Profiler.stopTag
    rw [timer_of_known known]
    change (profiler.checkChildren timer >>= _) = _
    rw [wellFormed.checkChildren known]
    rfl
  rw [step]
  split_ifs with different
  · exact wellFormed.closeFound _ enough
  · have notRoot : profiler.actualNode ≠ 0 := fun root =>
      different (keepsRoot root timer (root ▸ known))
    obtain ⟨next, stopped, formed, sameTree, -⟩ := wellFormed.stopActual notRoot false
    exact ⟨next, stopped, formed, sameTree⟩

theorem stopIndex {index : ℤ} {fuel : ℕ} (enough : profiler.timers.length ≤ fuel)
    (known : index < profiler.timers.length)
    (keepsRoot : profiler.actualNode = 0 → 0 < index) :
    ∃ next, profiler.stopIndex fuel index = .ok next ∧ next.WellFormed ∧
      next.tree = profiler.tree := by
  let target : ℕ := if index < 0 then profiler.actualNode else index.toNat
  have inside : target < profiler.timers.length := by
    have actual := wellFormed.actual
    simp only [target]
    split_ifs <;> omega
  have isTimer := List.getElem?_eq_getElem inside
  have step : profiler.stopIndex fuel index = if !profiler.timers[target].running then .ok profiler
      else if target ≠ profiler.actualNode then
        profiler.closeFound fuel fun node _ => target = node
      else profiler.stopActual false := by
    unfold Profiler.stopIndex
    change (profiler.timer target >>= _) = _
    rw [timer_of_known isTimer]
    rfl
  rw [step]
  split_ifs with stopped other
  · exact ⟨profiler, rfl, wellFormed, rfl⟩
  · exact wellFormed.closeFound _ enough
  · have notRoot : profiler.actualNode ≠ 0 := by
      intro root
      have positive := keepsRoot root
      have isRoot : target = 0 := (not_not.mp other).trans root
      simp only [target] at isRoot
      split_ifs at isRoot <;> omega
    obtain ⟨next, left, formed, sameTree, -⟩ := wellFormed.stopActual notRoot false
    exact ⟨next, left, formed, sameTree⟩

end WellFormed

end Profiler

end Flow123d
