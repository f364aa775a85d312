import Flow123d.Library.Fold
import Flow123d.Reaction.LinearReaction

/-!
# Sign and total of the concentrations over a step

A step keeps the concentrations nonnegative, keeps their total and ignores the products
that are not tracked exactly when the shares of every parent are sound.
-/

set_option autoImplicit false

namespace Flow123d

open Flow123d.Library

namespace LinearReaction

/-! ## What a product with the matrix does -/

section Product

variable {n : ℕ} {K : Type} [Field K] [LinearOrder K] [IsStrictOrderedRing K]

theorem single_nonneg (col row : Fin n) :
    0 ≤ (Pi.single col 1 : Fin n → K) row := by
  by_cases here : row = col
  · subst here
    simp
  · simp [here]

theorem computeReaction_nonneg_iff {reaction : LinearReaction n K} :
    (∀ concentrations : Fin n → K, (∀ s, 0 ≤ concentrations s) →
      ∀ s, 0 ≤ reaction.computeReaction concentrations s) ↔
      ∀ col row, 0 ≤ reaction.reactionMatrix col row := by
  constructor
  · intro keeps col row
    have unit := keeps (Pi.single col 1) (single_nonneg col) row
    rwa [computeReaction_unit] at unit
  · intro nonneg concentrations valid row
    rw [computeReaction_apply]
    exact Finset.sum_nonneg fun col _ => mul_nonneg (valid col) (nonneg col row)

theorem computeReaction_total_iff {reaction : LinearReaction n K} :
    (∀ concentrations : Fin n → K, (∀ s, 0 ≤ concentrations s) →
      ∑ s, reaction.computeReaction concentrations s = ∑ s, concentrations s) ↔
      ∀ col, ∑ row, reaction.reactionMatrix col row = 1 := by
  constructor
  · intro keeps col
    have unit := keeps (Pi.single col 1) (single_nonneg col)
    rw [computeReaction_unit] at unit
    rw [unit]
    simp
  · intro total concentrations _
    rw [sum_computeReaction]
    simp [total]

theorem computeReaction_eq_iff {first second : LinearReaction n K} :
    (∀ concentrations : Fin n → K, (∀ s, 0 ≤ concentrations s) →
      first.computeReaction concentrations = second.computeReaction concentrations) ↔
      ∀ col, first.reactionMatrix col = second.reactionMatrix col := by
  constructor
  · intro same col
    have unit := same (Pi.single col 1) (single_nonneg col)
    rwa [computeReaction_unit, computeReaction_unit] at unit
  · intro same concentrations _
    funext row
    simp only [computeReaction_apply, same]

end Product

/-! ## The step over all elements -/

namespace ConcentrationMatrix

variable {n lsize : ℕ} {K : Type} [Field K] [LinearOrder K]

structure Nonneg (concentrations : ConcentrationMatrix n lsize K) : Prop where
  mobile : ∀ locEl s, 0 ≤ concentrations.mobile locEl s
  immobile : ∀ locEl s, 0 ≤ concentrations.immobile locEl s

omit [LinearOrder K] in
structure SameTotals (before after : ConcentrationMatrix n lsize K) : Prop where
  mobile : ∀ locEl, ∑ s, after.mobile locEl s = ∑ s, before.mobile locEl s
  immobile : ∀ locEl, ∑ s, after.immobile locEl s = ∑ s, before.immobile locEl s

end ConcentrationMatrix

section OneStep

variable {K : Type} [Field K] [LinearOrder K] (libm : Libm K)

/-- The step after `set_time_step`. -/
def oneStep {n lsize : ℕ} (timeStep : K) (decays : List (Decay n K)) (dualPorosityOn : Bool)
    (concentrations : ConcentrationMatrix n lsize K) : ConcentrationMatrix n lsize K :=
  ((create decays).setTimeStep libm timeStep).computeOneStep dualPorosityOn concentrations

def AllTracked (names : List String) (records : List (DecaySubstep K)) : Prop :=
  ∀ record ∈ records, ∀ product ∈ record.products, product ∈ names

structure StepSound (names : List String) (records : List (DecaySubstep K)) (timeStep : K)
    (decays : List (Decay names.length K)) : Prop where
  nonneg : ∀ {lsize : ℕ} (dualPorosityOn : Bool)
    (concentrations : ConcentrationMatrix names.length lsize K), concentrations.Nonneg →
    (oneStep libm timeStep decays dualPorosityOn concentrations).Nonneg
  total : AllTracked names records → ∀ {lsize : ℕ} (dualPorosityOn : Bool)
    (concentrations : ConcentrationMatrix names.length lsize K), concentrations.Nonneg →
    concentrations.SameTotals (oneStep libm timeStep decays dualPorosityOn concentrations)
  untracked : ∀ {lsize : ℕ} (dualPorosityOn : Bool)
    (concentrations : ConcentrationMatrix names.length lsize K), concentrations.Nonneg →
    oneStep libm timeStep decays dualPorosityOn concentrations =
      oneStep libm timeStep (decays.map Decay.trackedOnly) dualPorosityOn concentrations

end OneStep

/-! ## The shares that decide -/

section Shares

variable {n : ℕ} {K : Type} [Field K] [LinearOrder K] (libm : Libm K) (timeStep : K)

/-- Of the shares that the records of a parent give, the standing ones are not negative;
when all products are tracked, the replaced ones sum to the excess over one; and the last
share for the first substance is not that of a product without index. -/
structure SharesSound (decays : List (Decay n K)) : Prop where
  nonneg : ∀ parent, ∀ share ∈ standing (parentShares libm timeStep decays parent),
    0 ≤ share.2
  total : (∀ decay ∈ decays, ∀ product ∈ decay.products, product.1.isSome) →
    ∀ parent, parentDecays decays parent ≠ [] →
    ((replaced (parentShares libm timeStep decays parent)).map Prod.snd).sum + 1 =
      ((parentDecays decays parent).map fun decay => decay.remaining libm timeStep +
        (1 - decay.remaining libm timeStep) * decay.ratioSum).sum
  untracked : ∀ parent : Fin n,
    (lastWrite (parentShares libm timeStep decays parent) ⟨0, parent.pos⟩).getD 0 =
      (lastWrite (parentShares libm timeStep (decays.map Decay.trackedOnly) parent)
        ⟨0, parent.pos⟩).getD 0

variable {decays : List (Decay n K)} {parent : Fin n}

theorem parentShares_stable (stable : parentDecays decays parent = []) :
    parentShares libm timeStep decays parent = [] := by
  simp [parentShares, stable]

theorem stepMatrix_apply (i : Fin n) :
    stepMatrix libm timeStep decays parent i =
      (lastWrite (parentShares libm timeStep decays parent) i).getD
        (if parentDecays decays parent = [] then allocateReactionMatrix parent i else 0) := by
  by_cases stable : parentDecays decays parent = []
  · rw [stepMatrix_stable libm timeStep stable, parentShares_stable libm timeStep stable]
    simp [lastWrite, stable]
  · rw [stepMatrix_decaying libm timeStep stable, writeAll_apply]
    simp [stable]

theorem sum_parentShares :
    ((parentShares libm timeStep decays parent).map Prod.snd).sum =
      ((parentDecays decays parent).map fun decay => decay.remaining libm timeStep +
        (1 - decay.remaining libm timeStep) * decay.ratioSum).sum := by
  unfold parentShares
  rw [sum_map_flatMap]
  simp only [Decay.sum_shares]

theorem row_total_iff (decaying : parentDecays decays parent ≠ []) :
    ∑ i, stepMatrix libm timeStep decays parent i = 1 ↔
      ((replaced (parentShares libm timeStep decays parent)).map Prod.snd).sum + 1 =
        ((parentDecays decays parent).map fun decay => decay.remaining libm timeStep +
          (1 - decay.remaining libm timeStep) * decay.ratioSum).sum := by
  have split := sum_standing_add_sum_replaced (parentShares libm timeStep decays parent)
  rw [stepMatrix_decaying libm timeStep decaying, sum_writeAll, ← sum_parentShares, ← split,
    add_comm _ (1 : K), add_left_inj]
  exact eq_comm

theorem sum_row_stable (stable : parentDecays decays parent = []) :
    ∑ i, stepMatrix libm timeStep decays parent i = 1 := by
  rw [stepMatrix_stable libm timeStep stable]
  simp [allocateReactionMatrix]

omit [Field K] [LinearOrder K] in
theorem parentDecays_trackedOnly (decays : List (Decay n K)) (parent : Fin n) :
    parentDecays (decays.map Decay.trackedOnly) parent =
      (parentDecays decays parent).map Decay.trackedOnly := by
  unfold parentDecays
  rw [List.filter_map]
  rfl

theorem lastWrite_parentShares_trackedOnly {i : Fin n} (notFirst : i.val ≠ 0) :
    lastWrite (parentShares libm timeStep (decays.map Decay.trackedOnly) parent) i =
      lastWrite (parentShares libm timeStep decays parent) i := by
  unfold parentShares
  rw [parentDecays_trackedOnly]
  induction parentDecays decays parent with
  | nil => rfl
  | cons decay rest ih =>
      rw [List.map_cons, List.flatMap_cons, List.flatMap_cons, lastWrite_append,
        lastWrite_append, ih, Decay.lastWrite_trackedOnly libm timeStep decay notFirst]

theorem row_untracked_iff :
    stepMatrix libm timeStep decays parent =
        stepMatrix libm timeStep (decays.map Decay.trackedOnly) parent ↔
      (lastWrite (parentShares libm timeStep decays parent) ⟨0, parent.pos⟩).getD 0 =
        (lastWrite (parentShares libm timeStep (decays.map Decay.trackedOnly) parent)
          ⟨0, parent.pos⟩).getD 0 := by
  have alike : parentDecays (decays.map Decay.trackedOnly) parent = [] ↔
      parentDecays decays parent = [] := by
    rw [parentDecays_trackedOnly, List.map_eq_nil_iff]
  by_cases stable : parentDecays decays parent = []
  · have unwritten := parentShares_stable libm timeStep (alike.mpr stable)
    rw [stepMatrix_stable libm timeStep stable,
      stepMatrix_stable libm timeStep (alike.mpr stable),
      parentShares_stable libm timeStep stable, unwritten]
    simp
  · have entry : ∀ i, (stepMatrix libm timeStep decays parent i =
          stepMatrix libm timeStep (decays.map Decay.trackedOnly) parent i ↔
        (lastWrite (parentShares libm timeStep decays parent) i).getD 0 =
          (lastWrite (parentShares libm timeStep (decays.map Decay.trackedOnly) parent)
            i).getD 0) := by
      intro i
      rw [stepMatrix_apply, stepMatrix_apply, if_neg stable, if_neg (mt alike.mp stable)]
    constructor
    · intro same
      exact (entry _).mp (congrFun same _)
    · intro first
      funext i
      rw [entry]
      by_cases here : i.val = 0
      · rw [show i = ⟨0, parent.pos⟩ from Fin.ext here]
        exact first
      · rw [lastWrite_parentShares_trackedOnly libm timeStep here]

theorem row_nonneg_iff [IsStrictOrderedRing K] :
    (∀ i, 0 ≤ stepMatrix libm timeStep decays parent i) ↔
      ∀ share ∈ standing (parentShares libm timeStep decays parent), 0 ≤ share.2 := by
  have standingNonneg := @forall_standing _ _ _
    (parentShares libm timeStep decays parent) fun share : K => 0 ≤ share
  rw [standingNonneg]
  constructor
  · intro nonneg i share last
    have entry := nonneg i
    rw [stepMatrix_apply, last] at entry
    exact entry
  · intro nonneg i
    rw [stepMatrix_apply]
    cases last : lastWrite (parentShares libm timeStep decays parent) i with
    | some share => exact nonneg i share last
    | none =>
        rw [Option.getD_none]
        split
        · unfold allocateReactionMatrix
          split
          · exact zero_le_one
          · exact le_refl 0
        · exact le_refl 0

end Shares

/-! ## The records that are accepted -/

section Input

variable {K : Type} [Field K] [LinearOrder K] {libm : Libm K} {names : List String}

theorem productIndex_isSome {name : String} :
    (productIndex names name).isSome ↔ name ∈ names := by
  unfold productIndex findSubstName
  by_cases known : names.idxOf name < names.length
  · simp [known, List.idxOf_lt_length_iff.mp known]
  · simp [mt List.idxOf_lt_length_iff.mpr known]

theorem prepareInput_products {iDecay : ℕ} {record : DecaySubstep K}
    {decay : Decay names.length K}
    (accepted : prepareInput libm names iDecay record = .ok decay) :
    decay.products.map Prod.fst = record.products.map (productIndex names) := by
  unfold prepareInput at accepted
  obtain ⟨halfLife, _, accepted⟩ := bind_ok accepted
  split at accepted
  · cases accepted
  · split at accepted
    · cases accepted
    · split at accepted
      case isTrue matching =>
        cases accepted
        apply List.map_fst_zip
        simp [matching]
      case isFalse => cases accepted

theorem prepareInputsFrom_tracked {iDecay : ℕ} {records : List (DecaySubstep K)}
    {decays : List (Decay names.length K)}
    (accepted : prepareInputsFrom libm names iDecay records = .ok decays) :
    AllTracked names records ↔
      ∀ decay ∈ decays, ∀ product ∈ decay.products, product.1.isSome := by
  induction records generalizing iDecay decays with
  | nil =>
      cases accepted
      simp [AllTracked]
  | cons record records ih =>
      obtain ⟨decay, prepared, accepted⟩ := bind_ok accepted
      obtain ⟨others, rest, accepted⟩ := bind_ok accepted
      cases accepted
      have indices := prepareInput_products prepared
      have one : (∀ product ∈ record.products, product ∈ names) ↔
          ∀ product ∈ decay.products, product.1.isSome := by
        have all : (∀ index ∈ decay.products.map Prod.fst, index.isSome) ↔
            ∀ index ∈ record.products.map (productIndex names), index.isSome := by
          rw [indices]
        simpa [productIndex_isSome] using all.symm
      have others := ih rest
      unfold AllTracked at others ⊢
      simp only [List.forall_mem_cons, one, others]

end Input

/-! ## Soundness of the step -/

section Sound

variable {K : Type} [Field K] [LinearOrder K] {libm : Libm K} {timeStep : K}

def ConcentrationMatrix.one {n : ℕ} (concentrations : Fin n → K) :
    ConcentrationMatrix n 1 K :=
  ⟨fun _ => concentrations, fun _ => concentrations⟩

/-- What holds of every element after a step is what the product with the matrix does. -/
theorem oneStep_forall_iff {n : ℕ} {decays : List (Decay n K)}
    (good : (Fin n → K) → (Fin n → K) → Prop)
    (same : ∀ concentrations, (∀ s, 0 ≤ concentrations s) →
      good concentrations concentrations) :
    (∀ {lsize : ℕ} (dualPorosityOn : Bool) (concentrations : ConcentrationMatrix n lsize K),
      concentrations.Nonneg → ∀ locEl,
      good (concentrations.mobile locEl)
          ((oneStep libm timeStep decays dualPorosityOn concentrations).mobile locEl) ∧
        good (concentrations.immobile locEl)
          ((oneStep libm timeStep decays dualPorosityOn concentrations).immobile locEl)) ↔
      ∀ concentrations, (∀ s, 0 ≤ concentrations s) → good concentrations
        (((create decays).setTimeStep libm timeStep).computeReaction concentrations) := by
  constructor
  · intro keeps concentrations nonneg
    have valid : (ConcentrationMatrix.one concentrations).Nonneg :=
      ⟨fun _ => nonneg, fun _ => nonneg⟩
    exact (keeps true _ valid 0).1
  · intro keeps lsize dualPorosityOn concentrations valid locEl
    refine ⟨keeps _ (valid.mobile locEl), ?_⟩
    cases dualPorosityOn with
    | true => exact keeps _ (valid.immobile locEl)
    | false => exact same _ (valid.immobile locEl)

theorem oneStep_untracked_iff {n : ℕ} {decays : List (Decay n K)} :
    (∀ {lsize : ℕ} (dualPorosityOn : Bool) (concentrations : ConcentrationMatrix n lsize K),
      concentrations.Nonneg →
      oneStep libm timeStep decays dualPorosityOn concentrations =
        oneStep libm timeStep (decays.map Decay.trackedOnly) dualPorosityOn concentrations) ↔
      ∀ concentrations : Fin n → K, (∀ s, 0 ≤ concentrations s) →
        ((create decays).setTimeStep libm timeStep).computeReaction concentrations =
          ((create (decays.map Decay.trackedOnly)).setTimeStep libm timeStep).computeReaction
            concentrations := by
  constructor
  · intro same concentrations nonneg
    have valid : (ConcentrationMatrix.one concentrations).Nonneg :=
      ⟨fun _ => nonneg, fun _ => nonneg⟩
    exact congrFun (congrArg ConcentrationMatrix.mobile (same true _ valid)) 0
  · intro same lsize dualPorosityOn concentrations valid
    have mobile := fun locEl => same _ (valid.mobile locEl)
    have immobile := fun locEl => same _ (valid.immobile locEl)
    cases dualPorosityOn with
    | true => simp only [oneStep, computeOneStep, mobile, immobile]
    | false => simp only [oneStep, computeOneStep, mobile, Bool.false_eq_true, if_false]

variable [IsStrictOrderedRing K]

theorem oneStep_nonneg_iff {n : ℕ} {decays : List (Decay n K)} :
    (∀ {lsize : ℕ} (dualPorosityOn : Bool) (concentrations : ConcentrationMatrix n lsize K),
      concentrations.Nonneg →
      (oneStep libm timeStep decays dualPorosityOn concentrations).Nonneg) ↔
      ∀ col row, 0 ≤ stepMatrix libm timeStep decays col row := by
  have product := @computeReaction_nonneg_iff _ _ _ _ _
    ((create decays).setTimeStep libm timeStep)
  have lifted := @oneStep_forall_iff K _ _ libm timeStep n decays
    (fun _ after => ∀ s, 0 ≤ after s) fun _ nonneg => nonneg
  refine Iff.trans ?_ (lifted.trans product)
  constructor
  · intro keeps lsize dualPorosityOn concentrations valid locEl
    have after := keeps dualPorosityOn concentrations valid
    exact ⟨after.mobile locEl, after.immobile locEl⟩
  · intro keeps lsize dualPorosityOn concentrations valid
    have after := keeps dualPorosityOn concentrations valid
    exact ⟨fun locEl => (after locEl).1, fun locEl => (after locEl).2⟩

theorem oneStep_total_iff {n : ℕ} {decays : List (Decay n K)} :
    (∀ {lsize : ℕ} (dualPorosityOn : Bool) (concentrations : ConcentrationMatrix n lsize K),
      concentrations.Nonneg → concentrations.SameTotals
        (oneStep libm timeStep decays dualPorosityOn concentrations)) ↔
      ∀ col, ∑ row, stepMatrix libm timeStep decays col row = 1 := by
  have product := @computeReaction_total_iff _ _ _ _ _
    ((create decays).setTimeStep libm timeStep)
  have lifted := @oneStep_forall_iff K _ _ libm timeStep n decays
    (fun before after => ∑ s, after s = ∑ s, before s) fun _ _ => rfl
  refine Iff.trans ?_ (lifted.trans product)
  constructor
  · intro keeps lsize dualPorosityOn concentrations valid locEl
    have after := keeps dualPorosityOn concentrations valid
    exact ⟨after.mobile locEl, after.immobile locEl⟩
  · intro keeps lsize dualPorosityOn concentrations valid
    have after := keeps dualPorosityOn concentrations valid
    exact ⟨fun locEl => (after locEl).1, fun locEl => (after locEl).2⟩

omit [Field K] [LinearOrder K] [IsStrictOrderedRing K] in
theorem parentDecays_single {n : ℕ} {decays : List (Decay n K)} {parent : Fin n}
    (parents : (decays.map Decay.indexPar).Nodup)
    (decaying : parentDecays decays parent ≠ []) :
    ∃ decay ∈ decays, parentDecays decays parent = [decay] := by
  have distinct : ((parentDecays decays parent).map Decay.indexPar).Nodup :=
    parents.sublist (List.filter_sublist.map _)
  have members : ∀ decay ∈ parentDecays decays parent,
      decay ∈ decays ∧ decay.indexPar = parent := by
    intro decay member
    simpa using List.mem_filter.mp member
  cases heads : parentDecays decays parent with
  | nil => exact absurd heads decaying
  | cons decay rest =>
      rw [heads] at members distinct
      have first := members decay List.mem_cons_self
      cases rest with
      | nil => exact ⟨decay, first.1, rfl⟩
      | cons other rest =>
          have second := members other (by simp)
          have equal : decay.indexPar = other.indexPar := by
            rw [first.2, second.2]
          simp [equal] at distinct

omit [IsStrictOrderedRing K] in
theorem stepMatrix_total_iff {n : ℕ} {decays : List (Decay n K)} :
    (∀ col, ∑ row, stepMatrix libm timeStep decays col row = 1) ↔
      ∀ parent, parentDecays decays parent ≠ [] →
        ((replaced (parentShares libm timeStep decays parent)).map Prod.snd).sum + 1 =
          ((parentDecays decays parent).map fun decay => decay.remaining libm timeStep +
            (1 - decay.remaining libm timeStep) * decay.ratioSum).sum := by
  constructor
  · intro total parent decaying
    exact (row_total_iff libm timeStep decaying).mp (total parent)
  · intro total parent
    by_cases stable : parentDecays decays parent = []
    · exact sum_row_stable libm timeStep stable
    · exact (row_total_iff libm timeStep stable).mpr (total parent stable)

/-- One record for each parent, with different tracked products besides the parent. -/
theorem sharesSound_of_nodup {n : ℕ} {decays : List (Decay n K)}
    (parents : (decays.map Decay.indexPar).Nodup)
    (products : ∀ decay ∈ decays,
      ((decay.shares libm timeStep).map Prod.fst).Nodup)
    (tracked : ∀ decay ∈ decays, ∀ product ∈ decay.products, product.1.isSome)
    (ratios : ∀ decay ∈ decays, (∀ product ∈ decay.products, 0 ≤ product.2) ∧
      decay.ratioSum = 1)
    (remaining : ∀ decay ∈ decays, 0 ≤ decay.remaining libm timeStep ∧
      decay.remaining libm timeStep ≤ 1) :
    SharesSound libm timeStep decays := by
  refine ⟨?_, ?_, ?_⟩
  · intro parent share member
    obtain ⟨decay, heads, given⟩ := List.mem_flatMap.mp (standing_subset member)
    have listed := (List.mem_filter.mp heads).1
    rcases List.mem_cons.mp given with kept | received
    · rw [kept]
      exact (remaining decay listed).1
    · obtain ⟨product, inProducts, rfl⟩ := List.mem_map.mp received
      have ratio := (ratios decay listed).1 product inProducts
      exact mul_nonneg (sub_nonneg.mpr (remaining decay listed).2) ratio
  · intro _ parent decaying
    obtain ⟨decay, listed, single⟩ := parentDecays_single parents decaying
    have shares : parentShares libm timeStep decays parent = decay.shares libm timeStep := by
      simp [parentShares, single]
    rw [shares, replaced_of_nodup (products decay listed), single]
    simp [(ratios decay listed).2]
  · intro parent
    have same : decays.map Decay.trackedOnly = decays := by
      refine (List.map_congr_left ?_).trans (List.map_id _)
      intro decay listed
      have all := List.filter_eq_self.mpr (tracked decay listed)
      unfold Decay.trackedOnly
      rw [all, id]
    rw [same]

/-- For every list of records that is accepted. -/
theorem step_sound_iff {names : List String} {records : List (DecaySubstep K)}
    {decays : List (Decay names.length K)}
    (accepted : prepareInputs libm names records = .ok decays) :
    StepSound libm names records timeStep decays ↔ SharesSound libm timeStep decays := by
  have tracked := prepareInputsFrom_tracked accepted
  have rowsAlike : (∀ col, stepMatrix libm timeStep decays col =
        stepMatrix libm timeStep (decays.map Decay.trackedOnly) col) ↔ _ :=
    (oneStep_untracked_iff.trans computeReaction_eq_iff).symm
  constructor
  · intro sound
    refine ⟨?_, ?_, ?_⟩
    · intro parent
      have matrix := oneStep_nonneg_iff.mp sound.nonneg
      exact (row_nonneg_iff libm timeStep).mp (matrix parent)
    · intro indexed
      have matrix := oneStep_total_iff.mp (sound.total (tracked.mpr indexed))
      exact stepMatrix_total_iff.mp matrix
    · intro parent
      have matrix := rowsAlike.mpr sound.untracked
      exact (row_untracked_iff libm timeStep).mp (matrix parent)
  · intro shares
    refine ⟨?_, ?_, ?_⟩
    · apply oneStep_nonneg_iff.mpr
      intro parent
      exact (row_nonneg_iff libm timeStep).mpr (shares.nonneg parent)
    · intro allTracked
      apply oneStep_total_iff.mpr
      exact stepMatrix_total_iff.mpr (shares.total (tracked.mp allTracked))
    · apply rowsAlike.mp
      intro parent
      exact (row_untracked_iff libm timeStep).mpr (shares.untracked parent)

end Sound

/-! ## Real numbers -/

section Real

theorem remaining_real {n : ℕ} {timeStep : ℝ} (positive : 0 < timeStep) (decay : Decay n ℝ)
    (nonneg : ∀ halfLife, decay.halfLife = .finite halfLife → 0 ≤ halfLife) :
    0 ≤ decay.remaining Libm.real timeStep ∧ decay.remaining Libm.real timeStep ≤ 1 := by
  unfold Decay.remaining
  cases halfLife : decay.halfLife with
  | infinite =>
      exact ⟨Libm.real_pow_nonneg (by norm_num), Libm.real_pow_half_le_one (le_refl 0)⟩
  | finite value =>
      by_cases zero : value = 0
      · simp [zero]
      · have quotient := div_nonneg positive.le (nonneg value halfLife)
        simp only [zero, if_false]
        exact ⟨Libm.real_pow_nonneg (by norm_num), Libm.real_pow_half_le_one quotient⟩

def halvingSubstep (product : String) : DecaySubstep ℝ where
  parent := "B"
  halfLife := some 1
  kinetic := none
  products := [product]
  branchRatios := [1]

theorem remaining_halving {n : ℕ} (indexPar : Fin n) (products : List (Option (Fin n) × ℝ)) :
    (Decay.mk indexPar (.finite 1) products).remaining Libm.real 1 = 1 / 2 := by
  simp [Decay.remaining, Libm.real]

theorem step_sound_halving :
    StepSound Libm.real ["A", "B"] [halvingSubstep "A"] 1
      [⟨1, .finite 1, [(some 0, 1)]⟩] := by
  apply (step_sound_iff rfl).mpr
  apply sharesSound_of_nodup
  · simp
  · simp [Decay.shares, Decay.substanceId]
  · simp
  · simp [Decay.ratioSum]
  · simp only [List.mem_singleton, forall_eq, remaining_halving]
    norm_num

theorem not_always_stepSound :
    ¬ ∀ (names : List String) (records : List (DecaySubstep ℝ)) (timeStep : ℝ)
      (decays : List (Decay names.length ℝ)), 0 < timeStep →
      (∀ record ∈ records, (∀ ratio ∈ record.branchRatios, 0 ≤ ratio) ∧
        record.branchRatios.sum = 1) →
      prepareInputs Libm.real names records = .ok decays →
      StepSound Libm.real names records timeStep decays := by
  intro always
  have sound := always ["A", "B"] [halvingSubstep "X"] 1 [⟨1, .finite 1, [(none, 1)]⟩]
    one_pos (by simp [halvingSubstep]) rfl
  have rows := computeReaction_eq_iff.mp (oneStep_untracked_iff.mp sound.untracked)
  have first := (row_untracked_iff Libm.real 1).mp (rows 1)
  simp [create, parentShares, parentDecays, Decay.shares, Decay.trackedOnly,
    Decay.substanceId, lastWrite, remaining_halving] at first
  norm_num at first

end Real

end LinearReaction

end Flow123d
