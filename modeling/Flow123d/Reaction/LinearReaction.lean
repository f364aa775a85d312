import Flow123d.Library.Double
import Flow123d.Library.GroupedSums
import Flow123d.Library.Writes

/-!
# First order reactions

Radioactive decay and reactions of the first order as the product of the concentrations
with a reaction matrix, and how the matrix is filled from the records of the input.
-/

set_option autoImplicit false

namespace Flow123d

open Flow123d.Library

/-- One record of `decays`; a missing `branch_ratios` has the default `[1.0]`. -/
structure DecaySubstep (K : Type) where
  parent : String
  halfLife : Option K
  kinetic : Option K
  products : List String
  branchRatios : List K

/-- A `double` half life; `log(2)/kinetic` is infinite for the zero constant. -/
inductive HalfLife (K : Type) where
  | finite (value : K)
  | infinite
  deriving DecidableEq

/-- The prepared data of one record: `substance_ids` and `bifurcation` entry by entry.
An index that is not assigned keeps the zero of `resize`. -/
structure Decay (n : ℕ) (K : Type) where
  indexPar : Fin n
  halfLife : HalfLife K
  products : List (Option (Fin n) × K)

namespace LinearReaction

variable {K : Type} [Field K] [DecidableEq K] (libm : Libm K)

/-! ## Input -/

/-- The position of the first equal name, or the number of names. -/
def findSubstName (names : List String) (name : String) : ℕ := names.idxOf name

def readHalfLife (iDecay : ℕ) (record : DecaySubstep K) : Except String (HalfLife K) :=
  match record.halfLife, record.kinetic with
  | some value, _ => .ok (.finite value)
  | none, some kinetic =>
      .ok (if kinetic = 0 then .infinite else .finite (libm.log 2 / kinetic))
  | none, none =>
      .error s!"Missing half-life or kinetic in the {iDecay}-th reaction.\n"

def productIndex (names : List String) (name : String) : Option (Fin names.length) :=
  if known : findSubstName names name < names.length then some ⟨_, known⟩ else none

def prepareInput (names : List String) (iDecay : ℕ) (record : DecaySubstep K) :
    Except String (Decay names.length K) := do
  let halfLife ← readHalfLife libm iDecay record
  if record.products.isEmpty then
    .error s!"Empty array of products in the {iDecay}-th reaction.\n"
  else match productIndex names record.parent with
    | none => .error s!"Wrong name of parent substance in the {iDecay}-th reaction.\n"
    | some indexPar =>
        -- a wrong name of a product is only reported by a message
        let indices := record.products.map (productIndex names)
        if record.branchRatios.length = record.products.length then
          .ok ⟨indexPar, halfLife, indices.zip record.branchRatios⟩
        else
          .error (s!"Number of branches {record.branchRatios.length} has to match number of " ++
            s!"products {record.products.length} in the {iDecay}-th reaction.\n")

def prepareInputsFrom (names : List String) :
    ℕ → List (DecaySubstep K) → Except String (List (Decay names.length K))
  | _, [] => .ok []
  | iDecay, record :: records => do
      let decay ← prepareInput libm names iDecay record
      let decays ← prepareInputsFrom names (iDecay + 1) records
      .ok (decay :: decays)

def prepareInputs (names : List String) (records : List (DecaySubstep K)) :
    Except String (List (Decay names.length K)) :=
  prepareInputsFrom libm names 0 records

end LinearReaction

/-! ## The reaction matrix -/

namespace Decay

variable {n : ℕ} {K : Type} [Field K] [DecidableEq K] (libm : Libm K)

/-- `pow(0.5, time_step / half_life)` for a positive time step: the quotient by the zero
half life is infinite, the quotient by the infinite one is zero. -/
def remaining (timeStep : K) (decay : Decay n K) : K :=
  match decay.halfLife with
  | .infinite => libm.pow (1 / 2) 0
  | .finite halfLife => if halfLife = 0 then 0 else libm.pow (1 / 2) (timeStep / halfLife)

def substanceId (decay : Decay n K) (index : Option (Fin n)) : Fin n :=
  index.getD ⟨0, decay.indexPar.pos⟩

def writeRow (timeStep : K) (row : Fin n → K) (decay : Decay n K) : Fin n → K :=
  decay.products.foldl
    (fun row product => Function.update row (decay.substanceId product.1)
      ((1 - decay.remaining libm timeStep) * product.2))
    (Function.update row decay.indexPar (decay.remaining libm timeStep))

end Decay

structure LinearReaction (n : ℕ) (K : Type) where
  timeStep : K
  decays : List (Decay n K)
  reactionMatrix : Fin n → Fin n → K

namespace LinearReaction

variable {n : ℕ} {K : Type} [Field K] [DecidableEq K] (libm : Libm K)

def allocateReactionMatrix : Fin n → Fin n → K :=
  fun row col => if row = col then 1 else 0

/-- Every record writes into the row of its parent. -/
def modifyReactionMatrix (timeStep : K) (decays : List (Decay n K))
    (reactionMatrix : Fin n → Fin n → K) : Fin n → Fin n → K :=
  decays.foldl
    (fun matrix decay => Function.update matrix decay.indexPar
      (decay.writeRow libm timeStep (matrix decay.indexPar)))
    reactionMatrix

def create (decays : List (Decay n K)) : LinearReaction n K where
  timeStep := 1
  decays := decays
  reactionMatrix := allocateReactionMatrix

def setTimeStep (newTimestep : K) (reaction : LinearReaction n K) : LinearReaction n K :=
  { reaction with
    timeStep := newTimestep
    reactionMatrix :=
      modifyReactionMatrix libm newTimestep reaction.decays allocateReactionMatrix }

/-! ## The step -/

def computeReaction (reaction : LinearReaction n K) (concentrations : Fin n → K) :
    Fin n → K :=
  fun row => (List.finRange n).foldl
    (fun sum col => sum + concentrations col * reaction.reactionMatrix col row) 0

/-- `concentration_matrix[MOBILE]` and `[IMMOBILE]`, the substances of each local element. -/
structure ConcentrationMatrix (n lsize : ℕ) (K : Type) where
  mobile : Fin lsize → Fin n → K
  immobile : Fin lsize → Fin n → K

variable {lsize : ℕ}

def computeOneStep (dualPorosityOn : Bool) (reaction : LinearReaction n K)
    (concentrations : ConcentrationMatrix n lsize K) : ConcentrationMatrix n lsize K where
  mobile := fun locEl => reaction.computeReaction (concentrations.mobile locEl)
  immobile := fun locEl =>
    if dualPorosityOn then reaction.computeReaction (concentrations.immobile locEl)
    else concentrations.immobile locEl

end LinearReaction

end Flow123d

/-!
## One step of the first order reactions

A row of the reaction matrix holds the shares that the records of its parent give, each
overwritten by later shares for the same substance. What a step does to the sign and the
total of the concentrations is decided by the shares that stand.
-/

namespace Flow123d

open Flow123d.Library

/-! ## The rows of the matrix -/

namespace Decay

variable {n : ℕ} {K : Type} [Field K] [DecidableEq K] (libm : Libm K) (timeStep : K)

/-- What the parent keeps and what the products receive, in the order of the writes. -/
def shares (decay : Decay n K) : List (Fin n × K) :=
  (decay.indexPar, decay.remaining libm timeStep) ::
    decay.products.map fun product =>
      (decay.substanceId product.1, (1 - decay.remaining libm timeStep) * product.2)

/-- The record without the products that are not tracked. -/
def trackedOnly (decay : Decay n K) : Decay n K :=
  { decay with products := decay.products.filter fun product => product.1.isSome }

def ratioSum (decay : Decay n K) : K := (decay.products.map Prod.snd).sum

theorem writeRow_eq (row : Fin n → K) (decay : Decay n K) :
    decay.writeRow libm timeStep row = writeAll row (decay.shares libm timeStep) := by
  unfold writeRow writeAll shares
  rw [List.foldl_cons, List.foldl_map]

theorem sum_shares (decay : Decay n K) :
    ((decay.shares libm timeStep).map Prod.snd).sum =
      decay.remaining libm timeStep +
        (1 - decay.remaining libm timeStep) * decay.ratioSum := by
  simp [shares, ratioSum, Function.comp_def, List.sum_map_mul_left]

theorem lastWrite_trackedOnly (decay : Decay n K) {i : Fin n} (notFirst : i.val ≠ 0) :
    lastWrite (decay.trackedOnly.shares libm timeStep) i =
      lastWrite (decay.shares libm timeStep) i := by
  have products : ∀ items : List (Option (Fin n) × K),
      lastWrite ((items.filter fun product => product.1.isSome).map fun product =>
          (decay.substanceId product.1, (1 - decay.remaining libm timeStep) * product.2)) i =
        lastWrite (items.map fun product =>
          (decay.substanceId product.1,
            (1 - decay.remaining libm timeStep) * product.2)) i := by
    intro items
    induction items with
    | nil => rfl
    | cons product items ih =>
        obtain ⟨index, ratio⟩ := product
        cases index with
        | some index => simp [lastWrite, ih]
        | none =>
            have elsewhere : decay.substanceId none ≠ i := by
              intro here
              exact notFirst (by rw [← here]; rfl)
            simp [lastWrite, ih, elsewhere]
  exact congrArg
    (fun last => last.or
      (if decay.indexPar = i then some (decay.remaining libm timeStep) else none))
    (products decay.products)

end Decay

namespace LinearReaction

/-! ## The step as a product with the matrix -/

section Product

variable {n : ℕ} {K : Type} [Field K]

theorem computeReaction_apply (reaction : LinearReaction n K) (concentrations : Fin n → K)
    (row : Fin n) :
    reaction.computeReaction concentrations row =
      ∑ col, concentrations col * reaction.reactionMatrix col row := by
  unfold computeReaction
  rw [← sum_finRange, List.sum_eq_foldl, List.foldl_map]

theorem computeReaction_unit (reaction : LinearReaction n K) (col : Fin n) :
    reaction.computeReaction (Pi.single col 1) = reaction.reactionMatrix col := by
  funext row
  rw [computeReaction_apply, Finset.sum_eq_single col]
  · simp
  · intro other _ different
    simp [different]
  · simp

theorem sum_computeReaction (reaction : LinearReaction n K) (concentrations : Fin n → K) :
    ∑ row, reaction.computeReaction concentrations row =
      ∑ col, concentrations col * ∑ row, reaction.reactionMatrix col row := by
  simp only [computeReaction_apply]
  rw [Finset.sum_comm]
  exact Finset.sum_congr rfl fun col _ => (Finset.mul_sum _ _ _).symm

end Product

/-! ## The shares of a parent -/

section Shares

variable {n : ℕ} {K : Type} [Field K] [DecidableEq K] (libm : Libm K) (timeStep : K)

def parentDecays (decays : List (Decay n K)) (parent : Fin n) : List (Decay n K) :=
  decays.filter fun decay => decay.indexPar = parent

def parentShares (decays : List (Decay n K)) (parent : Fin n) : List (Fin n × K) :=
  (parentDecays decays parent).flatMap (Decay.shares libm timeStep)

theorem modifyReactionMatrix_row (decays : List (Decay n K)) (matrix : Fin n → Fin n → K)
    (parent : Fin n) :
    modifyReactionMatrix libm timeStep decays matrix parent =
      writeAll (matrix parent) (parentShares libm timeStep decays parent) := by
  induction decays generalizing matrix with
  | nil => rfl
  | cons decay decays ih =>
      have rest := ih (Function.update matrix decay.indexPar
        (decay.writeRow libm timeStep (matrix decay.indexPar)))
      unfold modifyReactionMatrix at rest ⊢
      rw [List.foldl_cons, rest]
      by_cases here : decay.indexPar = parent
      · subst here
        rw [Function.update_self, Decay.writeRow_eq, ← writeAll_append]
        simp [parentShares, parentDecays]
      · rw [Function.update_of_ne (Ne.symm here)]
        simp [parentShares, parentDecays, here]

theorem overwritten_parent {decays : List (Decay n K)} {parent : Fin n}
    (decaying : parentDecays decays parent ≠ []) :
    Overwritten (parentShares libm timeStep decays parent) parent := by
  obtain ⟨decay, member⟩ := List.exists_mem_of_ne_nil _ decaying
  have heads : decay.indexPar = parent := by simpa using (List.mem_filter.mp member).2
  apply List.mem_map.mpr
  refine ⟨(parent, decay.remaining libm timeStep), ?_, rfl⟩
  exact List.mem_flatMap.mpr ⟨decay, member, by simp [Decay.shares, heads]⟩

/-- The matrix that `set_time_step` makes. -/
def stepMatrix (decays : List (Decay n K)) : Fin n → Fin n → K :=
  modifyReactionMatrix libm timeStep decays allocateReactionMatrix

theorem stepMatrix_stable {decays : List (Decay n K)} {parent : Fin n}
    (stable : parentDecays decays parent = []) :
    stepMatrix libm timeStep decays parent = allocateReactionMatrix parent := by
  unfold stepMatrix
  rw [modifyReactionMatrix_row]
  simp [parentShares, stable, writeAll]

theorem stepMatrix_decaying {decays : List (Decay n K)} {parent : Fin n}
    (decaying : parentDecays decays parent ≠ []) :
    stepMatrix libm timeStep decays parent =
      writeAll (fun _ => 0) (parentShares libm timeStep decays parent) := by
  unfold stepMatrix
  rw [modifyReactionMatrix_row]
  funext i
  rw [writeAll_apply, writeAll_apply]
  by_cases here : parent = i
  · have written := overwritten_parent libm timeStep decaying
    have some := mt lastWrite_eq_none_iff.mp (not_not.mpr written)
    obtain ⟨value, last⟩ := Option.ne_none_iff_exists'.mp some
    simp [← here, last]
  · simp [allocateReactionMatrix, here]

end Shares

end LinearReaction

end Flow123d
