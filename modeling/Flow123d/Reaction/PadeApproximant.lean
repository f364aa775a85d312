import Mathlib.LinearAlgebra.Matrix.NonsingularInverse
import Flow123d.Library.Fold
import Flow123d.Reaction.LinearReaction

/-!
# Padé approximant of the decay

`Pade_approximant` fills two arrays of coefficients, evaluates the nominator and the denominator
of the approximant at the matrix of the decays and solves with the denominator. Accesses of the
arrays and the arithmetic of `int` are checked.
-/

set_option autoImplicit false

namespace Flow123d

open Flow123d.Library

namespace PadeApproximant

inductive PadeError where
  /-- Access of an array of `length` entries at `index`. -/
  | outOfRange (index length : ℕ)
  /-- The result of an operation of `int` is no `int`. -/
  | overflow
  /-- Division of the time step by the half life zero. -/
  | notFinite
  /-- Zero pivot in the factorization of the denominator. -/
  | singular
  deriving DecidableEq, Repr

/-! ## Coefficients -/

def checkedInt (value : ℤ) : Except PadeError ℤ :=
  if -2 ^ 31 ≤ value ∧ value < 2 ^ 31 then .ok value else .error .overflow

/-- The loop of `faktorial` from `k` down, with the product so far. -/
def faktorialLoop : ℕ → ℤ → Except PadeError ℤ
  | 0, faktor => .ok faktor
  | 1, faktor => .ok faktor
  | k + 2, faktor => do
      let faktor ← checkedInt (faktor * (k + 2))
      faktorialLoop (k + 1) faktor

def faktorial (k : ℤ) : Except PadeError ℤ :=
  if k < 0 then .ok 0 else faktorialLoop k.toNat 1

variable {K : Type} [Field K] [DecidableEq K]

def writeCoef (coef : List K) (index : ℕ) (value : K) : Except PadeError (List K) :=
  if index < coef.length then .ok (coef.set index value)
  else .error (.outOfRange index coef.length)

def readCoef (coef : List K) (index : ℕ) : Except PadeError K :=
  match coef[index]? with
  | some value => .ok value
  | none => .error (.outOfRange index coef.length)

def nominatorValue (nomPolDeg denPolDeg j : ℕ) : Except PadeError K := do
  let first ← faktorial (nomPolDeg + denPolDeg - j)
  let second ← faktorial nomPolDeg
  let nominator ← checkedInt (first * second)
  let third ← faktorial (nomPolDeg + denPolDeg)
  let fourth ← faktorial j
  let fifth ← faktorial (nomPolDeg - j)
  let product ← checkedInt (third * fourth)
  let denominator ← checkedInt (product * fifth)
  .ok ((nominator : K) / denominator)

/-- Here the nominator is a product of doubles. -/
def denominatorValue (nomPolDeg denPolDeg i : ℕ) : Except PadeError K := do
  let first ← faktorial (nomPolDeg + denPolDeg - i)
  let second ← faktorial denPolDeg
  let third ← faktorial (nomPolDeg + denPolDeg)
  let fourth ← faktorial i
  let fifth ← faktorial (denPolDeg - i)
  let product ← checkedInt (third * fourth)
  let denominator ← checkedInt (product * fifth)
  .ok ((-1) ^ i * first * second / denominator)

/-- The loop from the highest degree down to zero. -/
def fillCoefs (value : ℕ → Except PadeError K) (degree : ℕ) (coef : List K) :
    Except PadeError (List K) :=
  (List.range (degree + 1)).reverse.foldlM
    (fun coef j => do
      let next ← value j
      writeCoef coef j next)
    coef

/-! ## Matrices -/

section Matrices

variable {n : ℕ} (libm : Libm K)

def relStep (timeStep : K) (decay : Decay n K) : Except PadeError K :=
  match decay.halfLife with
  | .infinite => .ok 0
  | .finite halfLife =>
      if halfLife = 0 then .error .notFinite else .ok (timeStep / halfLife)

/-- The entries of one decay, inserted in the order of the source. -/
def insertDecay (timeStep : K) (matrix : Matrix (Fin n) (Fin n) K) (decay : Decay n K) :
    Except PadeError (Matrix (Fin n) (Fin n) K) := do
  let step ← relStep timeStep decay
  .ok (decay.products.foldl
    (fun matrix product =>
      matrix.updateRow decay.indexPar (Function.update (matrix decay.indexPar)
        (decay.substanceId product.1) (libm.log 2 * step * product.2)))
    (matrix.updateRow decay.indexPar (Function.update (matrix decay.indexPar)
      decay.indexPar (-libm.log 2 * step))))

def reactionMatrix (timeStep : K) (decays : List (Decay n K)) :
    Except PadeError (Matrix (Fin n) (Fin n) K) :=
  decays.foldlM (insertDecay libm timeStep) 0

/-- Both polynomials are evaluated from the degree of the denominator down. -/
def evaluateMatrixPolynomial (denPolDeg : ℕ) (coef : List K)
    (matrix : Matrix (Fin n) (Fin n) K) : Except PadeError (Matrix (Fin n) (Fin n) K) :=
  (List.range (denPolDeg + 1)).reverse.foldlM
    (fun polynomial i => do
      let value ← readCoef coef i
      .ok (polynomial * matrix + value • 1))
    0

/-- Solution with a factorized matrix, `none` at a zero pivot. -/
abbrev PcApply (n : ℕ) (K : Type) :=
  Matrix (Fin n) (Fin n) K → (Fin n → K) → Option (Fin n → K)

/-- One row of the approximant for each column of the nominator. -/
def solveRows (pcApply : PcApply n K) (denominator nominator : Matrix (Fin n) (Fin n) K) :
    Except PadeError (Matrix (Fin n) (Fin n) K) :=
  (List.finRange n).foldlM
    (fun pade row =>
      match pcApply denominator (fun i => nominator i row) with
      | none => .error .singular
      | some solution => .ok (pade.updateRow row (pade row + solution)))
    0

/-- The declarations `nominator_coef[nom_pol_deg]` and `denominator_coef[den_pol_deg]`;
`uninitialized` is what the stack holds. -/
def modifyReactionMatrix (pcApply : PcApply n K) (uninitialized : ℕ → K)
    (nomPolDeg denPolDeg : ℕ) (timeStep : K) (decays : List (Decay n K)) :
    Except PadeError (Matrix (Fin n) (Fin n) K) := do
  let nominatorCoef := (List.range nomPolDeg).map uninitialized
  let denominatorCoef := (List.range denPolDeg).map uninitialized
  let matrix ← reactionMatrix libm timeStep decays
  let nominatorCoef ← fillCoefs (nominatorValue nomPolDeg denPolDeg) nomPolDeg nominatorCoef
  let nominator ← evaluateMatrixPolynomial denPolDeg nominatorCoef matrix
  let denominatorCoef ←
    fillCoefs (denominatorValue nomPolDeg denPolDeg) denPolDeg denominatorCoef
  let denominator ← evaluateMatrixPolynomial denPolDeg denominatorCoef matrix
  solveRows pcApply denominator nominator

end Matrices

/-! ## The evaluation of a polynomial -/

section Evaluation

variable {n : ℕ}

omit [DecidableEq K] in
theorem readCoef_eq {coef : List K} {index : ℕ} (bound : index < coef.length) :
    readCoef coef index = .ok (coef.getD index 0) := by
  rw [readCoef, List.getD_eq_getElem?_getD, List.getElem?_eq_getElem bound]
  rfl

omit [DecidableEq K] in
/-- The scheme from any start value. -/
theorem evaluate_from {coef : List K} (matrix : Matrix (Fin n) (Fin n) K) (degree : ℕ)
    (bound : degree ≤ coef.length) (start : Matrix (Fin n) (Fin n) K) :
    (List.range degree).reverse.foldlM
      (fun polynomial i => do
        let value ← readCoef coef i
        (.ok (polynomial * matrix + value • 1) : Except PadeError (Matrix (Fin n) (Fin n) K)))
      start =
    .ok (start * matrix ^ degree + ∑ i ∈ Finset.range degree, coef.getD i 0 • matrix ^ i) := by
  induction degree generalizing start with
  | zero =>
      rw [pow_zero, mul_one, Finset.sum_range_zero, add_zero]
      rfl
  | succ degree ih =>
      rw [List.range_succ, List.reverse_append, List.reverse_singleton, List.singleton_append,
        List.foldlM_cons, readCoef_eq bound]
      apply (ih (Nat.le_of_succ_le bound) _).trans
      have turn : (start * matrix + coef.getD degree 0 • 1) * matrix ^ degree =
          start * matrix ^ (degree + 1) + coef.getD degree 0 • matrix ^ degree := by
        rw [add_mul, mul_assoc, ← pow_succ', smul_mul_assoc, one_mul]
      rw [turn, Finset.sum_range_succ, add_assoc, add_comm (coef.getD degree 0 • matrix ^ degree)]

omit [DecidableEq K] in
/-- With enough coefficients the result is the polynomial of the degree of the denominator,
whatever the degree for which the coefficients were filled. -/
theorem evaluateMatrixPolynomial_eq {denPolDeg : ℕ} {coef : List K}
    (bound : denPolDeg < coef.length) (matrix : Matrix (Fin n) (Fin n) K) :
    evaluateMatrixPolynomial denPolDeg coef matrix =
      .ok (∑ i ∈ Finset.range (denPolDeg + 1), coef.getD i 0 • matrix ^ i) := by
  rw [evaluateMatrixPolynomial, evaluate_from matrix _ bound, zero_mul, zero_add]

omit [DecidableEq K] in
/-- A polynomial with a coefficient for each degree up to `denPolDeg` but the last is read past
the end of its array. -/
theorem evaluateMatrixPolynomial_outOfRange {denPolDeg : ℕ} {coef : List K}
    (short : coef.length ≤ denPolDeg) (matrix : Matrix (Fin n) (Fin n) K) :
    evaluateMatrixPolynomial denPolDeg coef matrix =
      .error (.outOfRange denPolDeg coef.length) := by
  rw [evaluateMatrixPolynomial, List.range_succ, List.reverse_append, List.reverse_singleton,
    List.singleton_append, List.foldlM_cons, readCoef, List.getElem?_eq_none short]
  rfl

end Evaluation

/-! ## The arrays are too short -/

omit [Field K] [DecidableEq K] in
/-- The first turn of the loop writes behind the last entry. -/
theorem fillCoefs_short {value : ℕ → Except PadeError K} {degree : ℕ} {coef : List K}
    (short : coef.length ≤ degree) : Fails (fillCoefs value degree coef) := by
  rw [fillCoefs, List.range_succ, List.reverse_append, List.reverse_singleton,
    List.singleton_append, List.foldlM_cons]
  cases value degree with
  | error error => exact fails_error error
  | ok next =>
      change Fails (writeCoef coef degree next >>= _)
      rw [writeCoef, if_neg (not_lt.mpr short)]
      exact fails_error _

section Correct

variable {n : ℕ}

/-- Coefficients of the approximant of the exponential function. -/
def exactNominator (p q j : ℕ) : K :=
  ((p + q - j).factorial * p.factorial : K) /
    ((p + q).factorial * j.factorial * (p - j).factorial)

def exactDenominator (p q i : ℕ) : K :=
  (-1) ^ i * ((p + q - i).factorial * q.factorial : K) /
    ((p + q).factorial * i.factorial * (q - i).factorial)

def exactPolynomial (coef : ℕ → K) (degree : ℕ) (matrix : Matrix (Fin n) (Fin n) K) :
    Matrix (Fin n) (Fin n) K :=
  ∑ i ∈ Finset.range (degree + 1), coef i • matrix ^ i

/-- All accesses are in range, nothing overflows, and the result is the transposed quotient. -/
def PadeCorrect (libm : Libm K) (pcApply : PcApply n K) (uninitialized : ℕ → K) (p q : ℕ)
    (timeStep : K) (decays : List (Decay n K)) : Prop :=
  ∃ matrix result, reactionMatrix libm timeStep decays = .ok matrix ∧
    modifyReactionMatrix libm pcApply uninitialized p q timeStep decays = .ok result ∧
    result = ((exactPolynomial (exactDenominator p q) q matrix)⁻¹ *
      exactPolynomial (exactNominator p q) p matrix).transpose

/-- The array of the nominator has no entry for its highest degree. -/
theorem modifyReactionMatrix_fails (libm : Libm K) (pcApply : PcApply n K)
    (uninitialized : ℕ → K) (p q : ℕ) (timeStep : K) (decays : List (Decay n K)) :
    Fails (modifyReactionMatrix libm pcApply uninitialized p q timeStep decays) := by
  rw [modifyReactionMatrix]
  cases reactionMatrix libm timeStep decays with
  | error error => exact fails_error error
  | ok matrix =>
      have length : ((List.range p).map uninitialized).length = p := by simp
      exact (fillCoefs_short length.le).bind _

theorem padeCorrect_never (libm : Libm K) (pcApply : PcApply n K) (uninitialized : ℕ → K)
    (p q : ℕ) (timeStep : K) (decays : List (Decay n K)) :
    ¬ PadeCorrect libm pcApply uninitialized p q timeStep decays := by
  intro correct
  obtain ⟨_, result, _, ran, _⟩ := correct
  exact (modifyReactionMatrix_fails libm pcApply uninitialized p q timeStep decays).not_ok
    result ran

/-- The default degrees, with one substance that does not decay. -/
theorem padeCorrect_not_default :
    ¬ PadeCorrect Libm.real
      (fun (denominator : Matrix (Fin 1) (Fin 1) ℝ) rightSide =>
        some (denominator⁻¹.mulVec rightSide))
      (fun _ => 0) 2 2 1 [] := by
  intro correct
  obtain ⟨_, result, _, ran, _⟩ := correct
  exact (modifyReactionMatrix_fails Libm.real _ _ 2 2 1 []).not_ok result ran

end Correct

end PadeApproximant

end Flow123d
