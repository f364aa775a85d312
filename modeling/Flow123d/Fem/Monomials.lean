import Flow123d.Fem.FEPDisc
import Mathlib.Analysis.Calculus.Deriv.Pow
import Mathlib.Analysis.Calculus.Deriv.Mul
import Mathlib.Data.List.Nodup
import Mathlib.Data.Nat.Choose.Basic
import Mathlib.Topology.Algebra.Module.ModuleTopology

/-!
# The monomials of a polynomial space

The loop of the constructor of `PolynomialSpace` ends, and it stores every exponent vector of
the degree once. The gradients are those of the monomials.
-/

set_option autoImplicit false

namespace Flow123d.PolynomialSpace

/-- What the loop stores from a state until its break. -/
inductive Stores (degree : ℕ) : ℕ × List ℕ → List (List ℕ) → Prop
  | last {current : ℕ × List ℕ} (ended : incrementPows degree current.1 current.2 = none) :
      Stores degree current [current.2]
  | step {current next : ℕ × List ℕ} {rest : List (List ℕ)}
      (incremented : incrementPows degree current.1 current.2 = some next)
      (stores : Stores degree next rest) : Stores degree current (current.2 :: rest)

/-- The exponents with given exponents of the other coordinates. -/
def row (degree : ℕ) (pows : List ℕ) : List (List ℕ) :=
  (List.range (degree + 1 - pows.sum)).map fun pow => pow :: pows

/-- The exponent vectors, the first coordinate running fastest. -/
def monomials (degree : ℕ) : ℕ → List (List ℕ)
  | 0 => [[]]
  | dim + 1 => (monomials degree dim).flatMap (row degree)

/-- The powers that `basis_grad` evaluates for one component. -/
def evaluatedPowers (degree dim i j : ℕ) : List ℤ :=
  if pow degree dim i j = 0 then []
  else (List.range dim).map fun k =>
    if k = j then (pow degree dim i k : ℤ) - 1 else (pow degree dim i k : ℤ)

/-! ## The loop -/

theorem incrementPows_sum {degree : ℕ} {pows : List ℕ} {next : ℕ × List ℕ}
    (small : pows.sum ≤ degree) (incremented : incrementPows degree pows.sum pows = some next) :
    next.1 = next.2.sum ∧ next.1 ≤ degree := by
  induction pows generalizing next with
  | nil => cases incremented
  | cons pow pows ih =>
      rw [List.sum_cons] at small incremented
      by_cases below : pow + pows.sum < degree
      · rw [incrementPows, if_pos below] at incremented
        cases incremented
        exact ⟨by rw [List.sum_cons]; omega, below⟩
      · rw [incrementPows, if_neg below, Nat.add_sub_cancel_left] at incremented
        obtain ⟨inner, isInner, rfl⟩ := Option.map_eq_some_iff.mp incremented
        obtain ⟨sum, bounded⟩ := ih (by omega) isInner
        exact ⟨by simpa using sum, bounded⟩

/-- What follows a row, when the loop goes on with the next exponents of the others. -/
inductive Follows (degree : ℕ) (pows : List ℕ) : List (List ℕ) → Prop
  | last (ended : incrementPows degree pows.sum pows = none) : Follows degree pows []
  | step {next : ℕ × List ℕ} {rest : List (List ℕ)}
      (incremented : incrementPows degree pows.sum pows = some next)
      (stores : Stores degree (next.1, 0 :: next.2) rest) : Follows degree pows rest

theorem stores_range {degree : ℕ} {pows : List ℕ} {rest : List (List ℕ)}
    (follows : Follows degree pows rest) (first : ℕ) {count : ℕ}
    (full : pows.sum + first + count = degree) :
    Stores degree (pows.sum + first, first :: pows)
      ((List.range' first (count + 1)).map (fun pow => pow :: pows) ++ rest) := by
  induction count generalizing first with
  | zero =>
      -- the row is full: the first exponent is freed and the others are incremented
      have freed : incrementPows degree (pows.sum + first) (first :: pows) =
          (incrementPows degree pows.sum pows).map fun next => (next.1, 0 :: next.2) := by
        rw [incrementPows, if_neg (by omega), Nat.add_sub_cancel]
      cases follows with
      | last ended => exact .last (by simpa [ended] using freed)
      | step incremented stores =>
          have freedTo := freed.trans (congrArg _ incremented)
          exact .step freedTo stores
  | succ count ih =>
      have raised : incrementPows degree (pows.sum + first) (first :: pows) =
          some (pows.sum + (first + 1), (first + 1) :: pows) := by
        rw [incrementPows, if_pos (by omega)]
        rfl
      rw [List.range'_succ, List.map_cons, List.cons_append]
      exact .step raised (ih (first + 1) (by omega))

theorem stores_row {degree : ℕ} {pows : List ℕ} {rest : List (List ℕ)}
    (small : pows.sum ≤ degree) (follows : Follows degree pows rest) :
    Stores degree (pows.sum, 0 :: pows) (row degree pows ++ rest) := by
  have whole := stores_range follows 0 (show pows.sum + 0 + (degree - pows.sum) = degree by omega)
  rwa [← Nat.sub_add_comm small, ← List.range_eq_range'] at whole

/-- One more coordinate in front turns every stored vector into its row. -/
theorem Stores.cons {degree : ℕ} {current : ℕ × List ℕ} {stored : List (List ℕ)}
    (stores : Stores degree current stored) (sum : current.1 = current.2.sum)
    (small : current.1 ≤ degree) :
    Stores degree (current.1, 0 :: current.2) (stored.flatMap (row degree)) := by
  induction stores with
  | last ended =>
      rw [sum] at ended small
      rw [sum, List.flatMap_cons]
      exact stores_row small (.last ended)
  | step incremented _ ih =>
      rw [sum] at incremented small
      obtain ⟨nextSum, nextSmall⟩ := incrementPows_sum small incremented
      rw [sum, List.flatMap_cons]
      exact stores_row small (.step incremented (ih nextSum nextSmall))

theorem stores_monomials (degree dim : ℕ) :
    Stores degree (0, List.replicate dim 0) (monomials degree dim) := by
  induction dim with
  | zero => exact .last rfl
  | succ dim ih => exact ih.cons (by simp) (Nat.zero_le degree)

theorem Stores.powersFrom_eq {degree : ℕ} {current : ℕ × List ℕ} {stored : List (List ℕ)}
    (stores : Stores degree current stored) {fuel : ℕ} (enough : stored.length ≤ fuel) :
    powersFrom degree fuel current = stored := by
  induction stores generalizing fuel with
  | last ended =>
      cases fuel with
      | zero => simp at enough
      | succ fuel => simp [powersFrom, ended]
  | step incremented _ ih =>
      cases fuel with
      | zero => simp at enough
      | succ fuel => simp [powersFrom, incremented, ih (Nat.le_of_succ_le_succ enough)]

theorem length_row (degree : ℕ) (pows : List ℕ) :
    (row degree pows).length = degree + 1 - pows.sum := by
  rw [row, List.length_map, List.length_range]

theorem length_monomials_succ (degree dim : ℕ) : (monomials degree (dim + 1)).length =
    ((monomials degree dim).map fun pows => degree + 1 - pows.sum).sum := by
  simp only [monomials, List.length_flatMap, length_row]

theorem length_monomials_le (degree dim : ℕ) :
    (monomials degree dim).length ≤ (degree + 1) ^ dim := by
  induction dim with
  | zero => exact le_rfl
  | succ dim ih =>
      rw [length_monomials_succ, pow_succ]
      calc ((monomials degree dim).map fun pows => degree + 1 - pows.sum).sum
          ≤ ((monomials degree dim).map fun _ => degree + 1).sum :=
            List.sum_le_sum fun pows _ => Nat.sub_le _ _
        _ = (monomials degree dim).length * (degree + 1) := by simp
        _ ≤ (degree + 1) ^ dim * (degree + 1) := Nat.mul_le_mul_right _ ih

theorem powers_eq_monomials (degree dim : ℕ) : powers degree dim = monomials degree dim :=
  (stores_monomials degree dim).powersFrom_eq (length_monomials_le degree dim)

/-! ## Every exponent vector once -/

theorem mem_monomials {degree dim : ℕ} {pows : List ℕ} :
    pows ∈ monomials degree dim ↔ pows.length = dim ∧ pows.sum ≤ degree := by
  induction dim generalizing pows with
  | zero =>
      cases pows with
      | nil => simp [monomials]
      | cons pow pows => simp [monomials]
  | succ dim ih =>
      simp only [monomials, row, List.mem_flatMap, List.mem_map, List.mem_range, ih]
      constructor
      · rintro ⟨others, ⟨length, small⟩, pow, bounded, rfl⟩
        exact ⟨by simp [length], by rw [List.sum_cons]; omega⟩
      · intro member
        cases pows with
        | nil => simp at member
        | cons pow others =>
            rw [List.length_cons, List.sum_cons] at member
            exact ⟨others, ⟨by omega, by omega⟩, pow, by omega, rfl⟩

theorem nodup_monomials (degree dim : ℕ) : (monomials degree dim).Nodup := by
  induction dim with
  | zero => exact List.nodup_singleton _
  | succ dim ih =>
      refine List.nodup_flatMap.mpr ⟨fun pows _ => ?_, ih.imp fun {first second} distinct => ?_⟩
      · exact List.nodup_range.map fun _ _ same => (List.cons.inj same).1
      · intro pows inFirst inSecond
        obtain ⟨_, -, rfl⟩ := List.mem_map.mp inFirst
        obtain ⟨_, -, same⟩ := List.mem_map.mp inSecond
        exact distinct (List.cons.inj same).2.symm

/-- The vectors that are full for the higher degree have no other exponent in their row. -/
theorem sum_rows_degree_succ (degree dim : ℕ) :
    ((monomials (degree + 1) dim).map fun pows => degree + 1 - pows.sum).sum =
      ((monomials degree dim).map fun pows => degree + 1 - pows.sum).sum := by
  have kept : (monomials degree dim).Perm
      ((monomials (degree + 1) dim).filter fun pows => pows.sum ≤ degree) := by
    refine (List.perm_ext_iff_of_nodup (nodup_monomials _ _)
      ((nodup_monomials _ _).filter _)).mpr fun pows => ?_
    rw [List.mem_filter, mem_monomials, mem_monomials, decide_eq_true_iff]
    omega
  rw [(kept.map _).sum_eq]
  generalize monomials (degree + 1) dim = vectors
  induction vectors with
  | nil => rfl
  | cons pows vectors ih =>
      by_cases small : pows.sum ≤ degree
      · rw [List.filter_cons_of_pos (by simpa using small)]
        simp [ih]
      · rw [List.filter_cons_of_neg (by simpa using small), List.map_cons, List.sum_cons, ih]
        omega

theorem length_monomials (degree dim : ℕ) :
    (monomials degree dim).length = (degree + dim).choose dim := by
  induction degree generalizing dim with
  | zero =>
      induction dim with
      | zero => rfl
      | succ dim ih =>
          have single : ∀ pows ∈ monomials 0 dim, 0 + 1 - pows.sum = 1 := by
            intro pows member
            have := (mem_monomials.mp member).2
            omega
          rw [length_monomials_succ, List.map_congr_left single]
          simpa using ih
  | succ degree outer =>
      induction dim with
      | zero => rfl
      | succ dim ih =>
          -- Pascal: the first exponent is zero, or it can be lowered by one
          have split : ∀ pows ∈ monomials (degree + 1) dim,
              degree + 1 + 1 - pows.sum = 1 + (degree + 1 - pows.sum) := by
            intro pows member
            have := (mem_monomials.mp member).2
            omega
          rw [length_monomials_succ, List.map_congr_left split, List.sum_map_add,
            sum_rows_degree_succ, ← length_monomials_succ, outer]
          simp only [List.map_const', List.sum_replicate, smul_eq_mul, mul_one, ih]
          rw [show degree + 1 + (dim + 1) = (degree + 1 + dim) + 1 by omega,
            Nat.choose_succ_succ, show degree + (dim + 1) = degree + 1 + dim by omega]

/-! ## Gradients -/

theorem evaluatedPowers_nonneg {degree dim i j : ℕ} {power : ℤ}
    (evaluated : power ∈ evaluatedPowers degree dim i j) : 0 ≤ power := by
  unfold evaluatedPowers at evaluated
  split_ifs at evaluated with zero
  · simp at evaluated
  · obtain ⟨k, -, rfl⟩ := List.mem_map.mp evaluated
    split_ifs with same
    · subst same
      omega
    · exact Int.natCast_nonneg _

section Derivative

variable {𝕜 : Type} [NontriviallyNormedField 𝕜] {degree dim i : ℕ}

theorem basisValue_update (p : ℕ → 𝕜) (j : Fin dim) (t : 𝕜) :
    basisValue degree dim i (Function.update p j t) = t ^ pow degree dim i j *
      ∏ k ∈ (Finset.range dim).erase j, p k ^ pow degree dim i k := by
  unfold basisValue
  rw [← Finset.mul_prod_erase _ _ (Finset.mem_range.mpr j.isLt), Function.update_self]
  refine congrArg _ (Finset.prod_congr rfl fun k member => ?_)
  rw [Function.update_of_ne (Finset.ne_of_mem_erase member)]

theorem basisGrad_eq (p : ℕ → 𝕜) (j : Fin dim) :
    basisGrad degree dim i p j = (pow degree dim i j * p j ^ (pow degree dim i j - 1)) *
      ∏ k ∈ (Finset.range dim).erase j, p k ^ pow degree dim i k := by
  unfold basisGrad
  split_ifs with zero
  · rw [zero, Nat.cast_zero, zero_mul, zero_mul]
  · rw [← Finset.mul_prod_erase _ _ (Finset.mem_range.mpr j.isLt), if_pos rfl, mul_assoc]
    refine congrArg _ (congrArg _ (Finset.prod_congr rfl fun k member => ?_))
    rw [if_neg (Finset.ne_of_mem_erase member)]

/-- A component of the gradient is the partial derivative. -/
theorem hasDerivAt_basisValue (p : ℕ → 𝕜) (j : Fin dim) :
    HasDerivAt (fun t => basisValue degree dim i (Function.update p j t))
      (basisGrad degree dim i p j) (p j) := by
  rw [basisGrad_eq, funext fun t => basisValue_update p j t]
  exact (hasDerivAt_pow _ _).mul_const _

end Derivative

/-- The constructor enumerates the monomials, and `basis_grad` gives their gradients. -/
theorem powers_enumerate (degree dim : ℕ) :
    Stores degree (0, List.replicate dim 0) (powers degree dim) ∧
      (powers degree dim).Nodup ∧
      (∀ pows, pows ∈ powers degree dim ↔ pows.length = dim ∧ pows.sum ≤ degree) ∧
      (powers degree dim).length = (degree + dim).choose dim ∧
      ∀ (i : Fin (powers degree dim).length) (j : Fin dim),
        (∀ power ∈ evaluatedPowers degree dim i j, 0 ≤ power) ∧
          ∀ {𝕜 : Type} [NontriviallyNormedField 𝕜] (p : ℕ → 𝕜),
            HasDerivAt (fun t => basisValue degree dim i (Function.update p j t))
              (basisGrad degree dim i p j) (p j) := by
  rw [powers_eq_monomials]
  exact ⟨stores_monomials degree dim, nodup_monomials degree dim, fun _ => mem_monomials,
    length_monomials degree dim, fun i j =>
      ⟨fun _ => evaluatedPowers_nonneg, fun p => hasDerivAt_basisValue p j⟩⟩

end Flow123d.PolynomialSpace
