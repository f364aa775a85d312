import Mathlib.Analysis.SpecialFunctions.Pow.Real
import Mathlib.Data.Rat.Floor
import Mathlib.Data.Sign.Basic
import Mathlib.Tactic.Linarith
import Mathlib.Tactic.Positivity
import Mathlib.Tactic.Ring
import Flow123d.Library.Numerals

/-!
# Numbers of the C library

Functions of the mathematical library as a parameter, and floating point numbers without rounding.
-/

set_option autoImplicit false

/-!
## Functions of the C mathematical library
-/

namespace Flow123d.Library

/-- The functions that a program calls, over the numbers it computes with. -/
structure Libm (K : Type) where
  pow : K → K → K
  log : K → K

noncomputable def Libm.real : Libm ℝ where
  pow := fun base exponent => base ^ exponent
  log := Real.log

namespace Libm

theorem real_pow_nonneg {base exponent : ℝ} (nonneg : 0 ≤ base) :
    0 ≤ real.pow base exponent :=
  Real.rpow_nonneg nonneg exponent

theorem real_pow_half_le_one {exponent : ℝ} (nonneg : 0 ≤ exponent) :
    real.pow (1 / 2) exponent ≤ 1 :=
  Real.rpow_le_one (by norm_num) (by norm_num) nonneg

end Libm

end Flow123d.Library

/-!
## Floating point numbers without rounding

Rationals with the two infinities and the value that is not a number.
Operations on rationals are exact. What the infinities do, and that nothing
compares with `nan`, follows the IEEE rules. There is one zero.
-/

namespace Flow123d.Library

inductive Double where
  | nan
  | negInf
  | fin (value : ℚ)
  | posInf
deriving DecidableEq, Repr

namespace Double

def epsilon : ℚ := 1 / 2 ^ 52

def sign : Double → SignType
  | nan => 0
  | negInf => -1
  | fin value => SignType.sign value
  | posInf => 1

/-- The infinity of a sign, and no number where the sign is undefined. -/
def infinity : SignType → Double
  | 1 => posInf
  | -1 => negInf
  | 0 => nan

def neg : Double → Double
  | nan => nan
  | negInf => posInf
  | fin value => fin (-value)
  | posInf => negInf

def add : Double → Double → Double
  | fin a, fin b => fin (a + b)
  | fin _, b => b
  | a, fin _ => a
  | a, b => if a = b then a else nan

def mul : Double → Double → Double
  | fin a, fin b => fin (a * b)
  | a, b => infinity (a.sign * b.sign)

def div : Double → Double → Double
  | nan, _ => nan
  | _, nan => nan
  | fin a, fin b => if b = 0 then infinity (SignType.sign a) else fin (a / b)
  | fin _, _ => fin 0
  | a, fin b => if b < 0 then a.neg else a
  | _, _ => nan

instance : Neg Double := ⟨neg⟩
instance : Add Double := ⟨add⟩
instance : Sub Double := ⟨fun a b => a + -b⟩
instance : Mul Double := ⟨mul⟩
instance : Div Double := ⟨div⟩

def abs : Double → Double
  | nan => nan
  | fin value => fin |value|
  | _ => posInf

def less : Double → Double → Bool
  | nan, _ => false
  | _, nan => false
  | fin a, fin b => a < b
  | _, negInf => false
  | posInf, _ => false
  | _, _ => true

def lessEq : Double → Double → Bool
  | nan, _ => false
  | _, nan => false
  | fin a, fin b => a ≤ b
  | negInf, _ => true
  | _, posInf => true
  | _, _ => false

instance : LT Double := ⟨fun a b => less a b = true⟩
instance : LE Double := ⟨fun a b => lessEq a b = true⟩

instance (a b : Double) : Decidable (a < b) := inferInstanceAs (Decidable (less a b = true))
instance (a b : Double) : Decidable (a ≤ b) := inferInstanceAs (Decidable (lessEq a b = true))

/-- The operator `==`, by which `nan` differs from itself. -/
def equal (a b : Double) : Bool := lessEq a b && lessEq b a

/-- `std::min`, which returns its first argument unless the second is less. -/
def stdMin (a b : Double) : Double := if b < a then b else a

/-- `std::max`, which returns its first argument unless it is less. -/
def stdMax (a b : Double) : Double := if a < b then b else a

def floor : Double → Double
  | fin value => fin ⌊value⌋
  | a => a

def ceil : Double → Double
  | fin value => fin ⌈value⌉
  | a => a

/-- To the nearest integer, halves away from zero. -/
def round : Double → Double
  | fin value => if value < 0 then fin (-⌊-value + 1 / 2⌋) else fin ⌊value + 1 / 2⌋
  | a => a

/-- The conversion to a 32-bit integer, which is not defined where the whole part does not fit. -/
def toInt : Double → Option ℤ
  | fin value =>
      let whole := if value < 0 then ⌈value⌉ else ⌊value⌋
      if -2 ^ 31 ≤ whole ∧ whole < 2 ^ 31 then some whole else none
  | _ => none

/-! ## Arithmetic of the rationals -/

section Finite

variable (a b : ℚ)

@[simp] theorem fin_add_fin : fin a + fin b = fin (a + b) := rfl

@[simp] theorem fin_sub_fin : fin a - fin b = fin (a - b) := by
  rw [sub_eq_add_neg]
  rfl

@[simp] theorem fin_mul_fin : fin a * fin b = fin (a * b) := rfl

@[simp] theorem abs_fin : (fin a).abs = fin |a| := rfl

@[simp] theorem floor_fin : (fin a).floor = fin ⌊a⌋ := rfl

@[simp] theorem ceil_fin : (fin a).ceil = fin ⌈a⌉ := rfl

@[simp] theorem fin_lt_fin : fin a < fin b ↔ a < b := decide_eq_true_iff

@[simp] theorem fin_le_fin : fin a ≤ fin b ↔ a ≤ b := decide_eq_true_iff

variable {a b}

theorem fin_div_fin (nonzero : b ≠ 0) : fin a / fin b = fin (a / b) := by
  change (if b = 0 then _ else _) = _
  rw [if_neg nonzero]

theorem fin_div_zero (positive : 0 < a) : fin a / fin 0 = posInf := by
  change infinity (SignType.sign a) = posInf
  rw [sign_pos positive]
  rfl

theorem round_natCast (count : ℕ) : (fin count).round = fin count := by
  have floored : ⌊(count : ℚ) + 1 / 2⌋ = (count : ℤ) := by
    rw [Int.floor_eq_iff]
    constructor <;> push_cast <;> linarith
  change (if (count : ℚ) < 0 then _ else _) = _
  rw [if_neg (not_lt.mpr (Nat.cast_nonneg count)), floored]
  rfl

theorem toInt_natCast (count : ℕ) :
    (fin (count : ℤ)).toInt = if count < 2 ^ 31 then some (count : ℤ) else none := by
  have whole : (if ((count : ℤ) : ℚ) < 0 then ⌈((count : ℤ) : ℚ)⌉ else ⌊((count : ℤ) : ℚ)⌋) =
      count := by
    rw [Int.ceil_intCast, Int.floor_intCast, ite_self]
  unfold toInt
  simp only [whole]
  by_cases fits : count < 2 ^ 31
  · rw [if_pos fits, if_pos (by omega)]
  · rw [if_neg fits, if_neg (by omega)]

theorem stdMin_fin : stdMin (fin a) (fin b) = fin (min a b) := by
  unfold stdMin
  by_cases less : b < a
  · rw [if_pos ((fin_lt_fin b a).mpr less), min_eq_right less.le]
  · rw [if_neg (mt (fin_lt_fin b a).mp less), min_eq_left (not_lt.mp less)]

theorem stdMax_fin : stdMax (fin a) (fin b) = fin (max a b) := by
  unfold stdMax
  by_cases less : a < b
  · rw [if_pos ((fin_lt_fin a b).mpr less), max_eq_right less.le]
  · rw [if_neg (mt (fin_lt_fin a b).mp less), max_eq_left (not_lt.mp less)]

end Finite

/-! ## Sums -/

theorem foldl_add_fin {α : Type} (items : List α) (value : α → Double) (rational : α → ℚ)
    (finite : ∀ item ∈ items, value item = fin (rational item)) (start : ℚ) :
    items.foldl (fun sum item => sum + value item) (fin start) =
      fin (start + (items.map rational).sum) := by
  induction items generalizing start with
  | nil =>
      rw [List.map_nil, List.sum_nil, Rat.add_zero]
      rfl
  | cons item items ih =>
      rw [List.foldl_cons, finite item List.mem_cons_self, fin_add_fin,
        ih fun other member => finite other (List.mem_cons_of_mem item member), List.map_cons,
        List.sum_cons, add_assoc]

/-! ## The infinities -/

section Infinite

variable (a : ℚ)

@[simp] theorem posInf_sub_fin : posInf - fin a = posInf := rfl

@[simp] theorem posInf_sub_posInf : posInf - posInf = nan := rfl

@[simp] theorem negInf_sub_posInf : negInf - posInf = negInf := rfl

@[simp] theorem nan_add (b : Double) : nan + b = nan := by
  cases b <;> rfl

@[simp] theorem nan_sub (b : Double) : nan - b = nan := by
  cases b <;> rfl

theorem sub_eq_fin {a b : Double} {c : ℚ} (difference : a - b = fin c) :
    ∃ x y, a = fin x ∧ b = fin y ∧ x - y = c := by
  cases a <;> cases b <;> try cases difference
  rename_i x y
  exact ⟨x, y, rfl, rfl, sub_eq_add_neg x y⟩

theorem fin_mul_posInf {a : ℚ} (positive : 0 < a) : fin a * posInf = posInf := by
  change infinity (SignType.sign a * 1) = posInf
  rw [sign_pos positive]
  rfl

@[simp] theorem fin_div_posInf : fin a / posInf = fin 0 := rfl

@[simp] theorem fin_le_posInf : fin a ≤ posInf := rfl

@[simp] theorem fin_lt_posInf : fin a < posInf := rfl

@[simp] theorem not_nan_le (b : Double) : ¬nan ≤ b := by
  intro impossible
  cases b <;> cases impossible

@[simp] theorem not_posInf_lt (b : Double) : ¬posInf < b := by
  intro impossible
  cases b <;> cases impossible

end Infinite

/-! ## Scaling by positive numbers -/

section Scaling

@[simp] protected theorem mul_one (a : Double) : a * fin 1 = a := by
  cases a with
  | nan => rfl
  | negInf => rfl
  | posInf => rfl
  | fin value =>
      rw [fin_mul_fin, mul_one]

protected theorem add_zero (a : Double) : a + fin 0 = a := by
  cases a with
  | nan => rfl
  | negInf => rfl
  | posInf => rfl
  | fin value =>
      rw [fin_add_fin, add_zero]

theorem add_neg_cancel (a : Double) (b : ℚ) : a + fin b + fin (-b) = a := by
  cases a with
  | nan => rfl
  | negInf => rfl
  | posInf => rfl
  | fin value =>
      rw [fin_add_fin, fin_add_fin, add_neg_cancel_right]

variable {d e : ℚ}

theorem nan_mul (a : Double) : nan * a = nan := by
  change infinity (0 * a.sign) = nan
  rw [zero_mul]
  rfl

theorem posInf_mul_fin (positive : 0 < d) : posInf * fin d = posInf := by
  change infinity (1 * SignType.sign d) = posInf
  rw [sign_pos positive]
  rfl

theorem negInf_mul_fin (positive : 0 < d) : negInf * fin d = negInf := by
  change infinity (-1 * SignType.sign d) = negInf
  rw [sign_pos positive]
  rfl

theorem mul_mul_div (a : Double) (old : 0 < d) (new : 0 < e) :
    a * fin d * (fin e / fin d) = a * fin e := by
  rw [fin_div_fin old.ne']
  cases a with
  | nan => rw [nan_mul, nan_mul, nan_mul]
  | negInf => rw [negInf_mul_fin old, negInf_mul_fin (div_pos new old), negInf_mul_fin new]
  | posInf => rw [posInf_mul_fin old, posInf_mul_fin (div_pos new old), posInf_mul_fin new]
  | fin value =>
      rw [fin_mul_fin, fin_mul_fin, fin_mul_fin, mul_assoc, mul_div_cancel₀ e old.ne']

theorem mul_mul_posInf_div (a : Double) (old : 0 < d) :
    a * fin d * (posInf / fin d) = a * posInf := by
  have ratio : posInf / fin d = posInf := by
    change (if d < 0 then negInf else posInf) = posInf
    rw [if_neg (not_lt.mpr old.le)]
  rw [ratio]
  cases a with
  | nan => rw [nan_mul, nan_mul]
  | negInf => rw [negInf_mul_fin old]
  | posInf => rw [posInf_mul_fin old]
  | fin value =>
      change infinity (SignType.sign (value * d) * 1) = infinity (SignType.sign value * 1)
      rw [sign_mul, sign_pos old, mul_one]

end Scaling

/-! ## Order -/

section Order

variable {a b c : Double}

protected theorem le_trans (first : a ≤ b) (second : b ≤ c) : a ≤ c := by
  cases a <;> cases b <;> cases c <;>
    first
    | cases first; done
    | cases second; done
    | rfl
    | exact (fin_le_fin _ _).mpr
        (((fin_le_fin _ _).mp first).trans ((fin_le_fin _ _).mp second))

protected theorem le_antisymm (first : a ≤ b) (second : b ≤ a) : a = b := by
  cases a <;> cases b <;>
    first
    | rfl
    | cases first; done
    | cases second
    | exact congrArg fin
        (((fin_le_fin _ _).mp first).antisymm ((fin_le_fin _ _).mp second))

theorem eq_of_equal (same : equal a b = true) : a = b := by
  obtain ⟨below, above⟩ := Bool.and_eq_true_iff.mp same
  exact Double.le_antisymm below above

protected theorem lt_of_lt_of_le (first : a < b) (second : b ≤ c) : a < c := by
  cases a <;> cases b <;> cases c <;>
    first
    | cases first; done
    | cases second; done
    | rfl
    | exact (fin_lt_fin _ _).mpr
        (((fin_lt_fin _ _).mp first).trans_le ((fin_le_fin _ _).mp second))

protected theorem lt_of_le_of_lt (first : a ≤ b) (second : b < c) : a < c := by
  cases a <;> cases b <;> cases c <;>
    first
    | cases first; done
    | cases second; done
    | rfl
    | exact (fin_lt_fin _ _).mpr
        (((fin_le_fin _ _).mp first).trans_lt ((fin_lt_fin _ _).mp second))

protected theorem lt_irrefl (a : Double) : ¬ a < a := by
  cases a with
  | fin value => exact fun less => lt_irrefl value ((fin_lt_fin value value).mp less)
  | _ => exact nofun

protected theorem le_of_lt (less : a < b) : a ≤ b := by
  cases a <;> cases b <;>
    first
    | cases less; done
    | rfl
    | exact (fin_le_fin _ _).mpr ((fin_lt_fin _ _).mp less).le

theorem le_self (number : a ≠ nan) : a ≤ a := by
  cases a with
  | nan => exact absurd rfl number
  | negInf => rfl
  | fin value => exact (fin_le_fin value value).mpr le_rfl
  | posInf => rfl

theorem le_of_not_lt (left : a ≠ nan) (right : b ≠ nan) (notLess : ¬a < b) : b ≤ a := by
  cases a <;> cases b <;>
    first
    | exact absurd rfl left
    | exact absurd rfl right
    | exact absurd rfl notLess
    | rfl
    | exact (fin_le_fin _ _).mpr (not_lt.mp (mt (fin_lt_fin _ _).mpr notLess))

theorem ne_nan_of_le (ordered : a ≤ b) : a ≠ nan ∧ b ≠ nan := by
  constructor
  · intro undefined
    rw [undefined] at ordered
    exact not_nan_le b ordered
  · intro undefined
    rw [undefined] at ordered
    cases a <;> cases ordered

theorem le_stdMin (left : a ≤ b) (right : a ≤ c) : a ≤ stdMin b c := by
  unfold stdMin
  split_ifs
  · exact right
  · exact left

theorem stdMax_le (left : b ≤ a) (right : c ≤ a) : stdMax b c ≤ a := by
  unfold stdMax
  split_ifs
  · exact right
  · exact left

theorem stdMin_le_right (left : b ≠ nan) (right : c ≠ nan) : stdMin b c ≤ c := by
  unfold stdMin
  split_ifs with less
  · exact le_self right
  · exact le_of_not_lt right left less

theorem stdMin_number (number : b ≠ nan) (c : Double) : stdMin b c ≠ nan := by
  unfold stdMin
  split_ifs with less
  · exact (ne_nan_of_le (Double.le_of_lt less)).1
  · exact number

theorem stdMin_ne_nan (left : b ≠ nan) (right : c ≠ nan) : stdMin b c ≠ nan := by
  unfold stdMin
  split_ifs
  · exact right
  · exact left

end Order

/-! ## Finite numbers that are not negative -/

def FiniteNonneg (a : Double) : Prop := ∃ value : ℚ, 0 ≤ value ∧ a = fin value

namespace FiniteNonneg

variable {a b : Double}

theorem of_fin {value : ℚ} (nonneg : 0 ≤ value) : FiniteNonneg (fin value) :=
  ⟨value, nonneg, rfl⟩

theorem zero : FiniteNonneg (fin 0) := of_fin le_rfl

protected theorem add (left : FiniteNonneg a) (right : FiniteNonneg b) :
    FiniteNonneg (a + b) := by
  obtain ⟨x, nonneg, rfl⟩ := left
  obtain ⟨y, nonneg', rfl⟩ := right
  exact of_fin (add_nonneg nonneg nonneg')

protected theorem mul (left : FiniteNonneg a) (right : FiniteNonneg b) :
    FiniteNonneg (a * b) := by
  obtain ⟨x, nonneg, rfl⟩ := left
  obtain ⟨y, nonneg', rfl⟩ := right
  exact of_fin (mul_nonneg nonneg nonneg')

end FiniteNonneg

end Double

end Flow123d.Library
