import Mathlib.Algebra.GroupWithZero.Nat
import Mathlib.Algebra.NeZero
import Mathlib.Data.Nat.Cast.Defs

/-!
# Small numbers

Named constants for what the numerals of a field and of `Fin n` rest on. Without them every
module that writes such a numeral makes an auxiliary lemma of its own, and the same text
elaborates to different terms in different modules.
-/

set_option autoImplicit false

namespace Flow123d.Library

/-! ## Numerals of a field -/

instance atLeastTwo_two : Nat.AtLeastTwo 2 := ⟨by decide⟩

instance atLeastTwo_three : Nat.AtLeastTwo 3 := ⟨by decide⟩

instance atLeastTwo_six : Nat.AtLeastTwo 6 := ⟨by decide⟩

/-! ## Numerals of `Fin n` -/

instance (priority := 2000) neZero_succ (n : ℕ) : NeZero (n + 1) := ⟨Nat.succ_ne_zero n⟩

instance (priority := 3000) neZero_zero_add_one : NeZero (0 + 1) := ⟨by decide⟩

instance (priority := 3000) neZero_one : NeZero 1 := ⟨by decide⟩

instance (priority := 3000) neZero_two : NeZero 2 := ⟨by decide⟩

instance (priority := 3000) neZero_three : NeZero 3 := ⟨by decide⟩

instance (priority := 3000) neZero_four : NeZero 4 := ⟨by decide⟩

end Flow123d.Library
