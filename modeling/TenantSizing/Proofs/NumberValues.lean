import Mathlib.Algebra.Field.Rat
import Mathlib.Algebra.Ring.Int.Parity
import Mathlib.Data.Rat.Cast.CharZero
import Mathlib.Tactic.NormNum
import Mathlib.Tactic.Ring
import TenantSizing.Proofs.Trees

namespace TenantSizing

/-- What a number is worth. -/
inductive Worth where
  | finite (value : ℚ)
  | infinite (negative : Bool)

namespace Binary64

variable {negative : Bool} {x y : Binary64}

/-- The whole number of units of the last place. -/
def units (negative : Bool) (mantissa : Nat) : Int :=
  if negative then -mantissa else mantissa

def worth? : Binary64 → Option Worth
  | .finite negative mantissa exponent _ =>
    some (.finite (units negative mantissa * (2 : ℚ) ^ exponent))
  | .infinite negative => some (.infinite negative)
  | .nan => none

/-- An odd number of units, or nothing at all. -/
def Lowest (units exponent : Int) : Prop :=
  Odd units ∨ units = 0 ∧ exponent = 0

theorem lowest_units {mantissa : Nat} {exponent : Int}
    (h : mantissa % 2 = 1 ∨ mantissa = 0 ∧ exponent = 0) :
    Lowest (units negative mantissa) exponent := by
  rcases h with odd | ⟨rfl, rfl⟩
  · have : Odd (mantissa : Int) := Int.odd_iff.mpr (by omega)
    cases negative with
    | false => exact .inl this
    | true => exact .inl this.neg
  · exact .inr ⟨by simp [units], rfl⟩

theorem units_inj {s t : Bool} {m n : Nat} :
    units s m = units t n ↔ m = n ∧ (s = t ∨ m = 0) := by
  cases s <;> cases t <;> simp [units] <;> omega

section Scaled

variable {a b e f : Int}

/-- An odd number of units has the largest exponent that the number can be written with. -/
theorem exponent_le (odd : Odd a) (h : (a : ℚ) * 2 ^ e = b * 2 ^ f) : f ≤ e := by
  by_contra! apart
  obtain ⟨k, rfl⟩ := Int.le.dest (Int.add_one_le_of_lt apart)
  have scaled : (a : ℚ) = b * 2 ^ (k + 1) := by
    rw [show e + 1 + (k : Int) = (k + 1 : Nat) + e by push_cast; ring,
      zpow_add₀ (by norm_num), zpow_natCast, ← mul_assoc] at h
    exact mul_right_cancel₀ (zpow_ne_zero e (by norm_num)) h
  have whole : a = 2 * (b * 2 ^ k) := by
    have : a = b * 2 ^ (k + 1) := by exact_mod_cast scaled
    rw [this]
    ring
  exact Int.not_even_iff_odd.mpr odd (whole ▸ even_two_mul _)

theorem scaled_eq_zero : (a : ℚ) * 2 ^ e = 0 ↔ a = 0 := by
  simp [zpow_ne_zero]

/-- Numbers in lowest terms are equal only if they are written alike. -/
theorem scaled_inj (ha : Lowest a e) (hb : Lowest b f) :
    (a : ℚ) * 2 ^ e = b * 2 ^ f ↔ a = b ∧ e = f := by
  refine ⟨fun h => ?_, fun ⟨units, exponents⟩ => by rw [units, exponents]⟩
  rcases ha with odd | ⟨rfl, rfl⟩
  · rcases hb with odd' | ⟨rfl, rfl⟩
    · obtain rfl := le_antisymm (exponent_le odd' h.symm) (exponent_le odd h)
      have := mul_right_cancel₀ (zpow_ne_zero e (by norm_num)) h
      exact ⟨by exact_mod_cast this, rfl⟩
    · rw [Int.cast_zero, zero_mul, scaled_eq_zero] at h
      subst h
      simp at odd
  · rw [Int.cast_zero, zero_mul, eq_comm, scaled_eq_zero] at h
    subst h
    rcases hb with odd | ⟨-, rfl⟩
    · simp at odd
    · exact ⟨rfl, rfl⟩

/-- A number in lowest terms is whole only if its exponent says so. -/
theorem scaled_eq_int (ha : Lowest a e) (n : Int) :
    (a : ℚ) * 2 ^ e = n ↔ 0 ≤ e ∧ a * 2 ^ e.toNat = n := by
  have whole : 0 ≤ e → (a : ℚ) * 2 ^ e = (a * 2 ^ e.toNat : Int) := by
    intro he
    conv_lhs => rw [← Int.toNat_of_nonneg he, zpow_natCast]
    push_cast
    rfl
  constructor
  · intro h
    have he : 0 ≤ e := by
      rcases ha with odd | ⟨-, rfl⟩
      · exact exponent_le (b := n) odd (by rw [h, zpow_zero, mul_one])
      · exact le_rfl
    rw [whole he] at h
    exact ⟨he, by exact_mod_cast h⟩
  · rintro ⟨he, rfl⟩
    exact whole he

end Scaled

theorem same_iff_worth? (x y : Binary64) :
    x.same y = true ↔ ∃ worth, x.worth? = some worth ∧ y.worth? = some worth := by
  cases x with
  | nan => simp [same, worth?]
  | infinite s => cases y <;> simp [same, worth?, eq_comm]
  | finite s m e hx =>
    cases y with
    | nan => simp [same, worth?]
    | infinite t => simp [same, worth?]
    | finite t n f hy =>
      simp only [worth?, Option.some.injEq, exists_eq_left', Worth.finite.injEq, same,
        decide_eq_true_eq]
      rw [scaled_inj (lowest_units hy) (lowest_units hx), units_inj]
      grind

theorem sameInt_iff_worth? (x : Binary64) (n : Int) :
    x.sameInt n = true ↔ x.worth? = some (.finite n) := by
  cases x with
  | nan => simp [sameInt, worth?]
  | infinite s => simp [sameInt, worth?]
  | finite s m e hx =>
    have units : (if s then -((m * twoTo e.toNat : Nat) : Int) else (m * twoTo e.toNat : Nat)) =
        units s m * 2 ^ e.toNat := by
      cases s <;> simp [units, twoTo]
    simp only [worth?, Option.some.injEq, Worth.finite.injEq, scaled_eq_int (lowest_units hx),
      sameInt, decide_eq_true_eq, units]

end Binary64

namespace Scalar

/-- What a number is worth. Nothing else is worth anything. -/
def worth? : Scalar → Option Worth
  | .int n => some (.finite n)
  | .float x => x.worth?
  | _ => none

/-- Both are null, the same boolean, the same text, or numbers that are worth the same. -/
inductive Equal : Scalar → Scalar → Prop where
  | null : Equal .null .null
  | bool (value : Bool) : Equal (.bool value) (.bool value)
  | text (value : String) : Equal (.text value) (.text value)
  | number {a b : Scalar} {worth : Worth} (first : a.worth? = some worth)
      (second : b.worth? = some worth) : Equal a b

variable {a b : Scalar}

/-- Scalars that are the same are equal in kind and worth. -/
theorem Equal.of_same (h : a.same b = true) : Equal a b := by
  cases a with
  | null =>
    cases b with
    | null => exact .null
    | bool _ | int _ | float _ | text _ => cases h
  | bool value =>
    cases b with
    | bool other =>
      obtain rfl : value = other := by simpa [same] using h
      exact .bool value
    | null | int _ | float _ | text _ => cases h
  | text value =>
    cases b with
    | text other =>
      obtain rfl : value = other := by simpa [same] using h
      exact .text value
    | null | bool _ | int _ | float _ => cases h
  | int n =>
    cases b with
    | int other =>
      obtain rfl : n = other := by simpa [same] using h
      exact .number rfl rfl
    | float y => exact .number rfl ((Binary64.sameInt_iff_worth? y n).mp h)
    | null | bool _ | text _ => cases h
  | float x =>
    cases b with
    | int n => exact .number ((Binary64.sameInt_iff_worth? x n).mp h) rfl
    | float y =>
      obtain ⟨worth, first, second⟩ := (Binary64.same_iff_worth? x y).mp h
      exact .number first second
    | null | bool _ | text _ => cases h

theorem same_of_worth {worth : Worth} (first : a.worth? = some worth)
    (second : b.worth? = some worth) : a.same b = true := by
  cases a with
  | null | bool _ | text _ => cases first
  | int n =>
    cases first
    cases b with
    | null | bool _ | text _ => cases second
    | int other => simpa [worth?, same, eq_comm] using second
    | float y => exact (Binary64.sameInt_iff_worth? y n).mpr second
  | float x =>
    cases b with
    | null | bool _ | text _ => cases second
    | int n =>
      cases second
      exact (Binary64.sameInt_iff_worth? x n).mpr first
    | float y => exact (Binary64.same_iff_worth? x y).mpr ⟨worth, first, second⟩

theorem same_iff_equal : a.same b = true ↔ Equal a b := by
  refine ⟨.of_same, fun h => ?_⟩
  cases h with
  | null => rfl
  | bool value => simp [same]
  | text value => simp [same]
  | number first second => exact same_of_worth first second

namespace Equal

variable {c : Scalar}

theorem symm (h : Equal a b) : Equal b a := by
  cases h with
  | null => exact .null
  | bool value => exact .bool value
  | text value => exact .text value
  | number first second => exact .number second first

theorem trans (h : Equal a b) (h' : Equal b c) : Equal a c := by
  cases h with
  | null => exact h'
  | bool value => exact h'
  | text value => exact h'
  | number first second =>
    cases h' with
    | number other third =>
      obtain rfl := Option.some.inj (second.symm.trans other)
      exact .number first third
    | null | bool _ | text _ => cases second

end Equal

end Scalar

end TenantSizing
