import Mathlib.Algebra.Order.Field.Power
import Mathlib.Algebra.Order.Ring.Rat
import Mathlib.Tactic.FieldSimp
import Mathlib.Tactic.Linarith
import Mathlib.Tactic.NormNum
import Mathlib.Tactic.Positivity
import Mathlib.Tactic.Ring
import TenantSizing.Merge.Extreme

namespace TenantSizing

theorem tenTo_eq_pow (n : Nat) : tenTo n = 10 ^ n := rfl

namespace Quantity

/-- The number `m` · 10 ^ `e`. -/
def scaled (m : Int) (e : Int) : ℚ :=
  m * (10 : ℚ) ^ e

/-- The number that a quantity stands for. -/
def value (q : Quantity) : ℚ :=
  scaled q.coefficient q.exponent

/-- Moving factors of ten into the exponent keeps the number. -/
theorem value_ofScaled (c e : Int) : (ofScaled c e).value = scaled c e := by
  induction c, e using ofScaled.induct with
  | case1 e =>
    rw [ofScaled, dif_pos rfl]
    simp [value, zero, scaled]
  | case2 c e nonzero tens ih =>
    have whole : c = 10 * (c / 10) := by omega
    rw [ofScaled, dif_neg nonzero, dif_pos tens, ih]
    conv_rhs => rw [whole]
    rw [scaled, scaled, zpow_add_one₀ (by norm_num)]
    push_cast
    ring
  | case3 c e nonzero tens =>
    rw [ofScaled, dif_neg nonzero, dif_neg tens]
    rfl

@[simp] theorem value_ofInt (n : Int) : (ofInt n).value = n := by
  rw [ofInt, value_ofScaled, scaled, zpow_zero, mul_one]

theorem width_pos (n : Nat) : 0 < Decimal.width n :=
  Nat.length_toDigits_pos

theorem lt_pow_width (n : Nat) : n < 10 ^ Decimal.width n :=
  (Nat.length_toDigits_le_iff (by decide) (width_pos n)).mp le_rfl

theorem pow_width_le {n : Nat} (h : n ≠ 0) : 10 ^ (Decimal.width n - 1) ≤ n := by
  by_cases hw : Decimal.width n = 1
  · rw [hw]
    simp only [Nat.sub_self, Nat.pow_zero]
    omega
  · have hp := width_pos n
    by_contra hlt
    have := (Nat.length_toDigits_le_iff (b := 10) (n := n) (k := Decimal.width n - 1)
      (by decide) (by omega)).mpr (by omega)
    unfold Decimal.width at *
    omega

/-- A number with digits lies below the power of ten behind its leading digit. -/
theorem scaled_lt (m : Nat) (e : Int) : scaled m e < (10 : ℚ) ^ (e + Decimal.width m) := by
  have hm : (m : ℚ) < (10 : ℚ) ^ Decimal.width m := by exact_mod_cast lt_pow_width m
  rw [zpow_add₀ (by norm_num), zpow_natCast, mul_comm, scaled]
  push_cast
  exact mul_lt_mul_of_pos_right hm (zpow_pos (by norm_num) e)

/-- It lies no lower than the power of ten at its leading digit. -/
theorem le_scaled {m : Nat} (h : m ≠ 0) (e : Int) :
    (10 : ℚ) ^ (e + Decimal.width m - 1) ≤ scaled m e := by
  have hw := width_pos m
  have hm : (10 : ℚ) ^ (Decimal.width m - 1) ≤ m := by exact_mod_cast pow_width_le h
  have he : e + (Decimal.width m : Int) - 1 = e + ((Decimal.width m - 1 : Nat) : Int) := by omega
  rw [he, zpow_add₀ (by norm_num), zpow_natCast, mul_comm, scaled]
  push_cast
  exact mul_le_mul_of_nonneg_right hm (zpow_pos (by norm_num) e).le

theorem scaled_shift (m : Nat) (e : Int) (k : Nat) :
    scaled ((m * tenTo k : Nat) : Int) (e - k) = scaled m e := by
  have h10 : (10 : ℚ) ≠ 0 := by norm_num
  rw [scaled, scaled, tenTo_eq_pow, zpow_sub₀ h10, zpow_natCast]
  push_cast
  field_simp

theorem scaled_lt_iff (m n e : Int) : scaled m e < scaled n e ↔ m < n := by
  unfold scaled
  rw [mul_lt_mul_iff_left₀ (zpow_pos (by norm_num) e)]
  exact Int.cast_lt

theorem magnitudeLt_iff (m : Nat) (e : Int) (n : Nat) (f : Int) :
    magnitudeLt m e n f = true ↔ scaled m e < scaled n f := by
  unfold magnitudeLt
  by_cases hm : m = 0
  · subst hm
    have hz : scaled ((0 : Nat) : Int) e = 0 := by simp [scaled]
    rw [hz]
    by_cases hn : n = 0
    · subst hn
      simp [scaled]
    · have hp : 0 < scaled n f := lt_of_lt_of_le (zpow_pos (by norm_num) _) (le_scaled hn f)
      simp [hn, hp]
  · by_cases hn : n = 0
    · subst hn
      have hz : scaled ((0 : Nat) : Int) f = 0 := by simp [scaled]
      have hp : 0 < scaled m e := lt_of_lt_of_le (zpow_pos (by norm_num) _) (le_scaled hm e)
      rw [hz]
      simp [hm, hp.le]
    · simp only [hm, hn, ↓reduceIte]
      have h10 : (1 : ℚ) < 10 := by norm_num
      by_cases ha : e + (Decimal.width m : Int) = f + Decimal.width n
      · have hs : e - ((e - f).toNat : Int) = f - ((f - e).toNat : Int) := by omega
        rw [if_pos ha, decide_eq_true_iff, ← scaled_shift m e (e - f).toNat,
          ← scaled_shift n f (f - e).toNat, hs, scaled_lt_iff]
        exact Int.ofNat_lt.symm
      · rw [if_neg ha, decide_eq_true_iff]
        constructor
        · intro hlt
          calc scaled m e < (10 : ℚ) ^ (e + Decimal.width m) := scaled_lt m e
            _ ≤ (10 : ℚ) ^ (f + Decimal.width n - 1) := zpow_le_zpow_right₀ h10.le (by omega)
            _ ≤ scaled n f := le_scaled hn f
        · intro hlt
          by_contra hge
          have : scaled n f < scaled m e :=
            calc scaled n f < (10 : ℚ) ^ (f + Decimal.width n) := scaled_lt n f
              _ ≤ (10 : ℚ) ^ (e + Decimal.width m - 1) := zpow_le_zpow_right₀ h10.le (by omega)
              _ ≤ scaled m e := le_scaled hm e
          exact absurd hlt this.not_gt

theorem scaled_neg (m e : Int) : scaled (-m) e = -scaled m e := by
  simp [scaled]

/-- A quantity is the number of its digits, with its sign. -/
theorem value_eq (q : Quantity) :
    q.value = if q.coefficient < 0 then -scaled q.coefficient.natAbs q.exponent
      else scaled q.coefficient.natAbs q.exponent := by
  split
  · rw [← scaled_neg, value]
    congr 1
    omega
  · rw [value]
    congr 1
    omega

theorem value_neg_iff (q : Quantity) : q.value < 0 ↔ q.coefficient < 0 := by
  have hz : (0 : ℚ) = scaled 0 q.exponent := by simp [scaled]
  rw [hz, value, scaled_lt_iff]

/-- Quantities are ordered by the numbers that they stand for. -/
theorem lt_iff (p q : Quantity) : p.lt q = true ↔ p.value < q.value := by
  unfold lt
  by_cases hp : p.coefficient < 0 <;> by_cases hq : q.coefficient < 0 <;> simp only [hp, hq,
    decide_true, decide_false]
  · rw [magnitudeLt_iff, value_eq p, value_eq q, if_pos hp, if_pos hq, neg_lt_neg_iff]
  · have hn := (value_neg_iff p).mpr hp
    have hz := not_lt.mp (mt (value_neg_iff q).mp hq)
    simp [lt_of_lt_of_le hn hz]
  · have hn := (value_neg_iff q).mpr hq
    have hz := not_lt.mp (mt (value_neg_iff p).mp hp)
    simp [(lt_of_lt_of_le hn hz).le]
  · rw [magnitudeLt_iff, value_eq p, value_eq q, if_neg hp, if_neg hq]

end Quantity

def Text.isLetter (c : Char) : Prop :=
  65 ≤ c.toNat ∧ c.toNat ≤ 90 ∨ 97 ≤ c.toNat ∧ c.toNat ≤ 122

theorem isLetter_of_toLower {c d : Char} (hd : 97 ≤ d.toNat ∧ d.toNat ≤ 122)
    (h : c.toLower = d) : Text.isLetter c := by
  unfold Char.toLower at h
  split at h
  · rename_i hu
    exact .inl ⟨hu.1, hu.2⟩
  · rw [h]
    exact .inr hd

namespace Text

variable {c : Char}

theorem isBlank_of_isLetter (h : isLetter c) : isBlank c = false := by
  unfold isLetter at h
  simp only [isBlank, Bool.or_eq_false_iff, Bool.and_eq_false_iff, decide_eq_false_iff_not,
    beq_eq_false_iff_ne]
  omega

theorem asciiDigit_of_isLetter (h : isLetter c) : asciiDigit c = c := by
  have runs : ∀ first ∈ zeroDigits, first = 0x30 ∨ 0x660 ≤ first := by decide
  have none : zeroDigits.find? (fun first => first ≤ c.toNat ∧ c.toNat < first + 10) = none := by
    refine List.find?_eq_none.mpr fun first hf => ?_
    unfold isLetter at h
    have := runs first hf
    simp only [decide_eq_true_iff]
    omega
  unfold asciiDigit digitValue?
  rw [none]
  rfl

theorem dropBlanks_concat (h : isBlank c = false) (before : List Char) :
    ∃ kept, (before ++ [c]).dropWhile isBlank = kept ++ [c] := by
  induction before with
  | nil => exact ⟨[], by simp [h]⟩
  | cons first before ih =>
    by_cases hb : isBlank first = true
    · obtain ⟨kept, hk⟩ := ih
      exact ⟨kept, by simp [hb, hk]⟩
    · exact ⟨first :: before, by simp [hb]⟩

/-- A character that is no white space stays in front. -/
theorem trim_cons (h : isBlank c = false) (rest : List Char) :
    ∃ kept, trim (c :: rest) = c :: kept := by
  have front : (c :: rest).dropWhile isBlank = c :: rest := by simp [h]
  unfold trim
  rw [front, List.reverse_cons]
  obtain ⟨tail, ht⟩ := dropBlanks_concat h rest.reverse
  rw [ht, List.reverse_append]
  exact ⟨tail.reverse, rfl⟩

end Text

namespace Quantity

variable {c : Char} {rest : List Char}

/-- No number begins with a letter. -/
theorem readNumber?_of_isLetter (h : Text.isLetter c) : readNumber? (c :: rest) = none := by
  obtain ⟨kept, hk⟩ := Text.trim_cons (Text.isBlank_of_isLetter h) rest
  have hn : ∀ d : Char, ¬Text.isLetter d → c ≠ d := fun d hd he => hd (he ▸ h)
  have under : c ≠ '_' := hn '_' (by unfold Text.isLetter; decide)
  have minus : c ≠ '-' := hn '-' (by unfold Text.isLetter; decide)
  have plus : c ≠ '+' := hn '+' (by unfold Text.isLetter; decide)
  have point : c ≠ '.' := hn '.' (by unfold Text.isLetter; decide)
  have digit : c.isDigit = false := by
    rw [Bool.eq_false_iff, ne_eq, Char.isDigit, Bool.and_eq_true, decide_eq_true_iff,
      decide_eq_true_iff]
    rintro ⟨_, hd⟩
    have hd : c.toNat ≤ 57 := hd
    unfold Text.isLetter at h
    omega
  have read : ∀ digits, Decimal.read? (c :: digits) = none := by
    intro digits
    have sign : Decimal.takeSign (c :: digits) = (false, c :: digits) := by
      unfold Decimal.takeSign
      split <;> simp_all
    have fraction : Decimal.takeFraction (c :: digits) = ([], c :: digits) := by
      unfold Decimal.takeFraction
      split <;> simp_all
    simp [Decimal.read?, sign, digit, fraction]
  have cleaned : ((Text.trim (c :: rest)).filter (· ≠ '_')).map Text.asciiDigit =
      c :: (kept.filter (· ≠ '_')).map Text.asciiDigit := by
    simp [hk, under, Text.asciiDigit_of_isLetter h]
  unfold readNumber?
  dsimp only
  rw [cleaned, read]

theorem splitSuffix_eq_take (text : List Char) :
    ∃ n, text.length ≤ n + 2 ∧ (splitSuffix text).1 = text.take n := by
  have whole : text = text.take text.length := (List.take_length).symm
  unfold splitSuffix
  split
  · rename_i letter rest hr
    have ht : text = rest.reverse ++ [letter, 'i'] := by
      rw [← List.reverse_reverse text, hr]
      simp
    split
    · exact ⟨rest.length, by simp [ht], by simp [ht]⟩
    · exact ⟨text.length, by omega, whole⟩
  · rename_i letter rest hn hr
    have ht : text = rest.reverse ++ [letter] := by
      rw [← List.reverse_reverse text, hr]
      simp
    split
    · exact ⟨rest.length, by simp [ht], by simp [ht]⟩
    · exact ⟨text.length, by omega, whole⟩
  · exact ⟨text.length, by omega, whole⟩

theorem letters_of_profile {profile : String} (h : profile ∈ sizeProfiles) :
    ∃ d ds, profile.toList = d :: ds ∧ (97 ≤ d.toNat ∧ d.toNat ≤ 122) ∧ 4 ≤ ds.length := by
  simp only [sizeProfiles, List.mem_cons, List.not_mem_nil, or_false] at h
  rcases h with rfl | rfl | rfl | rfl
  · exact ⟨_, _, rfl, by decide, by decide⟩
  · exact ⟨_, _, rfl, by decide, by decide⟩
  · exact ⟨_, _, rfl, by decide, by decide⟩
  · exact ⟨_, _, rfl, by decide, by decide⟩

/-- No size profile reads as a quantity. -/
theorem read?_of_profileRank? {name : String} {position : Nat}
    (h : TenantSizing.profileRank? name = some position) : read? name = none := by
  obtain ⟨hi, hp, _⟩ := List.findIdx?_eq_some_iff_getElem.mp h
  obtain ⟨d, ds, hd, range, long⟩ := letters_of_profile (List.getElem_mem hi)
  rw [decide_eq_true_iff, hd] at hp
  cases ht : Text.trim name.toList with
  | nil => simp [ht] at hp
  | cons c rest =>
    simp only [ht, List.map_cons, List.cons.injEq] at hp
    have letter := isLetter_of_toLower range hp.1.symm
    have length : ds.length = rest.length := by simp [hp.2]
    obtain ⟨n, hn, hs⟩ := splitSuffix_eq_take (c :: rest)
    have number : readNumber? (splitSuffix (c :: rest)).1 = none := by
      obtain ⟨m, rfl⟩ : ∃ m, n = m + 1 := ⟨n - 1, by simp only [List.length_cons] at hn; omega⟩
      rw [hs, List.take_succ_cons]
      exact readNumber?_of_isLetter letter
    unfold read?
    rw [ht]
    dsimp only
    rw [number]

end Quantity

namespace Scalar

theorem rank?_of_quantity? {s : Scalar} {q : Quantity} (h : s.quantity? = some q) :
    s.rank? = some (.quantity q) := by
  have plain : s.profileRank? = none := by
    cases s with
    | text name =>
      cases hp : TenantSizing.profileRank? name with
      | none => exact hp
      | some position =>
        rw [quantity?, Quantity.read?_of_profileRank? hp] at h
        cases h
    | null | bool _ | int _ | float _ => rfl
  cases s with
  | bool value => cases h
  | null => cases h
  | int n => simp [rank?, plain, h]
  | float x => simp [rank?, plain, h]
  | text name => simp [rank?, plain, h]

end Scalar

/-- Which of two numbers an extreme goes to. -/
def Extreme.level : Extreme → ℚ → ℚ → ℚ
  | .max => Max.max
  | .min => Min.min

theorem Scalar.above_iff {a b : Scalar} {p q : Quantity} (ha : a.quantity? = some p)
    (hb : b.quantity? = some q) : a.above b = true ↔ q.value < p.value := by
  rw [Scalar.above, rank?_of_quantity? ha, rank?_of_quantity? hb]
  exact Quantity.lt_iff q p

/-- What an extreme picks of two sizes is the one at its level. -/
theorem Extreme.quantity?_pick {x : Extreme} {a b : Scalar} {p q : Quantity}
    (ha : a.quantity? = some p) (hb : b.quantity? = some q) :
    (x.pick a b).quantity?.map Quantity.value = some (x.level p.value q.value) := by
  cases x with
  | max =>
    have ho := Scalar.above_iff hb ha
    show (a.larger b).quantity?.map Quantity.value = some (Max.max p.value q.value)
    unfold Scalar.larger
    split
    · rename_i h
      rw [hb, max_eq_right (ho.mp h).le, Option.map_some]
    · rename_i h
      rw [ha, max_eq_left (not_lt.mp (mt ho.mpr h)), Option.map_some]
  | min =>
    have ho := Scalar.above_iff ha hb
    show (a.smaller b).quantity?.map Quantity.value = some (Min.min p.value q.value)
    unfold Scalar.smaller
    split
    · rename_i h
      rw [hb, min_eq_right (ho.mp h).le, Option.map_some]
    · rename_i h
      rw [ha, min_eq_left (not_lt.mp (mt ho.mpr h)), Option.map_some]

end TenantSizing
