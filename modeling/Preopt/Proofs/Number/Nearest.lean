import Mathlib.Algebra.Order.Field.Power
import Mathlib.Algebra.Order.Field.Rat
import Mathlib.Tactic.FieldSimp
import Mathlib.Tactic.Linarith
import Mathlib.Tactic.NormNum
import Mathlib.Tactic.Positivity
import Mathlib.Tactic.Ring
import Preopt.Number.Binary64

/-! Rounding goes to the nearest number there is, of the whole ones or of the doubles. A quotient
becomes a double at the exponent that leaves it 53 bits before the point. The doubles of that
exponent and above are multiples of one power of two, and the others are too small to be nearer. As
nothing is nearer than what a quotient is rounded to, rounding keeps the order and moves no quotient
past a double. -/

namespace Preopt

structure IsNearest (grid : Set ℚ) (q r : ℚ) : Prop where
  mem : r ∈ grid
  le {s : ℚ} : s ∈ grid → |r - q| ≤ |s - q|

namespace IsNearest

variable {grid : Set ℚ} {q q' r r' s : ℚ}

theorem le_of_le (h : IsNearest grid q r) (hs : s ∈ grid) (hq : q ≤ s) : r ≤ s := by
  by_contra hlt
  have hdist := h.le hs
  rw [abs_of_nonneg (by linarith), abs_of_nonneg (by linarith)] at hdist
  linarith

theorem ge_of_ge (h : IsNearest grid q r) (hs : s ∈ grid) (hq : s ≤ q) : s ≤ r := by
  by_contra hlt
  have hdist := h.le hs
  rw [abs_of_nonpos (by linarith), abs_of_nonpos (by linarith)] at hdist
  linarith

/-- Larger numbers are rounded no lower. Of equal ones one may be rounded up and one down. -/
theorem mono (h : IsNearest grid q r) (h' : IsNearest grid q' r') (hq : q < q') : r ≤ r' := by
  by_contra hlt
  have hgap : 0 < r - r' := by linarith
  have hlow : (r - r') * (r + r' - 2 * q) ≤ 0 := by
    have hsq := sq_le_sq.mpr (h.le h'.mem)
    linarith
  have hhigh : (r - r') * (r + r' - 2 * q') ≥ 0 := by
    have hsq := sq_le_sq.mpr (h'.le h.mem)
    linarith
  have hmid : r + r' - 2 * q ≤ 0 := nonpos_of_mul_nonpos_right hlow hgap
  have hmid' : 0 ≤ r + r' - 2 * q' := nonneg_of_mul_nonneg_right hhigh hgap
  linarith

end IsNearest

def wholes : Set ℚ := {q | ∃ n : ℕ, (n : ℚ) = q}

theorem roundHalfEven_cases (num den : ℕ) :
    roundHalfEven num den = num / den ∧ 2 * (num % den) ≤ den ∨
      roundHalfEven num den = num / den + 1 ∧ den ≤ 2 * (num % den) := by
  simp only [roundHalfEven]
  split
  · next h => exact .inr ⟨rfl, by omega⟩
  · next h => exact .inl ⟨rfl, by omega⟩

theorem roundHalfEven_isNearest (num : ℕ) {den : ℕ} (hd : 0 < den) :
    IsNearest wholes (num / den) (roundHalfEven num den) := by
  refine ⟨⟨_, rfl⟩, ?_⟩
  rintro _ ⟨k, rfl⟩
  have hden : (0 : ℚ) < den := by exact_mod_cast hd
  have hscaled (x : ℚ) : |x - num / den| = |x * den - num| / den := by
    rw [← abs_of_pos hden, ← abs_div, abs_of_pos hden]
    congr 1
    field_simp
  have hnum : (num : ℚ) = (num / den : ℕ) * den + (num % den : ℕ) := by
    exact_mod_cast (Nat.div_add_mod' num den).symm
  rw [hscaled, hscaled]
  refine div_le_div_of_nonneg_right ?_ hden.le
  -- a whole number is at least the remainder below the quotient, or what is missing from it above
  have hfar : ((num % den : ℕ) : ℚ) ≤ |(k : ℚ) * den - num| ∨
      (den : ℚ) - (num % den : ℕ) ≤ |(k : ℚ) * den - num| := by
    rcases Nat.lt_or_ge (num / den) k with hk | hk
    · have hmul : (((num / den : ℕ) : ℚ) + 1) * den ≤ k * den := by
        exact_mod_cast Nat.mul_le_mul_right den hk
      exact .inr (le_abs.mpr (.inl (by linarith)))
    · have hmul : (k : ℚ) * den ≤ (num / den : ℕ) * den := by
        exact_mod_cast Nat.mul_le_mul_right den hk
      exact .inl (le_abs.mpr (.inr (by linarith)))
  rcases roundHalfEven_cases num den with ⟨hround, hhalf⟩ | ⟨hround, hhalf⟩
  · have hhalf : 2 * ((num % den : ℕ) : ℚ) ≤ den := by exact_mod_cast hhalf
    have hnear : |(roundHalfEven num den : ℚ) * den - num| ≤ (num % den : ℕ) := by
      rw [hround, abs_le]
      constructor <;> linarith
    rcases hfar with hfar | hfar <;> linarith
  · have hhalf : (den : ℚ) ≤ 2 * (num % den : ℕ) := by exact_mod_cast hhalf
    have hrest : ((num % den : ℕ) : ℚ) ≤ den := by exact_mod_cast (Nat.mod_lt num hd).le
    have hnear : |(roundHalfEven num den : ℚ) * den - num| ≤ den - (num % den : ℕ) := by
      rw [hround, abs_le]
      push_cast
      constructor <;> linarith
    rcases hfar with hfar | hfar <;> linarith

namespace Binary64

def value (x : Binary64) : ℚ := x.mantissa * 2 ^ x.exponent

structure Finite (x : Binary64) : Prop where
  mantissa : x.mantissa < 2 ^ 53
  exponent : -1074 ≤ x.exponent ∧ x.exponent ≤ 971

def doubles : Set ℚ := {q | ∃ x : Binary64, x.Finite ∧ x.value = q}

theorem value_nonneg (x : Binary64) : 0 ≤ x.value := by
  rw [value]
  positivity

theorem value_zero : zero.value = 0 := by simp [value, zero]

theorem zpow_mem_doubles {e : ℤ} (he : -1074 ≤ e ∧ e ≤ 971) : (2 : ℚ) ^ e ∈ doubles :=
  ⟨⟨1, e⟩, ⟨Nat.one_lt_two_pow (by omega), he⟩, by simp [value]⟩

theorem natCast_mem_doubles {n : ℕ} (hn : n < 2 ^ 53) : (n : ℚ) ∈ doubles :=
  ⟨⟨n, 0⟩, ⟨hn, by simp⟩, by simp [value]⟩

theorem one_mem_doubles : (1 : ℚ) ∈ doubles := zpow_zero (2 : ℚ) ▸ zpow_mem_doubles (by decide)

theorem two_zpow_eq (e : ℤ) : (2 : ℚ) ^ e = 2 ^ e.toNat / 2 ^ (-e).toNat := by
  rw [← zpow_natCast, ← zpow_natCast, ← zpow_sub₀ two_ne_zero]
  congr 1
  omega

theorem two_zpow_add (e : ℤ) (n : ℕ) : (2 : ℚ) ^ (e + n) = 2 ^ n * 2 ^ e := by
  rw [zpow_add₀ two_ne_zero, zpow_natCast, mul_comm]

theorem two_zpow_sub_mul (n m : ℕ) : (2 : ℚ) ^ ((n : ℤ) - m) * 2 ^ m = 2 ^ n := by
  rw [zpow_sub₀ two_ne_zero, zpow_natCast, zpow_natCast, div_mul_cancel₀ _ (by positivity)]

/-- A quotient moved by a power of two, which is written on the side where it is whole. -/
theorem cast_shift_div (n d : ℕ) (e : ℤ) :
    ((n * Nat.pow 2 e.toNat : ℕ) : ℚ) / (d * Nat.pow 2 (-e).toNat : ℕ) = n / d * 2 ^ e := by
  simp only [Nat.pow_eq]
  push_cast
  rw [mul_div_mul_comm, ← two_zpow_eq]

section Quotient

variable {num den : ℕ}

theorem scaled_pos (hd : 0 < den) (e : ℤ) : 0 < (scaled num den e).2 :=
  Nat.mul_pos hd (Nat.pow_pos two_pos)

theorem scaled_quotient (num den : ℕ) (e : ℤ) :
    ((scaled num den e).1 : ℚ) / (scaled num den e).2 = num / den / 2 ^ e := by
  have hshift := cast_shift_div num den (-e)
  rwa [neg_neg, zpow_neg, ← div_eq_mul_inv] at hshift

structure Fits (q : ℚ) (e : ℤ) : Prop where
  least : -1074 ≤ e
  lt : q < 2 ^ (e + 53)
  ge : e = -1074 ∨ 2 ^ (e + 52) ≤ q

theorem log2_bounds (hn : 0 < num) (hd : 0 < den) :
    (2 : ℚ) ^ ((num.log2 : ℤ) - (den.log2 + 1 : ℕ)) ≤ num / den ∧
      (num / den : ℚ) < 2 ^ (((num.log2 + 1 : ℕ) : ℤ) - den.log2) := by
  have hden : (0 : ℚ) < den := by exact_mod_cast hd
  have hnum : (2 : ℚ) ^ num.log2 ≤ num := by exact_mod_cast Nat.log2_self_le hn.ne'
  have hnum' : (num : ℚ) < 2 ^ (num.log2 + 1) := by exact_mod_cast Nat.lt_log2_self (n := num)
  have hlog : (2 : ℚ) ^ den.log2 ≤ den := by exact_mod_cast Nat.log2_self_le hd.ne'
  have hlog' : (den : ℚ) ≤ 2 ^ (den.log2 + 1) := by
    exact_mod_cast (Nat.lt_log2_self (n := den)).le
  constructor
  · rw [le_div_iff₀ hden]
    calc (2 : ℚ) ^ ((num.log2 : ℤ) - (den.log2 + 1 : ℕ)) * den
        ≤ 2 ^ ((num.log2 : ℤ) - (den.log2 + 1 : ℕ)) * 2 ^ (den.log2 + 1) := by gcongr
      _ = 2 ^ num.log2 := two_zpow_sub_mul _ _
      _ ≤ num := hnum
  · rw [div_lt_iff₀ hden]
    calc (num : ℚ) < 2 ^ (num.log2 + 1) := hnum'
      _ = 2 ^ (((num.log2 + 1 : ℕ) : ℤ) - den.log2) * 2 ^ den.log2 := (two_zpow_sub_mul _ _).symm
      _ ≤ 2 ^ (((num.log2 + 1 : ℕ) : ℤ) - den.log2) * den := by gcongr

theorem scaled_div_lt_iff (hd : 0 < den) (e : ℤ) :
    (scaled num den e).1 / (scaled num den e).2 < Nat.pow 2 53 ↔
      (num / den : ℚ) < 2 ^ (e + 53) := by
  have hpos : (0 : ℚ) < (scaled num den e).2 := by exact_mod_cast scaled_pos hd e
  have htwo : (0 : ℚ) < 2 ^ e := by positivity
  rw [Nat.div_lt_iff_lt_mul (scaled_pos hd e), Nat.pow_eq, ← Nat.cast_lt (α := ℚ)]
  push_cast
  rw [← div_lt_iff₀ hpos, scaled_quotient, div_lt_iff₀ htwo]
  exact iff_of_eq (congrArg _ (two_zpow_add e 53).symm)

theorem exponentOf_fits (hn : 0 < num) (hd : 0 < den) :
    Fits (num / den) (exponentOf num den) := by
  let guess : ℤ := (num.log2 : ℤ) - den.log2 - 53
  have hguess : guess + 52 = (num.log2 : ℤ) - (den.log2 + 1 : ℕ) ∧
      guess + 54 = ((num.log2 + 1 : ℕ) : ℤ) - den.log2 := by
    simp only [guess]
    omega
  obtain ⟨hlow, hhigh⟩ := log2_bounds hn hd
  rw [← hguess.1] at hlow
  rw [← hguess.2] at hhigh
  let first := if (scaled num den guess).1 / (scaled num den guess).2 < Nat.pow 2 53
    then guess else guess + 1
  have hfirst : (2 : ℚ) ^ (first + 52) ≤ num / den ∧ (num / den : ℚ) < 2 ^ (first + 53) := by
    by_cases h : (num / den : ℚ) < 2 ^ (guess + 53)
    · have heq : first = guess := if_pos ((scaled_div_lt_iff hd guess).mpr h)
      rw [heq]
      exact ⟨hlow, h⟩
    · have heq : first = guess + 1 := if_neg (mt (scaled_div_lt_iff hd guess).mp h)
      rw [heq, add_assoc, add_assoc]
      exact ⟨not_lt.mp h, hhigh⟩
  change Fits (num / den) (max (-1074) first)
  rcases le_total (-1074) first with h | h
  · rw [max_eq_right h]
    exact ⟨h, hfirst.2, .inr hfirst.1⟩
  · rw [max_eq_left h]
    refine ⟨le_rfl, hfirst.2.trans_le ?_, .inl rfl⟩
    exact zpow_le_zpow_right₀ one_le_two (by omega)

/-- A mantissa that was rounded up to 54 bits is halved. -/
def carry (mantissa : ℕ) (e : ℤ) : Binary64 :=
  if mantissa = 2 ^ 53 then ⟨2 ^ 52, e + 1⟩ else ⟨mantissa, e⟩

theorem value_carry (mantissa : ℕ) (e : ℤ) : (carry mantissa e).value = mantissa * 2 ^ e := by
  rw [carry]
  split
  · next h =>
    rw [h, value]
    push_cast
    rw [zpow_add₀ two_ne_zero]
    ring
  · rfl

theorem mantissa_carry {mantissa : ℕ} (h : mantissa ≤ 2 ^ 53) (e : ℤ) :
    (carry mantissa e).mantissa < 2 ^ 53 := by
  rw [carry]
  split
  · exact Nat.pow_lt_pow_right one_lt_two (by omega)
  · next hne => exact lt_of_le_of_ne h hne

theorem exponent_carry (mantissa : ℕ) (e : ℤ) :
    e ≤ (carry mantissa e).exponent ∧ (carry mantissa e).exponent ≤ e + 1 := by
  rw [carry]
  split <;> simp

def mantissaOf (num den : ℕ) : ℕ :=
  roundHalfEven (scaled num den (exponentOf num den)).1 (scaled num den (exponentOf num den)).2

theorem nearest?_eq (hn : 0 < num) : nearest? num den =
    if (carry (mantissaOf num den) (exponentOf num den)).exponent > 971 then none
    else some (carry (mantissaOf num den) (exponentOf num den)) := by
  simp only [nearest?, if_neg hn.ne']
  rfl

theorem mantissaOf_isNearest (num : ℕ) (hd : 0 < den) :
    IsNearest wholes (num / den / 2 ^ exponentOf num den) (mantissaOf num den) := by
  rw [← scaled_quotient]
  exact roundHalfEven_isNearest _ (scaled_pos hd _)

theorem mantissaOf_le (hn : 0 < num) (hd : 0 < den) : mantissaOf num den ≤ 2 ^ 53 := by
  have hfits := exponentOf_fits hn hd
  have hq : (num / den / 2 ^ exponentOf num den : ℚ) ≤ 2 ^ 53 := by
    rw [div_le_iff₀ (by positivity)]
    exact hfits.lt.le.trans_eq (two_zpow_add _ 53)
  have hle : (mantissaOf num den : ℚ) ≤ 2 ^ 53 :=
    (mantissaOf_isNearest num hd).le_of_le ⟨2 ^ 53, by push_cast; rfl⟩ hq
  exact_mod_cast hle

theorem multiple_or_small {x : Binary64} (hx : x.Finite) (e : ℤ) :
    (∃ k : ℕ, x.value = k * 2 ^ e) ∨ x.exponent < e ∧ x.value < 2 ^ (e + 52) := by
  rcases le_or_gt e x.exponent with h | h
  · refine .inl ⟨x.mantissa * 2 ^ (x.exponent - e).toNat, ?_⟩
    have hexp : x.exponent = e + (x.exponent - e).toNat := by omega
    rw [value]
    push_cast
    rw [mul_assoc, ← two_zpow_add, ← hexp]
  · refine .inr ⟨h, ?_⟩
    have hm : (x.mantissa : ℚ) < 2 ^ 53 := by exact_mod_cast hx.mantissa
    have htwo : (0 : ℚ) < 2 ^ x.exponent := by positivity
    calc x.value < 2 ^ 53 * 2 ^ x.exponent := mul_lt_mul_of_pos_right hm htwo
      _ = 2 ^ (x.exponent + 53) := (two_zpow_add _ 53).symm
      _ ≤ 2 ^ (e + 52) := zpow_le_zpow_right₀ one_le_two (by omega)

/-- Nothing is nearer than the nearest multiple of the power of two that fits. -/
theorem nearest_of_fits {q : ℚ} {e : ℤ} {m : ℕ} (hq : Fits q e)
    (hm : IsNearest wholes (q / 2 ^ e) m) {s : ℚ} (hs : s ∈ doubles) :
    |m * 2 ^ e - q| ≤ |s - q| := by
  have htwo : (0 : ℚ) < 2 ^ e := by positivity
  have hscaled (k : ℕ) : |(k : ℚ) * 2 ^ e - q| = |k - q / 2 ^ e| * 2 ^ e := by
    rw [← abs_of_pos htwo, ← abs_mul, abs_of_pos htwo, sub_mul, div_mul_cancel₀ q htwo.ne']
  have hmultiple (k : ℕ) : |m * 2 ^ e - q| ≤ |(k : ℚ) * 2 ^ e - q| := by
    rw [hscaled, hscaled]
    exact mul_le_mul_of_nonneg_right (hm.le ⟨k, rfl⟩) htwo.le
  obtain ⟨x, hx, rfl⟩ := hs
  rcases multiple_or_small hx e with ⟨k, hk⟩ | ⟨he, hsmall⟩
  · rw [hk]
    exact hmultiple k
  · -- a multiple lies between the small number and the quotient
    have hge : (2 : ℚ) ^ (e + 52) ≤ q := by
      rcases hq.ge with hleast | hge
      · exact absurd hx.exponent.1 (by omega)
      · exact hge
    have hmul : ((2 ^ 52 : ℕ) : ℚ) * 2 ^ e = 2 ^ (e + 52) := by
      rw [Nat.cast_pow, Nat.cast_ofNat]
      exact (two_zpow_add e 52).symm
    calc |m * 2 ^ e - q| ≤ |((2 ^ 52 : ℕ) : ℚ) * 2 ^ e - q| := hmultiple (2 ^ 52)
      _ = q - 2 ^ (e + 52) := by rw [hmul, abs_of_nonpos (by linarith), neg_sub]
      _ ≤ q - x.value := by linarith
      _ = |x.value - q| := by rw [abs_of_nonpos (by linarith), neg_sub]

theorem isNearest_of_nearest? {r : Binary64} (hd : 0 < den) (h : nearest? num den = some r) :
    IsNearest doubles (num / den) r.value := by
  rcases Nat.eq_zero_or_pos num with rfl | hn
  · obtain rfl : zero = r := by simpa [nearest?] using h
    refine ⟨⟨zero, ⟨by decide, by decide⟩, rfl⟩, fun {s} _ => ?_⟩
    simp [value_zero]
  · rw [nearest?_eq hn, Option.ite_none_left_eq_some, not_lt] at h
    obtain ⟨hexponent, h⟩ := h
    obtain rfl := Option.some.inj h
    have hfits := exponentOf_fits hn hd
    have hleast := hfits.least.trans (exponent_carry (mantissaOf num den) _).1
    refine ⟨⟨_, ⟨mantissa_carry (mantissaOf_le hn hd) _, hleast, hexponent⟩, rfl⟩, fun hs => ?_⟩
    rw [value_carry]
    exact nearest_of_fits hfits (mantissaOf_isNearest num hd) hs

theorem exists_nearest? (hd : 0 < den) (h : (num / den : ℚ) < 2 ^ 1023) :
    ∃ r, nearest? num den = some r := by
  rcases Nat.eq_zero_or_pos num with rfl | hn
  · exact ⟨zero, by simp [nearest?]⟩
  · have hexponent : exponentOf num den ≤ 970 := by
      rcases (exponentOf_fits hn hd).ge with hleast | hge
      · omega
      · have hpow : (2 : ℚ) ^ (exponentOf num den + 52) < 2 ^ (1023 : ℤ) := hge.trans_lt h
        have hlt := (zpow_lt_zpow_iff_right₀ one_lt_two).mp hpow
        omega
    have hcarry := (exponent_carry (mantissaOf num den) (exponentOf num den)).2
    exact ⟨_, (nearest?_eq hn).trans (if_neg (by omega))⟩

theorem nearest?_isNearest (hd : 0 < den) (h : (num / den : ℚ) < 2 ^ 1023) :
    IsNearest doubles (num / den) ((nearest? num den).getD zero).value := by
  obtain ⟨r, hr⟩ := exists_nearest? hd h
  rw [hr]
  exact isNearest_of_nearest? hd hr

end Quotient

section Operations

variable {x y : Binary64}

theorem ofNat_isNearest {n : ℕ} (h : (n : ℚ) < 2 ^ 1023) :
    IsNearest doubles n (ofNat n).value := by
  have hn : (n : ℚ) / (1 : ℕ) = n := by simp
  rw [← hn] at h ⊢
  exact nearest?_isNearest one_pos h

theorem div_isNearest (hy : 0 < y.value) (h : x.value / y.value < 2 ^ 1023) :
    IsNearest doubles (x.value / y.value) (x.div y).value := by
  have hm : y.mantissa ≠ 0 := by
    intro hm
    simp [value, hm] at hy
  have hq : ((x.mantissa * Nat.pow 2 (x.exponent - y.exponent).toNat : ℕ) : ℚ) /
      (y.mantissa * Nat.pow 2 (-(x.exponent - y.exponent)).toNat : ℕ) = x.value / y.value := by
    rw [cast_shift_div, zpow_sub₀ two_ne_zero, ← mul_div_mul_comm, value, value]
  rw [← hq] at h ⊢
  exact nearest?_isNearest (Nat.mul_pos (Nat.pos_of_ne_zero hm) (Nat.pow_pos two_pos)) h

theorem timesNat_isNearest {k : ℕ} (h : x.value * k < 2 ^ 1023) :
    IsNearest doubles (x.value * k) (x.timesNat k).value := by
  have hq : ((x.mantissa * k * Nat.pow 2 x.exponent.toNat : ℕ) : ℚ) /
      (Nat.pow 2 (-x.exponent).toNat : ℕ) = x.value * k := by
    rw [← one_mul (Nat.pow 2 (-x.exponent).toNat), cast_shift_div, Nat.cast_one, div_one,
      Nat.cast_mul, value, mul_right_comm]
  rw [← hq] at h ⊢
  exact nearest?_isNearest (Nat.pow_pos two_pos) h

theorem round_isNearest (x : Binary64) : IsNearest wholes x.value x.round := by
  have hq : ((x.mantissa * Nat.pow 2 x.exponent.toNat : ℕ) : ℚ) /
      (Nat.pow 2 (-x.exponent).toNat : ℕ) = x.value := by
    rw [← one_mul (Nat.pow 2 (-x.exponent).toNat), cast_shift_div, Nat.cast_one, div_one, value]
  rw [← hq]
  exact roundHalfEven_isNearest _ (Nat.pow_pos two_pos)

end Operations

end Binary64

end Preopt
