import Mathlib.Data.UInt
import Preopt.Proofs.Number.Nearest
import Preopt.Slot

/-! The hit ratio. It is the share of hits among all look-ups exactly as long as hits and
computations together stay within a word, however often each of the two counters went around. Past
that the sum is less than the hits alone, and a sum of zero no longer means that nothing was looked
up. -/

namespace Preopt.Counters

open Binary64 (doubles natCast_mem_doubles one_mem_doubles zpow_mem_doubles)

inductive Lookup
  | computed
  | answered
  deriving DecidableEq

def note (c : Counters) : Lookup → Counters
  | .computed => c.addComputation
  | .answered => c.addHit

def after (c : Counters) (past : List Lookup) : Counters := past.foldl note c

structure Proportionate (c : Counters) : Prop where
  hits_le : c.hits ≤ c.lookups
  lookups : c.lookups.toNat = c.hits.toNat + c.computations.toNat
  unused : c.lookups = 0 ↔ c.hits = 0 ∧ c.computations = 0
  quotient : c.lookups ≠ 0 → IsNearest doubles
    ((Binary64.ofNat c.hits.toNat).value / (Binary64.ofNat c.lookups.toNat).value) c.hitRatio.value
  ratio : 0 ≤ c.hitRatio.value ∧ c.hitRatio.value ≤ 1
  ratio_pos : c.hits ≠ 0 → 0 < c.hitRatio.value
  percent : c.hitPercent ≤ 100 ∧
    ∃ x, IsNearest doubles (c.hitRatio.value * 100) x ∧ IsNearest wholes x c.hitPercent
  reported (l : Ledger) : l.counters = c → l.reportTotals.events = l.events ++
    [.lookupsMade c.computations.toNat c.hits.toNat c.hitPercent,
      .valuesDerived c.configs.toNat c.images.toNat]

structure Overrun (c : Counters) : Prop where
  lookups : c.lookups.toNat + 2 ^ 64 = c.hits.toNat + c.computations.toNat
  lookups_lt : c.lookups < c.hits
  ratio_ge : c.lookups ≠ 0 → 1 ≤ c.hitRatio.value
  unused : c.lookups = 0 → c.hits ≠ 0 ∧ c.computations ≠ 0 ∧ c.hitRatio.value = 0

section Counting

variable (c : Counters) (past : List Lookup)

theorem note_hits (lookup : Lookup) :
    (c.note lookup).hits = c.hits + if lookup = .answered then 1 else 0 := by
  cases lookup with
  | computed => exact (add_zero _).symm
  | answered => rfl

theorem note_computations (lookup : Lookup) :
    (c.note lookup).computations = c.computations + if lookup = .computed then 1 else 0 := by
  cases lookup with
  | computed => rfl
  | answered => exact (add_zero _).symm

/-- A word that one kind of look-up adds to goes around with their number. -/
theorem toNat_after {word : Counters → UInt64} {kind : Lookup}
    (h : ∀ c lookup, word (c.note lookup) = word c + if lookup = kind then 1 else 0) :
    (word (c.after past)).toNat = ((word c).toNat + past.count kind) % 2 ^ 64 := by
  induction past generalizing c with
  | nil => exact (Nat.mod_eq_of_lt (word c).toNat_lt).symm
  | cons lookup rest ih =>
    change (word ((c.note lookup).after rest)).toNat = _
    rw [ih, h]
    by_cases hkind : lookup = kind
    · rw [if_pos hkind, hkind, List.count_cons_self, UInt64.toNat_add, Nat.mod_add_mod, add_assoc,
        add_comm _ (rest.count kind)]
      rfl
    · rw [if_neg hkind, List.count_cons_of_ne hkind, add_zero]

theorem toNat_hits_after :
    (c.after past).hits.toNat = (c.hits.toNat + past.count .answered) % 2 ^ 64 :=
  c.toNat_after past note_hits

theorem toNat_computations_after :
    (c.after past).computations.toNat = (c.computations.toNat + past.count .computed) % 2 ^ 64 :=
  c.toNat_after past note_computations

theorem length_eq_count : past.length = past.count .answered + past.count .computed := by
  induction past with
  | nil => rfl
  | cons lookup rest ih => cases lookup <;> simp [ih] <;> omega

theorem total_after_le : (c.after past).hits.toNat + (c.after past).computations.toNat ≤
    c.hits.toNat + c.computations.toNat + past.length := by
  have hhits := Nat.mod_le (c.hits.toNat + past.count .answered) (2 ^ 64)
  have hcomputations := Nat.mod_le (c.computations.toNat + past.count .computed) (2 ^ 64)
  rw [toNat_hits_after, toNat_computations_after, length_eq_count]
  omega

end Counting

theorem toNat_lookups (c : Counters) :
    c.lookups.toNat = (c.hits.toNat + c.computations.toNat) % 2 ^ 64 :=
  UInt64.toNat_add _ _

section Ratio

variable {n m : ℕ}

theorem lt_of_word (hn : n < 2 ^ 64) : (n : ℚ) < 2 ^ 1023 := by
  have hword : (n : ℚ) < 2 ^ 64 := by exact_mod_cast hn
  exact hword.trans (pow_lt_pow_right₀ one_lt_two (by omega))

theorem ofNat_isNearest (hn : n < 2 ^ 64) : IsNearest doubles n (Binary64.ofNat n).value :=
  Binary64.ofNat_isNearest (lt_of_word hn)

theorem one_le_ofNat (hn : n < 2 ^ 64) (h : 0 < n) : 1 ≤ (Binary64.ofNat n).value := by
  have hcast : (1 : ℚ) ≤ n := by exact_mod_cast h
  exact (ofNat_isNearest hn).ge_of_ge one_mem_doubles hcast

theorem ofNat_le (hn : n < 2 ^ 64) : (Binary64.ofNat n).value ≤ 2 ^ (64 : ℤ) := by
  have hword : (n : ℚ) ≤ 2 ^ 64 := by exact_mod_cast hn.le
  exact (ofNat_isNearest hn).le_of_le (zpow_mem_doubles (by decide)) hword

theorem ofNat_le_ofNat (h : n ≤ m) (hm : m < 2 ^ 64) :
    (Binary64.ofNat n).value ≤ (Binary64.ofNat m).value := by
  rcases h.eq_or_lt with rfl | hlt
  · rfl
  · have hcast : (n : ℚ) < m := by exact_mod_cast hlt
    exact (ofNat_isNearest (hlt.trans hm)).mono (ofNat_isNearest hm) hcast

def quotient (n m : ℕ) : Binary64 := (Binary64.ofNat n).div (Binary64.ofNat m)

theorem quotient_isNearest (hn : n < 2 ^ 64) (hm : m < 2 ^ 64) (hpos : 0 < m) :
    IsNearest doubles ((Binary64.ofNat n).value / (Binary64.ofNat m).value)
      (quotient n m).value := by
  have hone := one_le_ofNat hm hpos
  have hle := div_le_self (Binary64.ofNat n).value_nonneg hone
  have hbound : (2 : ℚ) ^ (64 : ℤ) < 2 ^ 1023 :=
    (zpow_natCast (2 : ℚ) 64).trans_lt (pow_lt_pow_right₀ one_lt_two (by omega))
  exact Binary64.div_isNearest (by linarith) ((hle.trans (ofNat_le hn)).trans_lt hbound)

theorem quotient_le_one (h : n ≤ m) (hm : m < 2 ^ 64) (hpos : 0 < m) :
    (quotient n m).value ≤ 1 := by
  have hone := one_le_ofNat hm hpos
  refine (quotient_isNearest (h.trans_lt hm) hm hpos).le_of_le one_mem_doubles ?_
  exact (div_le_one (by linarith)).mpr (ofNat_le_ofNat h hm)

theorem one_le_quotient (h : m ≤ n) (hn : n < 2 ^ 64) (hpos : 0 < m) :
    1 ≤ (quotient n m).value := by
  have hone := one_le_ofNat (h.trans_lt hn) hpos
  refine (quotient_isNearest hn (h.trans_lt hn) hpos).ge_of_ge one_mem_doubles ?_
  exact (one_le_div (by linarith)).mpr (ofNat_le_ofNat h hn)

/-- One hit is not lost among all the look-ups that a word can count. -/
theorem quotient_pos (hn : n < 2 ^ 64) (hm : m < 2 ^ 64) (hpos : 0 < m) (h : 0 < n) :
    0 < (quotient n m).value := by
  have hone := one_le_ofNat hm hpos
  have hleast : (2 : ℚ) ^ (-64 : ℤ) ≤ (Binary64.ofNat n).value / (Binary64.ofNat m).value := by
    rw [zpow_neg, ← one_div]
    exact div_le_div₀ (Binary64.ofNat n).value_nonneg (one_le_ofNat hn h) (by linarith)
      (ofNat_le hm)
  have hle := (quotient_isNearest hn hm hpos).ge_of_ge (zpow_mem_doubles (by decide)) hleast
  exact lt_of_lt_of_le (by positivity) hle

end Ratio

variable {c : Counters}

theorem hitRatio_of_unused (h : c.lookups = 0) : c.hitRatio.value = 0 := by
  rw [hitRatio, if_pos h, Binary64.value_zero]

theorem hitRatio_of_used (h : c.lookups ≠ 0) :
    c.hitRatio = quotient c.hits.toNat c.lookups.toNat :=
  if_neg h

theorem hundredfold_isNearest (h : c.hitRatio.value ≤ 1) :
    IsNearest doubles (c.hitRatio.value * 100) (c.hitRatio.timesNat 100).value := by
  have hle : c.hitRatio.value * (100 : ℕ) ≤ (100 : ℕ) := mul_le_of_le_one_left (Nat.cast_nonneg _) h
  exact_mod_cast Binary64.timesNat_isNearest (hle.trans_lt (lt_of_word (by decide)))

theorem hitPercent_isNearest :
    IsNearest wholes (c.hitRatio.timesNat 100).value c.hitPercent :=
  Binary64.round_isNearest _

theorem hitPercent_le (h : c.hitRatio.value ≤ 1) : c.hitPercent ≤ 100 := by
  have hdouble : (100 : ℚ) ∈ doubles := by exact_mod_cast natCast_mem_doubles (n := 100) (by decide)
  have hscaled := (hundredfold_isNearest h).le_of_le hdouble (by linarith)
  have hround : (c.hitPercent : ℚ) ≤ 100 := hitPercent_isNearest.le_of_le ⟨100, by norm_num⟩ hscaled
  exact_mod_cast hround

theorem toNat_pos {w : UInt64} (h : w ≠ 0) : 0 < w.toNat :=
  Nat.pos_of_ne_zero fun hzero => h (UInt64.toNat_inj.mp hzero)

theorem proportionate_of_lt (h : c.hits.toNat + c.computations.toNat < 2 ^ 64) :
    Proportionate c := by
  have hlookups : c.lookups.toNat = c.hits.toNat + c.computations.toNat := by
    rw [toNat_lookups, Nat.mod_eq_of_lt h]
  have hunused : c.lookups = 0 ↔ c.hits = 0 ∧ c.computations = 0 := by
    rw [← UInt64.toNat_inj, ← UInt64.toNat_inj, ← UInt64.toNat_inj, hlookups]
    exact Nat.add_eq_zero_iff
  have hle : c.hits.toNat ≤ c.lookups.toNat := by omega
  have hratio : c.hitRatio.value ≤ 1 := by
    by_cases hzero : c.lookups = 0
    · rw [hitRatio_of_unused hzero]
      exact zero_le_one
    · rw [hitRatio_of_used hzero]
      exact quotient_le_one hle c.lookups.toNat_lt (toNat_pos hzero)
  constructor
  case hits_le => exact UInt64.le_iff_toNat_le.mpr hle
  case lookups => exact hlookups
  case unused => exact hunused
  case quotient =>
    intro hused
    rw [hitRatio_of_used hused]
    exact quotient_isNearest c.hits.toNat_lt c.lookups.toNat_lt (toNat_pos hused)
  case ratio => exact ⟨c.hitRatio.value_nonneg, hratio⟩
  case ratio_pos =>
    intro hhits
    have hused : c.lookups ≠ 0 := fun hzero => hhits (hunused.mp hzero).1
    rw [hitRatio_of_used hused]
    exact quotient_pos c.hits.toNat_lt c.lookups.toNat_lt (toNat_pos hused) (toNat_pos hhits)
  case percent =>
    exact ⟨hitPercent_le hratio, _, hundredfold_isNearest hratio, hitPercent_isNearest⟩
  case reported =>
    rintro l rfl
    exact List.append_assoc _ _ _

theorem overrun_of_ge (h : 2 ^ 64 ≤ c.hits.toNat + c.computations.toNat) : Overrun c := by
  have hhits := c.hits.toNat_lt
  have hcomputations := c.computations.toNat_lt
  have hlookups : c.lookups.toNat + 2 ^ 64 = c.hits.toNat + c.computations.toNat := by
    rw [toNat_lookups]
    omega
  have hlt : c.lookups.toNat < c.hits.toNat := by omega
  constructor
  case lookups => exact hlookups
  case lookups_lt => exact UInt64.lt_iff_toNat_lt.mpr hlt
  case ratio_ge =>
    intro hused
    rw [hitRatio_of_used hused]
    exact one_le_quotient hlt.le hhits (toNat_pos hused)
  case unused =>
    intro hzero
    refine ⟨?_, ?_, hitRatio_of_unused hzero⟩
    · intro heq
      rw [heq] at hlt
      exact absurd hlt (Nat.not_lt_zero _)
    · intro heq
      rw [heq] at h
      exact absurd hhits (not_lt.mpr h)

/-- Whatever the counters start from and however often look-ups take them around, the ratio is a
share exactly if the two together fit into a word. -/
theorem hit_ratio_proportionate_iff (c : Counters) (past : List Lookup) :
    let c' := c.after past
    let total := c'.hits.toNat + c'.computations.toNat
    c'.hits.toNat = (c.hits.toNat + past.count .answered) % 2 ^ 64 ∧
      c'.computations.toNat = (c.computations.toNat + past.count .computed) % 2 ^ 64 ∧
      (Proportionate c' ↔ total < 2 ^ 64) ∧ (Overrun c' ↔ 2 ^ 64 ≤ total) ∧
      (c.hits.toNat + c.computations.toNat + past.length < 2 ^ 64 → Proportionate c') := by
  intro c' total
  refine ⟨c.toNat_hits_after past, c.toNat_computations_after past, ⟨?_, proportionate_of_lt⟩,
    ⟨?_, overrun_of_ge⟩, fun h => proportionate_of_lt ((c.total_after_le past).trans_lt h)⟩
  · intro h
    exact h.lookups.symm.trans_lt c'.lookups.toNat_lt
  · intro h
    exact (Nat.le_add_left _ _).trans_eq h.lookups

theorem hit_ratio_proportionate_around :
    let c : Counters := { hits := 18446744073709551614 }
    let past : List Lookup := [.answered, .computed, .answered, .answered]
    let c' := c.after past
    c'.hits = 1 ∧ c'.computations = 1 ∧ c'.hitPercent = 50 ∧ Proportionate c' := by
  intro c past c'
  exact ⟨by decide, by decide, by decide +kernel,
    (hit_ratio_proportionate_iff c past).2.2.1.mpr (by decide)⟩

/-- Where half of all look-ups are hits none is reported, and where three in five are, three times
all of them. -/
theorem hit_ratio_overrun :
    let half : Counters := { hits := 9223372036854775808, computations := 9223372036854775808 }
    let most : Counters := { hits := 13835058055282163712, computations := 9223372036854775808 }
    (¬ half.hits ≤ half.lookups ∧ half.lookups = 0 ∧ half.hitRatio.value = 0 ∧
      half.hitPercent = 0) ∧
      ¬ most.hits ≤ most.lookups ∧ most.hitRatio.value = 3 ∧ most.hitPercent = 300 := by
  intro half most
  have hthree : most.hitRatio = ⟨6755399441055744, -51⟩ := by decide +kernel
  have hvalue : most.hitRatio.value = 3 := by
    rw [hthree, Binary64.value]
    norm_num
  exact ⟨⟨by decide, by decide, hitRatio_of_unused (by decide), by decide +kernel⟩, by decide,
    hvalue, by decide +kernel⟩

end Preopt.Counters
