import Mathlib.Algebra.Ring.Int.Parity
import Notebook.Guest.Integer

/-!
# Whole numbers of 64 bits

An operation has a result exactly if the exact value is a number of 64 bits, and the result is then that value
(`fit?_eq_some_iff`).  A quotient is rounded toward zero and the remainder has the sign of the dividend
(`Truncates`); a power has a result whenever it fits (`pow?_eq_fit?`), and a sum has one if all the partial sums
fit (`sumFrom?_eq_some_iff`).
-/

namespace Notebook.Guest.Integer

/-- Whether there is a number of 64 bits of this value. -/
def Fits (n : Int) : Prop := least ≤ n ∧ n ≤ greatest

instance : DecidablePred Fits := fun n => inferInstanceAs (Decidable (least ≤ n ∧ n ≤ greatest))

theorem fits_iff {n : Int} : Fits n ↔ -2 ^ 63 ≤ n ∧ n < 2 ^ 63 := by
  unfold Fits least greatest
  omega

theorem fits_toInt (a : Int64) : Fits a.toInt := fits_iff.2 ⟨a.le_toInt, a.toInt_lt⟩

theorem Fits.toInt_ofInt {n : Int} (h : Fits n) : (Int64.ofInt n).toInt = n :=
  Int64.toInt_ofInt_of_le (fits_iff.1 h).1 (fits_iff.1 h).2

theorem fit?_eq_some_iff {n : Int} {r : Int64} : fit? n = some r ↔ r.toInt = n := by
  have hfit : fit? n = if Fits n then some (Int64.ofInt n) else none := rfl
  rw [hfit]
  constructor
  · intro h
    split at h
    · rename_i hn
      cases h
      exact hn.toInt_ofInt
    · cases h
  · rintro rfl
    rw [if_pos (fits_toInt r), Int64.ofInt_toInt]

theorem fit?_eq_none_iff {n : Int} : fit? n = none ↔ ¬ Fits n := by
  rw [Option.eq_none_iff_forall_ne_some]
  constructor
  · exact fun h hn => h _ (fit?_eq_some_iff.2 hn.toInt_ofInt)
  · rintro h r hr
    exact h (fit?_eq_some_iff.1 hr ▸ fits_toInt r)

/-! ## Division -/

/-- `q` is the quotient of `a` by `b`, rounded toward zero, and `r` is what remains: it is smaller than the divisor,
and it has the sign of the dividend if it is not zero. -/
structure Truncates (a b q r : Int) : Prop where
  eq : a = b * q + r
  lt : r.natAbs < b.natAbs
  nonneg : 0 ≤ a → 0 ≤ r
  nonpos : a ≤ 0 → r ≤ 0

theorem truncates_iff {a b q r : Int} : Truncates a b q r ↔ b ≠ 0 ∧ a.tdiv b = q ∧ a.tmod b = r := by
  constructor
  · rintro ⟨heq, hlt, hnonneg, hnonpos⟩
    have hb : b ≠ 0 := by
      rintro rfl
      exact Nat.not_lt_zero _ hlt
    refine ⟨hb, ?_⟩
    rcases Int.le_total 0 a with ha | ha
    · have hr := hnonneg ha
      exact (Int.tdiv_tmod_unique ha hb).2 ⟨by omega, hr, by omega⟩
    · have hr := hnonpos ha
      exact (Int.tdiv_tmod_unique' ha hb).2 ⟨by omega, by omega, hr⟩
  · rintro ⟨hb, rfl, rfl⟩
    have hlt : a.natAbs % b.natAbs < b.natAbs := Nat.mod_lt _ (Int.natAbs_pos.2 hb)
    refine ⟨(Int.mul_tdiv_add_tmod a b).symm, ?_, Int.tmod_nonneg b, fun ha => ?_⟩
    · rwa [Int.natAbs_tmod]
    · have hneg : 0 ≤ (-a).tmod b := Int.tmod_nonneg b (by omega)
      rw [Int.neg_tmod] at hneg
      omega

/-- The quotient of two numbers is no further from zero than the dividend, and so is the remainder. -/
theorem Truncates.natAbs_le {a b q r : Int} (h : Truncates a b q r) : q.natAbs ≤ a.natAbs ∧ r.natAbs ≤ a.natAbs := by
  obtain ⟨-, rfl, rfl⟩ := truncates_iff.1 h
  refine ⟨Int.natAbs_tdiv_le_natAbs a b, ?_⟩
  rw [Int.natAbs_tmod]
  exact Nat.mod_le _ _

theorem div?_eq_some_iff {a b r : Int64} :
    div? a b = some r ↔ ∃ rest, Truncates a.toInt b.toInt r.toInt rest := by
  have hb : b = 0 ↔ b.toInt = 0 := Int64.toInt_inj.symm
  unfold div?
  split
  · rename_i hzero
    refine ⟨fun h => (by cases h), ?_⟩
    rintro ⟨rest, h⟩
    exact absurd (hb.1 hzero) (truncates_iff.1 h).1
  · rename_i hne
    rw [fit?_eq_some_iff]
    refine ⟨fun h => ⟨_, truncates_iff.2 ⟨fun hzero => hne (hb.2 hzero), h.symm, rfl⟩⟩, ?_⟩
    rintro ⟨rest, h⟩
    exact (truncates_iff.1 h).2.1.symm

/-- The only quotient that does not fit is that of the least number by -1. -/
theorem Truncates.fits_iff {a b : Int64} {q r : Int} (h : Truncates a.toInt b.toInt q r) :
    Fits q ↔ ¬ (a.toInt = least ∧ b.toInt = -1) := by
  have hq := h.natAbs_le.1
  have ha := fits_toInt a
  obtain ⟨heq, hlt, -, hnonpos⟩ := h
  generalize a.toInt = a at *
  generalize b.toInt = b at *
  unfold Fits least greatest at *
  constructor
  · rintro hfits ⟨rfl, rfl⟩
    omega
  · intro hnot
    -- the one number that does not fit, and is no further from zero than the least one
    have hne : q ≠ 9223372036854775808 := by
      rintro rfl
      exact hnot (by omega)
    omega

theorem Truncates.fits_rest {a : Int64} {b q r : Int} (h : Truncates a.toInt b q r) : Fits r := by
  have hle := h.natAbs_le.2
  have ha := fits_toInt a
  have hnonneg := h.nonneg
  have hnonpos := h.nonpos
  unfold Fits least greatest at *
  omega

/-- There is a remainder where there is a quotient. -/
theorem rem?_eq_some_iff {a b r : Int64} :
    rem? a b = some r ↔ (∃ q, Truncates a.toInt b.toInt q r.toInt) ∧ ¬ (a.toInt = least ∧ b.toInt = -1) := by
  unfold rem?
  rw [Option.map_eq_some_iff]
  constructor
  · rintro ⟨q, hq, hr⟩
    obtain ⟨rest, h⟩ := div?_eq_some_iff.1 hq
    have hrest := h.fits_rest
    obtain rfl := (truncates_iff.1 h).2.2
    rw [← hr, hrest.toInt_ofInt]
    exact ⟨⟨_, h⟩, h.fits_iff.1 (fits_toInt q)⟩
  · rintro ⟨⟨q, h⟩, hnot⟩
    have hq := (h.fits_iff.2 hnot).toInt_ofInt
    refine ⟨Int64.ofInt q, div?_eq_some_iff.2 ⟨r.toInt, by rwa [hq]⟩, ?_⟩
    rw [(truncates_iff.1 h).2.2, Int64.ofInt_toInt]

/-! ## Powers and sums -/

theorem not_fits_pow {a : Int} {n : Nat} (ha : 2 ≤ a.natAbs) (hn : 64 ≤ n) : ¬ Fits (a ^ n) := by
  have hpow : 2 ^ 64 ≤ (a ^ n).natAbs := by
    rw [Int.natAbs_pow]
    calc 2 ^ 64 ≤ 2 ^ n := Nat.pow_le_pow_right (by omega) hn
      _ ≤ a.natAbs ^ n := Nat.pow_le_pow_left ha n
  rw [Integer.fits_iff]
  omega

/-- A power has a result whenever its exact value fits. -/
theorem pow?_eq_fit? (a : Int64) (n : Nat) : pow? a n = fit? (a.toInt ^ n) := by
  have hminus : (-1 : Int64).toInt = -1 := by decide
  unfold pow?
  split
  · rename_i ha
    symm
    rw [fit?_eq_some_iff]
    rcases ha with rfl | rfl | rfl
    · rcases Nat.eq_zero_or_pos n with rfl | hn
      · rfl
      · rw [if_neg (Nat.ne_of_gt hn), Int64.toInt_zero, Int.zero_pow (Nat.ne_of_gt hn)]
        split <;> rfl
    · rw [Int64.toInt_one, Int.one_pow]
      split_ifs <;> rfl
    · rw [hminus]
      rcases Nat.even_or_odd n with hn | hn
      · rw [hn.neg_one_pow, if_pos (Nat.even_iff.1 hn)]
        split <;> rfl
      · have hodd := Nat.odd_iff.1 hn
        rw [hn.neg_one_pow, if_neg (by omega), if_neg (by omega)]
        exact hminus
  · rename_i ha
    split
    · rfl
    · -- any other base is too far from zero for such an exponent
      rename_i hn
      have hbase : 2 ≤ a.toInt.natAbs := by
        simp only [← Int64.toInt_inj, Int64.toInt_zero, Int64.toInt_one, hminus] at ha
        omega
      exact (fit?_eq_none_iff.2 (not_fits_pow hbase (Nat.not_lt.1 hn))).symm

example : pow? (-2) 63 = some (-9223372036854775808) ∧ pow? 2 63 = none := by decide

theorem add?_eq_some_iff {a b r : Int64} : add? a b = some r ↔ r.toInt = a.toInt + b.toInt := fit?_eq_some_iff

/-- There is a sum if no partial sum, with what was there before, leaves the range on the way. -/
theorem sumFrom?_eq_some_iff {total r : Int64} {ns : List Int64} :
    sumFrom? total ns = some r ↔
      r.toInt = total.toInt + (ns.map Int64.toInt).sum ∧
        ∀ p, p <+: ns → Fits (total.toInt + (p.map Int64.toInt).sum) := by
  induction ns generalizing total with
  | nil =>
    simp [sumFrom?, fits_toInt, ← Int64.toInt_inj, eq_comm]
  | cons a as ih =>
    unfold sumFrom?
    rw [Option.bind_eq_some_iff]
    simp only [add?_eq_some_iff, ih, List.map_cons, List.sum_cons, ← Int.add_assoc, List.prefix_cons_iff]
    constructor
    · rintro ⟨t, ht, hr, hfits⟩
      rw [ht] at hr hfits
      refine ⟨hr, ?_⟩
      rintro p (rfl | ⟨p, rfl, hp⟩)
      · simpa using fits_toInt total
      · rw [List.map_cons, List.sum_cons, ← Int.add_assoc]
        exact hfits p hp
    · rintro ⟨hr, hfits⟩
      -- the prefix that ends behind the first number tells that the first step fits
      have hfirst : Fits (total.toInt + a.toInt) := by
        simpa using hfits [a] (.inr ⟨[], rfl, List.nil_prefix⟩)
      have ht := hfirst.toInt_ofInt
      refine ⟨Int64.ofInt (total.toInt + a.toInt), ht, by rwa [ht], fun p hp => ?_⟩
      rw [ht, Int.add_assoc, ← List.sum_cons, ← List.map_cons]
      exact hfits (a :: p) (.inr ⟨p, rfl, hp⟩)

example : sumFrom? 0 [9223372036854775807, -1, 1] = some 9223372036854775807 ∧
    sumFrom? 0 [9223372036854775807, 1, -1] = none := by decide

end Notebook.Guest.Integer
