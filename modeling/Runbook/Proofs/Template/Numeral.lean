import Runbook.Proofs.Template.Lexeme
/-!
# The truth of numerals

A numeral decides a condition as a double, and counts as true as a value.  These agree.

* `Double.isNaN_ofDecimal` — what a decimal numeral stands for is a number;
* `Double.isZero_ofInt` — the double nearest to an integer is zero for zero only;
* `truthy_of_numeral?` — a number that a numeral stands for counts as true unless its double is
  zero.
-/

namespace Runbook

namespace Double

/-! ### Magnitudes -/

theorem pow_two_52 : Nat.pow 2 52 = 4503599627370496 :=
  rfl

theorem pow_two_63 : Nat.pow 2 63 = 9223372036854775808 :=
  rfl

theorem encodeAt_le (num den : Nat) (q : Int) : encodeAt num den q ≤ infinityBits :=
  Nat.min_le_right _ _

theorem magnitudeOfRatio_le (num den : Nat) : magnitudeOfRatio num den ≤ infinityBits := by
  unfold magnitudeOfRatio
  split
  · exact Nat.zero_le _
  · exact encodeAt_le num den _

theorem toNat_withSign (negative : Bool) {magnitude : Nat} (h : magnitude ≤ infinityBits) :
    (withSign negative magnitude).bits.toNat
      = if negative then Nat.pow 2 63 + magnitude else magnitude := by
  have hbound : infinityBits < 9223372036854775808 := by decide
  have hsmall : (if negative then Nat.pow 2 63 + magnitude else magnitude) < UInt64.size := by
    have hsize : UInt64.size = 18446744073709551616 := rfl
    rw [pow_two_63, hsize]
    split <;> omega
  exact UInt64.toNat_ofNat_of_lt' hsmall

/-- Up to infinity there are no NaNs. -/
theorem isNaN_withSign (negative : Bool) {magnitude : Nat} (h : magnitude ≤ infinityBits) :
    (withSign negative magnitude).isNaN = false := by
  have hbits := toNat_withSign negative h
  rw [infinityBits, pow_two_52] at h
  unfold isNaN exponentField fractionField
  rw [hbits, Bool.and_eq_false_iff, beq_eq_false_iff_ne, bne_eq_false_iff_eq]
  cases negative with
  | false =>
    simp only [Bool.false_eq_true, if_false, pow_two_52]
    omega
  | true =>
    simp only [if_true, pow_two_52, pow_two_63]
    omega

/-- A double is zero when its magnitude is. -/
theorem isZero_withSign (negative : Bool) {magnitude : Nat} (h : magnitude ≤ infinityBits) :
    (withSign negative magnitude).isZero = (magnitude == 0) := by
  have hbits := toNat_withSign negative h
  rw [infinityBits, pow_two_52] at h
  unfold isZero exponentField fractionField
  rw [hbits, Bool.eq_iff_iff, Bool.and_eq_true, beq_iff_eq, beq_iff_eq, beq_iff_eq]
  cases negative with
  | false =>
    simp only [Bool.false_eq_true, if_false, pow_two_52]
    omega
  | true =>
    simp only [if_true, pow_two_52, pow_two_63]
    omega

/-! ### Decimals and integers -/

/-- What a decimal numeral stands for is a number. -/
theorem isNaN_ofDecimal (negative : Bool) (digits : Nat) (exponent : Int) :
    (ofDecimal negative digits exponent).isNaN = false := by
  unfold ofDecimal ofRatio
  split
  · exact isNaN_withSign negative (Nat.zero_le _)
  · dsimp only
    split
    · exact isNaN_withSign negative (Nat.le_refl _)
    · split
      · exact isNaN_withSign negative (Nat.zero_le _)
      · split
        · exact isNaN_withSign negative (magnitudeOfRatio_le _ _)
        · exact isNaN_withSign negative (magnitudeOfRatio_le _ _)

/-- A positive integer is no subnormal number. -/
theorem magnitudeOfRatio_pos {n : Nat} (h : n ≠ 0) : magnitudeOfRatio n 1 ≠ 0 := by
  have hlog : (n.log2 : Int) - (Nat.log2 1 : Nat) = n.log2 := by
    rw [show Nat.log2 1 = 0 by decide]
    omega
  have hleast : 1 * Nat.pow 2 n.log2 ≤ n := by
    rw [Nat.one_mul]
    exact Nat.log2_self_le h
  unfold magnitudeOfRatio
  rw [if_neg h]
  dsimp only
  rw [hlog, if_pos (Int.natCast_nonneg _), Int.toNat_natCast, decide_eq_true hleast, if_pos rfl]
  rw [encodeAt, pow_two_52]
  have hplace : 1 ≤ (Max.max ((n.log2 : Int) - 52) (-1074) + 1074).toNat := by omega
  have hinfinity : infinityBits ≠ 0 := by decide
  omega

/-- The double nearest to an integer is zero for zero only. -/
theorem isZero_ofInt (i : Int) : (ofInt i).isZero = (i == 0) := by
  unfold ofInt ofRatio
  rw [isZero_withSign _ (magnitudeOfRatio_le _ _), Bool.eq_iff_iff, beq_iff_eq, beq_iff_eq]
  constructor
  · intro h
    refine Classical.byContradiction fun hi => ?_
    exact magnitudeOfRatio_pos (fun habs => hi (Int.natAbs_eq_zero.1 habs)) h
  · rintro rfl
    rfl

end Double

namespace Template.Action

/-- A number that a numeral stands for counts as true unless its double is zero. -/
theorem truthy_of_numeral? {text : List Char} {v : Number} (h : numeral? text = some v) :
    (Value.num v).truthy = !v.toDouble.isZero := by
  unfold numeral? at h
  split at h
  · next d hdouble =>
    cases h
    have hnan : d.isNaN = false := by
      unfold readDouble at hdouble
      obtain ⟨⟨⟨negative, digits⟩, rest⟩, -, hdouble⟩ := Option.bind_eq_some_iff.1 hdouble
      dsimp only at hdouble
      split at hdouble
      · split at hdouble
        · cases hdouble
        · obtain ⟨rfl, -⟩ := Prod.mk.inj (Option.some.inj hdouble)
          exact Double.isNaN_ofDecimal _ _ _
      · cases hdouble
    show (!d.isZero && !d.isNaN) = !d.isZero
    rw [hnan]
    exact Bool.and_true _
  · cases h
  · split at h
    · next i hint =>
      split at h
      · cases h
        show (i != 0) = !(Double.ofInt i).isZero
        rw [Double.isZero_ofInt]
        rfl
      · cases h
    · cases h

end Template.Action

end Runbook
