import Mathlib.Algebra.Order.Ring.Int
import Mathlib.Data.Nat.Log
import Mathlib.Tactic.Ring

/-! # Integers that a 64-bit float holds

A 64-bit float has 53 bits for the digits of a number. An integer with more is rounded to the nearest one that needs no
more, and halfway to the even one. The rounded numbers are the representable ones, and rounding never passes one of
them.
-/

namespace SecurityFabric

variable (n : Nat)

/-- The distance between two neighbours of the size of a number. -/
def float64Unit : Nat := 2 ^ (n.log2 - 52)

def roundNat : Nat :=
  let unit := float64Unit n
  if 2 * (n % unit) > unit ∨ 2 * (n % unit) = unit ∧ n / unit % 2 = 1 then (n / unit + 1) * unit else n / unit * unit

/-- The integer that a conversion to a 64-bit float makes of an integer. -/
def float64 : Int → Int
  | .ofNat n => roundNat n
  | .negSucc n => -roundNat (n + 1)

/-- Natural numbers that need no more than 53 bits but for zeros at their end. -/
def Representable : Prop := ∃ digits exponent, digits ≤ 2 ^ 53 ∧ n = digits * 2 ^ exponent

theorem float64Unit_pos : 0 < float64Unit n := Nat.two_pow_pos _

theorem div_float64Unit_lt : n / float64Unit n < 2 ^ 53 := by
  rw [Nat.div_lt_iff_lt_mul (float64Unit_pos n), float64Unit, ← Nat.pow_add]
  exact Nat.lt_of_lt_of_le Nat.lt_log2_self (Nat.pow_le_pow_right Nat.two_pos (by omega))

theorem representable_roundNat : Representable (roundNat n) := by
  have few := div_float64Unit_lt n
  rw [roundNat]
  split_ifs
  · exact ⟨_, _, few, rfl⟩
  · exact ⟨_, _, few.le, rfl⟩

theorem roundNat_le_next : roundNat n ≤ (n / float64Unit n + 1) * float64Unit n := by
  rw [roundNat]
  split_ifs
  · exact Nat.le_refl _
  · exact Nat.mul_le_mul_right _ (Nat.le_succ _)

theorem previous_le_roundNat : n / float64Unit n * float64Unit n ≤ roundNat n := by
  rw [roundNat]
  split_ifs
  · exact Nat.mul_le_mul_right _ (Nat.le_succ _)
  · exact Nat.le_refl _

theorem roundNat_eq_self {n : Nat} (multiple : float64Unit n ∣ n) : roundNat n = n := by
  have unit := float64Unit_pos n
  have exact : n % float64Unit n = 0 := Nat.mod_eq_zero_of_dvd multiple
  rw [roundNat]
  rw [if_neg (by omega), Nat.div_mul_cancel multiple]

variable {bound : Nat}

/-- A representable number is a multiple of the unit of a number, or no larger than the power of two that the number
begins with. -/
theorem Representable.dvd_or_le (represented : Representable bound) (n : Nat) :
    float64Unit n ∣ bound ∨ n ≠ 0 ∧ bound ≤ 2 ^ n.log2 := by
  obtain ⟨digits, exponent, few, rfl⟩ := represented
  by_cases coarse : n.log2 - 52 ≤ exponent
  · exact .inl (Dvd.dvd.mul_left (Nat.pow_dvd_pow 2 coarse) digits)
  · refine .inr ⟨?_, ?_⟩
    · rintro rfl
      exact coarse (Nat.zero_le _)
    · calc digits * 2 ^ exponent ≤ 2 ^ 53 * 2 ^ exponent := Nat.mul_le_mul_right _ few
        _ = 2 ^ (53 + exponent) := (Nat.pow_add 2 53 exponent).symm
        _ ≤ 2 ^ n.log2 := Nat.pow_le_pow_right Nat.two_pos (by omega)

theorem float64Unit_dvd {n : Nat} (represented : Representable bound) (upTo : n ≤ bound) : float64Unit n ∣ bound := by
  rcases represented.dvd_or_le n with multiple | ⟨positive, small⟩
  · exact multiple
  · rw [Nat.le_antisymm small ((Nat.log2_self_le positive).trans upTo)]
    exact Nat.pow_dvd_pow 2 (Nat.sub_le _ _)

theorem roundNat_le {n : Nat} (represented : Representable bound) (upTo : n ≤ bound) : roundNat n ≤ bound := by
  have multiple := float64Unit_dvd represented upTo
  rcases Nat.eq_or_lt_of_le upTo with rfl | below
  · exact (roundNat_eq_self multiple).le
  · obtain ⟨quotient, rfl⟩ := multiple
    refine (roundNat_le_next n).trans ?_
    rw [Nat.mul_comm (float64Unit n)]
    refine Nat.mul_le_mul_right _ ?_
    exact (Nat.div_lt_iff_lt_mul (float64Unit_pos n)).mpr (by rwa [Nat.mul_comm])

theorem le_roundNat {n : Nat} (represented : Representable bound) (beyond : bound ≤ n) : bound ≤ roundNat n := by
  refine le_trans ?_ (previous_le_roundNat n)
  rcases represented.dvd_or_le n with multiple | ⟨positive, small⟩
  · rw [← Nat.div_mul_cancel multiple]
    exact Nat.mul_le_mul_right _ (Nat.div_le_div_right beyond)
  · have multiple : float64Unit n ∣ 2 ^ n.log2 := Nat.pow_dvd_pow 2 (Nat.sub_le _ _)
    calc bound ≤ 2 ^ n.log2 := small
      _ = 2 ^ n.log2 / float64Unit n * float64Unit n := (Nat.div_mul_cancel multiple).symm
      _ ≤ n / float64Unit n * float64Unit n := Nat.mul_le_mul_right _ (Nat.div_le_div_right (Nat.log2_self_le positive))

theorem float64_neg (n : Int) : float64 (-n) = -float64 n := by
  cases n with
  | ofNat n =>
    cases n with
    | zero | succ n => rfl
  | negSucc n => exact (neg_neg _).symm

/-- Integers that a 64-bit float holds as they are. -/
def Held (n : Int) : Prop := Representable n.natAbs

theorem held_float64 (n : Int) : Held (float64 n) := by
  cases n with
  | ofNat n => exact representable_roundNat n
  | negSucc n =>
    change Representable (-(roundNat (n + 1) : Int)).natAbs
    rw [Int.natAbs_neg]
    exact representable_roundNat (n + 1)

theorem float64_le {n bound : Int} (held : Held bound) (upTo : n ≤ bound) : float64 n ≤ bound := by
  cases n with
  | ofNat n =>
    change (n : Int) ≤ bound at upTo
    have rounded := roundNat_le held (n := n) (by omega)
    change (roundNat n : Int) ≤ bound
    omega
  | negSucc n =>
    change -(roundNat (n + 1) : Int) ≤ bound
    by_cases negative : bound < 0
    · have rounded := le_roundNat held (n := n + 1) (by omega)
      omega
    · omega

theorem le_float64 {n bound : Int} (held : Held bound) (beyond : bound ≤ n) : bound ≤ float64 n := by
  have mirrored := @float64_le (-n) (-bound) (by rwa [Held, Int.natAbs_neg]) (by omega)
  rw [float64_neg] at mirrored
  omega

theorem float64_eq_self {n : Int} (held : Held n) : float64 n = n :=
  le_antisymm (float64_le held le_rfl) (le_float64 held le_rfl)

theorem held_of_natAbs_le {n : Int} (few : n.natAbs ≤ 2 ^ 53) : Held n := ⟨n.natAbs, 0, few, by omega⟩

end SecurityFabric
