import Mathlib
import VcmpLua.Model.Lua.Tables

/-! # The value of a number

The bindings compare a number and cut it to an integer by its numerator over a power of two; here a
finite number is a rational.
-/

namespace VcmpLua.Spec

open VcmpLua.Model.Lua

def valueOf : Number → Option ℚ
  | .integer value => some value
  | .finite negative mantissa exponent => some ((if negative then -1 else 1) * mantissa * 2 ^ exponent)
  | _ => none

theorem ratio?_spec {number : Number} {negative : Bool} {num den : ℕ} (finite : number.ratio? = some (negative, num, den)) :
    (∃ k, den = 2 ^ k) ∧ valueOf number = some ((if negative then -1 else 1) * (num / den : ℚ)) := by
  cases number with
  | integer value =>
    simp only [Number.ratio?, Option.some.injEq, Prod.mk.injEq] at finite
    obtain ⟨rfl, rfl, rfl⟩ := finite
    refine ⟨⟨0, rfl⟩, ?_⟩
    rw [valueOf, Nat.cast_one, div_one, Nat.cast_natAbs]
    by_cases less : value < 0
    · rw [if_pos (decide_eq_true less), abs_of_neg less]
      simp
    · rw [if_neg (by simpa using less), abs_of_nonneg (not_lt.mp less), one_mul]
  | finite negative mantissa exponent =>
    simp only [Number.ratio?, Option.some.injEq, Prod.mk.injEq] at finite
    obtain ⟨rfl, rfl, rfl⟩ := finite
    refine ⟨⟨_, rfl⟩, ?_⟩
    have power : (2 : ℚ) ^ exponent = 2 ^ exponent.toNat / 2 ^ (-exponent).toNat := by
      rw [← zpow_natCast, ← zpow_natCast, ← zpow_sub₀ two_ne_zero]
      congr 1
      omega
    rw [valueOf, power]
    push_cast
    ring_nf
  | _ => cases finite

theorem ratio?_none {number : Number} (infinite : number.ratio? = none) : valueOf number = none := by
  cases number with
  | integer value => cases infinite
  | finite negative mantissa exponent => cases infinite
  | _ => rfl

theorem exists_ratio {number : Number} {value : ℚ} (held : valueOf number = some value) :
    ∃ negative num k, number.ratio? = some (negative, num, 2 ^ k) ∧
      value = (if negative then -1 else 1) * (num / 2 ^ k : ℚ) := by
  cases ratio : number.ratio? with
  | none =>
    rw [ratio?_none ratio] at held
    cases held
  | some parts =>
    obtain ⟨negative, num, den⟩ := parts
    obtain ⟨⟨k, rfl⟩, same⟩ := ratio?_spec ratio
    rw [held, Option.some.injEq] at same
    refine ⟨negative, num, k, rfl, ?_⟩
    rw [same]
    push_cast
    rfl

theorem cast_quotient (negative : Bool) {num k : ℕ} (whole : 2 ^ k ∣ num) :
    (((if negative then -1 else 1) * (num / 2 ^ k : ℕ) : ℤ) : ℚ) = (if negative then -1 else 1) * (num / 2 ^ k : ℚ) := by
  rw [Int.cast_mul, Int.cast_natCast, Nat.cast_div whole (by positivity), Nat.cast_pow, Nat.cast_ofNat]
  cases negative <;> simp

/-- The numbers that C++ takes for integers. -/
theorem integer?_eq_some {number : Number} {value : ℤ} :
    number.integer? = some value ↔ valueOf number = some (value : ℚ) ∧ -2 ^ 63 ≤ value ∧ value < 2 ^ 63 := by
  constructor
  · intro integral
    obtain ⟨⟨negative, num, den⟩, finite, cut⟩ := Option.bind_eq_some_iff.mp integral
    obtain ⟨⟨k, rfl⟩, same⟩ := ratio?_spec finite
    simp only [Option.ite_none_right_eq_some, Option.some.injEq] at cut
    obtain ⟨⟨whole, low, high⟩, rfl⟩ := cut
    refine ⟨?_, low, high⟩
    rw [same, cast_quotient negative (Nat.dvd_of_mod_eq_zero whole), Nat.cast_pow, Nat.cast_ofNat]
  · rintro ⟨held, low, high⟩
    obtain ⟨negative, num, k, finite, same⟩ := exists_ratio held
    have den : (0 : ℚ) < 2 ^ k := by positivity
    have product : value * 2 ^ k = (if negative then -1 else 1) * (num : ℤ) := by
      rw [← mul_div_assoc, eq_div_iff den.ne'] at same
      exact_mod_cast same
    have whole : 2 ^ k ∣ num := by
      have sizes := congrArg Int.natAbs product
      rw [Int.natAbs_mul, Int.natAbs_mul, Int.natAbs_pow, Int.natAbs_natCast] at sizes
      refine ⟨value.natAbs, ?_⟩
      rw [Nat.mul_comm]
      cases negative <;> simpa using sizes.symm
    have sign : (if negative then -1 else 1) * ((num / 2 ^ k : ℕ) : ℤ) = value := by
      rw [← cast_quotient negative whole, Int.cast_inj] at same
      exact same.symm
    rw [Number.integer?, finite, Option.bind_some]
    simp only
    rw [sign, if_pos ⟨Nat.mod_eq_zero_of_dvd whole, low, high⟩]

end VcmpLua.Spec
