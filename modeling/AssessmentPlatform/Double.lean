import Mathlib.Algebra.Order.Ring.Rat
import Mathlib.Data.Rat.Floor

/-!
# Double-precision numbers

The numbers of a binary format with 53 significant bits, infinities and NaN.  A
finite one is the rational that it stands for; the sign of a zero is not kept.
Sums and differences are those of the rationals, rounded to the nearest number
of the format.
-/

/-- A number of double precision. -/
inductive Double where
  | finite (value : Rat)
  | infinite (negative : Bool)
  | nan
  deriving DecidableEq, Repr

namespace Double

/-! ## Rounding -/

/-- The nearest integer, the even one of two. -/
def roundHalfEven (value : Rat) : Int :=
  let below := value.floor
  let rest := value - below
  if rest < 1 / 2 then below
  else if 1 / 2 < rest then below + 1
  else if below % 2 = 0 then below else below + 1

/-- The exponent of the greatest power of two that a positive rational
reaches. -/
def exponent (value : Rat) : Int :=
  let lengths : Int := value.num.natAbs.log2 - value.den.log2
  if value < 2 ^ lengths then lengths - 1 else lengths

/-- The distance of the numbers of the format near a rational. -/
def lastPlace (value : Rat) : Rat :=
  2 ^ max (exponent |value| - 52) (-1074)

/-- Finite numbers stay below this power of two. -/
def maxExponent : Nat := 1024

/-- The number nearest to a rational: an infinity from the middle between the
greatest finite number and the next power of two on. -/
def nearest (value : Rat) : Double :=
  let rounded := roundHalfEven (value / lastPlace value) * lastPlace value
  if 2 ^ maxExponent ≤ |rounded| then .infinite (value < 0)
  else .finite rounded

/-- The number nearest to an integer. -/
def ofInt (value : Int) : Double :=
  nearest value

/-! ## Arithmetic -/

instance : Zero Double := ⟨.finite 0⟩

def neg : Double → Double
  | .finite value => .finite (-value)
  | .infinite negative => .infinite (!negative)
  | .nan => .nan

def add : Double → Double → Double
  | .finite left, .finite right => nearest (left + right)
  | .infinite left, .infinite right =>
      if left = right then .infinite left else .nan
  | .infinite negative, .finite _ | .finite _, .infinite negative =>
      .infinite negative
  | .nan, _ | _, .nan => .nan

instance : Neg Double := ⟨neg⟩

instance : Add Double := ⟨add⟩

instance : Sub Double := ⟨fun left right => left + -right⟩

/-- The rational that a finite number is. -/
def toRat : Double → Option Rat
  | .finite value => some value
  | .infinite _ | .nan => none

/-! ## Integers that are numbers of the format -/

theorem roundHalfEven_intCast (value : Int) :
    roundHalfEven value = value := by
  simp [roundHalfEven]

/-- A multiple of the distance of the numbers near it is not rounded. -/
theorem nearest_of_multiple {value : Rat} {count : Int}
    (multiple : value / lastPlace value = count)
    (bounded : |value| < 2 ^ maxExponent) :
    nearest value = .finite value := by
  have positive : (0 : Rat) < lastPlace value := Rat.zpow_pos (by decide)
  have exact : (count : Rat) * lastPlace value = value := by
    rw [← multiple, div_mul_cancel₀ _ positive.ne']
  unfold nearest
  rw [multiple, roundHalfEven_intCast, exact, if_neg (not_le.mpr bounded)]

theorem exponent_natCast {value : Nat} (nonzero : value ≠ 0) :
    exponent value = value.log2 := by
  have reached : (2 : Rat) ^ value.log2 ≤ value := by
    exact_mod_cast Nat.log2_self_le nonzero
  have unit : Nat.log2 1 = 0 := rfl
  simp [exponent, unit, reached]

/-- Every integer up to 2 to the power 53 is a number of the format. -/
theorem ofInt_of_natAbs_le {value : Int} (small : value.natAbs ≤ 2 ^ 53) :
    ofInt value = .finite value := by
  have magnitude : |(value : Rat)| = (value.natAbs : Nat) := by
    rw [Nat.cast_natAbs, Int.cast_abs]
  have larger : 2 ^ 53 < 2 ^ maxExponent :=
    Nat.pow_lt_pow_right Nat.one_lt_two (by decide)
  have bounded : |(value : Rat)| < 2 ^ maxExponent := by
    rw [magnitude]
    exact_mod_cast small.trans_lt larger
  suffices multiple : ∃ count : Int,
      (value : Rat) / lastPlace value = count by
    obtain ⟨count, multiple⟩ := multiple
    exact nearest_of_multiple multiple bounded
  by_cases zero : value = 0
  · exact ⟨0, by simp [zero]⟩
  have nonzero : value.natAbs ≠ 0 := Int.natAbs_ne_zero.mpr zero
  unfold lastPlace
  rw [magnitude, exponent_natCast nonzero]
  have reached := Nat.log2_self_le nonzero
  rcases Nat.lt_or_ge value.natAbs.log2 53 with below | atLeast
  · -- the numbers near it are no integer apart
    obtain ⟨more, isMore⟩ := Nat.exists_eq_add_of_lt below
    refine ⟨value * 2 ^ more, ?_⟩
    have place : max ((value.natAbs.log2 : Int) - 52) (-1074) = -more := by
      omega
    rw [place, Rat.zpow_neg, Rat.zpow_natCast, div_inv_eq_mul]
    push_cast
    rfl
  · -- the integer is the power of two itself, or its opposite
    have power : value.natAbs = 2 ^ 53 :=
      le_antisymm small
        ((Nat.pow_le_pow_right Nat.two_pos atLeast).trans reached)
    have length : value.natAbs.log2 = 53 := by
      rw [power]
      exact Nat.log2_two_pow
    have even : value = value / 2 * 2 := by omega
    refine ⟨value / 2, ?_⟩
    have place : max (((53 : Nat) : Int) - 52) (-1074) = 1 := rfl
    rw [length, place, Rat.zpow_one]
    nth_rewrite 1 [even]
    rw [Int.cast_mul]
    exact mul_div_cancel_right₀ _ two_ne_zero

end Double
