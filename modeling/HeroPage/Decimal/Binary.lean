set_option autoImplicit false

/-! The reals that round to a double reach half way to each neighbour. Counted in quarters of
`2 ^ exponent` the double is at `4 · significand`, its interval ends two quarters above and two below, or
one below where the neighbour beneath has the next smaller exponent. An end of the interval rounds to
the double exactly when the significand is even. -/

namespace HeroPage.Decimal

/-- A positive finite double, `significand · 2 ^ exponent`. `narrow` says that the neighbour below
is only half as far away as the one above. -/
structure Binary where
  significand : Nat
  exponent : Int
  narrow : Bool
  deriving DecidableEq

namespace Binary

def low (b : Binary) : Nat := 4 * b.significand - (if b.narrow then 1 else 2)

def high (b : Binary) : Nat := 4 * b.significand + 2

theorem low_le_centre (b : Binary) : b.low ≤ 4 * b.significand := Nat.sub_le _ _

def ceil (b : Binary) : Nat :=
  if b.exponent < 0 then
    (b.significand + (Nat.pow 2 (-b.exponent).toNat - 1)) / Nat.pow 2 (-b.exponent).toNat
  else b.significand * Nat.pow 2 b.exponent.toNat

theorem ceil_of_nonneg {b : Binary} (h : 0 ≤ b.exponent) :
    b.ceil = b.significand * Nat.pow 2 b.exponent.toNat := by
  rw [ceil, if_neg (Int.not_lt.2 h)]

end Binary

inductive Double where
  | nan
  | infinite (negative : Bool)
  | zero (negative : Bool)
  | finite (negative : Bool) (binary : Binary)
  deriving DecidableEq

namespace Double

def ofBits (bits : UInt64) : Double :=
  let negative := decide (1 <<< 63 ≤ bits.toNat)
  let field : Nat := bits.toNat >>> 52 % 1 <<< 11
  let fraction : Nat := bits.toNat % 1 <<< 52
  if field = 2047 then
    if fraction = 0 then .infinite negative else .nan
  else if field = 0 then
    if fraction = 0 then .zero negative else .finite negative ⟨fraction, -1074, false⟩
  else
    .finite negative ⟨1 <<< 52 + fraction, (field : Int) - 1075, decide (fraction = 0 ∧ 1 < field)⟩

def ofFloat (x : Float) : Double := ofBits x.toBits

end Double

end HeroPage.Decimal
