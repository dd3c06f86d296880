import HeroPage.Decimal.Binary
set_option autoImplicit false

/-! The decimal of a double has the fewest digits that still round to it: of the grids `10 ^ k`, from coarse
to fine, the first with a point in the interval of the double gives the digits. If no grid of the search
has one, the exact expansion is taken: `2 ^ (-n) = 5 ^ n / 10 ^ n`. -/

namespace HeroPage.Decimal

/-- Which neighbour a value half way between two is rounded to. -/
inductive Tie where
  | up
  | toEven
  deriving DecidableEq

structure Digits where
  digits : Nat
  exponent : Int
  deriving DecidableEq

namespace Binary

/-- One step of the grid `10 ^ k`, in a unit that makes it and `b.quarter k` whole. -/
def gridStep (b : Binary) (k : Int) : Nat := Nat.pow 10 k.toNat * Nat.pow 2 (2 - b.exponent).toNat

/-- A quarter of `2 ^ b.exponent`, in the unit of `b.gridStep k`. -/
def quarter (b : Binary) (k : Int) : Nat := Nat.pow 2 (b.exponent - 2).toNat * Nat.pow 10 (-k).toNat

theorem gridStep_pos (b : Binary) (k : Int) : 0 < b.gridStep k :=
  Nat.mul_pos (Nat.pow_pos (by decide)) (Nat.two_pow_pos _)

theorem quarter_pos (b : Binary) (k : Int) : 0 < b.quarter k :=
  Nat.mul_pos (Nat.two_pow_pos _) (Nat.pow_pos (by decide))

/-- Whether the point `d · 10 ^ k` rounds to `b`. -/
def holds (b : Binary) (k : Int) (d : Nat) : Bool :=
  let point := d * b.gridStep k
  if b.significand % 2 = 0 then
    decide (b.low * b.quarter k ≤ point ∧ point ≤ b.high * b.quarter k)
  else decide (b.low * b.quarter k < point ∧ point < b.high * b.quarter k)

def below (b : Binary) (k : Int) : Nat := 4 * b.significand * b.quarter k / b.gridStep k

def excess (b : Binary) (k : Int) : Nat := 4 * b.significand * b.quarter k % b.gridStep k

def nearest (tie : Tie) (b : Binary) (k : Int) : Nat :=
  let d := b.below k
  if 2 * b.excess k < b.gridStep k then d
  else if b.gridStep k < 2 * b.excess k then d + 1
  else match tie with
    | .up => d + 1
    | .toEven => if d % 2 = 0 then d else d + 1

theorem nearest_eq (tie : Tie) (b : Binary) (k : Int) :
    b.nearest tie k = b.below k ∨ b.nearest tie k = b.below k + 1 := by
  unfold nearest
  dsimp only
  split
  · exact .inl rfl
  · split
    · exact .inr rfl
    · cases tie
      · exact .inr rfl
      · dsimp only; split
        · exact .inl rfl
        · exact .inr rfl

/-- The point of the grid `10 ^ k` that stands for `b`, if the grid has one in its interval. -/
def onGrid (tie : Tie) (b : Binary) (k : Int) : Option Digits :=
  let d := b.below k
  match b.holds k d, b.holds k (d + 1) with
  | true, true => some ⟨b.nearest tie k, k⟩
  | true, false => some ⟨d, k⟩
  | false, true => some ⟨d + 1, k⟩
  | false, false => none

theorem holds_of_onGrid {tie : Tie} {b : Binary} {k : Int} {d : Digits}
    (h : b.onGrid tie k = some d) : d.exponent = k ∧ b.holds k d.digits = true := by
  unfold onGrid at h
  dsimp only at h
  split at h
  · next h₀ h₁ =>
    cases h
    rcases nearest_eq tie b k with e | e <;> exact ⟨rfl, by dsimp only; rw [e]; assumption⟩
  · next h₀ h₁ => cases h; exact ⟨rfl, h₀⟩
  · next h₀ h₁ => cases h; exact ⟨rfl, h₁⟩
  · cases h

/-- An exponent with `10 ^ b.top` above the interval of `b`: the interval lies below
`2 ^ (log2 + 1 + exponent)`, and `0.30103` is a little more than the logarithm of two. -/
def top (b : Binary) : Int := ((b.significand.log2 + 1 : Nat) + b.exponent) * 30103 / 100000 + 1

def exact (b : Binary) : Digits :=
  if b.exponent < 0 then ⟨b.significand * Nat.pow 5 (-b.exponent).toNat, b.exponent⟩
  else ⟨b.significand * Nat.pow 2 b.exponent.toNat, 0⟩

/-- The shortest digits of `b`: seventeen always suffice, and the first grids may be too coarse
for a single one. -/
def shortest (tie : Tie) (b : Binary) : Digits :=
  ((List.range 20).findSome? fun n : Nat => b.onGrid tie (b.top - n)).getD b.exact

end Binary

end HeroPage.Decimal
