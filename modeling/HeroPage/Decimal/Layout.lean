import HeroPage.Decimal.Shortest
set_option autoImplicit false

namespace HeroPage.Decimal

structure Layout where
  /-- Where a double half way between two shortest decimals goes. -/
  tie : Tie
  /-- The exponents of a leading digit that are written in place. -/
  inPlace : Int → Bool
  whole : List Char
  infinite : Bool → List Char
  nan : List Char

def numeral (n : Nat) : List Char := Nat.toDigits 10 n

namespace Digits

def leading (d : Digits) : Int := (numeral d.digits).length + d.exponent - 1

def inPlace (d : Digits) (whole : List Char) : List Char :=
  let ds := numeral d.digits
  let point := (ds.length : Int) + d.exponent
  if 0 ≤ d.exponent then ds ++ List.replicate d.exponent.toNat '0' ++ whole
  else if 0 < point then ds.take point.toNat ++ '.' :: ds.drop point.toNat
  else '0' :: '.' :: (List.replicate (-point).toNat '0' ++ ds)

def withExponent (d : Digits) : List Char :=
  let e := d.leading
  let sign := if e < 0 then '-' else '+'
  match numeral d.digits with
  | [] => []
  | [c] => c :: 'e' :: sign :: numeral e.natAbs
  | c :: cs => c :: '.' :: (cs ++ 'e' :: sign :: numeral e.natAbs)

end Digits

namespace Layout

def signed (negative : Bool) (text : List Char) : List Char :=
  if negative then '-' :: text else text

def characters (l : Layout) : Double → List Char
  | .nan => l.nan
  | .infinite negative => l.infinite negative
  | .zero negative => signed negative ('0' :: l.whole)
  | .finite negative b =>
    let d := b.shortest l.tie
    signed negative (if l.inPlace d.leading then d.inPlace l.whole else d.withExponent)

def text (l : Layout) (x : Float) : String := String.ofList (l.characters (Double.ofFloat x))

end Layout

/-- Numbers in a style sheet and in messages have every digit in its place, whatever their size,
and no fraction if they are whole. -/
def plain : Layout where
  tie := .up
  inPlace := fun _ => true
  whole := []
  infinite := fun negative => if negative then "-inf".toList else "inf".toList
  nan := "NaN".toList

/-- Numbers in JSON have at least one digit of fraction; below `10 ^ (-5)` and from `10 ^ 16` on
they are written with an exponent. There is no JSON number for an infinity or a NaN. -/
def json : Layout where
  tie := .toEven
  inPlace := fun e => decide (-5 ≤ e ∧ e < 16)
  whole := ".0".toList
  infinite := fun _ => "null".toList
  nan := "null".toList

example : plain.text 1e22 = "10000000000000000000000" ∧ json.text 1e22 = "1e+22" := by
  decide +kernel

example : json.text 9007199254740993e0 = "9007199254740992.0" ∧ plain.text 20 = "20" := by
  decide +kernel

example : json.text 0.00001 = "0.00001" ∧ json.text 0.000001 = "1e-6" := by decide +kernel

example : plain.text 2.98023223876953125e-8 = "0.000000029802322387695313" ∧
    json.text 2.98023223876953125e-8 = "2.9802322387695312e-8" := by decide +kernel

end HeroPage.Decimal
