/-! # Binary64 numbers

A number is its 64 bits. Every conversion goes through exact fractions and one rounding, to the
nearest number and from a tie to the even one, so that equality of numbers is equality of bits.
-/

namespace ClusterInventory

structure Double where
  bits : UInt64
  deriving DecidableEq, Repr, Inhabited

namespace Double

def magnitude (d : Double) : Nat := d.bits.toNat % Nat.pow 2 63

def isNegative (d : Double) : Bool := Nat.pow 2 63 ≤ d.bits.toNat

/-- The magnitude of infinity; above it are the magnitudes that are no number. -/
def infinite : Nat := 2047 * Nat.pow 2 52

def isFinite (d : Double) : Bool := d.magnitude < infinite

def isNaN (d : Double) : Bool := infinite < d.magnitude

def ofMagnitude (negative : Bool) (m : Nat) : Double :=
  ⟨UInt64.ofNat (if negative then Nat.pow 2 63 + m else m)⟩

def nan : Double := ofMagnitude false (infinite + Nat.pow 2 51)

/-- A finite magnitude is a natural number of units of `2 ^ -1074`. -/
def units (d : Double) : Nat :=
  let e := d.magnitude / Nat.pow 2 52
  let f := d.magnitude % Nat.pow 2 52
  if e = 0 then f else (f + Nat.pow 2 52) * Nat.pow 2 (e - 1)

/-- The quotient nearest to `num / den`, from a tie the even one. -/
def roundDiv (num den : Nat) : Nat :=
  let q := num / den
  let r := num % den
  if 2 * r < den ∨ (2 * r = den ∧ q % 2 = 0) then q else q + 1

/-- The magnitude nearest to `num / den`. -/
def nearest (num den : Nat) : Nat :=
  if num = 0 ∨ den = 0 then 0
  else
    let scale (q : Int) : Nat × Nat := (num * Nat.pow 2 (-q).toNat, den * Nat.pow 2 q.toNat)
    let q : Int := max ((num.log2 : Int) - den.log2 - 53) (-1074)
    let q := if Nat.pow 2 53 ≤ (scale q).1 / (scale q).2 then q + 1 else q
    min infinite ((q + 1074).toNat * Nat.pow 2 52 + roundDiv (scale q).1 (scale q).2)

/-- The count of decimal digits; zero has none. -/
def digitCount (n : Nat) : Nat := if n = 0 then 0 else (Nat.toDigits 10 n).length

/-- The magnitude nearest to `digits * 10 ^ exponent`. Exponents out of reach are not expanded. -/
def nearestDecimal (digits : Nat) (exponent : Int) : Nat :=
  let top : Int := digitCount digits + exponent
  if digits = 0 ∨ top < -400 then 0
  else if 400 < top then infinite
  else nearest (digits * Nat.pow 10 exponent.toNat) (Nat.pow 10 (-exponent).toNat)

def ofDecimal (negative : Bool) (digits : Nat) (exponent : Int) : Double :=
  ofMagnitude negative (nearestDecimal digits exponent)

def mul (a b : Double) : Double :=
  ofMagnitude (a.isNegative != b.isNegative) (nearest (a.units * b.units) (Nat.pow 2 2148))

def div (a b : Double) : Double :=
  ofMagnitude (a.isNegative != b.isNegative) (nearest a.units b.units)

/-! ## Shortest decimals -/

/-- Digits and exponent of a decimal `digits * 10 ^ exponent`. -/
structure Decimal where
  digits : Nat
  exponent : Int
  deriving DecidableEq, Repr

/-- The exponent of the first decimal place of `num / den`, counted so that 1 has place 1. -/
def leadingPlace (num den : Nat) : Int :=
  if den ≤ num then digitCount (num / den)
  else
    let e : Nat := (den.log2 - num.log2) * 30103 / 100000
    let below := (List.range 4).find? fun i => den ≤ num * Nat.pow 10 (e + i)
    1 - ((e + below.getD 4 : Nat) : Int)

/-- On the grid of `10 ^ exponent`, the neighbour of `num / den` that rounds to `m`; of two the
nearer, from a tie the even one. -/
def onGrid? (num den m : Nat) (exponent : Int) : Option Nat :=
  let n := num * Nat.pow 10 (-exponent).toNat
  let d := den * Nat.pow 10 exponent.toNat
  let low := n / d
  let reads (k : Nat) : Bool := nearestDecimal k exponent == m
  let near := roundDiv n d
  if reads near then some near
  else [low, low + 1].find? reads

/-- The decimal with the fewest digits that reads back as the magnitude of a finite number. -/
def shortest (d : Double) : Decimal :=
  if d.magnitude = 0 then ⟨0, 0⟩
  else
    let num := d.units
    let den := Nat.pow 2 1074
    let place := leadingPlace num den
    let grid (k : Nat) : Option Decimal :=
      let e := place - k
      (onGrid? num den d.magnitude e).map fun n => ⟨n, e⟩
    ((List.range 18).findSome? grid).getD ⟨num, -1074⟩

/-! ## Notation -/

/-- How a finite number is written: a whole number ends in `.0`, places `-4` to `16` are
positional, all others scientific. The mark before a positive exponent depends on the format. -/
def write (positiveExponent : String) (d : Double) : String :=
  let s := shortest d
  let trimmed := stripZeros s.digits s.exponent (digitCount s.digits)
  let text := toString trimmed.digits
  let count := text.length
  let place := (count : Int) + trimmed.exponent
  let sign := if d.isNegative then "-" else ""
  if trimmed.digits = 0 then sign ++ "0.0"
  else if 0 ≤ trimmed.exponent ∧ place ≤ 16 then
    sign ++ text ++ String.ofList (List.replicate trimmed.exponent.toNat '0') ++ ".0"
  else if 0 < place ∧ place ≤ 16 then
    sign ++ String.ofList (text.toList.take place.toNat) ++ "." ++
      String.ofList (text.toList.drop place.toNat)
  else if -5 < place ∧ place ≤ 0 then
    sign ++ "0." ++ String.ofList (List.replicate (-place).toNat '0') ++ text
  else
    let power := place - 1
    let mantissa :=
      match text.toList with
      | [] => ""
      | [c] => String.singleton c
      | c :: r => String.singleton c ++ "." ++ String.ofList r
    let mark := if power < 0 then "-" else positiveExponent
    sign ++ mantissa ++ "e" ++ mark ++ toString power.natAbs
where
  /-- Trailing zeros move into the exponent. -/
  stripZeros (digits : Nat) (exponent : Int) : Nat → Decimal
    | 0 => ⟨digits, exponent⟩
    | fuel + 1 =>
        if digits % 10 = 0 ∧ digits ≠ 0 then stripZeros (digits / 10) (exponent + 1) fuel
        else ⟨digits, exponent⟩

end Double

end ClusterInventory
