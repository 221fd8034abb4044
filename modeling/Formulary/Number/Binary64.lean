/-! # Binary64 numbers

A floating-point number as the exact value that it stands for: a sign, a whole mantissa below
`2 ^ 53` and a power of two. Every operation computes an exact fraction and rounds it once, to the
nearest number and on a tie to the even mantissa.
-/

namespace Formulary

/-- A number of the binary64 format: `mantissa * 2 ^ exponent` with a sign, or one of the values
outside the line of numbers. -/
inductive Binary64 where
  | nan
  | infinite (negative : Bool)
  | finite (negative : Bool) (mantissa : Nat) (exponent : Int)
deriving DecidableEq, Repr

namespace Binary64

/-- The least exponent, shared by zero and the smallest numbers. -/
def leastExponent : Int := -1074

/-- The greatest exponent of a finite number. -/
def greatestExponent : Int := 971

def zero (negative : Bool) : Binary64 := .finite negative 0 leastExponent

/-- The fraction `num / den` divided by `2 ^ e`, again as a fraction. -/
def scale (num den : Nat) (e : Int) : Nat × Nat :=
  if 0 ≤ e then (num, den * Nat.pow 2 e.toNat) else (num * Nat.pow 2 (-e).toNat, den)

/-- The whole number nearest to `num / den`; a tie goes to the even one. -/
def nearest (num den : Nat) : Nat :=
  let q := num / den
  let r := num % den
  if 2 * r < den then q
  else if den < 2 * r then q + 1
  else if q % 2 = 0 then q else q + 1

/-- The exponent at which the mantissa of `num / den` has 53 bits, or the least one. -/
def exponentFor (num den : Nat) : Int :=
  let e : Int := (num.log2 : Int) - (den.log2 : Int) - 53
  let s := scale num den e
  max leastExponent (if Nat.pow 2 53 * s.2 ≤ s.1 then e + 1 else e)

/-- The number nearest to the fraction `num / den`. -/
def ofRatio (negative : Bool) (num den : Nat) : Binary64 :=
  if num = 0 then zero negative
  else
    let e := exponentFor num den
    let s := scale num den e
    let m := nearest s.1 s.2
    let me := if m = Nat.pow 2 53 then (Nat.pow 2 52, e + 1) else (m, e)
    if greatestExponent < me.2 then .infinite negative else .finite negative me.1 me.2

/-- The number of decimal digits of a whole number. -/
def decimalLength (n : Nat) : Nat := (Nat.toDigits 10 n).length

/-- The number nearest to `digits * 10 ^ exponent`. Far outside the range of the format the answer
is known from the number of digits alone. -/
def ofDecimal (negative : Bool) (digits : Nat) (exponent : Int) : Binary64 :=
  let size := (decimalLength digits : Int) + exponent
  if digits = 0 || size < -330 then zero negative
  else if 310 < size then .infinite negative
  else if 0 ≤ exponent then ofRatio negative (digits * Nat.pow 10 exponent.toNat) 1
  else ofRatio negative digits (Nat.pow 10 (-exponent).toNat)

/-- The size of `mantissa * 2 ^ exponent` as a fraction. -/
def ratio (mantissa : Nat) (exponent : Int) : Nat × Nat :=
  if 0 ≤ exponent then (mantissa * Nat.pow 2 exponent.toNat, 1)
  else (mantissa, Nat.pow 2 (-exponent).toNat)

def negate : Binary64 → Binary64
  | .nan => .nan
  | .infinite n => .infinite (!n)
  | .finite n m e => .finite (!n) m e

/-- The number nearest to a natural number; `none` beyond the finite numbers. -/
def ofNat? (n : Nat) : Option Binary64 :=
  match ofRatio false n 1 with
  | .infinite _ => none
  | x => some x

/-- The product of two numbers. -/
def mul (x y : Binary64) : Binary64 :=
  match x, y with
  | .nan, _ => .nan
  | _, .nan => .nan
  | .infinite a, .infinite b => .infinite (a != b)
  | .infinite a, .finite b m _ => if m = 0 then .nan else .infinite (a != b)
  | .finite a m _, .infinite b => if m = 0 then .nan else .infinite (a != b)
  | .finite a m e, .finite b n f =>
    let p := ratio m e
    let q := ratio n f
    ofRatio (a != b) (p.1 * q.1) (p.2 * q.2)

/-- The sum of two numbers. -/
def add (x y : Binary64) : Binary64 :=
  match x, y with
  | .nan, _ => .nan
  | _, .nan => .nan
  | .infinite a, .infinite b => if a = b then .infinite a else .nan
  | .infinite a, .finite .. => .infinite a
  | .finite .., .infinite b => .infinite b
  | .finite a m e, .finite b n f =>
    let p := ratio m e
    let q := ratio n f
    let u : Int := (p.1 * q.2 : Nat) * (if a then -1 else 1)
    let v : Int := (q.1 * p.2 : Nat) * (if b then -1 else 1)
    let s := u + v
    if s = 0 then zero (a && b) else ofRatio (decide (s < 0)) s.natAbs (p.2 * q.2)

/-- Whether the number is zero of either sign. -/
def isZero : Binary64 → Bool
  | .finite _ 0 _ => true
  | _ => false

/-- Whether the number is equal to a whole number. -/
def eqInt (x : Binary64) (i : Int) : Bool :=
  match x with
  | .finite n m e =>
    let r := ratio m e
    decide (((r.1 : Int) * (if n then -1 else 1)) = i * (r.2 : Int))
  | _ => false

/-- Equality of numbers: the two zeros are equal and a `nan` is equal to nothing. -/
def same (x y : Binary64) : Bool :=
  match x with
  | .nan => false
  | x => (x.isZero && y.isZero) || x == y

end Binary64

end Formulary
