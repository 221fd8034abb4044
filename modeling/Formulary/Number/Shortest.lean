import Formulary.Number.Binary64
import Formulary.Text.Basic

/-! # The shortest decimal of a number

The decimal text of a binary64 number has the fewest digits that read back as that number, and of
those the nearest to it, and of two that are equally near the even one. `Shortest.digits` tries one
digit, then two, and so on; on each grid only the two neighbours of the number need to be tried.
-/

namespace Formulary

/-- A decimal `digits * 10 ^ exponent`. -/
structure Decimal where
  digits : Nat
  exponent : Int
deriving DecidableEq, Repr

namespace Shortest

/-- The least `k` with `num / den < 10 ^ k`, for a positive fraction. -/
def magnitude (num den : Nat) : Int :=
  let k : Int := (Binary64.decimalLength num : Int) - (Binary64.decimalLength den : Int)
  let below := if 0 ≤ k then num < den * Nat.pow 10 k.toNat else num * Nat.pow 10 (-k).toNat < den
  if below then k else k + 1

/-- The decimal with `count` digits that reads back as `m * 2 ^ e`, if there is one. -/
def atCount (m : Nat) (e : Int) (count : Nat) : Option Decimal :=
  let r := Binary64.ratio m e
  let u : Int := magnitude r.1 r.2 - (count : Int)
  let s := if 0 ≤ u then (r.1, r.2 * Nat.pow 10 u.toNat) else (r.1 * Nat.pow 10 (-u).toNat, r.2)
  let c := s.1 / s.2
  let reads (d : Nat) : Bool := Binary64.ofDecimal false d u == .finite false m e
  let twice := 2 * (s.1 % s.2)
  let near := if twice < s.2 || (twice = s.2 && c % 2 = 0) then (c, c + 1) else (c + 1, c)
  if reads near.1 then some ⟨near.1, u⟩
  else if reads near.2 then some ⟨near.2, u⟩
  else none

/-- The shortest decimal of `m * 2 ^ e`; seventeen digits always suffice. -/
def digits (m : Nat) (e : Int) : Decimal :=
  if m = 0 then ⟨0, 0⟩
  else ((List.range 17).findSome? fun n => atCount m e (n + 1)).getD ⟨0, 0⟩

end Shortest

/-- The decisions of a decimal text: between which powers of ten the digits are written without an
exponent, and the words for the values that have no digits. -/
structure DecimalStyle where
  leastPositional : Int
  endPositional : Int
  nan : Text
  infinity : Text

namespace DecimalStyle

/-- Digits `cs` of a number whose first digit stands for `10 ^ power`. -/
def layout (style : DecimalStyle) (cs : List Char) (power : Int) : Text :=
  if style.leastPositional ≤ power && power < style.endPositional then
    if power < 0 then
      "0." ++ Text.ofChars (List.replicate ((-power).toNat - 1) '0' ++ cs)
    else
      let whole := power.toNat + 1
      let padded := cs ++ List.replicate (whole - cs.length) '0'
      let fraction := padded.drop whole
      Text.ofChars (padded.take whole) ++ "." ++
        Text.ofChars (if fraction.isEmpty then ['0'] else fraction)
  else
    let exponentDigits := Nat.toDigits 10 power.natAbs
    let fraction := cs.drop 1
    Text.ofChars (cs.take 1 ++ if fraction.isEmpty then [] else '.' :: fraction) ++ "e" ++
      (if power < 0 then "-" else "+") ++
      Text.ofChars (List.replicate (2 - exponentDigits.length) '0' ++ exponentDigits)

/-- The text of a number. -/
def text (style : DecimalStyle) : Binary64 → Text
  | .nan => style.nan
  | .infinite negative => (if negative then "-" else "") ++ style.infinity
  | .finite negative m e =>
    let d := Shortest.digits m e
    let all := Nat.toDigits 10 d.digits
    let cs := (all.reverse.dropWhile (· = '0')).reverse
    let body :=
      if cs.isEmpty then style.layout ['0'] 0
      else style.layout cs ((all.length : Int) - 1 + d.exponent)
    (if negative then "-" else "") ++ body

end DecimalStyle

end Formulary
