import LicenseStamp.Decimal.Dyadic
import LicenseStamp.Text.Basic

/-! # The shortest decimal of a binary number

Of the decimals that are nearer to a number than to its neighbours, the one with the
fewest digits stands for it, and of several such the nearest.
-/

namespace LicenseStamp.Dyadic

/-- The decimal `digits * 10 ^ exponent`. -/
structure Decimal where
  /-- The digits as one number -/
  digits : Nat
  /-- The power of ten of the last digit -/
  exponent : Int
  deriving Repr, DecidableEq

/-- A power of ten as numerator and denominator. -/
def powerOfTen (exponent : Int) : Nat × Nat :=
  if 0 ≤ exponent then (Nat.pow 10 exponent.toNat, 1) else (1, Nat.pow 10 (-exponent).toNat)

/-- The power of ten of the leading digit. -/
def leadingPower (x : Dyadic) : Int :=
  if x.den ≤ x.num then (Nat.toDigits 10 (x.num / x.den)).length - 1
  else
    match (List.range 400).find? fun places => x.den ≤ x.num * Nat.pow 10 places with
    | some places => -places
    | none => 0

/-- Whether a decimal reads back as the number: it lies between the midpoints to the two
    neighbours, which themselves belong to the even mantissa. The neighbour below a power
    of two is only half as far. -/
def readsBack (x : Dyadic) (d : Decimal) : Bool :=
  let value := 4 * d.digits * (powerOfTen d.exponent).1 * x.den
  let unit := (powerOfTen d.exponent).2 * (power x.exponent).1
  let low := (4 * x.mantissa - if x.mantissa = Nat.pow 2 52 then 1 else 2) * unit
  let high := (4 * x.mantissa + 2) * unit
  if x.mantissa % 2 = 0 then low ≤ value && value ≤ high else low < value && value < high

/-- The nearest decimal on the grid of one power of ten that reads back. -/
def onGrid? (x : Dyadic) (exponent : Int) : Option Decimal :=
  let num := x.num * (powerOfTen exponent).2
  let den := x.den * (powerOfTen exponent).1
  let below : Decimal := ⟨num / den, exponent⟩
  let above : Decimal := ⟨num / den + 1, exponent⟩
  match x.readsBack below, x.readsBack above with
  | true, true => some ⟨roundDiv num den, exponent⟩
  | true, false => some below
  | false, true => some above
  | false, false => none

/-- A decimal without zeros at its end; `fuel` bounds their number. -/
def Decimal.trim : Nat → Decimal → Decimal
  | 0, d => d
  | fuel + 1, d =>
    if d.digits ≠ 0 ∧ d.digits % 10 = 0 then Decimal.trim fuel ⟨d.digits / 10, d.exponent + 1⟩
    else d

/-- The shortest decimal that reads back; seventeen digits always do. -/
def shortest (x : Dyadic) : Decimal :=
  let lead := x.leadingPower
  match (List.range 17).findSome? fun (more : Nat) => x.onGrid? (lead - more) with
  | some d => d.trim 17
  | none => ⟨0, 0⟩

/-- A run of zeros. -/
def zeros (n : Nat) : Text := List.replicate n '0'

/-- A decimal for a machine: positional with a fraction from `0.00001` up to sixteen places
    before the point, else with an exponent. -/
def Decimal.text (d : Decimal) : Text :=
  let digits := Text.ofNat d.digits
  let point : Int := digits.length + d.exponent
  if 0 ≤ d.exponent ∧ point ≤ 16 then digits ++ zeros d.exponent.toNat ++ ['.', '0']
  else if 0 < point ∧ point ≤ 16 then
    digits.take point.toNat ++ '.' :: digits.drop point.toNat
  else if -5 < point ∧ point ≤ 0 then ['0', '.'] ++ zeros (-point).toNat ++ digits
  else
    let power := point - 1
    let mark : Text := if power < 0 then ['e', '-'] else ['e', '+']
    let lead := if digits.length = 1 then digits else digits.take 1 ++ '.' :: digits.drop 1
    lead ++ mark ++ Text.ofNat power.natAbs

/-- The text of a number in a report file. -/
def text (x : Dyadic) : Text := if x.mantissa = 0 then ['0', '.', '0'] else x.shortest.text

end LicenseStamp.Dyadic
