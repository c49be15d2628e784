import Preopt.Number.Binary64

/-! Decimal numerals: reading them, and writing a double in the fewest digits that read back as it,
the nearest such digits, without an exponent. -/

namespace Preopt

structure Decimal where
  negative : Bool
  digits : Nat
  exponent : Int
  deriving DecidableEq, Repr

namespace Decimal

def digitsValue (ds : List Char) : Nat := ds.foldl (fun n c => 10 * n + (c.toNat - '0'.toNat)) 0

def signed (cs : List Char) : Bool × List Char :=
  match cs with
  | '-' :: rest => (true, rest)
  | '+' :: rest => (false, rest)
  | _ => (false, cs)

def exponent? (cs : List Char) : Option Int :=
  match cs with
  | [] => some 0
  | e :: rest =>
    let (negative, ds) := signed rest
    if (e = 'e' ∨ e = 'E') ∧ ds ≠ [] ∧ ds.all Char.isDigit then
      some (if negative then -(digitsValue ds : Int) else digitsValue ds)
    else none

def parse? (text : List Char) : Option Decimal :=
  let (negative, cs) := signed text
  let whole := cs.takeWhile Char.isDigit
  let (fraction, rest) :=
    match cs.dropWhile Char.isDigit with
    | '.' :: r => (r.takeWhile Char.isDigit, r.dropWhile Char.isDigit)
    | r => ([], r)
  if whole = [] ∧ fraction = [] then none
  else (exponent? rest).map fun e =>
    ⟨negative, digitsValue (whole ++ fraction), e - fraction.length⟩

def toBinary64? (d : Decimal) : Option Binary64 :=
  let size := (Nat.toDigits 10 d.digits).length + d.exponent
  if d.digits = 0 ∨ size < -400 then some .zero
  else if size > 400 then none
  else Binary64.nearest? (d.digits * Nat.pow 10 d.exponent.toNat) (Nat.pow 10 (-d.exponent).toNat)

end Decimal

namespace Binary64

/-- Of the multiples of `10 ^ t` that read back as the number, the nearest one. The ends of the
interval belong to it when the mantissa is even. -/
def onGrid? (x : Binary64) (t : Int) : Option Nat :=
  let shift := x.exponent - 2
  let a := Nat.pow 2 shift.toNat * Nat.pow 10 (-t).toNat
  let b := Nat.pow 2 (-shift).toNat * Nat.pow 10 t.toNat
  let value := 4 * x.mantissa * a
  let low := if x.mantissa = Nat.pow 2 52 ∧ x.exponent > -1074 then value - a else value - 2 * a
  let high := value + 2 * a
  let inside (c : Nat) : Bool :=
    if x.mantissa % 2 = 0 then low ≤ c * b && c * b ≤ high else low < c * b && c * b < high
  let below := value / b
  let near :=
    if value - below * b ≤ (below + 1) * b - value then [below, below + 1] else [below + 1, below]
  near.find? fun c => 0 < c && inside c

def shortest (x : Binary64) : Nat × Int :=
  let grid (i : Nat) : Int := 310 - i
  ((List.range 660).findSome? fun i => (onGrid? x (grid i)).map (·, grid i)).getD (0, 0)

def positional (digits : Nat) (t : Int) : String :=
  let ds := Nat.toDigits 10 digits
  let places := (-t).toNat
  if 0 ≤ t then String.ofList (ds ++ List.replicate t.toNat '0')
  else if places < ds.length then
    String.ofList (ds.take (ds.length - places) ++ '.' :: ds.drop (ds.length - places))
  else String.ofList ('0' :: '.' :: List.replicate (places - ds.length) '0' ++ ds)

def text (x : Binary64) : String :=
  if x.mantissa = 0 then "0" else positional x.shortest.1 x.shortest.2

end Binary64

namespace Decimal

def text (d : Decimal) : String :=
  (if d.negative then "-" else "") ++
    match d.toBinary64? with
    | some x => x.text
    | none => "inf"

end Decimal
end Preopt
