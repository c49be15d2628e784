/-! Double-precision numbers, written `mantissa · 2 ^ exponent`. A quotient is rounded to the
nearest of them, and to the even mantissa when two are equally near. -/

namespace Preopt

/-- The integer nearest to a quotient, the even one of two. -/
def roundHalfEven (num den : Nat) : Nat :=
  let low := num / den
  let rest := 2 * (num % den)
  if rest > den ∨ (rest = den ∧ low % 2 = 1) then low + 1 else low

structure Binary64 where
  mantissa : Nat
  exponent : Int
  deriving DecidableEq, Repr

namespace Binary64

def zero : Binary64 := ⟨0, -1074⟩

def scaled (num den : Nat) (exponent : Int) : Nat × Nat :=
  (num * Nat.pow 2 (-exponent).toNat, den * Nat.pow 2 exponent.toNat)

/-- The exponent at which a quotient has 53 bits before the point, or the least one there is. -/
def exponentOf (num den : Nat) : Int :=
  let guess : Int := (num.log2 : Int) - den.log2 - 53
  let (n, d) := scaled num den guess
  max (-1074) (if n / d < Nat.pow 2 53 then guess else guess + 1)

def nearest? (num den : Nat) : Option Binary64 :=
  if num = 0 then some zero
  else
    let exponent := exponentOf num den
    let (n, d) := scaled num den exponent
    let mantissa := roundHalfEven n d
    let r : Binary64 :=
      if mantissa = Nat.pow 2 53 then ⟨Nat.pow 2 52, exponent + 1⟩ else ⟨mantissa, exponent⟩
    if r.exponent > 971 then none else some r

def ofNat (n : Nat) : Binary64 := (nearest? n 1).getD zero

def div (x y : Binary64) : Binary64 :=
  let shift := x.exponent - y.exponent
  (nearest? (x.mantissa * Nat.pow 2 shift.toNat) (y.mantissa * Nat.pow 2 (-shift).toNat)).getD zero

def timesNat (x : Binary64) (k : Nat) : Binary64 :=
  (nearest? (x.mantissa * k * Nat.pow 2 x.exponent.toNat) (Nat.pow 2 (-x.exponent).toNat)).getD zero

def round (x : Binary64) : Nat :=
  roundHalfEven (x.mantissa * Nat.pow 2 x.exponent.toNat) (Nat.pow 2 (-x.exponent).toNat)

def bits (x : Binary64) : Nat :=
  if x.mantissa < Nat.pow 2 52 then x.mantissa
  else (x.exponent + 1075).toNat * Nat.pow 2 52 + (x.mantissa - Nat.pow 2 52)

end Binary64
end Preopt
