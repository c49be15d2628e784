import Preopt.Settings.Value

/-! Keys as paths: a name, then further names behind dots and indices in brackets, as in
`targets[0].arch`. A key that is no path stands for itself. -/

namespace Preopt.Settings
namespace KeyPath

open Value (Step)

def isName (c : Char) : Bool := c.isAlphanum || c == '_' || c == '-'

def isBlank (c : Char) : Bool := c == ' ' || c == '\t'

def index? (cs : List Char) : Option (Int × List Char) :=
  let cs := cs.dropWhile isBlank
  let (negative, cs) := match cs with
    | '-' :: rest => (true, rest)
    | _ => (false, cs)
  let digits := cs.takeWhile Char.isDigit
  let n : Int := Decimal.digitsValue digits
  let n := if negative then -n else n
  if digits = [] ∨ n < Int64.minValue.toInt ∨ Int64.maxValue.toInt < n then none
  else some (n, (cs.dropWhile Char.isDigit).dropWhile isBlank)

/-- The steps behind a name; each takes at least two characters. -/
def steps? : (fuel : Nat) → List Char → Option (List Step)
  | _, [] => some []
  | 0, _ => none
  | fuel + 1, '.' :: cs =>
    let name := cs.takeWhile isName
    if name = [] then none
    else (steps? fuel (cs.dropWhile isName)).map (.key (String.ofList name) :: ·)
  | fuel + 1, '[' :: cs =>
    match index? cs with
    | some (i, ']' :: rest) => (steps? fuel rest).map (.index i :: ·)
    | _ => none
  | _, _ => none

def parse? (key : String) : Option (List Step) :=
  let cs := key.toList
  let name := cs.takeWhile isName
  if name = [] then none
  else (steps? cs.length (cs.dropWhile isName)).map (.key (String.ofList name) :: ·)

def ofKey (key : String) : List Step := (parse? key).getD [.key key]

end KeyPath

def Value.assign (tree : Value) (key : String) (new : Value) : Value :=
  set new (KeyPath.ofKey key) tree

end Preopt.Settings
