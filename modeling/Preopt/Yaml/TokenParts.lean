import Preopt.Yaml.Scalar

/-! Pieces of tokens that both YAML versions write alike: handles, percent escapes, version numbers.
-/

namespace Preopt.Yaml

def chars (s : List Placed) : List Char := s.map (·.char)

def word (s : List Placed) : List Char × List Placed :=
  (chars (s.takeWhile (isWord ·.char)), s.dropWhile (isWord ·.char))

def handle (s : List Placed) : Except Fault (List Char × List Placed) :=
  if (peek s 0).char = '!' then
    let (name, rest) := word (s.drop 1)
    if (peek rest 0).char = '!' then .ok ('!' :: name ++ ['!'], rest.drop 1)
    else .ok ('!' :: name, rest)
  else fault s "handle expected"

def isHandle (cs : List Char) : Bool := 2 ≤ cs.length && cs.getLast? == some '!'

def width? (lead : Nat) : Option Nat :=
  if lead < 0x80 then some 1
  else if lead / 0x20 = 6 then some 2
  else if lead / 0x10 = 14 then some 3
  else if lead / 0x08 = 30 then some 4
  else none

/-- Replaces percent escapes, with `decode` giving the character of some bytes. The bytes of one
character come one after the other; `missing` of them are still to come. -/
def unescapePercent (decode : List Nat → Option Char) :
    (missing : Nat) → (bytes : List Nat) → List Char → Option (List Char)
  | 0, _, [] => some []
  | _ + 1, _, [] => none
  | missing, bytes, '%' :: a :: b :: rest => do
    let byte := 16 * (← digit? 16 a) + (← digit? 16 b)
    match missing with
    | 0 =>
      let width ← width? byte
      if width = 1 then return (← decode [byte]) :: (← unescapePercent decode 0 [] rest)
      else unescapePercent decode (width - 1) [byte] rest
    | more + 1 =>
      if byte / 0x40 ≠ 2 then none
      else if more = 0 then
        return (← decode (bytes ++ [byte])) :: (← unescapePercent decode 0 [] rest)
      else unescapePercent decode more (bytes ++ [byte]) rest
  | 0, _, c :: rest => if c = '%' then none else do return c :: (← unescapePercent decode 0 [] rest)
  | _ + 1, _, _ :: _ => none

def uri (decode : List Nat → Option Char) (allowed : Char → Bool) (s : List Placed) :
    Except Fault (List Char × List Placed) :=
  match unescapePercent decode 0 [] (chars (s.takeWhile (allowed ·.char))) with
  | some text => .ok (text, s.dropWhile (allowed ·.char))
  | none => fault s "malformed percent escape"

def versionNumber (s : List Placed) : Except Fault (Nat × List Placed) :=
  let digits := chars (s.takeWhile (·.char.isDigit))
  if digits = [] ∨ 9 < digits.length then fault s "version number expected"
  else .ok (digits.foldl (fun n c => 10 * n + (c.toNat - '0'.toNat)) 0, s.drop digits.length)

def skipBlanks (s : List Placed) : List Placed := s.dropWhile (·.isBlank)

def skipToBreak (s : List Placed) : List Placed := s.dropWhile fun p => !p.isBreakOrEnd

def skipBreak (s : List Placed) : List Placed := if (peek s 0).isBreak then s.drop 1 else s

def versionDirective (s : List Placed) : Except Fault (Token × List Placed) := do
  let (major, s) ← versionNumber (skipBlanks s)
  if (peek s 0).char ≠ '.' then fault s "version expected"
  else
    let (minor, s) ← versionNumber (s.drop 1)
    return (.version major minor, s)

end Preopt.Yaml
