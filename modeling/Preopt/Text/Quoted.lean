import Preopt.Text.Unseen

/-! Text between double quotes, as messages show names. Quotes, backslashes and characters that
cannot be seen are escaped, so a quoted name shows exactly which characters it has. -/

namespace Preopt.Text

def hexDigits (upper : Bool) (n : Nat) : List Char :=
  (Nat.toDigits 16 n).map fun c => if upper then c.toUpper else c

def escaped (c : Char) : List Char :=
  if c = '"' then ['\\', '"']
  else if c = '\\' then ['\\', '\\']
  else if c = '\n' then ['\\', 'n']
  else if c = '\t' then ['\\', 't']
  else if c = '\r' then ['\\', 'r']
  else if c.toNat = 0 then ['\\', '0']
  else if c.toNat < 0x20 || unseen c then ['\\', 'u', '\x7b'] ++ hexDigits false c.toNat ++ ['\x7d']
  else [c]

def quoted (s : String) : String :=
  String.ofList ('"' :: s.toList.flatMap escaped ++ ['"'])

end Preopt.Text
