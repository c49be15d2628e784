import Preopt.Number.Decimal
import Preopt.Text.Quoted

/-! Writing YAML. Texts are written plainly where that reads back as the same text, and otherwise
between quotes or, if they have several lines, as a literal block. Lists stand flush with their key.
-/

namespace Preopt.Yaml

inductive Layout
  | text (s : String)
  | null
  | list (items : List Layout)
  | record (entries : List (String × Layout))

namespace Print

def isBreak (c : Char) : Bool := ['\n', '\r', '\u0085', '\u2028', '\u2029'].contains c

def isSpace (c : Char) : Bool := c == ' ' || c == '\t' || isBreak c || c == '\x00'

def isPrintable (c : Char) : Bool :=
  c == '\n' || (' ' ≤ c && c ≤ '~') || ('\u00a0' ≤ c && c ≤ '\ufffd' && c != '\ufeff') ||
    0xffff < c.toNat

def digitsIn? (base : Nat) (cs : List Char) : Option Nat :=
  if cs = [] then none
  else cs.foldl (fun n c => n.bind fun n =>
    let d :=
      if c.isDigit then c.toNat - '0'.toNat
      else if c.isAlpha then c.toLower.toNat - 'a'.toNat + 10
      else base
    if d < base then some (base * n + d) else none) (some 0)

def basedInteger? (cs : List Char) : Option Nat :=
  match cs with
  | '0' :: 'x' :: rest => digitsIn? 16 rest
  | '0' :: 'o' :: rest => digitsIn? 8 rest
  | '0' :: 'b' :: rest => digitsIn? 2 rest
  | _ => none

def isBasedInteger (cs : List Char) : Bool :=
  match cs with
  | '-' :: rest => (basedInteger? rest).any (· ≤ Nat.pow 2 127)
  | '+' :: rest => (basedInteger? rest).any (· < Nat.pow 2 128)
  | _ => (basedInteger? cs).any (· < Nat.pow 2 128)

def isDigits (cs : List Char) : Bool := (digitsIn? 10 (Decimal.signed cs).2).isSome

def isFloat (cs : List Char) : Bool :=
  [".inf", ".Inf", ".INF", "+.inf", "+.Inf", "+.INF", "-.inf", "-.Inf", "-.INF", ".nan", ".NaN",
    ".NAN"].contains (String.ofList cs) ||
    ((Decimal.parse? cs).bind Decimal.toBinary64?).isSome

/-- A number with a leading zero is text, but text that is easily taken for a number. -/
def startsWithZero (cs : List Char) : Bool :=
  match (Decimal.signed cs).2 with
  | '0' :: _ :: _ => true
  | _ => false

def isAmbiguous (s : String) : Bool :=
  ["", "~", "null", "Null", "NULL", "true", "True", "TRUE", "false", "False", "FALSE"].contains s ||
    isBasedInteger s.toList || isFloat s.toList || (isDigits s.toList && startsWithZero s.toList) ||
    (isDigits s.toList && (digitsIn? 10 (Decimal.signed s.toList).2).any (· < Nat.pow 2 127))

def pairs (cs : List Char) : List (Char × Char) := (' ' :: cs).zip (cs ++ [' '])

def hasIndicator (cs : List Char) : Bool :=
  "---".toList.isPrefixOf cs || "...".toList.isPrefixOf cs ||
    (match cs with
      | [] => false
      | c :: rest =>
        "#,[]\x7b\x7d&*!|>'\"%@\x60".toList.contains c ||
          ("?:-".toList.contains c && rest.head?.all isSpace)) ||
    (pairs cs).tail.any fun (c, next) => (c == ':' && isSpace next) || (next == '#' && isSpace c)

def hasSpecial (cs : List Char) : Bool := cs.any fun c => !isPrintable c

def hasPair (p q : Char → Bool) (cs : List Char) : Bool :=
  (cs.zip cs.tail).any fun (c, next) => p c && q next

inductive Form
  | plain
  | single
  | double
  | literal
  deriving DecidableEq, Repr

def allowsSingle (cs : List Char) : Bool :=
  !(hasSpecial cs || hasPair isBreak (· == ' ') cs || hasPair (· == ' ') isBreak cs)

def allowsPlain (cs : List Char) : Bool :=
  let edge (c : Char) : Bool := c == ' ' || isBreak c
  allowsSingle cs &&
    !(cs.head?.any edge || cs.getLast?.any edge || cs.any isBreak || hasIndicator cs)

def allowsLiteral (cs : List Char) : Bool :=
  !(cs.getLast? == some ' ' || hasSpecial cs || hasPair (· == ' ') isBreak cs)

def form (s : String) : Form :=
  let cs := s.toList
  let quotes := if allowsSingle cs then Form.single else .double
  if cs.contains '\n' then if allowsLiteral cs then .literal else .double
  else if isAmbiguous s then quotes
  else if allowsPlain cs then .plain
  else quotes

def spaces (n : Nat) : List Char := List.replicate n ' '

def indented (indent : Nat) (write : Char → List Char) : (fresh : Bool) → List Char → List Char
  | _, [] => []
  | fresh, c :: rest =>
    if isBreak c then c :: indented indent write true rest
    else (if fresh then spaces indent else []) ++ write c ++ indented indent write false rest

def padded (width : Nat) (n : Nat) : List Char :=
  let ds := Text.hexDigits true n
  List.replicate (width - ds.length) '0' ++ ds

def escapeName? (c : Char) : Option Char :=
  match c with
  | '\x00' => some '0'
  | '\x07' => some 'a'
  | '\x08' => some 'b'
  | '\t' => some 't'
  | '\n' => some 'n'
  | '\x0b' => some 'v'
  | '\x0c' => some 'f'
  | '\r' => some 'r'
  | '\x1b' => some 'e'
  | '"' => some '"'
  | '\\' => some '\\'
  | '\u0085' => some 'N'
  | '\u2028' => some 'L'
  | '\u2029' => some 'P'
  | _ => none

def doubled (c : Char) : List Char :=
  match escapeName? c with
  | some name => ['\\', name]
  | none =>
    if isPrintable c then [c]
    else if c.toNat ≤ 0xff then '\\' :: 'x' :: padded 2 c.toNat
    else if c.toNat ≤ 0xffff then '\\' :: 'u' :: padded 4 c.toNat
    else '\\' :: 'U' :: padded 8 c.toNat

/-- An indentation if the first line shows none, and how the last break is kept. -/
def literalHeader (cs : List Char) : List Char :=
  let first := if cs.head?.any fun c => c == ' ' || isBreak c then ['2'] else []
  let last :=
    match cs.reverse with
    | [] => ['-']
    | c :: before =>
      if !isBreak c then ['-'] else if before.head?.all isBreak then ['+'] else []
  '|' :: first ++ last ++ ['\n']

def text (indent : Nat) (s : String) : List Char :=
  let cs := s.toList
  match form s with
  | .plain => cs ++ ['\n']
  | .single =>
    let body := indented indent (fun c => if c = '\'' then ['\'', '\''] else [c]) false cs
    let close := if cs.getLast?.any isBreak then spaces indent else []
    '\'' :: body ++ close ++ ['\'', '\n']
  | .double => '"' :: cs.flatMap doubled ++ ['"', '\n']
  | .literal =>
    literalHeader cs ++ indented indent (fun c => [c]) true cs ++
      if cs.getLast?.any isBreak then [] else ['\n']

mutual

def value (indent : Nat) : Layout → List Char
  | .text s => ' ' :: text (indent + 2) s
  | .null => " null\n".toList
  | .list [] => " []\n".toList
  | .record [] => " \x7b\x7d\n".toList
  | .list (first :: rest) => '\n' :: items indent true (first :: rest)
  | .record (first :: rest) => '\n' :: entries (indent + 2) true (first :: rest)

def item (indent : Nat) : Layout → List Char
  | .list (first :: rest) => ' ' :: items (indent + 2) false (first :: rest)
  | .record (first :: rest) => ' ' :: entries (indent + 2) false (first :: rest)
  | .text s => ' ' :: text (indent + 2) s
  | .null => " null\n".toList
  | .list [] => " []\n".toList
  | .record [] => " \x7b\x7d\n".toList

def items (indent : Nat) (fresh : Bool) : List Layout → List Char
  | [] => []
  | first :: rest =>
    (if fresh then spaces indent else []) ++ '-' :: item indent first ++ items indent true rest

def entries (indent : Nat) (fresh : Bool) : List (String × Layout) → List Char
  | [] => []
  | (key, first) :: rest =>
    (if fresh then spaces indent else []) ++ key.toList ++ ':' :: value indent first ++
      entries indent true rest

end

end Print

def Layout.print (entries : List (String × Layout)) : String :=
  String.ofList (Print.entries 0 true entries)

end Preopt.Yaml
