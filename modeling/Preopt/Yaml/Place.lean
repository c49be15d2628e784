/-! The characters of a text with their places. Every line break is one character, whatever it is
written with, and a NUL stands at the end. -/

namespace Preopt.Yaml

def nul : Char := '\x00'

def isBlank (c : Char) : Bool := c == ' ' || c == '\t'

def isFlow (c : Char) : Bool := [',', '[', ']', '\x7b', '\x7d'].contains c

def isWord (c : Char) : Bool := c.isAlphanum || c == '_' || c == '-'

def digit? (base : Nat) (c : Char) : Option Nat :=
  let d :=
    if c.isDigit then c.toNat - '0'.toNat
    else if 'a' ≤ c ∧ c ≤ 'f' then c.toNat - 'a'.toNat + 10
    else if 'A' ≤ c ∧ c ≤ 'F' then c.toNat - 'A'.toNat + 10
    else 16
  if d < base then some d else none

structure Placed where
  char : Char := nul
  line : Nat := 0
  col : Nat := 0
  isBreak : Bool := false
  fresh : Bool := false
  deriving DecidableEq, Repr

namespace Placed

def isBlank (p : Placed) : Bool := Yaml.isBlank p.char
def isEnd (p : Placed) : Bool := p.char == nul
def isBreakOrEnd (p : Placed) : Bool := p.isBreak || p.isEnd
def isSpace (p : Placed) : Bool := p.isBlank || p.isBreakOrEnd

end Placed

def placeFrom (breakAs : Char → Option Char) (line col : Nat) (fresh : Bool) :
    List Char → List Placed
  | [] => [⟨nul, line, col, false, fresh⟩]
  | '\r' :: '\n' :: rest =>
    ⟨'\n', line, col, true, fresh⟩ :: placeFrom breakAs (line + 1) 0 true rest
  | c :: rest =>
    match breakAs c with
    | some b => ⟨b, line, col, true, fresh⟩ :: placeFrom breakAs (line + 1) 0 true rest
    | none =>
      ⟨c, line, col, false, fresh⟩ :: placeFrom breakAs line (col + 1) (fresh && isBlank c) rest

def place (breakAs : Char → Option Char) (text : List Char) : List Placed :=
  placeFrom breakAs 0 0 true text

def peek (s : List Placed) (n : Nat) : Placed := s[n]?.getD {}

def isMarkerOf (c : Char) (s : List Placed) : Bool :=
  (peek s 0).col == 0 && (peek s 0).char == c && (peek s 1).char == c && (peek s 2).char == c &&
    (peek s 3).isSpace

def isMarker (s : List Placed) : Bool := isMarkerOf '-' s || isMarkerOf '.' s

structure Fault where
  line : Nat
  col : Nat
  what : String
  deriving DecidableEq, Repr

def Fault.message (f : Fault) : String := s!"line {f.line + 1} column {f.col + 1}: {f.what}"

def fault {α : Type} (s : List Placed) (what : String) : Except Fault α :=
  .error ⟨(peek s 0).line, (peek s 0).col, what⟩

end Preopt.Yaml
