import Preopt.Yaml.TokenParts

/-! The state of a lexer. It reads one token at a time and keeps, for every open flow collection,
the place where a key may have started. A colon that follows a key puts the key's token, and the
start of its mapping, in front of what was read since. -/

namespace Preopt.Yaml

structure PossibleKey where
  before : Nat
  line : Nat
  col : Nat
  required : Bool
  deriving DecidableEq, Repr

/-- Whether a key that started at `k` can no longer be one at `p`: it would end on another line or
more than 1024 characters away. -/
def PossibleKey.isTooFar (k : PossibleKey) (p : Placed) : Bool :=
  k.line < p.line || k.col + 1024 < p.col

structure Tokens where
  latestFirst : List Token := []
  count : Nat := 0
  deriving DecidableEq, Repr

namespace Tokens

def toList (ts : Tokens) : List Token := ts.latestFirst.reverse

def push (ts : Tokens) (t : Token) : Tokens := ⟨t :: ts.latestFirst, ts.count + 1⟩

def insert (ts : Tokens) (before : Nat) (new : List Token) : Tokens :=
  let later := ts.count - before
  ⟨ts.latestFirst.take later ++ new.reverse ++ ts.latestFirst.drop later, ts.count + new.length⟩

end Tokens

structure Indent where
  outer : Int
  isBlock : Bool
  deriving DecidableEq, Repr

structure Lexer where
  rest : List Placed
  tokens : Tokens := {}
  indent : Int := -1
  indents : List Indent := []
  keyAllowed : Bool := true
  /-- One for every open flow collection, innermost first, and one for the block around them. -/
  keys : List (Option PossibleKey) := [none]
  /-- How much was left where a colon needs no blank after it. -/
  adjacent : Option Nat := none
  /-- A flow mapping or an explicit key was met, so that a colon starts no single pair. -/
  inMapping : Bool := false
  inPair : Bool := false

namespace Lexer

def next (lx : Lexer) : Placed := peek lx.rest 0

def inFlow (lx : Lexer) : Bool := 1 < lx.keys.length

def emit (lx : Lexer) (t : Token) (rest : List Placed) : Lexer :=
  { lx with tokens := lx.tokens.push t, rest := rest }

def allowKey (lx : Lexer) (yes : Bool) : Lexer := { lx with keyAllowed := yes }

def setKey (lx : Lexer) (k : Option PossibleKey) : Lexer := { lx with keys := k :: lx.keys.tail }

def currentKey (lx : Lexer) : Option PossibleKey := lx.keys.head?.join

/-- Gives up the key that may have started; where only a key may stand that is a fault. -/
def dropKey (lx : Lexer) : Except Fault Lexer :=
  match lx.currentKey with
  | some k => if k.required then fault lx.rest "key without colon" else .ok (lx.setKey none)
  | none => .ok lx

def inBlock (lx : Lexer) : Bool := lx.indents.head?.any (·.isBlock)

def noteKey (lx : Lexer) : Except Fault Lexer :=
  if lx.keyAllowed then do
    let required := !lx.inFlow && lx.indent == lx.next.col && lx.inBlock
    let lx ← lx.dropKey
    return lx.setKey (some ⟨lx.tokens.count, lx.next.line, lx.next.col, required⟩)
  else .ok lx

def dropOldKeys (lx : Lexer) : Except Fault Lexer := do
  let keys ← lx.keys.mapM fun k =>
    match k with
    | some k =>
      if k.isTooFar lx.next then
        if k.required then fault lx.rest "key without colon" else .ok none
      else .ok (some k)
    | none => .ok none
  return { lx with keys := keys }

def closeBlocks (lx : Lexer) (column : Int) : Lexer :=
  if lx.inFlow then lx else go lx.indents lx.indent lx.tokens
where
  go : List Indent → Int → Tokens → Lexer
    | i :: rest, indent, tokens =>
      if indent > column then go rest i.outer (if i.isBlock then tokens.push .blockEnd else tokens)
      else { lx with indents := i :: rest, indent := indent, tokens := tokens }
    | [], indent, tokens => { lx with indents := [], indent := indent, tokens := tokens }

/-- Starts a block at a column if it stands right of the block around it. A level that ends no block
gives way to one that does. -/
def openBlock (lx : Lexer) (column before : Nat) (t : Token) : Lexer :=
  if lx.inFlow then lx
  else
    let lx :=
      match lx.indents with
      | i :: outer =>
        if lx.indent ≤ (column : Int) ∧ ¬ i.isBlock then
          { lx with indent := i.outer, indents := outer }
        else lx
      | [] => lx
    if lx.indent < (column : Int) then
      { lx with
        indents := ⟨lx.indent, true⟩ :: lx.indents
        indent := column
        tokens := lx.tokens.insert before [t] }
    else lx

def openBefore (lx : Lexer) (t : Token) : Except Fault Lexer :=
  if lx.inFlow then .ok lx
  else if lx.keyAllowed then .ok (lx.openBlock lx.next.col lx.tokens.count t)
  else fault lx.rest "entry not allowed here"

def marker (lx : Lexer) (t : Token) : Except Fault Lexer := do
  let lx ← (lx.closeBlocks (-1)).dropKey
  return (lx.allowKey false).emit t (lx.rest.drop 3)

def quotedStyle (single : Bool) : Style := if single then .singleQuoted else .doubleQuoted

def blockStyle (folded : Bool) : Style := if folded then .folded else .literal

/-- Reads all tokens with `readToken`, after `toToken` went to the next one. Every token takes at
least one character, so `fuel` is never short of their number. -/
def run (toToken readToken : Lexer → Except Fault Lexer) :
    (fuel : Nat) → Lexer → Except Fault (List Token)
  | 0, lx => fault lx.rest "unread text"
  | fuel + 1, lx => do
    let lx ← toToken lx
    if lx.next.isEnd then
      let lx ← (lx.closeBlocks (-1)).dropKey
      return lx.tokens.toList
    else run toToken readToken fuel (← readToken lx)

end Lexer
end Preopt.Yaml
