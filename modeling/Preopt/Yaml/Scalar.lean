import Preopt.Yaml.Place
import Preopt.Yaml.Token

/-! Scalars that run over several characters and lines. Blanks and breaks inside one are kept in a
gap until a character follows them, because only then is it known what they stand for. Texts are
gathered in reverse. -/

namespace Preopt.Yaml

structure Gap where
  blanks : List Char := []
  first : Option Char := none
  more : List Char := []
  broken : Bool := false
  deriving DecidableEq, Repr

namespace Gap

def blank (g : Gap) (c : Char) : Gap := if g.broken then g else { g with blanks := c :: g.blanks }

def lineBreak (g : Gap) (c : Char) : Gap :=
  if g.broken then { g with more := c :: g.more } else { first := some c, broken := true }

def joined : Gap := { broken := true }

/-- A single break becomes a space and several lose the first; blanks around breaks are dropped. -/
def text (g : Gap) : List Char :=
  if g.broken then
    match g.first with
    | some '\n' => if g.more = [] then [' '] else g.more
    | some b => g.more ++ [b]
    | none => g.more
  else g.blanks

end Gap

def hexValue? (cs : List Char) : Option Nat :=
  cs.foldl (fun n c => n.bind fun n => (digit? 16 c).map fun d => 16 * n + d) (some 0)

def ofCode? (n : Nat) : Option Char := if h : n.isValidChar then some (Char.ofNatAux n h) else none

def namedEscape? (c : Char) : Option Char :=
  match c with
  | '0' => some '\x00'
  | 'a' => some '\x07'
  | 'b' => some '\x08'
  | 't' | '\t' => some '\t'
  | 'n' => some '\n'
  | 'v' => some '\x0b'
  | 'f' => some '\x0c'
  | 'r' => some '\r'
  | 'e' => some '\x1b'
  | ' ' => some ' '
  | '"' => some '"'
  | '/' => some '/'
  | '\\' => some '\\'
  | 'N' => some '\u0085'
  | '_' => some '\u00a0'
  | 'L' => some '\u2028'
  | 'P' => some '\u2029'
  | _ => none

def codeLength (c : Char) : Nat :=
  if c = 'x' then 2 else if c = 'u' then 4 else if c = 'U' then 8 else 0

def escape (s : List Placed) : Except Fault (Char × Nat) :=
  match namedEscape? (peek s 0).char with
  | some c => .ok (c, 1)
  | none =>
    let n := codeLength (peek s 0).char
    let digits := ((s.drop 1).take n).map (·.char)
    if n = 0 then fault s "unknown escape"
    else if digits.length < n then fault s "unfinished escape"
    else match (hexValue? digits).bind ofCode? with
      | some c => .ok (c, n + 1)
      | none => fault s "escape of no character"

/-- A quoted scalar after its first quote, with what follows its last one. Its lines may not start
left of `indent`. -/
def quoted (single : Bool) (indent : Int) :
    (skip : Nat) → (text : List Char) → Gap → List Placed → Except Fault (List Char × List Placed)
  | _, _, _, [] => fault [] "unfinished quotes"
  | skip + 1, text, gap, _ :: s => quoted single indent skip text gap s
  | 0, text, gap, p :: s =>
    if p.isBlank then
      if gap.broken ∧ p.char = '\t' ∧ (p.col : Int) < indent then
        fault (p :: s) "tab as indentation"
      else quoted single indent 0 text (gap.blank p.char) s
    else if p.isBreak then quoted single indent 0 text (gap.lineBreak p.char) s
    else if isMarker (p :: s) then fault (p :: s) "document marker in quotes"
    else if p.isEnd then fault (p :: s) "unfinished quotes"
    else if (p.col : Int) < indent then fault (p :: s) "quoted line too far left"
    else
      let text := gap.text ++ text
      if single then
        if p.char = '\'' then
          if (peek s 0).char = '\'' then quoted single indent 1 ('\'' :: text) {} s
          else .ok (text, s)
        else quoted single indent 0 (p.char :: text) {} s
      else if p.char = '"' then .ok (text, s)
      else if p.char = '\\' then
        if (peek s 0).isBreak then quoted single indent 1 text .joined s
        else match escape s with
          | .ok (c, n) => quoted single indent n (c :: text) {} s
          | .error e => .error e
      else quoted single indent 0 (p.char :: text) {} s

structure PlainRule where
  ends : Char → Placed → Bool
  clashes : Char → Placed → Bool
  clashesFirst : Char → Placed → Bool
  /-- A tab may stand left of the scalar's lines if nothing but a comment follows on its line. -/
  looseTabs : Bool

structure PlainResult where
  text : List Char
  gap : Gap
  rest : List Placed

/-- A plain scalar from `s` on. Outside flow collections its lines may not start left of `indent`.
`inWord` says whether the character before belongs to it too. -/
def plain (rule : PlainRule) (inFlow : Bool) (indent : Int) :
    (text : List Char) → Gap → (inWord inComment : Bool) → List Placed → Except Fault PlainResult
  | text, gap, _, _, [] => .ok ⟨text, gap, []⟩
  | text, gap, inWord, inComment, p :: s =>
    if inComment ∧ ¬ p.isBreakOrEnd then plain rule inFlow indent text gap false true s
    else if p.isBlank then
      if gap.broken ∧ p.char = '\t' ∧ (p.col : Int) < indent then
        let after := peek (s.dropWhile (·.isBlank)) 0
        if rule.looseTabs ∧ (after.char = '#' ∨ after.isBreakOrEnd) then
          plain rule inFlow indent text gap false (after.char == '#') s
        else fault (p :: s) "tab as indentation"
      else plain rule inFlow indent text (gap.blank p.char) false false s
    else if p.isBreak then plain rule inFlow indent text (gap.lineBreak p.char) false false s
    else
      let stop : Except Fault PlainResult := .ok ⟨text, gap, p :: s⟩
      if ¬ inWord ∧ text ≠ [] ∧ ¬ inFlow ∧ (p.col : Int) < indent then stop
      else if isMarker (p :: s) ∨ p.isEnd ∨ (¬ inWord ∧ p.char = '#') then stop
      else if ¬ inWord ∧ rule.clashesFirst p.char (peek s 0) then
        fault (p :: s) "indicator in a word"
      else if rule.clashes p.char (peek s 0) then fault (p :: s) "colon in a word"
      else if rule.ends p.char (peek s 0) then stop
      else plain rule inFlow indent (p.char :: gap.text ++ text) {} true false s

structure Lines where
  text : List Char := []
  lastBreak : Option Char := none
  breaks : List Char := []
  lastBlank : Bool := false
  deriving DecidableEq, Repr

namespace Lines

/-- Starts a line with its first character. Folding replaces a break between two lines that start
with no blank. -/
def start (folded : Bool) (l : Lines) (c : Char) : Lines :=
  let text :=
    if folded ∧ l.lastBreak = some '\n' ∧ ¬ l.lastBlank ∧ ¬ isBlank c then
      if l.breaks = [] then ' ' :: l.text else l.breaks ++ l.text
    else l.breaks ++ l.lastBreak.toList ++ l.text
  { text := c :: text, lastBlank := isBlank c }

def add (l : Lines) (c : Char) : Lines := { l with text := c :: l.text }
def endLine (l : Lines) (c : Char) : Lines := { l with lastBreak := some c }
def emptyLine (l : Lines) (c : Char) : Lines := { l with breaks := c :: l.breaks }

end Lines

def blockLines (folded strictTabs : Bool) (indent : Nat) :
    (inLine : Bool) → Lines → List Placed → Except Fault (Lines × List Placed)
  | _, l, [] => .ok (l, [])
  | true, l, p :: s =>
    if p.isBreak then blockLines folded strictTabs indent false (l.endLine p.char) s
    else if p.isEnd then .ok (l, p :: s)
    else blockLines folded strictTabs indent true (l.add p.char) s
  | false, l, p :: s =>
    if p.char = ' ' ∧ p.col < indent then blockLines folded strictTabs indent false l s
    else if strictTabs ∧ p.char = '\t' ∧ p.col < indent then fault (p :: s) "tab as indentation"
    else if p.isBreak then blockLines folded strictTabs indent false (l.emptyLine p.char) s
    else if p.isEnd ∨ p.col ≠ indent then .ok (l, p :: s)
    else blockLines folded strictTabs indent true (l.start folded p.char) s

/-- The empty lines before a block scalar whose indentation is not given, and the widest of them or
of the first line that is not empty. -/
def leadingLines (strictTabs : Bool) :
    (widest : Nat) → (breaks : List Char) → List Placed →
      Except Fault (Nat × List Char × List Placed)
  | widest, breaks, [] => .ok (widest, breaks, [])
  | widest, breaks, p :: s =>
    if p.char = ' ' then leadingLines strictTabs widest breaks s
    else if strictTabs ∧ p.char = '\t' then fault (p :: s) "tab as indentation"
    else if p.isBreak then leadingLines strictTabs (max widest p.col) (p.char :: breaks) s
    else .ok (max widest p.col, breaks, p :: s)

inductive Chomp
  | strip
  | clip
  | keep
  deriving DecidableEq, Repr

def chomp? (c : Char) : Option Chomp :=
  if c = '-' then some .strip else if c = '+' then some .keep else none

def blockHeader (s : List Placed) : Except Fault (Chomp × Nat × List Placed) :=
  let width? (s : List Placed) : Option Nat := digit? 10 (peek s 0).char
  match chomp? (peek s 0).char, width? s with
  | some c, _ =>
    match width? (s.drop 1) with
    | some 0 => fault s "indentation of zero"
    | some n => .ok (c, n, s.drop 2)
    | none => .ok (c, 0, s.drop 1)
  | none, some 0 => fault s "indentation of zero"
  | none, some n =>
    match chomp? (peek s 1).char with
    | some c => .ok (c, n, s.drop 2)
    | none => .ok (.clip, n, s.drop 1)
  | none, none => .ok (.clip, 0, s)

end Preopt.Yaml
