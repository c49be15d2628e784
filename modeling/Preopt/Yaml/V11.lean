import Preopt.Yaml.Lexer

/-! YAML 1.1 as a token stream. Every token is read by a function of its own, and `readToken`
chooses one by the next two characters. -/

namespace Preopt.Yaml.V11

def breakAs (c : Char) : Option Char :=
  if c = '\n' ∨ c = '\r' ∨ c = '\u0085' then some '\n'
  else if c = '\u2028' ∨ c = '\u2029' then some c
  else none

def isAllowed (c : Char) : Bool :=
  c == '\t' || c == '\n' || c == '\r' || (' ' ≤ c && c ≤ '~') || c == '\u0085' ||
    ('\u00a0' ≤ c && c ≤ '\ud7ff') || ('\ue000' ≤ c && c ≤ '\ufffd') || 0xffff < c.toNat

def plainRule (inFlow : Bool) : PlainRule where
  ends c next := (c == ':' && next.isSpace) || (inFlow && isFlow c)
  clashes c next := inFlow && c == ':' && (isFlow next.char || next.char == '?')
  clashesFirst _ _ := false
  looseTabs := false

/-- Malformed UTF-8 in percent escapes is let through. -/
def decode (bytes : List Nat) : Option Char :=
  ((String.fromUTF8? ⟨(bytes.map Nat.toUInt8).toArray⟩).bind (·.toList.head?)).getD '\ufffd'

def isUri (verbatim : Bool) (c : Char) : Bool :=
  isWord c || ";/?:@&=+$.%!~*'()".toList.contains c || (verbatim && [',', '[', ']'].contains c)

def skipToToken (inFlow : Bool) : (keyAllowed inComment : Bool) → List Placed → Bool × List Placed
  | keyAllowed, _, [] => (keyAllowed, [])
  | keyAllowed, inComment, p :: s =>
    if p.isBreak then skipToToken inFlow (keyAllowed || !inFlow) false s
    else if p.isEnd then (keyAllowed, p :: s)
    else if inComment || p.char == '#' then skipToToken inFlow keyAllowed true s
    else if p.char == ' ' || (p.char == '\t' && (inFlow || !keyAllowed)) then
      skipToToken inFlow keyAllowed false s
    else (keyAllowed, p :: s)

def directive (s : List Placed) : Except Fault (Token × List Placed) := do
  let (name, rest) := word (s.drop 1)
  if name = [] ∨ ¬ (peek rest 0).isSpace then fault rest "directive name expected"
  let (token, rest) ←
    if name = "YAML".toList then versionDirective rest
    else if name = "TAG".toList then do
      let (handle, rest) ← handle (skipBlanks rest)
      if handle ≠ ['!'] ∧ ¬ isHandle handle then fault rest "handle expected"
      if ¬ (peek rest 0).isBlank then fault rest "blank expected"
      let (lead, rest) ← uri decode (isUri true) (skipBlanks rest)
      if lead = [] ∨ ¬ (peek rest 0).isSpace then fault rest "tag expected"
      pure (.tagHandle (String.ofList handle) (String.ofList lead), rest)
    else fault rest "unknown directive"
  let rest := skipBlanks rest
  let rest := if (peek rest 0).char = '#' then skipToBreak rest else rest
  if (peek rest 0).isBreakOrEnd then return (token, skipBreak rest)
  else fault rest "end of line expected"

def name (s : List Placed) : Except Fault (String × List Placed) :=
  let (name, rest) := word s
  let next := peek rest 0
  if name = [] ∨ ¬ (next.isSpace ∨ "?:,]\x7d%@\x60".toList.contains next.char) then
    fault s "anchor name expected"
  else .ok (String.ofList name, rest)

def tag (inFlow : Bool) (s : List Placed) : Except Fault (Token × List Placed) := do
  let (token, rest) ←
    if (peek s 1).char = '<' then do
      let (suffix, rest) ← uri decode (isUri true) (s.drop 2)
      if suffix = [] ∨ (peek rest 0).char ≠ '>' then fault rest "tag expected"
      pure (Token.tag "" (String.ofList suffix), rest.drop 1)
    else do
      let (handle, rest) ← handle s
      let (suffix, rest) ← uri decode (isUri false) rest
      if isHandle handle then
        if suffix = [] then fault rest "tag expected"
        pure (Token.tag (String.ofList handle) (String.ofList suffix), rest)
      else
        let suffix := handle.tail ++ suffix
        pure (if suffix = [] then Token.tag "" "!" else Token.tag "!" (String.ofList suffix), rest)
  if (peek rest 0).isSpace ∨ (inFlow ∧ (peek rest 0).char = ',') then return (token, rest)
  else fault rest "blank expected"

def blockScalar (folded : Bool) (indent : Int) (s : List Placed) :
    Except Fault (String × List Placed) := do
  let (chomp, width, rest) ← blockHeader (s.drop 1)
  let rest := skipBlanks rest
  let rest := if (peek rest 0).char = '#' then skipToBreak rest else rest
  if ¬ (peek rest 0).isBreakOrEnd then fault rest "end of line expected"
  let rest := skipBreak rest
  let (column, breaks, rest) ←
    if width = 0 then do
      let (widest, breaks, rest) ← leadingLines true 0 [] rest
      pure (max (max widest (indent + 1).toNat) 1, breaks, rest)
    else pure ((max indent 0).toNat + width, [], rest)
  let (lines, rest) ← blockLines folded true column false { breaks := breaks } rest
  let tail :=
    match chomp with
    | .strip => []
    | .clip => lines.lastBreak.toList
    | .keep => lines.breaks ++ lines.lastBreak.toList
  return (String.ofList (tail ++ lines.text).reverse, rest)

def readFlowStart (lx : Lexer) (t : Token) : Except Fault Lexer := do
  let lx ← lx.noteKey
  return ({ lx with keys := none :: lx.keys }.allowKey true).emit t (lx.rest.drop 1)

def readFlowEnd (lx : Lexer) (t : Token) : Except Fault Lexer := do
  let lx ← lx.dropKey
  let keys := if lx.inFlow then lx.keys.tail else lx.keys
  return ({ lx with keys := keys }.allowKey false).emit t (lx.rest.drop 1)

def readFlowEntry (lx : Lexer) : Except Fault Lexer := do
  let lx ← lx.dropKey
  return (lx.allowKey true).emit .flowEntry (lx.rest.drop 1)

def readBlockEntry (lx : Lexer) : Except Fault Lexer := do
  let lx ← (← lx.openBefore .blockSequence).dropKey
  return (lx.allowKey true).emit .blockEntry (lx.rest.drop 1)

def readKey (lx : Lexer) : Except Fault Lexer := do
  let lx ← (← lx.openBefore .blockMapping).dropKey
  return (lx.allowKey (!lx.inFlow)).emit .key (lx.rest.drop 1)

def readValue (lx : Lexer) : Except Fault Lexer := do
  match lx.currentKey with
  | some k =>
    let lx := { lx with tokens := lx.tokens.insert k.before [.key] }
    let lx := (lx.openBlock k.col k.before .blockMapping).setKey none
    return (lx.allowKey false).emit .value (lx.rest.drop 1)
  | none =>
    let lx ← lx.openBefore .blockMapping
    return (lx.allowKey (!lx.inFlow)).emit .value (lx.rest.drop 1)

def readAnchor (lx : Lexer) (make : String → Token) : Except Fault Lexer := do
  let lx ← lx.noteKey
  let (name, rest) ← name (lx.rest.drop 1)
  return (lx.allowKey false).emit (make name) rest

def readTag (lx : Lexer) : Except Fault Lexer := do
  let lx ← lx.noteKey
  let (t, rest) ← tag lx.inFlow lx.rest
  return (lx.allowKey false).emit t rest

def readBlock (lx : Lexer) (folded : Bool) : Except Fault Lexer := do
  let lx ← lx.dropKey
  let (text, rest) ← blockScalar folded lx.indent lx.rest
  return (lx.allowKey true).emit (.scalar (Lexer.blockStyle folded) text) rest

def readQuotes (lx : Lexer) (single : Bool) : Except Fault Lexer := do
  let lx ← lx.noteKey
  let (text, rest) ← quoted single (-1) 0 [] {} (lx.rest.drop 1)
  let token := Token.scalar (Lexer.quotedStyle single) (String.ofList text.reverse)
  return (lx.allowKey false).emit token rest

def readWord (lx : Lexer) : Except Fault Lexer := do
  let lx ← lx.noteKey
  let r ← plain (plainRule lx.inFlow) lx.inFlow (lx.indent + 1) [] {} false false lx.rest
  return (lx.allowKey r.gap.broken).emit (.scalar .plain (String.ofList r.text.reverse)) r.rest

def startsWord (inFlow : Bool) (c : Char) (next : Placed) : Bool :=
  !("-?:,[]\x7b\x7d#&*!|>'\"%@\x60\t".toList.contains c) || c == '-' ||
    (!inFlow && (c == '?' || c == ':') && !next.isSpace)

def readToken (lx : Lexer) : Except Fault Lexer :=
  let p := lx.next
  let next := peek lx.rest 1
  if p.col = 0 ∧ p.char = '%' then do
    let lx ← (lx.closeBlocks (-1)).dropKey
    let (t, rest) ← directive lx.rest
    return (lx.allowKey false).emit t rest
  else if isMarkerOf '-' lx.rest then lx.marker .documentStart
  else if isMarkerOf '.' lx.rest then lx.marker .documentEnd
  else if p.char = '[' then readFlowStart lx .flowSequence
  else if p.char = '\x7b' then readFlowStart lx .flowMapping
  else if p.char = ']' then readFlowEnd lx .flowSequenceEnd
  else if p.char = '\x7d' then readFlowEnd lx .flowMappingEnd
  else if p.char = ',' then readFlowEntry lx
  else if p.char = '-' ∧ next.isSpace then readBlockEntry lx
  else if p.char = '?' ∧ (lx.inFlow ∨ next.isSpace) then readKey lx
  else if p.char = ':' ∧ (lx.inFlow ∨ next.isSpace) then readValue lx
  else if p.char = '*' then readAnchor lx .alias
  else if p.char = '&' then readAnchor lx .anchor
  else if p.char = '!' then readTag lx
  else if p.char = '|' ∧ ¬ lx.inFlow then readBlock lx false
  else if p.char = '>' ∧ ¬ lx.inFlow then readBlock lx true
  else if p.char = '\'' then readQuotes lx true
  else if p.char = '"' then readQuotes lx false
  else if startsWord lx.inFlow p.char next then readWord lx
  else fault lx.rest "no token starts with this character"

def toToken (lx : Lexer) : Except Fault Lexer := do
  let (keyAllowed, rest) := skipToToken lx.inFlow lx.keyAllowed false lx.rest
  let lx ← { lx with keyAllowed := keyAllowed, rest := rest }.dropOldKeys
  return lx.closeBlocks lx.next.col

def tokens (text : List Char) : Except Fault (List Token) :=
  if text.all isAllowed then
    let placed := place breakAs text
    let rest := if text.head? = some '\ufeff' then placed.drop 1 else placed
    Lexer.run toToken readToken (text.length + 1) { rest := rest }
  else .error ⟨0, 0, "character not allowed"⟩

end Preopt.Yaml.V11
