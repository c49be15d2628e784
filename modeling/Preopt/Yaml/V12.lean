import Preopt.Yaml.Lexer

/-! YAML 1.2 as a token stream. Against YAML 1.1, tabs may separate tokens, indentation counts
within flow collections, a comment needs a blank before it, and a colon needs none after a quoted
key in a flow collection. A level of indentation that ends no block is kept where a block might
still start. -/

namespace Preopt.Yaml.V12

def breakAs (c : Char) : Option Char := if c = '\n' ∨ c = '\r' then some '\n' else none

def plainRule (inFlow : Bool) : PlainRule where
  ends c next :=
    (c == ':' && (next.isSpace || (inFlow && isFlow next.char))) || (inFlow && isFlow c)
  clashes _ _ := false
  clashesFirst c next := inFlow && c == '-' && isFlow next.char
  looseTabs := true

/-- The bytes of percent escapes are taken for one number. -/
def decode (bytes : List Nat) : Option Char := ofCode? (bytes.foldl (256 * · + ·) 0)

def isUri (c : Char) : Bool := isWord c || "#;/?:@&=+$,.!~*'()[]%".toList.contains c

def isTag (c : Char) : Bool := isUri c && !isFlow c && c != '!'

def isAnchor (p : Placed) : Bool := !p.isSpace && !isFlow p.char && p.char != '\ufeff'

def skipLine (s : List Placed) : Except Fault (List Placed) :=
  let rest := skipBlanks s
  if (peek rest 0).char ≠ '#' then .ok rest
  else if (peek s 0).char = '#' then fault s "blank expected before a comment"
  else .ok (skipToBreak rest)

def endLine (s : List Placed) : Except Fault (List Placed) := do
  let rest ← skipLine s
  if (peek rest 0).isBreakOrEnd then return rest else fault rest "end of line expected"

def skipSpaces : (inComment : Bool) → List Placed → List Placed
  | _, [] => []
  | inComment, p :: s =>
    if p.isBreak then skipSpaces false s
    else if p.isEnd then p :: s
    else if inComment || p.char == '#' then skipSpaces true s
    else if p.char == ' ' then skipSpaces false s
    else p :: s

/-- Blanks, comments and breaks before a token. A break outside flow collections allows a key; in
the indentation of a block a tab may stand only on a line with nothing else. -/
def skipToToken (inFlow : Bool) (indent : Int) :
    (keyAllowed inComment : Bool) → List Placed → Except Fault (Bool × List Placed)
  | keyAllowed, _, [] => .ok (keyAllowed, [])
  | keyAllowed, inComment, p :: s =>
    if p.isBreak then skipToToken inFlow indent (keyAllowed || !inFlow) false s
    else if p.isEnd then .ok (keyAllowed, p :: s)
    else if inComment || p.char == '#' then skipToToken inFlow indent keyAllowed true s
    else if p.isBlank then
      let after := peek (skipBlanks s) 0
      let alone := after.isBreakOrEnd ∨ after.char = '#'
      if p.char = '\t' ∧ p.fresh ∧ (p.col : Int) < indent ∧ ¬ alone then
        fault (p :: s) "tab as indentation"
      else skipToToken inFlow indent keyAllowed false s
    else .ok (keyAllowed, p :: s)

def tagLead (s : List Placed) : Except Fault (List Char × List Placed) :=
  if (peek s 0).char = '!' ∨ isTag (peek s 0).char then uri decode isUri s
  else fault s "tag expected"

/-- An unknown directive counts as one for tags that changes none. -/
def directive (s : List Placed) : Except Fault (Token × List Placed) := do
  let (name, rest) := word (s.drop 1)
  if name = [] ∨ ¬ (peek rest 0).isSpace then fault rest "directive name expected"
  let (token, rest) ←
    if name = "YAML".toList then versionDirective rest
    else if name = "TAG".toList then do
      let (handle, rest) ← handle (skipBlanks rest)
      if handle ≠ ['!'] ∧ ¬ isHandle handle then fault rest "handle expected"
      let (lead, rest) ← tagLead (skipBlanks rest)
      if ¬ (peek rest 0).isSpace then fault rest "blank expected"
      pure (.tagHandle (String.ofList handle) (String.ofList lead), rest)
    else pure (.tagHandle "" "", skipToBreak rest)
  return (token, skipBreak (← endLine rest))

def tag (inFlow : Bool) (s : List Placed) : Except Fault (Token × List Placed) := do
  let (token, rest) ←
    if (peek s 1).char = '<' then do
      let (suffix, rest) ← uri decode isUri (s.drop 2)
      if (peek rest 0).char ≠ '>' then fault rest "tag expected"
      pure (Token.tag "" (String.ofList suffix), rest.drop 1)
    else do
      let (handle, rest) ← handle s
      let (suffix, rest) ← uri decode isTag rest
      if isHandle handle then
        if suffix = [] then fault rest "tag expected"
        pure (Token.tag (String.ofList handle) (String.ofList suffix), rest)
      else
        let suffix := handle.tail ++ suffix
        pure (if suffix = [] then Token.tag "" "!" else Token.tag "!" (String.ofList suffix), rest)
  if (peek rest 0).isSpace ∨ (inFlow ∧ isFlow (peek rest 0).char) then return (token, rest)
  else fault rest "blank expected"

/-- At the end of the text a last line without a break gets one; a scalar without lines keeps the
break of its header. -/
def blockScalar (folded : Bool) (indent : Int) (s : List Placed) :
    Except Fault (String × List Placed) := do
  let (chomp, width, header) ← blockHeader (s.drop 1)
  let header ← endLine header
  let bare := (peek header 0).isEnd
  let body := skipBreak header
  if (peek body 0).char = '\t' then fault body "tab as indentation"
  let (column, breaks, rest) ←
    if width = 0 then do
      let (widest, breaks, rest) ← leadingLines false 0 [] body
      let least := max (indent + 1).toNat (if 0 < indent then 1 else 0)
      pure (max widest least, breaks, rest)
    else pure ((max indent 0).toNat + width, [], body)
  let (lines, rest) ← blockLines folded false column false { breaks := breaks } rest
  let last := peek rest 0
  let text :=
    if lines.text = [] ∧ last.isEnd then
      match chomp with
      | .strip => []
      | .clip => if bare then [] else ['\n']
      | .keep => if bare then [] else if lines.breaks = [] then ['\n'] else lines.breaks
    else
      let closing := if last.isEnd ∧ max column 1 ≤ last.col then ['\n'] else []
      match chomp with
      | .strip => lines.text
      | .clip => closing ++ lines.lastBreak.toList ++ lines.text
      | .keep => lines.breaks ++ closing ++ lines.lastBreak.toList ++ lines.text
  if lines.text = [] ∧ ¬ last.isEnd ∧ last.col < column ∧ indent < last.col then
    fault rest "line too far left"
  else return (String.ofList text.reverse, rest)

def maxDepth : Nat := 255

def openLevel (lx : Lexer) : Lexer :=
  if !lx.inFlow && lx.inBlock then
    { lx with indents := ⟨lx.indent, false⟩ :: lx.indents, indent := lx.indent + 1 }
  else lx

def closeLevels (lx : Lexer) : Lexer := go lx.indents lx.indent
where
  go : List Indent → Int → Lexer
    | i :: rest, indent =>
      if i.isBlock then { lx with indents := i :: rest, indent := indent } else go rest i.outer
    | [], indent => { lx with indents := [], indent := indent }

def endPair (lx : Lexer) : Lexer :=
  if lx.inPair then
    { lx with inPair := false, inMapping := false, tokens := lx.tokens.push .flowMappingEnd }
  else lx

def readFlowStart (lx : Lexer) (t : Token) : Except Fault Lexer := do
  let lx := openLevel (← lx.noteKey)
  if maxDepth < lx.keys.length then fault lx.rest "too many flow collections"
  let lx := { lx with keys := none :: lx.keys, inMapping := lx.inMapping || t == Token.flowMapping }
  return (lx.allowKey true).emit t (← skipLine (lx.rest.drop 1))

def readFlowEnd (lx : Lexer) (t : Token) : Except Fault Lexer := do
  let lx ← lx.dropKey
  let lx := endPair { lx with keys := if lx.inFlow then lx.keys.tail else lx.keys }
  let rest ← skipLine (lx.rest.drop 1)
  let lx := if lx.inFlow then { lx with adjacent := some rest.length } else lx
  return (lx.allowKey false).emit t rest

def readFlowEntry (lx : Lexer) : Except Fault Lexer := do
  let lx := endPair (← lx.dropKey)
  return (lx.allowKey true).emit .flowEntry (← skipLine (lx.rest.drop 1))

def readBlockEntry (lx : Lexer) : Except Fault Lexer := do
  if lx.inFlow then fault lx.rest "block entry in a flow collection"
  let lx ← lx.openBefore .blockSequence
  let after := lx.rest.drop 1
  let rest ← skipLine after
  let tabbed := (after.takeWhile (·.isBlank)).any (·.char == '\t')
  if tabbed ∧ (peek rest 0).char = '-' ∧ (peek rest 1).isSpace then fault rest "tab as indentation"
  let lx := if (peek rest 0).isBreak ∨ isFlow (peek rest 0).char then openLevel lx else lx
  let lx ← lx.dropKey
  return (lx.allowKey true).emit .blockEntry rest

def readKey (lx : Lexer) : Except Fault Lexer := do
  let lx ← ({ lx with inMapping := lx.inMapping || lx.inFlow } : Lexer).openBefore .blockMapping
  let lx ← lx.dropKey
  let after := lx.rest.drop 1
  let rest := skipSpaces false after
  if rest.length = after.length ∨ (peek rest 0).char = '\t' then fault rest "space expected"
  return (lx.allowKey (!lx.inFlow)).emit .key rest

/-- A colon in a flow sequence makes a pair, which ends with the item it stands in. -/
def readValue (lx : Lexer) : Except Fault Lexer := do
  let lx := { lx with inPair := lx.inFlow && !lx.inMapping }
  let after := lx.rest.drop 1
  let rest := skipBlanks after
  let spaced := (after.takeWhile (·.isBlank)).any (·.char == ' ')
  if (peek after 0).char = '\t' ∧ ¬ spaced ∧ isWord (peek rest 0).char then
    fault rest "space expected"
  match lx.currentKey with
  | some k =>
    if lx.inPair ∧ k.line < lx.next.line then fault lx.rest "colon on another line than its key"
    let new := if lx.inPair then [.flowMapping, .key] else [.key]
    let lx := { lx with tokens := lx.tokens.insert k.before new }
    let lx := (openLevel (lx.openBlock k.col k.before .blockMapping)).setKey none
    return (lx.allowKey false).emit .value after
  | none =>
    let lx := if lx.inPair then { lx with tokens := lx.tokens.push .flowMapping } else lx
    let lx := openLevel (← lx.openBefore .blockMapping)
    return (lx.allowKey (!lx.inFlow)).emit .value after

def readAnchor (lx : Lexer) (make : String → Token) : Except Fault Lexer := do
  let lx ← lx.noteKey
  let name := chars ((lx.rest.drop 1).takeWhile isAnchor)
  if name = [] then fault lx.rest "anchor name expected"
  return (lx.allowKey false).emit (make (String.ofList name)) ((lx.rest.drop 1).drop name.length)

def readTag (lx : Lexer) : Except Fault Lexer := do
  let lx ← lx.noteKey
  let (t, rest) ← tag lx.inFlow lx.rest
  return (lx.allowKey false).emit t rest

def readBlock (lx : Lexer) (folded : Bool) : Except Fault Lexer := do
  let lx := closeLevels (← lx.noteKey)
  let (text, rest) ← blockScalar folded lx.indent lx.rest
  return (lx.allowKey true).emit (.scalar (Lexer.blockStyle folded) text) rest

def mayFollowQuotes (inFlow : Bool) (line : Nat) (p : Placed) : Bool :=
  p.isBreakOrEnd ||
    if inFlow then [',', ']', '\x7d', ':'].contains p.char else p.char == ':' && p.line == line

def readQuotes (lx : Lexer) (single : Bool) : Except Fault Lexer := do
  let line := lx.next.line
  let lx ← lx.noteKey
  let (text, rest) ← quoted single lx.indent 0 [] {} (lx.rest.drop 1)
  let rest ← skipLine rest
  if mayFollowQuotes lx.inFlow line (peek rest 0) then
    let (keyAllowed, rest) ← skipToToken lx.inFlow lx.indent false false rest
    let token := Token.scalar (Lexer.quotedStyle single) (String.ofList text.reverse)
    return ({ lx with adjacent := some rest.length }.allowKey keyAllowed).emit token rest
  else fault rest "text after quotes"

def readWord (lx : Lexer) : Except Fault Lexer := do
  let lx := closeLevels (← lx.noteKey)
  if lx.inFlow ∧ (lx.next.col : Int) ≤ lx.indent then fault lx.rest "flow collection too far left"
  let r ← plain (plainRule lx.inFlow) lx.inFlow (lx.indent + 1) [] {} false false lx.rest
  if r.text = [] then fault lx.rest "scalar expected"
  return (lx.allowKey r.gap.broken).emit (.scalar .plain (String.ofList r.text.reverse)) r.rest

def readToken (lx : Lexer) : Except Fault Lexer :=
  let p := lx.next
  let next := peek lx.rest 1
  if p.col = 0 ∧ p.char = '%' then do
    let lx ← (lx.closeBlocks (-1)).dropKey
    let (t, rest) ← directive lx.rest
    return (lx.allowKey false).emit t rest
  else if isMarkerOf '-' lx.rest then lx.marker .documentStart
  else if isMarkerOf '.' lx.rest then do
    let lx ← lx.marker .documentEnd
    return { lx with rest := ← endLine lx.rest }
  else if (p.col : Int) < lx.indent then fault lx.rest "token too far left"
  else if p.char = '[' then readFlowStart lx .flowSequence
  else if p.char = '\x7b' then readFlowStart lx .flowMapping
  else if p.char = ']' then readFlowEnd lx .flowSequenceEnd
  else if p.char = '\x7d' then readFlowEnd lx .flowMappingEnd
  else if p.char = ',' then readFlowEntry lx
  else if p.char = '-' ∧ next.isSpace then readBlockEntry lx
  else if p.char = '?' ∧ next.isSpace then readKey lx
  else if p.char = ':' ∧
      (next.isSpace ∨ (lx.inFlow ∧ (isFlow next.char ∨ lx.adjacent = some lx.rest.length))) then
    readValue lx
  else if p.char = '*' then readAnchor lx .alias
  else if p.char = '&' then readAnchor lx .anchor
  else if p.char = '!' then readTag lx
  else if p.char = '|' ∧ ¬ lx.inFlow then readBlock lx false
  else if p.char = '>' ∧ ¬ lx.inFlow then readBlock lx true
  else if p.char = '\'' then readQuotes lx true
  else if p.char = '"' then readQuotes lx false
  else if "%@\x60".toList.contains p.char then fault lx.rest "no token starts with this character"
  else readWord lx

/-- Goes to the next token and ends the blocks before it. In flow collections a key may be any
number of lines away. -/
def toToken (lx : Lexer) : Except Fault Lexer := do
  let (keyAllowed, rest) ← skipToToken lx.inFlow lx.indent lx.keyAllowed false lx.rest
  let lx := { lx with keyAllowed := keyAllowed, rest := rest }
  let lx ← if lx.inFlow then .ok lx else lx.dropOldKeys
  return lx.closeBlocks lx.next.col

/-- Text behind a NUL is not read. -/
def tokens (text : List Char) : Except Fault (List Token) :=
  let text := text.takeWhile (· ≠ nul)
  Lexer.run toToken readToken (text.length + 1) { rest := place breakAs text }

end Preopt.Yaml.V12
