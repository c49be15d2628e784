import Preopt.Yaml.Node
import Preopt.Yaml.Place

/-! From tokens to documents. The two YAML versions share the grammar of nodes; a record says where
they differ. -/

namespace Preopt.Yaml

structure Grammar where
  bareValues : Bool
  /-- Document end markers may stand before the first document, and a document may follow one
  without a start marker. -/
  openEnds : Bool
  strictDirectives : Bool
  version : Nat → Nat → Bool
  /-- The handles in force after a directive adds one, unless it may not. -/
  addHandle : List (String × String) → (handle lead : String) → Option (List (String × String))
  afterVersion : List (String × String) → List (String × String)
  tag : List (String × String) → (handle suffix : String) → Option Tag

namespace Parse

def properties (g : Grammar) (handles : List (String × String)) :
    List Token → Except String (Properties String × List Token)
  | .anchor a :: .tag handle suffix :: rest | .tag handle suffix :: .anchor a :: rest =>
    match g.tag handles handle suffix with
    | some t => .ok ({ anchor := some a, tag := some t }, rest)
    | none => .error "unknown tag handle"
  | .anchor a :: rest => .ok ({ anchor := some a }, rest)
  | .tag handle suffix :: rest =>
    match g.tag handles handle suffix with
    | some t => .ok ({ tag := some t }, rest)
    | none => .error "unknown tag handle"
  | rest => .ok ({}, rest)

def endsBlockNode : List Token → Bool
  | .key :: _ | .value :: _ | .blockEnd :: _ => true
  | _ => false

def endsFlowNode : List Token → Bool
  | .flowEntry :: _ | .flowMappingEnd :: _ => true
  | _ => false

def isBlockEntry : List Token → Bool
  | .blockEntry :: _ => true
  | _ => false

/-- A single pair whose key is left out takes the token that shows this. -/
def endsPairKey : List Token → Bool
  | .value :: _ | .flowEntry :: _ | .flowSequenceEnd :: _ => true
  | _ => false

mutual

/-- A node. Blocks may start where `block` says so, and a sequence without indentation of its own
where `flush` does. -/
def node (g : Grammar) (handles : List (String × String)) :
    (fuel : Nat) → (block flush : Bool) → List Token → Except String (Node String × List Token)
  | 0, _, _, _ => .error "document too deep"
  | fuel + 1, block, flush, ts =>
    match ts with
    | .alias name :: rest => .ok (.alias name, rest)
    | ts => do
      let (ps, ts) ← properties g handles ts
      match block, flush, ts with
      | _, true, .blockEntry :: rest => do
        let (items, rest) ← flushItems g handles fuel (.blockEntry :: rest)
        return (.sequence ps items, rest)
      | _, _, .scalar style text :: rest => return (.scalar ps style text, rest)
      | _, _, .flowSequence :: rest => do
        let (items, rest) ← flowItems g handles fuel true rest
        return (.sequence ps items, rest)
      | _, _, .flowMapping :: rest => do
        let (entries, rest) ← flowEntries g handles fuel true rest
        return (.mapping ps entries, rest)
      | true, _, .blockSequence :: rest => do
        let (items, rest) ← blockItems g handles fuel rest
        return (.sequence ps items, rest)
      | true, _, .blockMapping :: rest => do
        let (entries, rest) ← blockEntries g handles fuel rest
        return (.mapping ps entries, rest)
      | _, _, rest =>
        if ps = {} then .error "node expected" else return (.scalar ps .plain "", rest)

def blockItems (g : Grammar) (handles : List (String × String)) :
    (fuel : Nat) → List Token → Except String (List (Node String) × List Token)
  | 0, _ => .error "document too deep"
  | fuel + 1, ts =>
    match ts with
    | .blockEnd :: rest => .ok ([], rest)
    | .blockEntry :: rest => do
      let (item, rest) ←
        match rest with
        | .blockEntry :: _ | .blockEnd :: _ => pure (Node.empty, rest)
        | _ => node g handles fuel true false rest
      let (items, rest) ← blockItems g handles fuel rest
      return (item :: items, rest)
    | _ => .error "entry expected"

def flushItems (g : Grammar) (handles : List (String × String)) :
    (fuel : Nat) → List Token → Except String (List (Node String) × List Token)
  | 0, _ => .error "document too deep"
  | fuel + 1, ts =>
    match ts with
    | .blockEntry :: rest => do
      let (item, rest) ←
        if isBlockEntry rest || endsBlockNode rest then pure (Node.empty, rest)
        else node g handles fuel true false rest
      let (items, rest) ← flushItems g handles fuel rest
      return (item :: items, rest)
    | rest => .ok ([], rest)

def blockEntries (g : Grammar) (handles : List (String × String)) :
    (fuel : Nat) → List Token → Except String (List (Node String × Node String) × List Token)
  | 0, _ => .error "document too deep"
  | fuel + 1, ts =>
    match ts with
    | .blockEnd :: rest => .ok ([], rest)
    | _ => do
      let (key, rest) ←
        match ts with
        | .key :: rest =>
          if endsBlockNode rest then pure (Node.empty, rest) else node g handles fuel true true rest
        | .value :: _ => if g.bareValues then pure (Node.empty, ts) else .error "key expected"
        | _ => .error "key expected"
      let (value, rest) ←
        match rest with
        | .value :: rest =>
          if endsBlockNode rest then pure (Node.empty, rest) else node g handles fuel true true rest
        | _ => pure (Node.empty, rest)
      let (entries, rest) ← blockEntries g handles fuel rest
      return ((key, value) :: entries, rest)

def flowItems (g : Grammar) (handles : List (String × String)) :
    (fuel : Nat) → (first : Bool) → List Token → Except String (List (Node String) × List Token)
  | 0, _, _ => .error "document too deep"
  | fuel + 1, first, ts =>
    match first, ts with
    | _, .flowSequenceEnd :: rest => .ok ([], rest)
    | false, .flowEntry :: .flowSequenceEnd :: rest => .ok ([], rest)
    | false, .flowEntry :: rest => flowItem g handles fuel rest
    | true, rest => flowItem g handles fuel rest
    | false, _ => .error "comma or bracket expected"

def flowItem (g : Grammar) (handles : List (String × String)) :
    (fuel : Nat) → List Token → Except String (List (Node String) × List Token)
  | 0, _ => .error "document too deep"
  | fuel + 1, ts => do
    let (item, rest) ←
      match ts with
      | .key :: rest => do
        let (key, rest) ←
          if endsPairKey rest then pure (Node.empty, rest.tail)
          else node g handles fuel false false rest
        let (value, rest) ←
          match rest with
          | .value :: rest =>
            match rest with
            | .flowEntry :: _ | .flowSequenceEnd :: _ => pure (Node.empty, rest)
            | _ => node g handles fuel false false rest
          | _ => pure (Node.empty, rest)
        pure (Node.mapping {} [(key, value)], rest)
      | rest => node g handles fuel false false rest
    let (items, rest) ← flowItems g handles fuel false rest
    return (item :: items, rest)

def flowEntries (g : Grammar) (handles : List (String × String)) :
    (fuel : Nat) → (first : Bool) → List Token →
      Except String (List (Node String × Node String) × List Token)
  | 0, _, _ => .error "document too deep"
  | fuel + 1, first, ts =>
    match first, ts with
    | _, .flowMappingEnd :: rest => .ok ([], rest)
    | false, .flowEntry :: .flowMappingEnd :: rest => .ok ([], rest)
    | false, .flowEntry :: rest => flowPair g handles fuel rest
    | true, rest => flowPair g handles fuel rest
    | false, _ => .error "comma or brace expected"

def flowPair (g : Grammar) (handles : List (String × String)) :
    (fuel : Nat) → List Token → Except String (List (Node String × Node String) × List Token)
  | 0, _ => .error "document too deep"
  | fuel + 1, ts => do
    let (key, rest, mayHaveValue) ←
      match ts with
      | .key :: rest =>
        if endsFlowNode rest then pure (Node.empty, rest, true)
        else match rest with
          | .value :: _ => pure (Node.empty, rest, true)
          | _ => do
            let (key, rest) ← node g handles fuel false false rest
            pure (key, rest, true)
      | .value :: _ =>
        if g.bareValues then pure (Node.empty, ts, true) else .error "key expected"
      | rest => do
        let (key, rest) ← node g handles fuel false false rest
        pure (key, rest, false)
    let (value, rest) ←
      match mayHaveValue, rest with
      | true, .value :: rest =>
        if endsFlowNode rest then pure (Node.empty, rest) else node g handles fuel false false rest
      | _, _ => pure (Node.empty, rest)
    let (entries, rest) ← flowEntries g handles fuel false rest
    return ((key, value) :: entries, rest)

end

def directives (g : Grammar) (seenVersion : Bool) (handles : List (String × String)) :
    List Token → Except String (List (String × String) × List Token)
  | .version major minor :: rest =>
    if seenVersion then .error "second version"
    else if g.version major minor then directives g true (g.afterVersion handles) rest
    else .error "version not known"
  | .tagHandle handle lead :: rest =>
    match g.addHandle handles handle lead with
    | some handles => directives g seenVersion handles rest
    | none => .error "second meaning of a tag handle"
  | rest => .ok (handles, rest)

def isDirective : List Token → Bool
  | .version .. :: _ | .tagHandle .. :: _ => true
  | _ => false

def skipEnds : List Token → List Token
  | .documentEnd :: rest => skipEnds rest
  | rest => rest

def root (g : Grammar) (handles : List (String × String)) (fuel : Nat) (ts : List Token) :
    Except String (Node String × List Token) :=
  match ts with
  | [] | .documentStart :: _ | .documentEnd :: _ => .ok (.empty, ts)
  | _ => if isDirective ts then .ok (.empty, ts) else node g handles fuel true false ts

/-- The documents of a stream. `bare` says whether the next one may do without a start marker. -/
def documents (g : Grammar) (fuel : Nat) : (left : Nat) → (bare : Bool) → List Token →
    Except String (List (Node String))
  | 0, _, _ => .error "too many documents"
  | left + 1, bare, ts => do
    let ts := if g.openEnds ∨ ¬ bare then skipEnds ts else ts
    match ts with
    | [] => return []
    | _ => do
      let (doc, rest) ←
        if bare ∧ ¬ isDirective ts ∧ ts.head? ≠ some .documentStart then
          node g [] fuel true false ts
        else do
          let (handles, rest) ← directives g false [] ts
          match rest with
          | .documentStart :: rest => root g handles fuel rest
          | _ => .error "document start expected"
      let ended := rest.head? = some .documentEnd
      let rest := if ended then rest.tail else rest
      if g.strictDirectives ∧ ¬ ended ∧ isDirective rest then .error "document end expected"
      else do
        let docs ← documents g fuel left (ended && g.openEnds) rest
        return doc :: docs

end Parse

/-- Every call of the parser takes a token before it calls itself three times more. -/
def documents (g : Grammar) (tokens : List Token) : Except String (List (Node String)) :=
  Parse.documents g (4 * tokens.length + 4) (tokens.length + 1) true tokens

end Preopt.Yaml
