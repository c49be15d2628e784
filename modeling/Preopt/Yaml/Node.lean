import Preopt.Yaml.Token

/-! Documents as trees. A document is read with anchors by name; numbering them settles which node
an alias means. -/

namespace Preopt.Yaml

structure Tag where
  lead : String
  suffix : String
  deriving DecidableEq, Repr

def Tag.text (t : Tag) : String := t.lead ++ t.suffix

def coreLead : String := "tag:yaml.org,2002:"

structure Properties (α : Type) where
  anchor : Option α := none
  tag : Option Tag := none
  deriving DecidableEq, Repr

inductive Node (α : Type)
  | scalar (properties : Properties α) (style : Style) (text : String)
  | sequence (properties : Properties α) (items : List (Node α))
  | mapping (properties : Properties α) (entries : List (Node α × Node α))
  | alias (name : α)

namespace Node

def empty {α : Type} : Node α := .scalar {} .plain ""

abbrev Names := List (String × Nat)

def numbered (next : Names → Nat) (names : Names) (ps : Properties String) :
    Properties Nat × Names :=
  match ps.anchor with
  | some a => ({ anchor := some (next names), tag := ps.tag }, (a, next names) :: names)
  | none => ({ tag := ps.tag }, names)

mutual

/-- Numbers anchors in the order they are written, with `next` naming the number of each. An alias
takes the number its name has at that point; a name without one is a fault. -/
def number (next : Names → Nat) : Node String → Names → Option (Node Nat × Names)
  | .alias name, names => (names.lookup name).map fun n => (.alias n, names)
  | .scalar ps style text, names =>
    let (ps, names) := numbered next names ps
    some (.scalar ps style text, names)
  | .sequence ps items, names =>
    let (ps, names) := numbered next names ps
    (numberAll next items names).map fun (items, names) => (.sequence ps items, names)
  | .mapping ps entries, names =>
    let (ps, names) := numbered next names ps
    (numberEntries next entries names).map fun (entries, names) => (.mapping ps entries, names)

def numberAll (next : Names → Nat) : List (Node String) → Names → Option (List (Node Nat) × Names)
  | [], names => some ([], names)
  | item :: rest, names => do
    let (item, names) ← number next item names
    let (rest, names) ← numberAll next rest names
    return (item :: rest, names)

def numberEntries (next : Names → Nat) :
    List (Node String × Node String) → Names → Option (List (Node Nat × Node Nat) × Names)
  | [], names => some ([], names)
  | (key, value) :: rest, names => do
    let (key, names) ← number next key names
    let (value, names) ← number next value names
    let (rest, names) ← numberEntries next rest names
    return ((key, value) :: rest, names)

end

def properties {α : Type} : Node α → Properties α
  | .scalar ps .. | .sequence ps _ | .mapping ps _ => ps
  | .alias _ => {}

mutual

def anchored {α : Type} : Node α → List (α × Node α)
  | .alias _ => []
  | .scalar ps style text => ps.anchor.toList.map (·, .scalar ps style text)
  | .sequence ps items => ps.anchor.toList.map (·, .sequence ps items) ++ anchoredAll items
  | .mapping ps entries => ps.anchor.toList.map (·, .mapping ps entries) ++ anchoredEntries entries

def anchoredAll {α : Type} : List (Node α) → List (α × Node α)
  | [] => []
  | item :: rest => anchored item ++ anchoredAll rest

def anchoredEntries {α : Type} : List (Node α × Node α) → List (α × Node α)
  | [] => []
  | (key, value) :: rest => anchored key ++ (anchored value ++ anchoredEntries rest)

end

end Node
end Preopt.Yaml
