import Preopt.Number.Decimal
import Preopt.Yaml.Node
import Preopt.Yaml.Place

/-! Documents as data. What a plain scalar means follows from how it is written, unless a core tag
says what it has to be; a scalar that is not what its tag says is bad. -/

namespace Preopt.Yaml

inductive Scalar
  | null
  | flag (b : Bool)
  | whole (n : Int)
  | real (numeral : String)
  | text (s : String)
  deriving DecidableEq, Repr

inductive Datum
  | bad
  | scalar (s : Scalar)
  | list (items : List Datum)
  /-- Keys are scalars, or nothing where the key is a collection. -/
  | table (entries : List (Option Scalar × Datum))

namespace Scalar

def integer? (base : Nat) (cs : List Char) : Option Int :=
  let (negative, ds) := Decimal.signed cs
  let magnitude? : Option Nat :=
    if ds = [] then none
    else ds.foldl (fun n c => n.bind fun n => (digit? base c).map (base * n + ·)) (some 0)
  magnitude?.bind fun m =>
    let n : Int := if negative then -m else m
    if Int64.minValue.toInt ≤ n ∧ n ≤ Int64.maxValue.toInt then some n else none

def specialReals : List String :=
  [".inf", ".Inf", ".INF", "+.inf", "+.Inf", "+.INF", "-.inf", "-.Inf", "-.INF", ".nan", ".NaN",
    ".NAN"]

def isReal (text : String) : Bool :=
  text ∈ specialReals || (Decimal.parse? text.toList).isSome

def marked? : List Char → Option Int
  | '0' :: 'x' :: ds => integer? 16 ds
  | '0' :: 'o' :: ds => integer? 8 ds
  | '+' :: ds => integer? 10 ds
  | _ => none

def ofPlain (text : String) : Scalar :=
  match marked? text.toList, integer? 10 text.toList with
  | some n, _ => .whole n
  | none, some n => .whole n
  | none, none =>
    if text ∈ ["", "~", "null"] then .null
    else if text ∈ ["true", "True", "TRUE"] then .flag true
    else if text ∈ ["false", "False", "FALSE"] then .flag false
    else if isReal text then .real text
    else .text text

def ofTagged? (kind text : String) : Option Scalar :=
  match kind with
  | "bool" =>
    if text = "true" then some (.flag true) else if text = "false" then some (.flag false) else none
  | "int" => (integer? 10 text.toList).map .whole
  | "float" => if isReal text then some (.real text) else none
  | "null" => if text ∈ ["~", "null"] then some .null else none
  | _ => some (.text text)

end Scalar

namespace Datum

def ofScalar (tag : Option Tag) (style : Style) (text : String) : Datum :=
  if style ≠ .plain then .scalar (.text text)
  else match tag with
    | none => .scalar (.ofPlain text)
    | some t =>
      if t.lead = coreLead then
        match Scalar.ofTagged? t.suffix text with
        | some s => .scalar s
        | none => .bad
      else .scalar (.text text)

def scalar? : Datum → Option Scalar
  | .scalar s => some s
  | _ => none

/-- Makes a table of keys and values in turn. A bad datum is passed over where a key is due, a last
key without value is dropped, and no key may come twice. -/
def tabulate (entries : List (Option Scalar × Datum)) :
    List Datum → Option (List (Option Scalar × Datum))
  | [] => some entries
  | .bad :: rest => tabulate entries rest
  | [_] => some entries
  | key :: value :: rest =>
    if key.scalar?.isSome ∧ entries.any (·.1 = key.scalar?) then none
    else tabulate (entries ++ [(key.scalar?, value)]) rest

abbrev Known := List (Nat × Datum)

def note (ps : Properties Nat) (d : Datum) (known : Known) : Datum × Known :=
  (d, ps.anchor.toList.map (·, d) ++ known)

mutual

/-- Nothing if a key comes twice. An alias to a node that is still being read is bad. -/
def load : Node Nat → Known → Option (Datum × Known)
  | .alias n, known => some ((known.lookup n).getD .bad, known)
  | .scalar ps style text, known => some (note ps (ofScalar ps.tag style text) known)
  | .sequence ps items, known => do
    let (items, known) ← loadAll items known
    return note ps (.list items) known
  | .mapping ps entries, known => do
    let (flat, known) ← loadEntries entries known
    let entries ← tabulate [] flat
    return note ps (.table entries) known

def loadAll : List (Node Nat) → Known → Option (List Datum × Known)
  | [], known => some ([], known)
  | item :: rest, known => do
    let (d, known) ← load item known
    let (ds, known) ← loadAll rest known
    return (d :: ds, known)

def loadEntries : List (Node Nat × Node Nat) → Known → Option (List Datum × Known)
  | [], known => some ([], known)
  | (key, value) :: rest, known => do
    let (k, known) ← load key known
    let (v, known) ← load value known
    let (ds, known) ← loadEntries rest known
    return (k :: v :: ds, known)

end

def ofNode? (root : Node String) : Option Datum := do
  let (root, _) ← root.number (·.length) []
  let (d, _) ← load root []
  return d

end Datum
end Preopt.Yaml
