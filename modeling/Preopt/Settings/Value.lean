import Preopt.Assoc
import Preopt.Number.Decimal

/-! Settings before they are checked: trees of values. Tables merge into tables, key by key; every
other value replaces what was there. A place in a tree is a path of keys and indices, and setting
one makes whatever the path needs on its way. -/

namespace Preopt.Settings

inductive Value
  | nothing
  | flag (b : Bool)
  | whole (n : Int)
  | real (x : Decimal)
  | text (s : String)
  | list (items : List Value)
  | table (entries : List (String × Value))

namespace Value

def entries : Value → List (String × Value)
  | .table es => es
  | _ => []

def items : Value → List Value
  | .list vs => vs
  | _ => []

def get (v : Value) (key : String) : Value := (Assoc.get? v.entries key).getD .nothing

def put (v : Value) (key : String) (new : Value) : Value := .table (Assoc.put v.entries key new)

mutual

def merge (old : Value) : (new : Value) → Value
  | .table new => mergeEntries (.table old.entries) new
  | new => new

def mergeEntries (old : Value) : (new : List (String × Value)) → Value
  | [] => old
  | (key, new) :: rest => mergeEntries (old.put key (merge (old.get key) new)) rest

end

inductive Step
  | key (name : String)
  | index (i : Int)
  deriving DecidableEq, Repr

/-- Items that have one for an index, and where it is. Negative indices count from the end. -/
def reach (items : List Value) (i : Int) : List Value × Nat :=
  let fromEnd := items.length + i
  if 0 ≤ i then (items ++ List.replicate (i.toNat + 1 - items.length) .nothing, i.toNat)
  else if 0 ≤ fromEnd then (items, fromEnd.toNat)
  else (List.replicate (-fromEnd).toNat .nothing ++ items, 0)

def set (new : Value) : (path : List Step) → (old : Value) → Value
  | [], old => old.merge new
  | .key name :: path, old => old.put name (set new path (old.get name))
  | .index i :: path, old =>
    let (items, place) := reach old.items i
    .list (items.modify place (set new path))

end Value
end Preopt.Settings
