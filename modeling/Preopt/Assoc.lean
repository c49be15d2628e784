/-! Lists of pairs in the order their keys first came. Putting a key that is present keeps its
place. -/

namespace Preopt.Assoc

variable {α β : Type} [DecidableEq α]

def put : List (α × β) → α → β → List (α × β)
  | [], k, v => [(k, v)]
  | (k', v') :: rest, k, v => if k' = k then (k, v) :: rest else (k', v') :: put rest k v

def get? (entries : List (α × β)) (k : α) : Option β :=
  (entries.find? (·.1 = k)).map (·.2)

def keys (entries : List (α × β)) : List α := entries.map (·.1)

end Preopt.Assoc
