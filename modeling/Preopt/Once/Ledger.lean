import Preopt.Counters
import Preopt.Event
import Preopt.Once.Slots

/-! What a build has stored, counted, reported and read. Work on a ledger may fail, and what it
wrote before failing stays written. `once` is how values come into slots: a filled slot answers, an
empty one runs the work that makes its value, and failing work leaves it empty. -/

namespace Preopt.Once

structure Ledger (κ : Type) [Kinds κ] where
  slots : Slots κ := []
  counters : Counters := {}
  events : List Event := []
  dependencies : List Path := []

variable {κ : Type} [Kinds κ] [DecidableEq κ]

namespace Ledger

def touch (l : Ledger κ) (k : Key κ) : Ledger κ := { l with slots := l.slots.touch k }

def store (l : Ledger κ) (k : Key κ) (v : k.Value) : Ledger κ :=
  { l with slots := l.slots.put k v }

def count (l : Ledger κ) (add : Counters → Counters) : Ledger κ :=
  { l with counters := add l.counters }

def report (l : Ledger κ) (e : Event) : Ledger κ := { l with events := l.events ++ [e] }

def depend (l : Ledger κ) (p : Path) : Ledger κ :=
  if l.dependencies.any p.same then l else { l with dependencies := l.dependencies ++ [p] }

def reportTotals (l : Ledger κ) : Ledger κ :=
  let c := l.counters
  (l.report (.lookupsMade c.computations.toNat c.hits.toNat c.hitPercent)).report
    (.valuesDerived c.configs.toNat c.images.toNat)

end Ledger

abbrev Work (κ : Type) [Kinds κ] (ε : Type) := ExceptT ε (StateM (Ledger κ))

namespace Work

variable {ε : Type}

def update (f : Ledger κ → Ledger κ) : Work κ ε Unit := modify f

/-- The value of a key, with a note from the work that made it if that work ran now. -/
def onceNoting {α : Type} (k : Key κ) (make : Work κ ε (k.Value × α)) :
    Work κ ε (k.Value × Option α) := do
  update (·.touch k)
  match (← get).slots.get? k with
  | some v =>
    update (·.count .addHit)
    return (v, none)
  | none =>
    update (·.count .addComputation)
    update (·.report (.computing k.name))
    let (v, note) ← make
    update (·.store k v)
    return (v, some note)

def once (k : Key κ) (make : Work κ ε k.Value) : Work κ ε k.Value := do
  let (v, _) ← onceNoting k (do return (← make, ()))
  return v

def insert (k : Key κ) (v : k.Value) : Work κ ε Bool := do
  update (·.touch k)
  if (← get).slots.contains k then return false
  update (·.store k v)
  return true

end Work
end Preopt.Once
