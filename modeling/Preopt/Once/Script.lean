import Preopt.Once.Ledger

/-! Scripts over slots. The work behind a key is itself a script that ends in a value or in a
failure, so look-ups nest to any depth. -/

namespace Preopt.Once

inductive Step (κ : Type) [Kinds κ]
  | once (k : Key κ) (outcome : Except String k.Value) (before : List (Step κ))
  | insert (k : Key κ) (v : k.Value)
  | contains (k : Key κ)
  | keyText (k : Key κ)
  | slotsText

mutual

inductive Answer (κ : Type) [Kinds κ]
  | value (k : Key κ) (v : k.Value) (nested : Option (List (Report κ)))
  | failed (text : String) (nested : List (Report κ))
  | stored (k : Key κ) (v : k.Value)
  | refused (name : String)
  | present (yes : Bool)
  | text (text : String)

inductive Report (κ : Type) [Kinds κ]
  | mk (answer : Answer κ) (counters : Counters)

end

variable {κ : Type} [Kinds κ]

def Report.answer : Report κ → Answer κ
  | .mk answer _ => answer

def Report.counters : Report κ → Counters
  | .mk _ counters => counters

def conclude {α : Type} (outcome : Except String α) (nested : List (Report κ)) :
    Work κ (String × List (Report κ)) (α × List (Report κ)) :=
  match outcome with
  | .ok v => return (v, nested)
  | .error text => throw (text, nested)

variable [DecidableEq κ]

mutual

def Step.run : Step κ → StateM (Ledger κ) (Answer κ)
  | .once k outcome before => do
    let make := do conclude outcome (← runAll before)
    match ← (Work.onceNoting k make).run with
    | .ok (v, nested) => return .value k v nested
    | .error (text, nested) => return .failed text nested
  | .insert k v => do
    match ← (Work.insert (ε := Empty) k v).run with
    | .ok true => return .stored k v
    | _ => return .refused k.name
  | .contains k => do return .present ((← get).slots.contains k)
  | .keyText k => return .text k.text
  | .slotsText => do return .text (← get).slots.text

def runAll : List (Step κ) → StateM (Ledger κ) (List (Report κ))
  | [] => return []
  | step :: rest => do
    let answer ← step.run
    let report := Report.mk answer (← get).counters
    return report :: (← runAll rest)

end

end Preopt.Once
