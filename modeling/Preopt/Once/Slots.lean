import Preopt.Text.Quoted

/-! Typed slots. A key is a name together with the kind of value it stands for, so equal names of
different kinds never meet. A slot is there once its key has been asked for, and filled once a value
has been stored in it. Which kinds there are is left open. -/

namespace Preopt.Once

class Kinds (κ : Type) where
  Value : κ → Type

structure Key (κ : Type) where
  kind : κ
  name : String
  deriving DecidableEq, Repr

variable {κ : Type}

def Key.text (k : Key κ) : String := "OnceKey(" ++ Text.quoted k.name ++ ")"

variable [Kinds κ]

abbrev Key.Value (k : Key κ) : Type := Kinds.Value k.kind

structure Slot (κ : Type) [Kinds κ] where
  key : Key κ
  content : Option key.Value

abbrev Slots (κ : Type) [Kinds κ] := List (Slot κ)

variable [DecidableEq κ]

def Slot.contentFor (s : Slot κ) (k : Key κ) : Option (Option k.Value) :=
  if h : s.key = k then some (h ▸ s.content) else none

namespace Slots

def get? (slots : Slots κ) (k : Key κ) : Option k.Value :=
  (slots.findSome? (·.contentFor k)).join

def contains (slots : Slots κ) (k : Key κ) : Bool := (slots.get? k).isSome

def keys (slots : Slots κ) : List (Key κ) := slots.map (·.key)

def touch (slots : Slots κ) (k : Key κ) : Slots κ :=
  if k ∈ slots.keys then slots else slots ++ [⟨k, none⟩]

def put : Slots κ → (k : Key κ) → k.Value → Slots κ
  | [], k, v => [⟨k, some v⟩]
  | s :: rest, k, v => if s.key = k then ⟨k, some v⟩ :: rest else s :: put rest k v

def text (slots : Slots κ) : String :=
  "OnceCache \x7b slots: [" ++ ", ".intercalate (slots.keys.map (Text.quoted ·.name)) ++ "] \x7d"

end Slots
end Preopt.Once
