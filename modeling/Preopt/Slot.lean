import Preopt.Image
import Preopt.Once.Script

/-! What the slots of a build hold: texts, numbers and lists of a caller's own, the global config,
and boot images. -/

namespace Preopt

inductive Kind
  | text
  | number
  | list
  | config
  | image
  deriving DecidableEq, Repr

abbrev Kind.Value : Kind → Type
  | .text => String
  | .number => Int
  | .list => List String
  | .config => Resolved
  | .image => Image

instance : Once.Kinds Kind := ⟨Kind.Value⟩

abbrev Key := Once.Key Kind
abbrev Ledger := Once.Ledger Kind
abbrev Work (ε : Type) := Once.Work Kind ε

namespace Script

abbrev Step := Once.Step Kind
abbrev Answer := Once.Answer Kind
abbrev Report := Once.Report Kind

export Once (runAll)

end Script
end Preopt
