/-! A profile says how one kind of boot image differs from another: its name, the stem of its files,
whether it is zipped, and whether it holds the ART jars alone. Three profiles are built in. -/

namespace Preopt

structure Profile where
  name : String
  stem : String
  needsZip : Bool
  artOnly : Bool
  deriving DecidableEq, Repr

inductive Variant
  | default
  | apex
  | art
  deriving DecidableEq, Repr

namespace Variant

def all : List Variant := [.default, .apex, .art]

def name : Variant → String
  | .default => "default"
  | .apex => "apex"
  | .art => "art"

def profile : Variant → Profile
  | .default => ⟨"boot", "boot", true, false⟩
  | .apex => ⟨"apex", "apex", false, false⟩
  | .art => ⟨"art", "boot", false, true⟩

def ofName? (s : String) : Option Variant := all.find? (·.name = s)

def unknownMessage (s : String) : String :=
  "unknown boot image variant: " ++ s ++ " (expected default, apex or art)"

end Variant
end Preopt
