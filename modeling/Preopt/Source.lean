import Preopt.GlobalConfig
import Preopt.Path

/-! Where a build's global config comes from, and the config once it is resolved. -/

namespace Preopt

inductive Source
  | file (path : Path)
  | injected
  | fallback
  deriving DecidableEq, Repr

namespace Source

/-- A configured file comes before an injected config, and that before the fallback. -/
def select (file : Option Path) (isInjected : Bool) : Source :=
  match file with
  | some path => .file path
  | none => if isInjected then .injected else .fallback

def text : Source → String
  | .file path => "File(" ++ Text.quoted path.text ++ ")"
  | .injected => "TestInjected"
  | .fallback => "Default"

end Source

structure Resolved where
  config : GlobalConfig
  raw : Option ByteArray
  source : Source

end Preopt
