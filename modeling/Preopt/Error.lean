import Preopt.FileTree
import Preopt.GlobalConfig.Reading

/-! Why a request on a build fails. -/

namespace Preopt

inductive Error
  | unreadableConfig (path : Path) (cause : FileTree.Fault)
  | malformedConfig (path : Path) (cause : GlobalConfig.ReadingFault)
  | invalidConfig (cause : GlobalConfig.Fault)
  | unusableConfig (cause : GlobalConfig.Fault)
  | lateInjection
  | slotFilled (name : String)
  deriving DecidableEq

def Error.message : Error → String
  | .unreadableConfig path cause =>
    "Failed to read dexpreopt global config " ++ path.text ++ ": " ++ cause.message
  | .malformedConfig path cause =>
    "Failed to parse dexpreopt global config " ++ path.text ++ ": " ++ cause.message
  | .invalidConfig cause => "Invalid dexpreopt global config: " ++ cause.message
  | .unusableConfig cause => cause.message
  | .lateInjection => "test global config must be set before the global config is first resolved"
  | .slotFilled name => "once slot " ++ name ++ " already holds a value"

end Preopt
