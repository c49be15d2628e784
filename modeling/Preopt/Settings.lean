import Preopt.Path
import Preopt.Target

/-! What one build is about: the device, where its outputs go, where its global config is, and the
machines it compiles for. -/

namespace Preopt

structure Settings where
  deviceName : String := "generic"
  outDir : Path := ⟨"out"⟩
  globalConfig : Option Path := none
  targets : List Target := []
  deriving DecidableEq, Repr

namespace Settings

def outputPath (s : Settings) (pieces : List String) : Path := s.outDir.joinAll pieces

def plainTargets (s : Settings) : List Target := Target.plain s.targets

end Settings
end Preopt
