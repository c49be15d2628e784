import Preopt.Assoc
import Preopt.GlobalConfig
import Preopt.Image.Profile
import Preopt.Settings

/-! Boot images. An image lists its modules, ART modules first, with the jar each has on the device
and in the build tree, and for every architecture the files compiled from them. All of it follows
from the settings, one global config and a profile. -/

namespace Preopt

/-- Modules whose installed jar has another name than the module. -/
def stemOverrides : List (String × String) := [("framework-minus-apex", "framework")]

def stemOf (module : String) : String := (Assoc.get? stemOverrides module).getD module

def without (list removed : List String) : List String := list.filter (· ∉ removed)

structure Image where
  name : String
  stem : String
  modules : List String
  dexLocations : List String
  dexPaths : List Path
  dir : Path
  symbolsDir : Path
  targets : List Target
  images : List (Arch × Path)
  imageDeps : List (Arch × List Path)
  zip : Option Path
  deriving DecidableEq, Repr

namespace Image

def artJarDir : Path := ⟨"/apex/com.android.art/javalib"⟩
def frameworkDir : Path := ⟨"/system/framework"⟩
def fileExtensions : List String := [".art", ".oat", ".vdex"]

def jarLocation (dir : Path) (module : String) : String := (dir.join (stemOf module ++ ".jar")).text

def frameworkModules (config : GlobalConfig) : List String :=
  without config.bootJars (config.artApexJars ++ config.productUpdatableBootModules)

def modulesOf (config : GlobalConfig) (p : Profile) : List String :=
  config.artApexJars ++ if p.artOnly then [] else frameworkModules config

def locationsOf (config : GlobalConfig) (p : Profile) : List String :=
  config.artApexJars.map (jarLocation artJarDir) ++
    if p.artOnly then [] else (frameworkModules config).map (jarLocation frameworkDir)

/-- The files of the first module carry the image's stem alone. -/
def fileBases (stem : String) : List String → List String
  | [] => []
  | _ :: later => stem :: later.map fun m => stem ++ "-" ++ stemOf m

def filesOf (stem : String) (modules : List String) (dir : Path) (exts : List String) : List Path :=
  (fileBases stem modules).flatMap fun base => exts.map fun ext => dir.join (base ++ ext)

def moduleFiles (image : Image) (dir : Path) (exts : List String) : List Path :=
  filesOf image.stem image.modules dir exts

def archDir (dir : Path) (arch : Arch) : Path := (dir.join "system/framework").join arch.name

def derive (s : Settings) (config : GlobalConfig) (p : Profile) : Image :=
  let modules := modulesOf config p
  let dir := s.outputPath [s.deviceName, "dex_" ++ p.name ++ "jars"]
  let targets := s.plainTargets
  { name := p.name
    stem := p.stem
    modules := modules
    dexLocations := locationsOf config p
    dexPaths := modules.map fun m =>
      s.outputPath [s.deviceName, "dex_" ++ p.name ++ "jars_input", m ++ ".jar"]
    dir := dir
    symbolsDir := s.outputPath [s.deviceName, "dex_" ++ p.name ++ "jars_unstripped"]
    targets := targets
    images := targets.foldl
      (fun done t => Assoc.put done t.arch ((archDir dir t.arch).join (p.stem ++ ".art"))) []
    imageDeps := targets.foldl
      (fun done t =>
        Assoc.put done t.arch (filesOf p.stem modules (archDir dir t.arch) fileExtensions)) []
    zip := if p.needsZip then some (dir.join (p.stem ++ ".zip")) else none }

end Image
end Preopt
