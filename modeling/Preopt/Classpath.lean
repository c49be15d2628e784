import Preopt.Image

/-! The two classpaths of a device and the make variables that carry them. A classpath is a list of
jar locations; a variable joins one with colons. -/

namespace Preopt

namespace Classpath

def platformJar (module : String) : String := (Image.frameworkDir.join (module ++ ".jar")).text

def apexJar (pair : ApexJar) : String :=
  (((Path.join ⟨"/apex"⟩ pair.apex).join "javalib").join (pair.jar ++ ".jar")).text

def systemServer (config : GlobalConfig) : Except GlobalConfig.Fault (List String) := do
  let pairs ← config.updatableSystemServerJars.mapM GlobalConfig.splitPair
  return config.systemServerJars.map platformJar ++ pairs.map apexJar

def boot (config : GlobalConfig) (image : Image) : List String :=
  image.dexLocations ++ config.productUpdatableBootLocations

end Classpath

namespace MakeVars

def joined (list : List String) : String := ":".intercalate list

def all (boot : List String) (image : Image) (systemServer : List String) :
    List (String × String) :=
  [("PRODUCT_BOOTCLASSPATH", joined boot),
   ("PRODUCT_DEX2OAT_BOOTCLASSPATH", joined image.dexLocations),
   ("PRODUCT_SYSTEM_SERVER_CLASSPATH", joined systemServer),
   ("DEXPREOPT_BOOT_JARS_MODULES", joined image.modules)]

def send {ρ : Type} (strict : ρ → String → String → ρ) (receiver : ρ)
    (vars : List (String × String)) : ρ :=
  vars.foldl (fun r v => strict r v.1 v.2) receiver

end MakeVars
end Preopt
