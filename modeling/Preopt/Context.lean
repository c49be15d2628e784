import Preopt.Classpath
import Preopt.Error
import Preopt.Slot

/-! Requests on one build. Each derived value has a slot and is derived from other slots' values at
most once, all of them in the end from the one global config. -/

namespace Preopt

namespace Key

def globalConfig : Key := ⟨.config, "DexpreoptGlobalConfig"⟩
def injectedConfig : Key := ⟨.config, "TestDexpreoptGlobalConfig"⟩
def systemServerClasspath : Key := ⟨.list, "systemServerClasspath"⟩
def bootClasspath : Key := ⟨.list, "defaultBootclasspath"⟩

def image : Variant → Key
  | .default => ⟨.image, "defaultBootImageConfig"⟩
  | .apex => ⟨.image, "apexBootImageConfig"⟩
  | .art => ⟨.image, "artBootImageConfig"⟩

end Key

namespace Build

open Once

variable (s : Settings) (files : FileTree)

def orThrow {ε α : Type} (wrap : ε → Error) : Except ε α → Work Error α
  | .ok v => return v
  | .error e => throw (wrap e)

def loadConfig (path : Path) : Work Error (GlobalConfig × ByteArray) := do
  let bytes ← orThrow (.unreadableConfig path) (files.read path)
  let config ← orThrow (.malformedConfig path) (GlobalConfig.ofBytes bytes)
  Work.update (·.report (.configLoaded path))
  return (config, bytes)

def fromFile (path : Path) : Work Error Resolved := do
  Work.update (·.depend path)
  let (config, bytes) ← loadConfig files path
  orThrow .invalidConfig config.validate
  return ⟨config, some bytes, .file path⟩

/-- The injected config, or the disabled one, which from then on counts as injected. -/
def fromInjection : Work Error Resolved :=
  Work.once Key.injectedConfig do
    Work.update (·.report .noConfig)
    return ⟨.disabled, none, .fallback⟩

def globalConfig : Work Error Resolved :=
  Work.once Key.globalConfig do
    let isInjected := (← get).slots.contains Key.injectedConfig
    let resolved ←
      match Source.select s.globalConfig isInjected with
      | .file path => fromFile files path
      | _ => fromInjection
    Work.update (·.count .addConfig)
    Work.update (·.report (.configResolved resolved.source resolved.config.bootJars.length
      resolved.config.artApexJars.length resolved.config.disablePreopt))
    return resolved

def inject (config : GlobalConfig) : Work Error Unit := do
  if (← get).slots.contains Key.globalConfig then throw .lateInjection
  orThrow .invalidConfig config.validate
  if ← Work.insert Key.injectedConfig ⟨config, none, .injected⟩ then return
  throw .lateInjection

def imageWith (name : String) (p : Profile) : Work Error Image :=
  Work.once (⟨.image, name⟩ : Key) do
    let resolved ← globalConfig s files
    let image := Image.derive s resolved.config p
    Work.update (·.count .addImage)
    Work.update (·.report
      (.imageDerived p.name image.modules.length image.targets.length image.zip.isSome))
    return image

def image (v : Variant) : Work Error Image := imageWith s files (Key.image v).name v.profile

def systemServerClasspath : Work Error (List String) :=
  Work.once Key.systemServerClasspath do
    let resolved ← globalConfig s files
    orThrow .unusableConfig (Classpath.systemServer resolved.config)

def bootClasspath : Work Error (List String) :=
  Work.once Key.bootClasspath do
    let resolved ← globalConfig s files
    let image ← image s files .default
    return Classpath.boot resolved.config image

def makeVars : Work Error (List (String × String)) := do
  let boot ← bootClasspath s files
  let image ← image s files .default
  let systemServer ← systemServerClasspath s files
  return MakeVars.all boot image systemServer

def exportMakeVars {ρ : Type} (strict : ρ → String → String → ρ) (receiver : ρ) : Work Error ρ := do
  return MakeVars.send strict receiver (← makeVars s files)

end Build
end Preopt
