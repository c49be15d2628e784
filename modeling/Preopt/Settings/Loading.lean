import Preopt.Event
import Preopt.Settings
import Preopt.Settings.Reading

/-! Loading settings: defaults, then a file, then the environment, the later ones winning, and at
last the check that every setting is of its kind. -/

namespace Preopt.Settings

namespace Value

def text? : Value → Option String
  | .flag b => some (toString b)
  | .whole n => some (toString n)
  | .real x => some x.text
  | .text s => some s
  | .nothing | .list _ | .table _ => none

/-- A name out of a few is text, or a table with that name as its only key. -/
def name? : Value → Option String
  | .text s => some s
  | .table [(key, _)] => some key
  | _ => none

def oneOf? {α : Type} (ofName? : String → Option α) (v : Value) : Option α := v.name?.bind ofName?

def bridge? : Option Value → Option NativeBridge
  | some v => oneOf? NativeBridge.ofName? v
  | none => some .disabled

def target? : Value → Option Target
  | .table es => do
    let os ← oneOf? Os.ofName? (← Assoc.get? es "os")
    let arch ← oneOf? Arch.ofName? (← Assoc.get? es "arch")
    return ⟨os, arch, ← bridge? (Assoc.get? es "native_bridge")⟩
  | .list (os :: arch :: rest) => do
    return ⟨← oneOf? Os.ofName? os, ← oneOf? Arch.ofName? arch, ← bridge? rest.head?⟩
  | _ => none

def targets? : Option Value → Option (List Target)
  | some (.list items) => items.mapM target?
  | some _ => none
  | none => some []

def configPath? : Option Value → Option (Option Path)
  | some .nothing | none => some none
  | some v => v.text?.map fun s => some ⟨s⟩

def settings? (v : Value) : Option Settings := do
  return {
    deviceName := ← (v.get "device_name").text?
    outDir := ⟨← (v.get "out_dir").text?⟩
    globalConfig := ← configPath? (Assoc.get? v.entries "global_config")
    targets := ← targets? (Assoc.get? v.entries "targets") }

def assignAll (v : Value) (entries : List (String × Value)) : Value :=
  entries.foldl (fun v (key, new) => v.assign key new) v

def defaults : Value := .table [("device_name", .text "generic"), ("out_dir", .text "out")]

end Value

def load? (files : FileTree) (file : Option Path) (env : List (String × String)) :
    Option Settings := do
  let fromFile ←
    match file with
    | some path => readFile? files path
    | none => some []
  ((Value.defaults.assignAll fromFile).assignAll (ofVariables env)).settings?

def load (files : FileTree) (file : Option Path) (env : List (String × String)) :
    Option Settings × List Event :=
  let loading := file.toList.map .settingsLoading
  match load? files file env with
  | some s => (some s, loading ++ [.settingsLoaded s.deviceName s.outDir s.targets.length])
  | none => (none, loading)

end Preopt.Settings
