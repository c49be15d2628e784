import Preopt.Context

/-! A build with the files around it, driven by requests. Files may change between requests, and a
failed request leaves what it wrote. -/

namespace Preopt

structure Session where
  settings : Settings
  files : FileTree := {}
  ledger : Ledger := {}

namespace Session

def start (settings : Settings) (files : FileTree) : Session :=
  { settings := settings, files := files }

inductive Request : Type → Type 1
  | globalConfig : Request Resolved
  | inject (config : GlobalConfig) : Request Unit
  | image (v : Variant) : Request Image
  | customImage (key : String) (p : Profile) : Request Image
  | systemServerClasspath : Request (List String)
  | bootClasspath : Request (List String)
  | makeVars : Request (List (String × String))
  | exportMakeVars {ρ : Type} (strict : ρ → String → String → ρ) (receiver : ρ) : Request ρ
  | load (path : Path) : Request (GlobalConfig × ByteArray)
  | depend (path : Path) : Request Unit

def Request.work (s : Settings) (files : FileTree) {α : Type} : Request α → Work Error α
  | .globalConfig => Build.globalConfig s files
  | .inject config => Build.inject config
  | .image v => Build.image s files v
  | .customImage key p => Build.imageWith s files key p
  | .systemServerClasspath => Build.systemServerClasspath s files
  | .bootClasspath => Build.bootClasspath s files
  | .makeVars => Build.makeVars s files
  | .exportMakeVars strict receiver => Build.exportMakeVars s files strict receiver
  | .load path => Build.loadConfig files path
  | .depend path => Once.Work.update (·.depend path)

def perform {α : Type} (session : Session) (work : Work Error α) : Except Error α × Session :=
  let (result, ledger) := work.run.run session.ledger
  (result, { session with ledger := ledger })

def ask {α : Type} (session : Session) (r : Request α) : Except Error α × Session :=
  session.perform (r.work session.settings session.files)

def exportMakeVars {ρ : Type} (session : Session) (strict : ρ → String → String → ρ)
    (receiver : ρ) : Except Error ρ × Session :=
  session.ask (.exportMakeVars strict receiver)

def runStep (session : Session) (step : Script.Step) : Script.Answer × Session :=
  let (answer, ledger) := step.run.run session.ledger
  (answer, { session with ledger := ledger })

def reportTotals (session : Session) : Session :=
  { session with ledger := session.ledger.reportTotals }

def settingsText (s : Settings) : String :=
  let path (p : Path) := Text.quoted p.text
  let target (t : Target) :=
    s!"Target \x7b os: {osText t.os}, arch: {archText t.arch}, " ++
      s!"native_bridge: {bridgeText t.nativeBridge} \x7d"
  let config := match s.globalConfig with
    | some p => "Some(" ++ path p ++ ")"
    | none => "None"
  let targets := "[" ++ ", ".intercalate (s.targets.map target) ++ "]"
  "BuildSettings \x7b device_name: " ++ Text.quoted s.deviceName ++ ", out_dir: " ++
    path s.outDir ++ ", global_config: " ++ config ++ ", targets: " ++ targets ++ " \x7d"
where
  osText : Os → String
    | .android => "Android"
    | .host => "Host"
  archText : Arch → String
    | .arm => "Arm"
    | .arm64 => "Arm64"
    | .x86 => "X86"
    | .x86_64 => "X86_64"
  bridgeText : NativeBridge → String
    | .disabled => "Disabled"
    | .enabled => "Enabled"

def text (session : Session) : String :=
  "BuildContext \x7b settings: " ++ settingsText session.settings ++ ", cache: " ++
    session.ledger.slots.text ++ ", .. \x7d"

end Session
end Preopt
