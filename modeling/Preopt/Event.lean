import Preopt.Source

/-! What a build reports while it works, each event with its level and its line. -/

namespace Preopt

inductive Level
  | trace
  | debug
  | info
  | warn
  deriving DecidableEq, Repr

def Level.name : Level → String
  | .trace => "TRACE"
  | .debug => "DEBUG"
  | .info => "INFO"
  | .warn => "WARN"

def programName : String := "dexpreopt-config"
def programVersion : String := "0.1.0"

inductive Event
  | computing (key : String)
  | noConfig
  | configLoaded (path : Path)
  | configResolved (source : Source) (bootJars artJars : Nat) (disabled : Bool)
  | imageDerived (name : String) (modules targets : Nat) (zipped : Bool)
  | lookupsMade (computations hits percent : Nat)
  | valuesDerived (configs images : Nat)
  | settingsLoading (path : Path)
  | settingsLoaded (device : String) (outDir : Path) (targets : Nat)
  | loggingStarted (dir : Path) (verbose : Bool)
  | started
  deriving DecidableEq

namespace Event

def level : Event → Level
  | .computing _ => .trace
  | .noConfig => .warn
  | .imageDerived .. | .settingsLoaded .. | .loggingStarted .. | .started => .debug
  | _ => .info

def text : Event → String
  | .computing key => s!"Computing once value {key}"
  | .noConfig => "No dexpreopt global config set, dexpreopt is disabled"
  | .configLoaded path => s!"Loaded dexpreopt global config from {path.text}"
  | .configResolved source bootJars artJars disabled =>
    s!"Resolved dexpreopt global config from {source.text}: {bootJars} boot jars, " ++
      s!"{artJars} ART jars, preopt " ++ if disabled then "disabled" else "enabled"
  | .imageDerived name modules targets zipped =>
    s!"Derived boot image config {name}: {modules} modules, {targets} targets, zip={zipped}"
  | .lookupsMade computations hits percent =>
    s!"Resolution metrics: {computations} computations, {hits} cache hits ({percent}% hit ratio)"
  | .valuesDerived configs images =>
    s!"Derived {configs} global config(s) and {images} boot image variant(s)"
  | .settingsLoading path => s!"Loading build settings from {path.text}"
  | .settingsLoaded device outDir targets =>
    s!"Build settings: device={device}, out_dir={outDir.text}, targets={targets}"
  | .loggingStarted dir verbose =>
    s!"Logging initialized: dir={dir.text}, prefix={programName}, verbose={verbose}"
  | .started => s!"Starting {programName} v{programVersion}"

end Event
end Preopt
