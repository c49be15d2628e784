import Preopt.Proofs.CommandLine.Spelling
import Preopt.Proofs.Run.Agreement
import Preopt.Proofs.Settings.Layers

/-! Which source of a setting wins. Defaults give way to the settings file, the file to the
environment and the environment to the command line, one setting at a time: a later source that
gives one setting leaves the others as they were. -/

namespace Preopt

open CommandLine (Command Given Opt Verb Level spelled)
open Settings (Field IsFor Unnamed DefaultsHold fileEntries?)

namespace Settings

def Loads (files : FileTree) (file : Option Path) (env : List (String × String)) (s : Settings) :
    Prop :=
  (load files file env).1 = some s

theorem loads_iff {files : FileTree} {file : Option Path} {env : List (String × String)}
    {s : Settings} : Loads files file env s ↔ load? files file env = some s := by
  rw [Loads, load]
  cases load? files file env <;> rfl

namespace Field

def option : Field → Opt
  | .deviceName => .device
  | .outDir => .outDir
  | .globalConfig => .globalConfig

def override (g : Given) (s : Settings) (f : Field) : Settings :=
  match g.value? f.option with
  | some text => f.replace text s
  | none => s

end Field

def withGiven (g : Given) (s : Settings) : Settings :=
  [Field.deviceName, .outDir, .globalConfig].foldl (Field.override g) s

end Settings

namespace Run

theorem overridden_eq (g : Given) (s : Settings) : overridden s g = s.withGiven g := by
  simp only [overridden, Settings.withGiven, List.foldl_cons, List.foldl_nil, Field.override,
    Field.option]
  cases g.value? .device <;> cases g.value? .outDir <;> cases g.value? .globalConfig <;> rfl

end Run

structure Precedence (files : FileTree) (env : List (String × String)) (date : String) : Prop where
  environment {file : Option Path} {s : Settings} {before after : List (String × String)}
    (f : Field) (text : String) :
    env = before ++ after → Settings.Loads files file env s →
    (∀ setting ∈ env, ¬ IsFor f.key setting) →
    Settings.Loads files file (before ++ (f.variableName, text) :: after) (f.replace text s)
  defaults {file : Option Path} {entries : List (String × Settings.Value)} :
    fileEntries? files file = some entries →
    (∀ s, Settings.Loads files file env s → DefaultsHold entries env s) ∧
    ((∀ name ∈ ["device_name", "out_dir", "global_config", "targets"], Unnamed name entries env) →
      Settings.Loads files file env
        { deviceName := "generic", outDir := ⟨"out"⟩, globalConfig := none, targets := [] })
  commandLine {files' : FileTree} {args : List String} {g : Given} {c : Command} :
    CommandLine.parse args = .ok (g, c) →
    Run.prepared files ((g.value? .logDir).map Path.mk) date = .ok files' →
    Run.Faithful (Settings.load files' ((g.value? .settings).map Path.mk) env).1
      (fun s => .start (s.withGiven g) files') c (Run.run files env date args)
  combinations {choices : List (Opt × String)} {v : Verb} {extra : List String} {c : Command} :
    (choices.map Prod.fst).Nodup → (∀ choice ∈ choices, choice.1 ∈ Level.program.options) →
    CommandLine.command v extra = .ok c →
    CommandLine.parse (choices.map spelled ++ v.name :: extra) = .ok ({ values := choices }, c)

end Preopt
