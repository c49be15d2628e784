import Preopt.Event
import Preopt.Image.Profile

/-! What may stand on the command line: commands, options that take a value, and flags. -/

namespace Preopt.CommandLine

inductive Opt
  | settings
  | globalConfig
  | device
  | outDir
  | logDir
  | variant
  deriving DecidableEq, Repr

namespace Opt

def name : Opt → String
  | .settings => "settings"
  | .globalConfig => "global-config"
  | .device => "device"
  | .outDir => "out-dir"
  | .logDir => "log-dir"
  | .variant => "variant"

def valueName : Opt → String
  | .settings | .globalConfig => "FILE"
  | .device => "NAME"
  | .outDir | .logDir => "DIR"
  | .variant => "VARIANT"

def text (o : Opt) : String := "--" ++ o.name ++ " <" ++ o.valueName ++ ">"

def about : Opt → String
  | .settings => "YAML build settings file"
  | .globalConfig => "Global dexpreopt config file (overrides the settings file)"
  | .device => "Device name (overrides the settings file)"
  | .outDir => "Build output directory (overrides the settings file)"
  | .logDir => "Also write logs to a daily rotating file in this directory"
  | .variant => "[default: " ++ Variant.default.name ++ "]"

end Opt

inductive Flag
  | verbose
  | help
  | version
  deriving DecidableEq, Repr

namespace Flag

def letter : Flag → Char
  | .verbose => 'v'
  | .help => 'h'
  | .version => 'V'

def name : Flag → String
  | .verbose => "verbose"
  | .help => "help"
  | .version => "version"

def text (f : Flag) : String := "--" ++ f.name

def about : Flag → String
  | .verbose => "Enable debug logging"
  | .help => "Print help"
  | .version => "Print version"

end Flag

inductive Verb
  | makeVars
  | bootImage
  | systemServerClasspath
  | bootClasspath
  | help
  deriving DecidableEq, Repr

namespace Verb

def all : List Verb := [.makeVars, .bootImage, .systemServerClasspath, .bootClasspath, .help]

def name : Verb → String
  | .makeVars => "make-vars"
  | .bootImage => "boot-image"
  | .systemServerClasspath => "system-server-classpath"
  | .bootClasspath => "bootclasspath"
  | .help => "help"

def about : Verb → String
  | .makeVars => "Print the dexpreopt make variables"
  | .bootImage => "Print a boot image config as YAML"
  | .systemServerClasspath => "Print the system server classpath"
  | .bootClasspath => "Print the device boot classpath"
  | .help => "Print this message or the help of the given subcommand(s)"

def ofName? (s : String) : Option Verb := all.find? (·.name = s)

end Verb

inductive Level
  | program
  | behind (v : Verb)
  deriving DecidableEq, Repr

namespace Level

def options : Level → List Opt
  | .program => [.settings, .globalConfig, .device, .outDir, .logDir]
  | .behind .bootImage => [.variant]
  | .behind _ => []

def flags : Level → List Flag
  | .program => [.verbose, .help, .version]
  | .behind .help => []
  | .behind _ => [.help]

def verbs : Level → List Verb
  | .program => Verb.all
  | .behind _ => []

end Level
end Preopt.CommandLine
