import Preopt.CommandLine.Arguments
import Preopt.Image.Printing
import Preopt.Session
import Preopt.Settings.Loading

/-! One run of the program: the arguments choose what to resolve, the settings are loaded and
overridden, and the result is printed with the totals reported behind it. -/

namespace Preopt.Run

open CommandLine (Command Given)

inductive Ending
  | done
  | misused (fault : CommandLine.Fault)
  | failed (causes : List String)
  | crashed
  deriving DecidableEq, Repr

def Ending.status : Ending → Nat
  | .done => 0
  | .failed _ => 1
  | .misused _ => 2
  | .crashed => 101

def numbered (start : Nat) : List String → List String
  | [] => []
  | cause :: rest => s!"    {start}: {cause}" :: numbered (start + 1) rest

def Ending.report : Ending → List String
  | .done | .crashed | .failed [] => []
  | .misused .noArguments => [CommandLine.Level.program.page]
  | .misused fault => [fault.message, "", "For more information, try '--help'."]
  | .failed [cause] => ["Error: " ++ cause]
  | .failed [cause, inner] => ["Error: " ++ cause, "", "Caused by:", "    " ++ inner]
  | .failed (cause :: inner) => ["Error: " ++ cause, "", "Caused by:"] ++ numbered 0 inner

structure Outcome where
  ending : Ending
  output : String := ""
  events : List Event := []
  files : FileTree

def causes : Error → List String
  | .unreadableConfig path cause => [(Error.unreadableConfig path cause).message, cause.message]
  | .malformedConfig path cause => [(Error.malformedConfig path cause).message, cause.message]
  | e => [e.message]

def lines (list : List String) : String := String.join (list.map (· ++ "\n"))

def purpose : Command → String
  | .makeVars => "Failed to resolve make variables"
  | .bootImage v => "Failed to resolve " ++ v.name ++ " boot image config"
  | .systemServerClasspath => "Failed to resolve system server classpath"
  | .bootClasspath => "Failed to resolve boot classpath"

def resolve (session : Session) : Command → Except Error String × Session
  | .makeVars =>
    let (vars, session) := session.ask .makeVars
    (vars.map fun vars => lines (vars.map fun (name, value) => name ++ " := " ++ value), session)
  | .bootImage v =>
    let (image, session) := session.ask (.image v)
    (image.map Image.print, session)
  | .systemServerClasspath =>
    let (jars, session) := session.ask .systemServerClasspath
    (jars.map lines, session)
  | .bootClasspath =>
    let (jars, session) := session.ask .bootClasspath
    (jars.map lines, session)

def overridden (s : Settings) (g : Given) : Settings :=
  { s with
    deviceName := (g.value? .device).getD s.deviceName
    outDir := ((g.value? .outDir).map Path.mk).getD s.outDir
    globalConfig := ((g.value? .globalConfig).map Path.mk).or s.globalConfig }

def logName (date : String) : String := programName ++ "." ++ date

/-- Makes the directory for the log and starts the log in it. A directory that is there but cannot
hold a file ends the run. -/
def openLog (files : FileTree) (dir : Path) (date : String) : Except Ending FileTree :=
  let made := if files.exists? dir then .ok files else files.createDirs dir
  match made with
  | .error e => .error (.failed ["Failed to create log directory: " ++ dir.text, e.message])
  | .ok files =>
    match files.lookup dir with
    | .ok (some _) => .error .crashed
    | _ => .ok (files.addFile (dir.join (logName date)) ByteArray.empty)

def prepared (files : FileTree) (logDir : Option Path) (date : String) : Except Ending FileTree :=
  match logDir with
  | some dir => openLog files dir date
  | none => .ok files

def isShown (verbose : Bool) (e : Event) : Bool :=
  match e.level with
  | .trace => false
  | .debug => verbose
  | .info | .warn => true

def execute (files : FileTree) (env : List (String × String)) (date : String) (g : Given)
    (c : Command) : Outcome :=
  let logDir := (g.value? .logDir).map Path.mk
  match prepared files logDir date with
  | .error ending => { ending := ending, files := files }
  | .ok files =>
    let opening := logDir.toList.map (.loggingStarted · g.verbose) ++ [.started]
    let (settings, loading) := Settings.load files ((g.value? .settings).map Path.mk) env
    let shown (events : List Event) := (opening ++ loading ++ events).filter (isShown g.verbose)
    match settings with
    | none =>
      { ending := .failed ["Failed to load build settings", "Build settings error"]
        events := shown []
        files := files }
    | some s =>
      match resolve (.start (overridden s g) files) c with
      | (.error e, session) =>
        { ending := .failed (purpose c :: causes e)
          events := shown session.ledger.events
          files := files }
      | (.ok output, session) =>
        { ending := .done
          output := output
          events := shown session.reportTotals.ledger.events
          files := files }

def run (files : FileTree) (env : List (String × String)) (date : String) (args : List String) :
    Outcome :=
  match CommandLine.parse args with
  | .ok (g, c) => execute files env date g c
  | .error (.fault f) => { ending := .misused f, files := files }
  | .error (.help l) => { ending := .done, output := l.page, files := files }
  | .error .version =>
    { ending := .done, output := programName ++ " " ++ programVersion ++ "\n", files := files }

/-- The files that a run may look at, as far as the files known so far tell. -/
def reads (files : FileTree) (env : List (String × String)) (args : List String) : List Path :=
  match CommandLine.parse args with
  | .ok (g, _) =>
    let settings := (g.value? .settings).map Path.mk
    let config :=
      (Settings.load files settings env).1.bind fun s => (overridden s g).globalConfig
    ((g.value? .logDir).map Path.mk).toList ++ settings.toList.flatMap Settings.spellings ++
      config.toList
  | .error _ => []

end Preopt.Run
