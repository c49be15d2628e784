import Preopt.CommandLine.Grammar

/-! Help pages: what a command is for, how it is used, and what may stand with it. -/

namespace Preopt.CommandLine

def programAbout : String :=
  "Resolves boot image and classpath configuration for dexpreopting a device platform"

def columns (rows : List (String × String)) : List String :=
  let width := (rows.map (·.1.length)).foldl max 0
  rows.map fun (left, right) =>
    "  " ++ left ++ String.ofList (List.replicate (width - left.length) ' ') ++ "  " ++ right

def optRow (o : Opt) : String × String := ("    " ++ o.text, o.about)

def flagRow (f : Flag) : String × String :=
  (String.ofList ['-', f.letter, ',', ' '] ++ f.text, f.about)

namespace Level

def about : Level → String
  | .program => programAbout
  | .behind v => v.about

def usage : Level → String
  | .program => programName ++ " [OPTIONS] <COMMAND>"
  | .behind .help => programName ++ " help [COMMAND]..."
  | .behind v => programName ++ " " ++ v.name ++ if v = .bootImage then " [OPTIONS]" else ""

def lists (l : Level) : List (String × List (String × String)) :=
  [("Commands:", l.verbs.map fun v => (v.name, v.about)),
   ("Arguments:",
    if l = .behind .help then [("[COMMAND]...", "Print help for the subcommand(s)")] else []),
   ("Options:", l.options.map optRow ++ l.flags.map flagRow)].filter (·.2 ≠ [])

def page (l : Level) : String :=
  let parts := l.lists.map fun (heading, rows) =>
    "\n" ++ "\n".intercalate (heading :: columns rows) ++ "\n"
  l.about ++ "\n\nUsage: " ++ l.usage ++ "\n" ++ String.join parts

end Level
end Preopt.CommandLine
