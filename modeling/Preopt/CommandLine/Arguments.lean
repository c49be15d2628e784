import Preopt.CommandLine.Help

/-! Reading the arguments, one at a time. The value of an option is the argument behind it unless
that looks like an option itself. It is taken up only when the next argument comes or there is none,
so a fault of what follows may be found before a fault of the value. -/

namespace Preopt.CommandLine

inductive Fault
  | noArguments
  | noCommand
  | unknownCommand (arg : String)
  | unexpected (arg : String)
  | unexpectedValue (value : String) (f : Flag)
  | valueMissing (o : Opt)
  | repeatedOption (o : Opt)
  | repeatedFlag (f : Flag)
  | invalidValue (o : Opt) (value reason : String)
  deriving DecidableEq, Repr

def Fault.message : Fault → String
  | .noArguments => programAbout
  | .noCommand => s!"error: '{programName}' requires a subcommand but one was not provided"
  | .unknownCommand arg => s!"error: unrecognized subcommand '{arg}'"
  | .unexpected arg => s!"error: unexpected argument '{arg}' found"
  | .unexpectedValue value f =>
    s!"error: unexpected value '{value}' for '{f.text}' found; no more were expected"
  | .valueMissing o => s!"error: a value is required for '{o.text}' but none was supplied"
  | .repeatedOption o => s!"error: the argument '{o.text}' cannot be used multiple times"
  | .repeatedFlag f => s!"error: the argument '{f.text}' cannot be used multiple times"
  | .invalidValue o value reason => s!"error: invalid value '{value}' for '{o.text}': {reason}"

inductive Stop
  | fault (f : Fault)
  | help (l : Level)
  | version
  deriving DecidableEq, Repr

structure Given where
  values : List (Opt × String) := []
  verbose : Bool := false
  pending : Option (Opt × Option String) := none
  deriving DecidableEq, Repr

namespace Given

def value? (g : Given) (o : Opt) : Option String := g.values.lookup o

def awaitsValue (g : Given) : Bool := g.pending.any (·.2.isNone)

def accept (g : Given) (o : Opt) (value : String) : Except Stop Given :=
  if (g.value? o).isSome then throw (.fault (.repeatedOption o))
  else if o = .variant ∧ Variant.ofName? value = none then
    throw (.fault (.invalidValue o value (Variant.unknownMessage value)))
  else return { g with values := g.values ++ [(o, value)] }

def settle (g : Given) : Except Stop Given :=
  match g.pending with
  | none => return g
  | some (o, none) => throw (.fault (.valueMissing o))
  | some (o, some value) => { g with pending := none }.accept o value

def raise (l : Level) (g : Given) (f : Flag) : Except Stop Given := do
  let g ← g.settle
  match f with
  | .help => throw (.help l)
  | .version => throw .version
  | .verbose =>
    if g.verbose then throw (.fault (.repeatedFlag f)) else return { g with verbose := true }

def raiseLetter (l : Level) (g : Given) (c : Char) : Except Stop Given :=
  match l.flags.find? (·.letter = c) with
  | some f => g.raise l f
  | none => throw (.fault (.unexpected (String.ofList ['-', c])))

def long (l : Level) (g : Given) (cs : List Char) : Except Stop Given :=
  let name := String.ofList (cs.takeWhile (· ≠ '='))
  let value? := (cs.dropWhile (· ≠ '=')).tail?.map String.ofList
  match l.options.find? (·.name = name), l.flags.find? (·.name = name), value? with
  | some o, _, some value => do (← g.settle).accept o value
  | some o, _, none => do return { (← g.settle) with pending := some (o, none) }
  | none, some f, none => g.raise l f
  | none, some f, some value => throw (.fault (.unexpectedValue value f))
  | none, none, _ => throw (.fault (.unexpected ("--" ++ name)))

end Given

def stray (l : Level) (arg : String) : Fault :=
  if l.verbs = [] then .unexpected arg else .unknownCommand arg

def strayLast (l : Level) (arg : String) : Fault :=
  if (l.verbs.map Verb.name).contains arg then .unexpected arg else stray l arg

def readArguments (l : Level) :
    Given → List String → Except Stop (Given × Option (Verb × List String))
  | g, [] => return (g, none)
  | g, arg :: rest =>
    match if g.awaitsValue then none else l.verbs.find? (·.name = arg) with
    | some v => return (g, some (v, rest))
    | none =>
      match arg.toList with
      | ['-', '-'] =>
        match rest with
        | [] => return (g, none)
        | next :: _ => throw (.fault (strayLast l next))
      | '-' :: '-' :: cs => do readArguments l (← g.long l cs) rest
      | '-' :: c :: cs => do readArguments l (← (c :: cs).foldlM (Given.raiseLetter l) g) rest
      | _ =>
        match g.pending with
        | some (o, none) => readArguments l { g with pending := some (o, some arg) } rest
        | _ => throw (.fault (stray l arg))

inductive Command
  | makeVars
  | bootImage (v : Variant)
  | systemServerClasspath
  | bootClasspath
  deriving DecidableEq, Repr

def helpOn : List String → Stop
  | [] => .help .program
  | [name] =>
    match Verb.ofName? name with
    | some v => .help (.behind v)
    | none => .fault (.unknownCommand name)
  | name :: extra :: _ =>
    .fault (.unknownCommand (if (Verb.ofName? name).isSome then extra else name))

def command (v : Verb) (extra : List String) : Except Stop Command :=
  let given : Except Stop Given := do (← readArguments (.behind v) {} extra).1.settle
  match v with
  | .makeVars => given.map fun _ => .makeVars
  | .bootImage =>
    given.map fun g => .bootImage (((g.value? .variant).bind Variant.ofName?).getD .default)
  | .systemServerClasspath => given.map fun _ => .systemServerClasspath
  | .bootClasspath => given.map fun _ => .bootClasspath
  | .help => throw (helpOn extra)

def parse (args : List String) : Except Stop (Given × Command) := do
  let (g, found) ← readArguments .program {} args
  match found with
  | some (v, extra) =>
    let c ← command v extra
    return (← g.settle, c)
  | none =>
    let g ← g.settle
    throw (.fault (if g.values = [] ∧ ¬ g.verbose then .noArguments else .noCommand))

end Preopt.CommandLine
