import Preopt.Calendar
import Preopt.Run

/-! The program. It takes in the files that the run may look at, lets the run decide everything, and
does what came out. -/

namespace Preopt.Main

def environment : IO (List (String × String)) := do
  let bytes ← IO.FS.readBinFile "/proc/self/environ"
  let entries := ((String.fromUTF8? bytes).getD "").splitOn "\x00"
  return entries.filterMap fun entry =>
    match entry.splitOn "=" with
    | name :: value :: more => some (name, "=".intercalate (value :: more))
    | _ => none

def withAbove (p : Path) : List Path :=
  (List.range (p.text.length + 1)).filterMap fun n =>
    let cs := p.text.toList
    if n = cs.length ∨ cs[n]? = some '/' then some ⟨String.ofList (cs.take n)⟩ else none

def observe (files : FileTree) (p : Path) : IO FileTree := do
  let place := (← IO.currentDir) / p.text
  if ← place.isDir then return files.addDir p
  else
    try return files.addFile p (← IO.FS.readBinFile place)
    catch _ => return files

def observeAll (files : FileTree) (paths : List Path) : IO FileTree :=
  (paths.flatMap withAbove).foldlM observe files

def today : IO String := do
  let clock := (← IO.currentDir) / "/proc/self"
  return Calendar.text (← clock.metadata).modified.sec.toNat

def eventLine (e : Event) : String := e.level.name ++ " " ++ e.text ++ "\n"

def keep (before : FileTree) (o : Run.Outcome) : IO Unit := do
  for (place, content) in o.files.entries do
    if (Assoc.get? before.entries place).isNone then
      let name := "/" ++ "/".intercalate place
      match content with
      | none => IO.FS.createDirAll name
      | some _ =>
        let handle ← IO.FS.Handle.mk name .append
        for e in o.events do handle.putStr (eventLine e)

end Preopt.Main

def main (args : List String) : IO UInt32 := do
  let here := Preopt.FileTree.pieces ⟨(← IO.currentDir).toString⟩
  let env ← Preopt.Main.environment
  let start : Preopt.FileTree := { here := here }
  let known ← Preopt.Main.observeAll start (Preopt.Run.reads start env args)
  let files ← Preopt.Main.observeAll known (Preopt.Run.reads known env args)
  let outcome := Preopt.Run.run files env (← Preopt.Main.today) args
  Preopt.Main.keep files outcome
  for e in outcome.events do IO.eprint (Preopt.Main.eventLine e)
  for line in outcome.ending.report do IO.eprintln line
  IO.print outcome.output
  return outcome.ending.status.toUInt32
