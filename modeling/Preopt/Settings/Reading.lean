import Preopt.FileTree
import Preopt.Settings.KeyPath
import Preopt.Text.Utf8
import Preopt.Yaml.Datum
import Preopt.Yaml.Stream

/-! Where settings come from besides their defaults: a YAML 1.2 file, whose root has to be a
mapping, and environment variables whose names say which setting they are. -/

namespace Preopt.Settings

open Yaml (Datum Scalar)

namespace Value

def keyName? : Option Scalar → Option String
  | some (.text s) | some (.real s) => some s
  | some (.whole n) => some (toString n)
  | some (.flag b) => some (toString b)
  | some .null | none => none

def ofScalar? : Scalar → Option Value
  | .null => some .nothing
  | .flag b => some (.flag b)
  | .whole n => some (.whole n)
  | .real numeral => (Decimal.parse? numeral.toList).map .real
  | .text s => some (.text s)

mutual

/-- Nothing where a key is no scalar or a number is not finite. Of two keys with one name the later
wins. -/
def ofDatum? : Datum → Option Value
  | .bad => some .nothing
  | .scalar s => ofScalar? s
  | .list items => (ofItems? items).map .list
  | .table entries => (ofEntries? [] entries).map .table

def ofItems? : List Datum → Option (List Value)
  | [] => some []
  | d :: rest => do return (← ofDatum? d) :: (← ofItems? rest)

def ofEntries? (done : List (String × Value)) :
    List (Option Scalar × Datum) → Option (List (String × Value))
  | [] => some done
  | (key, d) :: rest => do
    let name ← keyName? key
    let value ← ofDatum? d
    ofEntries? (Assoc.put done name value) rest

end

end Value

def ofBytes? (bytes : ByteArray) : Option (List (String × Value)) := do
  match Yaml.V12.documents (Text.decode (Text.withoutMark bytes.toList)) with
  | .ok [] => return []
  | .ok [root] =>
    match ← Value.ofDatum? (← Datum.ofNode? root) with
    | .table entries => return entries
    | _ => none
  | _ => none

def lastName : List Char → List Char
  | '/' :: rest => lastName rest
  | ['.'] => []
  | '.' :: '/' :: rest => lastName rest
  | cs => cs

def withEnding? (p : Path) (ending : String) : Option Path :=
  let reversed := lastName p.text.toList.reverse
  if reversed = [] ∨ reversed = ['.', '.'] ∨ ['.', '.', '/'].isPrefixOf reversed then none
  else some ⟨String.ofList reversed.reverse ++ ending⟩

def spellings (p : Path) : List Path := p :: [".yaml", ".yml"].filterMap (withEnding? p)

def findFile? (files : FileTree) (p : Path) : Option Path := (spellings p).find? files.isFile

def readFile? (files : FileTree) (p : Path) : Option (List (String × Value)) := do
  let found ← findFile? files p
  match files.read found with
  | .ok bytes => ofBytes? bytes
  | .error _ => none

/-- ASCII letters, and the one other character whose lower case is such a letter. -/
def lower (c : Char) : Char := if c = '\u212a' then 'k' else c.toLower

def variableLead : String := "dexpreopt_"

def variableKey? (name : String) : Option String :=
  let cs := name.toList.map lower
  if variableLead.toList.isPrefixOf cs then some (String.ofList (cs.drop variableLead.length))
  else none

/-- The settings that variables give; of two for one setting the later wins. -/
def ofVariables (env : List (String × String)) : List (String × Value) :=
  env.foldl
    (fun entries (name, text) =>
      match variableKey? name with
      | some key => Assoc.put entries key (.text text)
      | none => entries) []

end Preopt.Settings
