import Preopt.GlobalConfig
import Preopt.Yaml.Stream

/-! Reading a global config. The file is one YAML 1.1 document whose root is a mapping; JSON is such
a document too. Eight keys are known, each at most once, and all other entries are passed over. -/

namespace Preopt.GlobalConfig

inductive ReadingFault
  | notUtf8
  | yaml (what : String)
  | severalDocuments
  | unknownAnchor
  | notMapping
  | keyNotText
  | repeatedKey (key : String)
  | wrongValue (key : String)
  deriving DecidableEq, Repr

def ReadingFault.message : ReadingFault → String
  | .notUtf8 => "not UTF-8 text"
  | .yaml what => what
  | .severalDocuments => "more than one document"
  | .unknownAnchor => "unknown anchor"
  | .notMapping => "a mapping was expected"
  | .keyNotText => "a key is not text"
  | .repeatedKey key => "duplicate field " ++ key
  | .wrongValue key => "wrong kind of value for " ++ key

open Yaml (Node Tag Style)

structure Document where
  root : Node Nat
  anchored : List (Nat × Node Nat)

/-- An anchor's number is the count of different names before it, so the number of a name used again
can fall together with a later one. -/
def Document.ofNode? (root : Node String) : Option Document :=
  (root.number (fun names => (names.map (·.1)).eraseDups.length) []).map fun (root, _) =>
    ⟨root, root.anchored⟩

/-- What an alias means: the last node with its number. -/
def Document.resolve (d : Document) : Node Nat → Node Nat
  | .alias n => (d.anchored.reverse.lookup n).getD (.alias n)
  | node => node

def text? (d : Document) (node : Node Nat) : Option String :=
  match d.resolve node with
  | .scalar _ _ text => some text
  | _ => none

def flagText? (text : String) : Option Bool :=
  if text ∈ ["true", "True", "TRUE"] then some true
  else if text ∈ ["false", "False", "FALSE"] then some false
  else none

/-- A plain scalar, or a literal one tagged as a flag. -/
def flag? (d : Document) (node : Node Nat) : Option Bool :=
  match d.resolve node with
  | .scalar ps style text =>
    let isTagged := ps.tag.map Tag.text = some (Yaml.coreLead ++ "bool")
    if style = .plain ∨ (style = .literal ∧ isTagged) then flagText? text else none
  | _ => none

def list? (d : Document) (node : Node Nat) : Option (List String) :=
  match d.resolve node with
  | .sequence _ items => items.mapM (text? d)
  | .scalar _ style text => if style = .plain ∧ text = "" then some [] else none
  | _ => none

def setter? (key : String) : Option (Document → Node Nat → GlobalConfig → Option GlobalConfig) :=
  match key with
  | "DisablePreopt" =>
    some fun d node c => (flag? d node).map fun v => { c with disablePreopt := v }
  | "DisableGenerateProfile" =>
    some fun d node c => (flag? d node).map fun v => { c with disableGenerateProfile := v }
  | "ArtApexJars" => some fun d node c => (list? d node).map fun v => { c with artApexJars := v }
  | "BootJars" => some fun d node c => (list? d node).map fun v => { c with bootJars := v }
  | "ProductUpdatableBootModules" =>
    some fun d node c => (list? d node).map fun v => { c with productUpdatableBootModules := v }
  | "ProductUpdatableBootLocations" =>
    some fun d node c => (list? d node).map fun v => { c with productUpdatableBootLocations := v }
  | "SystemServerJars" =>
    some fun d node c => (list? d node).map fun v => { c with systemServerJars := v }
  | "UpdatableSystemServerJars" =>
    some fun d node c => (list? d node).map fun v => { c with updatableSystemServerJars := v }
  | _ => none

def decodeEntries (d : Document) :
    (seen : List String) → GlobalConfig → List (Node Nat × Node Nat) →
      Except ReadingFault GlobalConfig
  | _, c, [] => .ok c
  | seen, c, (key, value) :: rest =>
    match text? d key with
    | none => .error .keyNotText
    | some key =>
      match setter? key with
      | none => decodeEntries d seen c rest
      | some set =>
        if key ∈ seen then .error (.repeatedKey key)
        else match set d value c with
          | some c => decodeEntries d (key :: seen) c rest
          | none => .error (.wrongValue key)

def decode (d : Document) : Except ReadingFault GlobalConfig :=
  match d.root with
  | .mapping _ entries => decodeEntries d [] {} entries
  | .scalar _ style text => if style = .plain ∧ text = "" then .ok {} else .error .notMapping
  | _ => .error .notMapping

def ofDocuments : List (Node String) → Except ReadingFault GlobalConfig
  | [] => .ok {}
  | [root] =>
    match Document.ofNode? root with
    | some d => decode d
    | none => .error .unknownAnchor
  | _ => .error .severalDocuments

def ofText (text : String) : Except ReadingFault GlobalConfig :=
  match Yaml.V11.documents text.toList with
  | .ok docs => ofDocuments docs
  | .error what => .error (.yaml what)

def ofBytes (bytes : ByteArray) : Except ReadingFault GlobalConfig :=
  match String.fromUTF8? bytes with
  | some text => ofText text
  | none => .error .notUtf8

end Preopt.GlobalConfig
