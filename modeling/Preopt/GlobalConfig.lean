import Preopt.ApexJar
import Preopt.Text.Quoted

/-! The product's module lists and flags. A config is valid when its apex jars can be read and
neither of the two lists that make up a boot image names a module twice. -/

namespace Preopt

structure GlobalConfig where
  disablePreopt : Bool := false
  disableGenerateProfile : Bool := false
  artApexJars : List String := []
  bootJars : List String := []
  productUpdatableBootModules : List String := []
  productUpdatableBootLocations : List String := []
  systemServerJars : List String := []
  updatableSystemServerJars : List String := []
  deriving DecidableEq, Repr, Inhabited

namespace GlobalConfig

inductive Fault
  | malformedPair (value : String)
  | duplicateModule (list module : String)
  deriving DecidableEq, Repr

def Fault.message : Fault → String
  | .malformedPair value =>
    "malformed apexJarValue: " ++ Text.quoted value ++ ", expected format: <apex>:<jar>"
  | .duplicateModule list module =>
    "module " ++ Text.quoted module ++ " is listed more than once in " ++ list

def disabled : GlobalConfig := { disablePreopt := true, disableGenerateProfile := true }

def firstRepeat : List String → List String → Option String
  | _, [] => none
  | seen, m :: rest => if m ∈ seen then some m else firstRepeat (m :: seen) rest

def checkUnique (list : String) (modules : List String) : Except Fault Unit :=
  match firstRepeat [] modules with
  | some m => .error (.duplicateModule list m)
  | none => .ok ()

def splitPair (value : String) : Except Fault ApexJar :=
  match ApexJar.parse? value with
  | some pair => .ok pair
  | none => .error (.malformedPair value)

def checkPairs : List String → Except Fault Unit
  | [] => .ok ()
  | value :: rest =>
    match splitPair value with
    | .ok _ => checkPairs rest
    | .error e => .error e

def validate (c : GlobalConfig) : Except Fault Unit := do
  checkPairs c.updatableSystemServerJars
  checkUnique "ArtApexJars" c.artApexJars
  checkUnique "BootJars" c.bootJars

end GlobalConfig
end Preopt
