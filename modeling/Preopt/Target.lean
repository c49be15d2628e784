/-! The machines a build compiles for. Preopting looks at plain Android targets only. -/

namespace Preopt

inductive Os
  | android
  | host
  deriving DecidableEq, Repr

inductive Arch
  | arm
  | arm64
  | x86
  | x86_64
  deriving DecidableEq, Repr

inductive NativeBridge
  | disabled
  | enabled
  deriving DecidableEq, Repr

def Os.name : Os → String
  | .android => "android"
  | .host => "host"

def Arch.name : Arch → String
  | .arm => "arm"
  | .arm64 => "arm64"
  | .x86 => "x86"
  | .x86_64 => "x86_64"

def NativeBridge.name : NativeBridge → String
  | .disabled => "disabled"
  | .enabled => "enabled"

def Os.all : List Os := [.android, .host]
def Arch.all : List Arch := [.arm, .arm64, .x86, .x86_64]
def NativeBridge.all : List NativeBridge := [.disabled, .enabled]

def Os.ofName? (s : String) : Option Os := Os.all.find? (·.name = s)
def Arch.ofName? (s : String) : Option Arch := Arch.all.find? (·.name = s)
def NativeBridge.ofName? (s : String) : Option NativeBridge := NativeBridge.all.find? (·.name = s)

structure Target where
  os : Os
  arch : Arch
  nativeBridge : NativeBridge := .disabled
  deriving DecidableEq, Repr

namespace Target

def isPlain (t : Target) : Bool := t.os = .android && t.nativeBridge = .disabled

def plain (targets : List Target) : List Target := targets.filter isPlain

end Target
end Preopt
