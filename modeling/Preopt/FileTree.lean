import Preopt.Assoc
import Preopt.Path

/-! The files around a build. A path is followed one component at a time from the root or the
working directory; what stops it decides how a read fails. Only what the tree holds is there. -/

namespace Preopt

structure FileTree where
  here : List String := []
  /-- The bytes of a file, or nothing for a directory. -/
  entries : List (List String × Option ByteArray) := []

namespace FileTree

inductive Fault
  | missing
  | notDirectory
  | isDirectory
  | inTheWay
  | nameTooLong
  | nulByte
  deriving DecidableEq, Repr

def Fault.message : Fault → String
  | .missing => "No such file or directory (os error 2)"
  | .notDirectory => "Not a directory (os error 20)"
  | .isDirectory => "Is a directory (os error 21)"
  | .inTheWay => "File exists (os error 17)"
  | .nameTooLong => "File name too long (os error 36)"
  | .nulByte => "file name contained an unexpected NUL byte"

def maxName : Nat := 255
def maxPath : Nat := 4096

abbrev Place := List String

def pieces (p : Path) : List String :=
  ((p.text.toList.splitOn '/').filter (· ≠ [])).map String.ofList

def start (t : FileTree) (p : Path) : Place := if p.isAbsolute then [] else t.here

def at? (t : FileTree) (place : Place) : Option (Option ByteArray) :=
  if place.isPrefixOf t.here then some none else Assoc.get? t.entries place

def enter (t : FileTree) (place : Place) (piece : String) : Except Fault Place :=
  match t.at? place with
  | some none =>
    if piece = "." then .ok place
    else if piece = ".." then .ok place.dropLast
    else if piece.utf8ByteSize > maxName then .error .nameTooLong
    else if (t.at? (place ++ [piece])).isSome then .ok (place ++ [piece])
    else .error .missing
  | some (some _) => .error .notDirectory
  | none => .error .missing

def resolve (t : FileTree) (p : Path) : Except Fault Place :=
  if p.text.toList.any (·.toNat = 0) then .error .nulByte
  else if p.text = "" then .error .missing
  else if p.text.utf8ByteSize ≥ maxPath then .error .nameTooLong
  else (pieces p).foldlM t.enter (t.start p)

def lookup (t : FileTree) (p : Path) : Except Fault (Option ByteArray) := do
  match t.at? (← t.resolve p) with
  | some none => return none
  | some (some bytes) =>
    if p.text.toList.getLast? = some '/' then throw .notDirectory else return bytes
  | none => throw .missing

def read (t : FileTree) (p : Path) : Except Fault ByteArray := do
  match ← t.lookup p with
  | some bytes => return bytes
  | none => throw .isDirectory

def isFile (t : FileTree) (p : Path) : Bool := (t.read p).isOk

def exists? (t : FileTree) (p : Path) : Bool := (t.lookup p).isOk

/-- Where a path leads once single and double dots are followed, whatever is there. -/
def placeOf (t : FileTree) (p : Path) : Place :=
  (pieces p).foldl
    (fun place piece =>
      if piece = "." then place else if piece = ".." then place.dropLast else place ++ [piece])
    (t.start p)

def addDirAt (t : FileTree) (place : Place) : FileTree :=
  (List.range place.length).foldl
    (fun t i =>
      let above := place.take (i + 1)
      if (t.at? above).isSome then t else { t with entries := Assoc.put t.entries above none }) t

def addDir (t : FileTree) (p : Path) : FileTree := t.addDirAt (t.placeOf p)

def addFile (t : FileTree) (p : Path) (bytes : ByteArray) : FileTree :=
  let place := t.placeOf p
  let t := t.addDirAt place.dropLast
  { t with entries := Assoc.put t.entries place (some bytes) }

def remove (t : FileTree) (p : Path) : FileTree :=
  let place := t.placeOf p
  { t with entries := t.entries.filter fun e => !place.isPrefixOf e.1 }

def createDirs (t : FileTree) (p : Path) : Except Fault FileTree :=
  if p.text = "" then .ok t
  else if p.text.toList.any (·.toNat = 0) then .error .nulByte
  else if p.text.utf8ByteSize ≥ maxPath then .error .nameTooLong
  else go t (t.start p) (pieces p)
where
  go (t : FileTree) (place : Place) : List String → Except Fault FileTree
    | [] =>
      match t.at? place with
      | some (some _) => .error .inTheWay
      | _ => .ok t
    | piece :: rest =>
      match t.enter place piece with
      | .ok next => go t next rest
      | .error .missing =>
        let next := place ++ [piece]
        go { t with entries := Assoc.put t.entries next none } next rest
      | .error e => .error e

def countNamed (t : FileTree) (dir : Path) (start : String) : Nat :=
  let place := t.placeOf dir
  let named (name : String) : Bool := start.toList.isPrefixOf name.toList
  (t.entries.filter fun e => e.1.dropLast == place && e.1.getLast?.any named).length

end FileTree
end Preopt
