/-! Paths as text. Joining never tidies a path: an absolute right side replaces the left one, an
empty one leaves a trailing slash. Two paths are the same when their components are. -/

namespace Preopt

structure Path where
  text : String
  deriving DecidableEq, Repr, Inhabited

namespace Path

def isAbsolute (p : Path) : Bool := p.text.toList.head? == some '/'

def needsSlash (p : Path) : Bool :=
  match p.text.toList.getLast? with
  | none => false
  | some c => c != '/'

def join (p : Path) (piece : String) : Path :=
  if piece.toList.head? = some '/' then ⟨piece⟩
  else if p.needsSlash then ⟨p.text ++ "/" ++ piece⟩
  else ⟨p.text ++ piece⟩

def joinAll (p : Path) (pieces : List String) : Path := pieces.foldl join p

/-- Slashes are written once and single dots are dropped, except a leading one. -/
def components (p : Path) : Bool × List (List Char) :=
  let parts := (p.text.toList.splitOn '/').filter (· ≠ [])
  match p.isAbsolute, parts with
  | false, ['.'] :: rest => (false, ['.'] :: rest.filter (· ≠ ['.']))
  | absolute, parts => (absolute, parts.filter (· ≠ ['.']))

def same (p q : Path) : Bool := p.components == q.components

end Path
end Preopt
