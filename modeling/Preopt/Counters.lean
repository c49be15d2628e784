import Preopt.Number.Binary64

/-! How much work a build did. The four counters are 64-bit words and wrap. -/

namespace Preopt

structure Counters where
  computations : UInt64 := 0
  hits : UInt64 := 0
  configs : UInt64 := 0
  images : UInt64 := 0
  deriving DecidableEq, Repr

namespace Counters

def addComputation (c : Counters) : Counters := { c with computations := c.computations + 1 }
def addHit (c : Counters) : Counters := { c with hits := c.hits + 1 }
def addConfig (c : Counters) : Counters := { c with configs := c.configs + 1 }
def addImage (c : Counters) : Counters := { c with images := c.images + 1 }

def lookups (c : Counters) : UInt64 := c.hits + c.computations

/-- The share of look-ups answered by a stored value, zero if there was none. -/
def hitRatio (c : Counters) : Binary64 :=
  if c.lookups = 0 then .zero
  else (Binary64.ofNat c.hits.toNat).div (Binary64.ofNat c.lookups.toNat)

def hitPercent (c : Counters) : Nat := (c.hitRatio.timesNat 100).round

end Counters
end Preopt
