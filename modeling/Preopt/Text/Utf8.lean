/-! UTF-8 read without failing. Bytes that start no character, and the bytes of a character that is
cut short, each become one replacement character. -/

namespace Preopt.Text

def replacement : Char := '\ufffd'

/-- What a byte starts: the bits it gives to its character, and the ranges of the bytes that may
follow. The ranges leave out surrogates, codes above the last one, and forms longer than needed. -/
def lead (b : Nat) : Nat × List (Nat × Nat) :=
  let any := (0x80, 0xbf)
  if b < 0x80 then (b, [])
  else if b < 0xc2 then (replacement.toNat, [])
  else if b < 0xe0 then (b % 32, [any])
  else if b = 0xe0 then (b % 16, [(0xa0, 0xbf), any])
  else if b = 0xed then (b % 16, [(0x80, 0x9f), any])
  else if b < 0xf0 then (b % 16, [any, any])
  else if b = 0xf0 then (b % 8, [(0x90, 0xbf), any, any])
  else if b < 0xf4 then (b % 8, [any, any, any])
  else if b = 0xf4 then (b % 8, [(0x80, 0x8f), any, any])
  else (replacement.toNat, [])

def decodeFrom (bits : Nat) (ranges : List (Nat × Nat)) : List UInt8 → List Char
  | [] => if ranges = [] then [] else [replacement]
  | byte :: rest =>
    let b := byte.toNat
    let afresh :=
      if (lead b).2 = [] then Char.ofNat (lead b).1 :: decodeFrom 0 [] rest
      else decodeFrom (lead b).1 (lead b).2 rest
    match ranges with
    | [] => afresh
    | (low, high) :: more =>
      if low ≤ b ∧ b ≤ high then
        let bits := 64 * bits + b % 64
        if more = [] then Char.ofNat bits :: decodeFrom 0 [] rest else decodeFrom bits more rest
      else replacement :: afresh

def decode (bytes : List UInt8) : List Char := decodeFrom 0 [] bytes

def withoutMark : List UInt8 → List UInt8
  | 0xef :: 0xbb :: 0xbf :: rest => rest
  | bytes => bytes

end Preopt.Text
