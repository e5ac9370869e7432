import XetePrograms.Swap.Cpi

/-!
# Royalty terms of a Token-Metadata account and their split
-/

set_option autoImplicit false

namespace Xete.Swap
open Xete.Octets Xete.Chain

def maxCreators : ℕ := 5

/-- Skip one string: a four-byte length and that many bytes. -/
def skipString (d : Bytes) (o : ℕ) : Option ℕ :=
  if d.length < o+4 then none
  else
    let o' := o+4+natLe (slice d o 4)
    if d.length < o' then none else some o'

/-- The `n` creator records from `o` on; `verified` must be a real boolean. -/
def readCreators (d : Bytes) (o : ℕ) : ℕ → Option (List (Pubkey × UInt8))
  | 0 => some []
  | n+1 =>
    if byteAt d (o+32) = 0 ∨ byteAt d (o+32) = 1 then
      (readCreators d (o+34) n).map (fun cs => (keyAt d o,byteAt d (o+33)) :: cs)
    else none

/-- The basis points and the creators with their shares; nothing on any
overrun, bad tag or bad shape. -/
def parseTmRoyalty (d : Bytes) : Option (ℕ × List (Pubkey × UInt8)) := do
  guard (65 ≤ d.length)
  let o ← skipString d 65
  let o ← skipString d o
  let o ← skipString d o
  guard (o+2 ≤ d.length)
  let bps := natLe (slice d o 2)
  guard (bps ≤ 10000)
  guard (o+2 < d.length)
  let opt := byteAt d (o+2)
  let o := o+3
  if opt = 1 then
    guard (o+4 ≤ d.length)
    let vlen := natLe (slice d o 4)
    let o := o+4
    guard (vlen ≤ maxCreators)
    guard (o+vlen*34 ≤ d.length)
    let creators ← readCreators d o vlen
    return (bps,creators)
  else
    guard (opt = 0)
    return (bps,[])

/-- The loop of `splitByShare` over all shares but the last. -/
def splitFloors (total : ℕ) : List UInt8 → ℕ → Option (List ℕ × ℕ)
  | [], paid => some ([],paid)
  | sh :: shares, paid =>
    let amt := total*sh.toNat/100 % 2^64
    if u64Max < paid+amt then none
    else (splitFloors total shares (paid+amt)).map (fun r => (amt :: r.1,r.2))

/-- Split `total` by shares: the floor of each, and to the last the rest. No
value where an addition or the subtraction would overflow, nor for more shares
than the array of the parts has slots. -/
def splitByShare (total : ℕ) (shares : List UInt8) : Option (List ℕ) :=
  if shares = [] then some (List.replicate maxCreators 0)
  else do
    guard (shares.length ≤ maxCreators)
    let (out,paid) ← splitFloors total shares.dropLast 0
    guard (paid ≤ total)
    return out ++ [total-paid] ++ List.replicate (maxCreators-shares.length) 0

end Xete.Swap
