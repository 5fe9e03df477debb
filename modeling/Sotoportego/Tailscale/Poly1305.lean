import Sotoportego.Lib.Octets
import Sotoportego.Lib.Words

/-!
# Poly1305

The one-time authenticator of the NaCl box: numbers in 17 limbs of 8 bits, every sum and
product of 32-bit words watched. Masks, shifts and the final negation are plain.
-/

set_option autoImplicit false

namespace Sotoportego.Tailscale.Poly1305

open Octets Words

/-- `2 ^ 136 - p`. -/
def kMinusP : List UInt32 := [5, 0, 0, 0, 0, 0, 0, 0, 0, 0, 0, 0, 0, 0, 0, 0, 252]

/-- The loop of `add1305`, with the carry `u`. -/
def addLimbs : UInt32 → List UInt32 → List UInt32 → Tracked (List UInt32)
  | u, h :: hs, c :: cs => do
      let sum ← add h c
      let u ← add u sum
      return (u &&& 255) :: (← addLimbs (u >>> 8) hs cs)
  | _, _, _ => return []

def add1305 (h c : List UInt32) : Tracked (List UInt32) := addLimbs 0 h c

def clamp (k : Bytes) : List UInt32 :=
  let r := (k.take 16).map (·.toUInt32) ++ [0]
  ((((((r.modify 3 (· &&& 15)).modify 4 (· &&& 252)).modify 7 (· &&& 15)).modify 8
    (· &&& 252)).modify 11 (· &&& 15)).modify 12 (· &&& 252)).modify 15 (· &&& 15)

def limb (x : List UInt32) (i : Nat) : UInt32 := x.getD i 0

/-- What `h[j]` adds to `x[i]`. -/
def term (h r : List UInt32) (i j : Nat) : Tracked UInt32 := do
  let factor ← if j ≤ i then pure (limb r (i - j)) else mul 320 (limb r (i + 17 - j))
  mul (limb h j) factor

def product (h r : List UInt32) (i : Nat) : Tracked UInt32 :=
  (List.range 17).foldlM (fun x j => do add x (← term h r i j)) 0

/-- One pass over the lower limbs, and the carry that is left. -/
def squeeze : UInt32 → List UInt32 → Tracked (List UInt32 × UInt32)
  | u, [] => return ([], u)
  | u, h :: hs => do
      let u ← add u h
      let (low, last) ← squeeze (u >>> 8) hs
      return ((u &&& 255) :: low, last)

/-- One block `c` of the message. -/
def block (r h c : List UInt32) : Tracked (List UInt32) := do
  let h ← add1305 h c
  let x ← (List.range 17).mapM (product h r)
  let (low, u) ← squeeze 0 (x.take 16)
  let u ← add u (limb x 16)
  let top := u &&& 3
  let u ← mul 5 (u >>> 2)
  let (low, u) ← squeeze u low
  let u ← add u top
  return low ++ [u]

def absorb (r h : List UInt32) (m : Bytes) : Tracked (List UInt32) :=
  if m = [] then return h
  else do
    let j := min 16 m.length
    let c := (m.take j).map (·.toUInt32) ++ 1 :: List.replicate (16 - j) 0
    absorb r (← block r h c) (m.drop j)
  termination_by m.length
  decreasing_by
    have filled := List.length_pos_iff.mpr (by assumption : ¬ m = [])
    rw [List.length_drop]
    omega

/-- The tag of the message `m` under the key `k`. -/
def onetimeauth (m : Bytes) (k : Buffer 32) : Tracked Bytes := do
  let h ← absorb (clamp k.bytes) (List.replicate 17 0) m
  let g := h
  let h ← add1305 h kMinusP
  let s := -(limb h 16 >>> 7)
  let h := h.zipWith (fun h g => h ^^^ (s &&& (g ^^^ h))) g
  let c := (k.bytes.drop 16).map (·.toUInt32) ++ [0]
  let h ← add1305 h c
  return (h.take 16).map (·.toUInt8)

end Sotoportego.Tailscale.Poly1305
