import Sotoportego.WireGuard.Crypto

/-!
# BLAKE2s

The streaming hash of `WireGuardCrypto`: a chain value of eight words, a counter of the octets
compressed, and a buffer that holds the last block back until more input follows.
-/

set_option autoImplicit false

namespace Sotoportego.WireGuard

open Octets

def rotr32 (word : UInt32) (count : UInt32) : UInt32 := word >>> count ||| word <<< (32 - count)

def kIV : List UInt32 :=
  [0x6A09E667, 0xBB67AE85, 0x3C6EF372, 0xA54FF53A, 0x510E527F, 0x9B05688C, 0x1F83D9AB, 0x5BE0CD19]

def kSigma : List (List Nat) :=
  [[0, 1, 2, 3, 4, 5, 6, 7, 8, 9, 10, 11, 12, 13, 14, 15],
    [14, 10, 4, 8, 9, 15, 13, 6, 1, 12, 0, 2, 11, 7, 5, 3],
    [11, 8, 12, 0, 5, 2, 15, 13, 10, 14, 3, 6, 7, 1, 9, 4],
    [7, 9, 3, 1, 13, 12, 11, 14, 2, 6, 5, 10, 4, 0, 15, 8],
    [9, 0, 5, 7, 2, 4, 10, 15, 14, 1, 11, 12, 6, 8, 3, 13],
    [2, 12, 6, 10, 0, 11, 8, 3, 4, 13, 7, 5, 15, 14, 1, 9],
    [12, 5, 1, 15, 14, 13, 4, 10, 0, 7, 6, 3, 9, 2, 8, 11],
    [13, 11, 7, 14, 12, 1, 3, 9, 5, 0, 15, 4, 8, 6, 2, 10],
    [6, 15, 14, 9, 11, 3, 0, 8, 12, 2, 13, 7, 1, 4, 10, 5],
    [10, 2, 8, 4, 7, 6, 1, 5, 15, 11, 9, 14, 3, 12, 13, 0]]

/-! ## Compression -/

def wordAt (words : List UInt32) (index : Nat) : UInt32 := words.getD index 0

/-- The macro `G`, on the words of the work vector at four places. -/
def mix (message : List UInt32) (round index a b c d : Nat) (v : List UInt32) : List UInt32 :=
  let sigma := kSigma.getD round []
  let va := wordAt v a + wordAt v b + wordAt message (sigma.getD (2 * index) 0)
  let vd := rotr32 (wordAt v d ^^^ va) 16
  let vc := wordAt v c + vd
  let vb := rotr32 (wordAt v b ^^^ vc) 12
  let va := va + vb + wordAt message (sigma.getD (2 * index + 1) 0)
  let vd := rotr32 (vd ^^^ va) 8
  let vc := vc + vd
  let vb := rotr32 (vb ^^^ vc) 7
  (((v.set a va).set b vb).set c vc).set d vd

def mixRound (message : List UInt32) (v : List UInt32) (round : Nat) : List UInt32 :=
  let v := mix message round 0 0 4 8 12 v
  let v := mix message round 1 1 5 9 13 v
  let v := mix message round 2 2 6 10 14 v
  let v := mix message round 3 3 7 11 15 v
  let v := mix message round 4 0 5 10 15 v
  let v := mix message round 5 1 6 11 12 v
  let v := mix message round 6 2 7 8 13 v
  mix message round 7 3 4 9 14 v

/-- The chain value after one block. -/
def compressWords (h : List UInt32) (t0 t1 f0 f1 : UInt32) (block : Bytes) : List UInt32 :=
  let message := (List.range 16).map fun index => load32Le block (4 * index)
  let v := h ++ kIV
  let v := v.set 12 (wordAt v 12 ^^^ t0)
  let v := v.set 13 (wordAt v 13 ^^^ t1)
  let v := v.set 14 (wordAt v 14 ^^^ f0)
  let v := v.set 15 (wordAt v 15 ^^^ f1)
  let v := (List.range 10).foldl (mixRound message) v
  (List.range 8).map fun index => wordAt h index ^^^ (wordAt v index ^^^ wordAt v (8 + index))

/-! ## The state -/

structure Blake2s where
  h : List UInt32
  t0 : UInt32 := 0
  t1 : UInt32 := 0
  f0 : UInt32 := 0
  f1 : UInt32 := 0
  buf : Buffer 64 := .zero 64
  buflen : Nat := 0
  outlen : Nat

def Blake2s.increment (s : Blake2s) (inc : UInt32) : Blake2s :=
  { s with
    t0 := s.t0 + inc
    t1 := s.t1 + if s.t0 + inc < inc then 1 else 0 }

def Blake2s.compress (s : Blake2s) (block : Bytes) : Blake2s :=
  { s with h := compressWords s.h s.t0 s.t1 s.f0 s.f1 block }

/-- `memcpy` into the buffer. What would go past its end is left out. -/
def copyInto (buf : Buffer 64) (offset : Nat) (source : Bytes) : Buffer 64 :=
  ⟨(List.range 64).map fun position =>
      if offset ≤ position ∧ position < offset + source.length then
        octetAt source (position - offset)
      else octetAt buf.bytes position,
    by simp⟩

/-- The loop over whole blocks, as long as more input is known to follow. -/
def Blake2s.blocks (s : Blake2s) (input : Bytes) : Blake2s × Bytes :=
  if 64 < input.length then
    ((s.increment 64).compress (input.take 64)).blocks (input.drop 64)
  else (s, input)
termination_by input.length
decreasing_by
  rw [List.length_drop]
  omega

def hashUpdate (s : Blake2s) (input : Bytes) : Blake2s :=
  if input = [] then s
  else
    let fill := 64 - s.buflen
    let (s, input) :=
      if fill < input.length then
        let buf := copyInto s.buf s.buflen (input.take fill)
        let filled := { s with buflen := 0, buf := buf }
        ((filled.increment 64).compress buf.bytes).blocks (input.drop fill)
      else (s, input)
    { s with buf := copyInto s.buf s.buflen input, buflen := s.buflen + input.length }

/-- The parameter block is a digest length, a key length, and one for fanout and depth. -/
def blake2sInitKey (outLen : Nat) (key : Bytes) : Blake2s :=
  let keyLen := UInt32.ofNat key.length
  let parameters := (0x01010000 : UInt32) ^^^ (keyLen <<< 8) ^^^ UInt32.ofNat outLen
  let first := wordAt kIV 0 ^^^ parameters
  let s : Blake2s := { h := kIV.set 0 first, outlen := outLen }
  if key = [] then s else hashUpdate s (copyInto (.zero 64) 0 key).bytes

def hashInit : Blake2s := blake2sInitKey 32 []

/-- The last block, padded with zeros and flagged. -/
def Blake2s.finish (s : Blake2s) : Blake2s :=
  let s := s.increment (.ofNat s.buflen)
  let buf := copyInto s.buf s.buflen (List.replicate (64 - s.buflen) 0)
  { s with f0 := 0xFFFFFFFF, buf := buf }.compress buf.bytes

def hashFinal (s : Blake2s) : Bytes := (s.finish.h.flatMap store32Le).take s.outlen

def hash (input : Bytes) : Bytes := hashFinal (hashUpdate hashInit input)

def mac16 (key : Key) (input : Bytes) : Bytes :=
  hashFinal (hashUpdate (blake2sInitKey 16 key.bytes) input)

end Sotoportego.WireGuard
