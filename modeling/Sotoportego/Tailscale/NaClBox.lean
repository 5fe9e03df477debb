import Sotoportego.Tailscale.Disco
import Sotoportego.Tailscale.Poly1305

/-!
# The NaCl box

Salsa20, the stream it generates, and the box on top of it: `crypto_secretbox` in the
convention of TweetNaCl, where zeros stand in front of the text and of the box. An allocation
that fails is left out.
-/

set_option autoImplicit false

namespace Sotoportego.Tailscale.NaClBox

open Octets WireGuard
open Poly1305 (limb onetimeauth)

/-- `expand 32-byte k`. -/
def kSigma : Buffer 16 :=
  ⟨[101, 120, 112, 97, 110, 100, 32, 51, 50, 45, 98, 121, 116, 101, 32, 107], rfl⟩

def l32 (x c : UInt32) : UInt32 := x <<< c ||| (x &&& 0xffffffff) >>> (32 - c)

def ld32 (source : Bytes) (x : Nat) : UInt32 :=
  let u := (octetAt source (x + 3)).toUInt32
  let u := u <<< 8 ||| (octetAt source (x + 2)).toUInt32
  let u := u <<< 8 ||| (octetAt source (x + 1)).toUInt32
  u <<< 8 ||| (octetAt source x).toUInt32

def st32 (u : UInt32) : Bytes :=
  [u.toUInt8, (u >>> 8).toUInt8, (u >>> 8 >>> 8).toUInt8, (u >>> 8 >>> 8 >>> 8).toUInt8]

/-- 0 for two equal strings of `n` octets and -1 for others. -/
def vn (x y : Bytes) (n : Nat) : Int32 :=
  let d := (List.range n).foldl
    (fun d i => d ||| (octetAt x i).toUInt32 ^^^ (octetAt y i).toUInt32) 0
  (((1 : UInt32) &&& (d - 1) >>> 8) - 1).toInt32

/-! ## The core -/

/-- The 16 words of the input `n`, the key and the constant. -/
def load (n : Buffer 16) (k : Buffer 32) (c : Buffer 16) : List UInt32 :=
  (List.range 4).foldl (fun x i =>
    (((x.set (5 * i) (ld32 c.bytes (4 * i))).set (1 + i) (ld32 k.bytes (4 * i))).set (6 + i)
      (ld32 n.bytes (4 * i))).set (11 + i) (ld32 k.bytes (16 + 4 * i))) (List.replicate 16 0)

/-- What the column `j` of `x` becomes in `w`. -/
def column (x w : List UInt32) (j : Nat) : List UInt32 :=
  let t (m : Nat) := limb x ((5 * j + 4 * m) % 16)
  let t1 := t 1 ^^^ l32 (t 0 + t 3) 7
  let t2 := t 2 ^^^ l32 (t1 + t 0) 9
  let t3 := t 3 ^^^ l32 (t2 + t1) 13
  let t0 := t 0 ^^^ l32 (t3 + t2) 18
  (((w.set (4 * j + j % 4) t0).set (4 * j + (j + 1) % 4) t1).set (4 * j + (j + 2) % 4) t2).set
    (4 * j + (j + 3) % 4) t3

def round (x : List UInt32) : List UInt32 :=
  (List.range 4).foldl (column x) (List.replicate 16 0)

def core (n : Buffer 16) (k : Buffer 32) (c : Buffer 16) (h : Bool) : Bytes :=
  let y := load n k c
  let x := (List.range 20).foldl (fun x _ => round x) y
  if h then
    let x := x.zipWith (· + ·) y
    let x := (List.range 4).foldl (fun x i =>
      (x.modify (5 * i) (· - ld32 c.bytes (4 * i))).modify (6 + i) (· - ld32 n.bytes (4 * i))) x
    (List.range 4).flatMap (fun i => st32 (limb x (5 * i))) ++
      (List.range 4).flatMap fun i => st32 (limb x (6 + i))
  else (List.range 16).flatMap fun i => st32 (limb x i + limb y i)

def salsa20 (n : Buffer 16) (k : Buffer 32) (c : Buffer 16) : Buffer 64 :=
  ⟨core n k c false, by simp [core, st32, List.length_flatMap]⟩

def hsalsa20 (n : Buffer 16) (k : Buffer 32) (c : Buffer 16) : Buffer 32 :=
  ⟨core n k c true, by simp [core, st32, List.length_flatMap]⟩

/-! ## The stream -/

/-- The loop that counts a block, with the carry `u`. -/
def bump : UInt32 → Bytes → Bytes
  | _, [] => []
  | u, z :: zs =>
      let u := u + z.toUInt32
      u.toUInt8 :: bump (u >>> 8) zs

theorem length_bump (u : UInt32) (zs : Bytes) : (bump u zs).length = zs.length := by
  induction zs generalizing u with
  | nil => rfl
  | cons z zs counted => exact congrArg (· + 1) (counted _)

def increment (z : Buffer 16) : Buffer 16 :=
  ⟨z.bytes.take 8 ++ bump 1 (z.bytes.drop 8), by simp [length_bump]⟩

/-- The octet `m[i]`, with zeros for a null pointer. -/
def source (m : Option Bytes) (i : Nat) : UInt8 :=
  match m with
  | some m => octetAt m i
  | none => 0

def xorBlock (m : Option Bytes) (b : Nat) (x : Buffer 64) : Bytes :=
  (List.range b).map fun i => source m i ^^^ octetAt x.bytes i

def streamBlocks (m : Option Bytes) (b : Nat) (z : Buffer 16) (k : Buffer 32) : Bytes :=
  if 64 ≤ b then
    xorBlock m 64 (salsa20 z k kSigma) ++
      streamBlocks (m.map (·.drop 64)) (b - 64) (increment z) k
  else if b = 0 then []
  else xorBlock m b (salsa20 z k kSigma)

/-- `b` octets of `m` under the stream. -/
def streamSalsa20Xor (m : Option Bytes) (b : Nat) (n : Buffer 8) (k : Buffer 32) : Bytes :=
  streamBlocks m b ⟨n.bytes ++ List.replicate 8 0, by simp⟩ k

def streamXsalsa20Xor (m : Option Bytes) (d : Nat) (n : Buffer 24) (k : Buffer 32) : Bytes :=
  streamSalsa20Xor m d (slice 8 n.bytes 16) (hsalsa20 (slice 16 n.bytes 0) k kSigma)

/-! ## The secret box -/

def onetimeauthVerify (h m : Bytes) (k : Buffer 32) : Int32 :=
  vn h (onetimeauth m k).value 16

def secretbox (m : Bytes) (n : Buffer 24) (k : Buffer 32) : Option Bytes :=
  if m.length < 32 then none
  else
    let c := streamXsalsa20Xor (some m) m.length n k
    some (List.replicate 16 0 ++ ((onetimeauth (c.drop 32) (slice 32 c 0)).value ++ c.drop 32))

def secretboxOpen (c : Bytes) (n : Buffer 24) (k : Buffer 32) : Option Bytes :=
  if c.length < 32 then none
  else
    let x := streamXsalsa20Xor none 32 n k
    if onetimeauthVerify (c.drop 16) (c.drop 32) (slice 32 x 0) ≠ 0 then none
    else
      let m := streamXsalsa20Xor (some c) c.length n k
      some (List.replicate 32 0 ++ m.drop 32)

/-! ## The box -/

variable (crypto : Crypto)

def boxBeforeNm (peerPublic secret : Key) : Option Key :=
  (crypto.dh secret peerPublic).map fun s => hsalsa20 (.zero 16) s kSigma

def boxSealWithKey (msg : Bytes) (nonce : Buffer 24) (key : Buffer 32) : Option Bytes :=
  (secretbox (List.replicate 32 0 ++ msg) nonce key).map (·.drop 16)

def boxOpenWithKey (cipher : Bytes) (nonce : Buffer 24) (key : Buffer 32) : Option Bytes :=
  if cipher.length < 16 then none
  else (secretboxOpen (List.replicate 16 0 ++ cipher) nonce key).map (·.drop 32)

def boxSeal (msg : Bytes) (nonce : Buffer 24) (peerPublic secret : Key) : Option Bytes :=
  (boxBeforeNm crypto peerPublic secret).bind fun key => boxSealWithKey msg nonce key

def boxOpen (cipher : Bytes) (nonce : Buffer 24) (peerPublic secret : Key) : Option Bytes :=
  (boxBeforeNm crypto peerPublic secret).bind fun key => boxOpenWithKey cipher nonce key

/-- The box that disco seals its messages in. -/
def box : Box where
  sealBox nonce peerPublic secret msg := boxSeal crypto msg nonce peerPublic secret
  openBox nonce peerPublic secret cipher := boxOpen crypto cipher nonce peerPublic secret

end Sotoportego.Tailscale.NaClBox
