import Sotoportego.Lib.Octets

/-!
# WireGuard primitives

`WireGuardCrypto`: the HKDF built over BLAKE2s, the AEAD nonce layout and the
TAI64N label. BLAKE2s itself and the OpenSSL calls are the fields of `Crypto`.
-/

set_option autoImplicit false

namespace Sotoportego.WireGuard

open Octets

/-- A `uint8[32]`: static and ephemeral keys, digests and shared secrets. -/
abbrev Key := Buffer 32

/-- The primitives below the handshake. `none` is a `false` return. -/
structure Crypto where
  /-- BLAKE2s-256 of everything absorbed between `HashInit` and `HashFinal`. -/
  hash : Bytes → Key
  /-- `Mac16`: keyed BLAKE2s with a 16-byte digest. -/
  mac16 : Key → Bytes → Buffer 16
  /-- `DhPublic` (X25519). -/
  dhPublic : Key → Option Key
  /-- `Dh` of a private and a public key. -/
  dh : Key → Key → Option Key
  /-- ChaCha20-Poly1305: key, nonce, plaintext, associated data. -/
  chachaSeal : Key → Buffer 12 → Bytes → Bytes → Option Bytes
  /-- The inverse of `chachaSeal`; the ciphertext ends with its 16-byte tag. -/
  chachaOpen : Key → Buffer 12 → Bytes → Bytes → Option Bytes

/-- What the handshake relies on: X25519 agrees for honest key pairs, sealing
succeeds and adds a 16-byte tag, and opening inverts sealing. -/
structure Crypto.Lawful (crypto : Crypto) : Prop where
  dh_agree : ∀ leftPriv rightPriv leftPub rightPub,
    crypto.dhPublic leftPriv = some leftPub → crypto.dhPublic rightPriv = some rightPub →
    ∃ shared, crypto.dh leftPriv rightPub = some shared ∧ crypto.dh rightPriv leftPub = some shared
  chachaSeal_total : ∀ key nonce plain aad, ∃ cipher,
    crypto.chachaSeal key nonce plain aad = some cipher ∧ cipher.length = plain.length + 16
  chachaOpen_seal : ∀ key nonce cipher plain aad,
    crypto.chachaSeal key nonce plain aad = some cipher →
    crypto.chachaOpen key nonce cipher aad = some plain

/-- An X25519 key pair as `DhGenerate` or the identity store gives it. -/
structure KeyPair (crypto : Crypto) where
  priv : Key
  pub : Key
  valid : crypto.dhPublic priv = some pub

def store32Le (value : UInt32) : Bytes :=
  [value.toUInt8, (value >>> 8).toUInt8, (value >>> 16).toUInt8, (value >>> 24).toUInt8]

def load32Le (source : Bytes) (offset : Nat) : UInt32 :=
  (octetAt source offset).toUInt32 |||
    ((octetAt source (offset + 1)).toUInt32 <<< 8) |||
    ((octetAt source (offset + 2)).toUInt32 <<< 16) |||
    ((octetAt source (offset + 3)).toUInt32 <<< 24)

def store64Le (value : UInt64) : Bytes :=
  (List.range 8).map fun position => (value >>> (8 * position).toUInt64).toUInt8

def load64Le (source : Bytes) (offset : Nat) : UInt64 :=
  (List.range 8).foldl (fun value position =>
    value ||| ((octetAt source (offset + position)).toUInt64 <<< (8 * position).toUInt64)) 0

@[simp] theorem length_store32Le (value : UInt32) : (store32Le value).length = 4 := rfl

@[simp] theorem length_store64Le (value : UInt64) : (store64Le value).length = 8 := by
  simp [store64Le]

private theorem join64 (value : UInt64) :
    (List.range 8).foldl (fun joined position =>
      joined ||| ((value >>> (8 * position).toUInt64).toUInt8.toUInt64 <<<
        (8 * position).toUInt64)) 0 = value := by
  apply UInt64.toNat_inj.mp
  have bound := value.toNat_lt
  have first := @or_octet value.toNat 8 64
  have second := @or_octet value.toNat 16 64
  have third := @or_octet value.toNat 24 64
  have fourth := @or_octet value.toNat 32 64
  have fifth := @or_octet value.toNat 40 64
  have sixth := @or_octet value.toNat 48 64
  have seventh := @or_octet value.toNat 56 64
  simp only [List.range, List.range.loop]
  simp [Nat.shiftRight_eq_div_pow] at *
  rw [first, second, third, fourth, fifth, sixth, seventh]

/-- A stored index is read back at its offset, whatever stands around it. -/
theorem load32Le_store (offset : Nat) (leading : Bytes) (placed : leading.length = offset)
    (value : UInt32) (rest : Bytes) :
    load32Le (leading ++ (store32Le value ++ rest)) offset = value := by
  subst placed
  simp only [load32Le, octetAt_append_length, octetAt_append_length_add]
  simpa [store32Le, octetAt] using join32 value

theorem load64Le_store (offset : Nat) (leading : Bytes) (placed : leading.length = offset)
    (value : UInt64) (rest : Bytes) :
    load64Le (leading ++ (store64Le value ++ rest)) offset = value := by
  subst placed
  refine Eq.trans ?_ (join64 value)
  apply List.foldl_ext
  intro joined position member
  have inside : position < 8 := by simpa using member
  rw [octetAt_append_length_add, octetAt_append_left (by simpa using inside)]
  simp [store64Le, octetAt, inside]

/-- `H = HASH(H || data)`. -/
def mixHash (crypto : Crypto) (hash : Key) (data : Bytes) : Key :=
  crypto.hash (hash.bytes ++ data)

def hmac (crypto : Crypto) (key input : Bytes) : Key :=
  let block :=
    if key.length > 64 then (crypto.hash key).bytes ++ List.replicate 32 0
    else key ++ List.replicate (64 - key.length) 0
  let ipad := block.map (· ^^^ 0x36)
  let opad := block.map (· ^^^ 0x5C)
  crypto.hash (opad ++ (crypto.hash (ipad ++ input)).bytes)

def kdf1 (crypto : Crypto) (chainingKey : Key) (input : Bytes) : Key :=
  let tau0 := hmac crypto chainingKey.bytes input
  hmac crypto tau0.bytes [0x01]

def kdf2 (crypto : Crypto) (chainingKey : Key) (input : Bytes) : Key × Key :=
  let tau0 := hmac crypto chainingKey.bytes input
  let out1 := hmac crypto tau0.bytes [0x01]
  let out2 := hmac crypto tau0.bytes (out1.bytes ++ [0x02])
  (out1, out2)

def kdf3 (crypto : Crypto) (chainingKey : Key) (input : Bytes) : Key × Key × Key :=
  let tau0 := hmac crypto chainingKey.bytes input
  let out1 := hmac crypto tau0.bytes [0x01]
  let out2 := hmac crypto tau0.bytes (out1.bytes ++ [0x02])
  let out3 := hmac crypto tau0.bytes (out2.bytes ++ [0x03])
  (out1, out2, out3)

/-- Four zero bytes, then the counter in little-endian order. -/
def aeadNonce (counter : UInt64) : Buffer 12 :=
  ⟨[0, 0, 0, 0] ++ store64Le counter, by simp⟩

def aeadEncrypt (crypto : Crypto) (key : Key) (counter : UInt64) (plain aad : Bytes) :
    Option Bytes :=
  crypto.chachaSeal key (aeadNonce counter) plain aad

def aeadDecrypt (crypto : Crypto) (key : Key) (counter : UInt64) (cipher aad : Bytes) :
    Option Bytes :=
  if cipher.length < 16 then none else crypto.chachaOpen key (aeadNonce counter) cipher aad

/-- The TAI64N label of a Unix time, with the nanoseconds left at zero. -/
def tai64n (unixTime : UInt64) : Buffer 12 :=
  let seconds := 0x400000000000000A + unixTime
  ⟨(List.range 8).map (fun position => (seconds >>> (8 * (7 - position)).toUInt64).toUInt8) ++
    [0, 0, 0, 0], by simp⟩

theorem aeadEncrypt_total {crypto : Crypto} (lawful : crypto.Lawful) (key : Key)
    (counter : UInt64) (plain aad : Bytes) :
    ∃ cipher, aeadEncrypt crypto key counter plain aad = some cipher ∧
      cipher.length = plain.length + 16 :=
  lawful.chachaSeal_total key (aeadNonce counter) plain aad

theorem aeadEncrypt_ne_none {crypto : Crypto} (lawful : crypto.Lawful) {key : Key}
    {counter : UInt64} {plain aad : Bytes} : aeadEncrypt crypto key counter plain aad ≠ none := by
  obtain ⟨cipher, total, _⟩ := aeadEncrypt_total lawful key counter plain aad
  simp [total]

theorem aeadEncrypt_length {crypto : Crypto} (lawful : crypto.Lawful) {key : Key}
    {counter : UInt64} {plain aad cipher : Bytes}
    (sealed : aeadEncrypt crypto key counter plain aad = some cipher) :
    cipher.length = plain.length + 16 := by
  obtain ⟨produced, total, length⟩ := aeadEncrypt_total lawful key counter plain aad
  have same : produced = cipher := Option.some.inj (total.symm.trans sealed)
  exact same ▸ length

theorem aeadDecrypt_encrypt {crypto : Crypto} (lawful : crypto.Lawful) {key : Key}
    {counter : UInt64} {plain aad cipher : Bytes}
    (sealed : aeadEncrypt crypto key counter plain aad = some cipher) :
    aeadDecrypt crypto key counter cipher aad = some plain := by
  have length := aeadEncrypt_length lawful sealed
  rw [aeadDecrypt, if_neg (by omega)]
  exact lawful.chachaOpen_seal _ _ _ _ _ sealed

end Sotoportego.WireGuard
