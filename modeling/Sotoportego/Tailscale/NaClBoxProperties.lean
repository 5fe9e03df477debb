import Sotoportego.Lib.StreamBox
import Sotoportego.Tailscale.NaClBox
import Sotoportego.Tailscale.Poly1305Properties

/-!
# What opens a box

The stream is the same for every text, so the octets that seal a text take the mask off
again, and the key of the tag is the same 32 octets on both sides. A box opens exactly when
it was sealed.
-/

set_option autoImplicit false

namespace Sotoportego.Tailscale.NaClBox

open Octets WireGuard StreamBox Words
open Poly1305 (onetimeauth length_onetimeauth)

/-! ## The comparison -/

/-- What `vn` gathers is an octet, and zero for equal strings only. -/
theorem gathered_octet (x y : Bytes) (n : Nat) :
    ∃ octet : UInt8,
      (List.range n).foldl
          (fun d i => d ||| (octetAt x i).toUInt32 ^^^ (octetAt y i).toUInt32) 0 =
        octet.toUInt32 ∧
      (octet = 0 ↔ ∀ i < n, octetAt x i = octetAt y i) := by
  induction n with
  | zero => exact ⟨0, rfl, by simp⟩
  | succ n continued =>
      obtain ⟨octet, run, zero⟩ := continued
      refine ⟨octet ||| (octetAt x n ^^^ octetAt y n), ?_, ?_⟩
      · rw [List.range_succ, List.foldl_append, run, UInt8.toUInt32_or, UInt8.toUInt32_xor]
        rfl
      · rw [UInt8.or_eq_zero_iff, UInt8.xor_eq_zero_iff, zero, Nat.forall_lt_succ_right]

theorem verdict_octet (octet : UInt8) :
    (((1 : UInt32) &&& (octet.toUInt32 - 1) >>> 8) - 1).toInt32 = 0 ↔ octet = 0 := by
  constructor
  · intro equal
    by_contra other
    have positive : octet.toNat ≠ 0 := fun zero => other (UInt8.toNat_inj.mp zero)
    have bound := octet.toNat_lt
    have shifted : (octet.toUInt32 - 1) >>> 8 = 0 := by
      apply UInt32.toNat_inj.mp
      have above : (1 : UInt32) ≤ octet.toUInt32 := by
        rw [UInt32.le_iff_toNat_le, UInt8.toNat_toUInt32]
        exact Nat.one_le_iff_ne_zero.mpr positive
      rw [UInt32.toNat_shiftRight, UInt32.toNat_sub_of_le _ _ above, UInt8.toNat_toUInt32,
        Nat.shiftRight_eq_div_pow]
      exact Nat.div_eq_of_lt (by simp; omega)
    rw [shifted] at equal
    exact absurd equal (by decide)
  · rintro rfl
    decide

theorem vn_eq_zero_iff (x y : Bytes) (n : Nat) :
    vn x y n = 0 ↔ ∀ i < n, octetAt x i = octetAt y i := by
  obtain ⟨octet, run, zero⟩ := gathered_octet x y n
  rw [vn, run, ← zero]
  exact verdict_octet octet

/-! ## The stream -/

/-- The octet `i` of the stream from the block counter `z` on. -/
def keystream (z : Buffer 16) (k : Buffer 32) (i : Nat) : UInt8 :=
  octetAt (salsa20 (increment^[i / 64] z) k kSigma).bytes (i % 64)

theorem keystream_first {i : Nat} (inside : i < 64) (z : Buffer 16) (k : Buffer 32) :
    keystream z k i = octetAt (salsa20 z k kSigma).bytes i := by
  rw [keystream, Nat.div_eq_of_lt inside, Nat.mod_eq_of_lt inside]
  rfl

theorem keystream_next (z : Buffer 16) (k : Buffer 32) (i : Nat) :
    keystream z k (64 + i) = keystream (increment z) k i := by
  have block : (64 + i) / 64 = i / 64 + 1 := by omega
  rw [keystream, keystream, block, Nat.add_mod_left, Function.iterate_succ_apply]

theorem source_drop (m : Option Bytes) (i : Nat) :
    source (m.map (·.drop 64)) i = source m (64 + i) := by
  cases m with
  | none => rfl
  | some m => simp [source, octetAt]

theorem xorBlock_first {b : Nat} (short : b ≤ 64) (m : Option Bytes) (z : Buffer 16)
    (k : Buffer 32) :
    xorBlock m b (salsa20 z k kSigma) =
      (List.range b).map fun i => source m i ^^^ keystream z k i := by
  refine List.map_congr_left fun i member => ?_
  have inside := List.mem_range.mp member
  rw [keystream_first (by omega)]

/-- Every block boundary included, the octet `i` meets the octet `i` of the stream. -/
theorem streamBlocks_eq (m : Option Bytes) (b : Nat) (z : Buffer 16) (k : Buffer 32) :
    streamBlocks m b z k = (List.range b).map fun i => source m i ^^^ keystream z k i := by
  induction m, b, z using streamBlocks.induct with
  | case1 m b z whole continued =>
      have split : List.range b = List.range 64 ++ (List.range (b - 64)).map (64 + ·) := by
        rw [← List.range_add, Nat.add_sub_cancel' whole]
      rw [streamBlocks, if_pos whole, continued, xorBlock_first (Nat.le_refl 64), split,
        List.map_append, List.map_map]
      congr 1
      refine List.map_congr_left fun i _ => ?_
      rw [Function.comp_apply, source_drop, keystream_next]
  | case2 m z short => rw [streamBlocks, if_neg short, if_pos rfl, List.range_zero, List.map_nil]
  | case3 m b z short filled =>
      rw [streamBlocks, if_neg short, if_neg filled, xorBlock_first (by omega)]

/-! ## The box -/

/-- The stream of the box. -/
def boxStream (n : Buffer 24) (k : Buffer 32) : Nat → UInt8 :=
  keystream ⟨(slice 8 n.bytes 16).bytes ++ List.replicate 8 0, by simp⟩
    (hsalsa20 (slice 16 n.bytes 0) k kSigma)

theorem stream_text (m : Bytes) (n : Buffer 24) (k : Buffer 32) :
    streamXsalsa20Xor (some m) m.length n k = mask (· ^^^ ·) (boxStream n k) m := by
  rw [streamXsalsa20Xor, streamSalsa20Xor, streamBlocks_eq]
  apply List.ext_getElem?
  intro i
  rw [getElem?_mask, List.getElem?_map]
  by_cases inside : i < m.length
  · rw [List.getElem?_range inside, List.getElem?_eq_getElem inside]
    simp [source, octetAt, List.getElem?_eq_getElem inside, boxStream]
  · rw [List.getElem?_eq_none (by simpa using inside),
      List.getElem?_eq_none (by simpa using inside)]
    rfl

/-- The first 32 octets of the stream. -/
def oneTimeKey (n : Buffer 24) (k : Buffer 32) : Buffer 32 :=
  ⟨(List.range 32).map (boxStream n k), by simp⟩

theorem stream_null (n : Buffer 24) (k : Buffer 32) :
    streamXsalsa20Xor none 32 n k = (oneTimeKey n k).bytes := by
  rw [streamXsalsa20Xor, streamSalsa20Xor, streamBlocks_eq]
  exact List.map_congr_left fun i _ => UInt8.zero_xor

/-- Zeros read as a null pointer does. -/
theorem source_zeros (count i : Nat) :
    source (some (List.replicate count 0)) i = source none i := by
  simp only [source, octetAt, List.getD_eq_getElem?_getD, List.getElem?_replicate]
  split <;> rfl

/-- The same octets stand under 32 zeros. -/
theorem mask_zeros (n : Buffer 24) (k : Buffer 32) :
    mask (· ^^^ ·) (boxStream n k) (List.replicate 32 0) = (oneTimeKey n k).bytes := by
  have zeros := stream_text (List.replicate 32 0) n k
  rw [← zeros, ← stream_null, List.length_replicate, streamXsalsa20Xor, streamSalsa20Xor,
    streamXsalsa20Xor, streamSalsa20Xor, streamBlocks_eq, streamBlocks_eq]
  refine List.map_congr_left fun i _ => ?_
  rw [source_zeros]

theorem xor_cancel (symbol under : UInt8) : symbol ^^^ under ^^^ under = symbol := by
  rw [UInt8.xor_assoc, UInt8.xor_self, UInt8.xor_zero]

/-- What the box is: a mask from the octet 32 of the stream on, and a tag under the octets
    before it. -/
def sealing (n : Buffer 24) (k : Buffer 32) : Sealing UInt8 :=
  streamSealing (· ^^^ ·) (fun i => boxStream n k (32 + i)) 16
    (fun cipher => (onetimeauth cipher (oneTimeKey n k)).value)
    (fun cipher => length_onetimeauth cipher _) xor_cancel

theorem boxSealWithKey_eq (msg : Bytes) (n : Buffer 24) (k : Buffer 32) :
    boxSealWithKey msg n k = some ((sealing n k).sealed msg) := by
  have whole : ¬ (List.replicate 32 0 ++ msg).length < 32 := by simp
  have masked : mask (· ^^^ ·) (boxStream n k) (List.replicate 32 0 ++ msg) =
      (oneTimeKey n k).bytes ++ mask (· ^^^ ·) (fun i => boxStream n k (32 + i)) msg := by
    rw [mask_append, mask_zeros, List.length_replicate]
  rw [boxSealWithKey, secretbox, if_neg whole]
  simp only [stream_text, masked, slice_bytes_append, List.drop_left' (Buffer.length_bytes _)]
  rw [Option.map_some, List.drop_left' (List.length_replicate ..)]
  rfl

/-- The tags are compared over their 16 octets. -/
theorem verify_iff {cipher : Bytes} (whole : 16 ≤ cipher.length) (m : Bytes) (k : Buffer 32) :
    onetimeauthVerify cipher m k = 0 ↔ cipher.take 16 = (onetimeauth m k).value := by
  have length := length_onetimeauth m k
  rw [onetimeauthVerify, vn_eq_zero_iff]
  constructor
  · intro same
    apply List.ext_getElem (by rw [List.length_take, length]; omega)
    intro i inside within
    have octet := same i (by omega)
    rw [List.getElem_take]
    simpa [octetAt, List.getElem?_eq_getElem within,
      List.getElem?_eq_getElem (show i < cipher.length by omega)] using octet
  · intro same i inside
    rw [← same, octetAt, octetAt, List.getD_eq_getElem?_getD, List.getD_eq_getElem?_getD,
      List.getElem?_take_of_lt inside]

theorem boxOpenWithKey_eq (cipher : Bytes) (n : Buffer 24) (k : Buffer 32) :
    boxOpenWithKey cipher n k = (sealing n k).opened cipher := by
  by_cases short : cipher.length < 16
  · rw [boxOpenWithKey, if_pos short, Sealing.opened]
    exact (if_pos short).symm
  · have whole : ¬ (List.replicate 16 0 ++ cipher).length < 32 := by
      rw [List.length_append, List.length_replicate]
      omega
    have front : (List.replicate 16 0 ++ cipher).drop 16 = cipher :=
      List.drop_left' (List.length_replicate ..)
    have rest : (List.replicate 16 0 ++ cipher).drop 32 = cipher.drop 16 := by
      rw [← front, List.drop_drop, front]
    have key : slice 32 (oneTimeKey n k).bytes 0 = oneTimeKey n k := slice_bytes _
    have padded : (List.replicate 32 (0 : UInt8)).length = 32 := rfl
    rw [boxOpenWithKey, if_neg short, secretboxOpen, if_neg whole]
    simp only [stream_null, key, front, rest, stream_text]
    by_cases genuine : cipher.take 16 = (onetimeauth (cipher.drop 16) (oneTimeKey n k)).value
    · have verified := (verify_iff (Nat.le_of_not_lt short) _ _).mpr genuine
      have opened : (sealing n k).opened cipher =
          some (mask (· ^^^ ·) (fun i => boxStream n k (32 + i)) (cipher.drop 16)) := by
        rw [Sealing.opened]
        exact (if_neg short).trans (if_pos genuine)
      rw [if_neg (not_not_intro verified), Option.map_some, List.drop_left' padded, drop_mask, rest,
        opened]
    · have refused := mt (verify_iff (Nat.le_of_not_lt short) _ _).mp genuine
      rw [if_pos refused, Option.map_none, Sealing.opened]
      exact ((if_neg short).trans (if_neg genuine)).symm

/-- A box opens with a text exactly when it was sealed with it. -/
theorem open_iff_seal (key : Buffer 32) (nonce : Buffer 24) (m c : Bytes) :
    boxOpenWithKey c nonce key = some m ↔ boxSealWithKey m nonce key = some c := by
  rw [boxOpenWithKey_eq, boxSealWithKey_eq, Sealing.opened_eq_some_iff, Option.some_inj, eq_comm]

/-! ## Two key pairs -/

variable {crypto : Crypto}

/-- The shared secret does not depend on whose private key is used. -/
def DhCommutes (crypto : Crypto) : Prop :=
  ∀ left right : KeyPair crypto, crypto.dh left.priv right.pub = crypto.dh right.priv left.pub

theorem boxBeforeNm_comm (commutes : DhCommutes crypto) (left right : KeyPair crypto) :
    boxBeforeNm crypto left.pub right.priv = boxBeforeNm crypto right.pub left.priv := by
  rw [boxBeforeNm, boxBeforeNm, commutes right left]

/-- The receiver opens what the sender sealed, and nothing else. -/
theorem boxOpen_iff_boxSeal (commutes : DhCommutes crypto) (sender receiver : KeyPair crypto)
    (nonce : Buffer 24) (m c : Bytes) :
    boxOpen crypto c nonce sender.pub receiver.priv = some m ↔
      boxSeal crypto m nonce receiver.pub sender.priv = some c := by
  rw [boxOpen, boxSeal, boxBeforeNm_comm commutes sender receiver]
  cases boxBeforeNm crypto receiver.pub sender.priv with
  | none => exact ⟨nofun, nofun⟩
  | some key => exact open_iff_seal key nonce m c

theorem length_boxSeal {nonce : Buffer 24} {peerPublic secret : Key} {m c : Bytes}
    (sealed : boxSeal crypto m nonce peerPublic secret = some c) : c.length = m.length + 16 := by
  obtain ⟨key, -, boxed⟩ := Option.bind_eq_some_iff.mp sealed
  rw [boxSealWithKey_eq] at boxed
  cases boxed
  have masked : ((sealing nonce key).encrypt m).length = m.length := length_mask m
  rw [Sealing.length_sealed, masked, Nat.add_comm]
  rfl

end Sotoportego.Tailscale.NaClBox
