import Mathlib.Data.List.GetD
import Sotoportego.Lib.HeldBack
import Sotoportego.WireGuard.Blake2s

/-!
# The streaming hash and the hash of a whole message

However a message is cut into chunks, the state between two of them has every block but the
last in its chain value, the octets of these blocks in its counter and the last block in its
buffer. The last block is compressed once, with the final flag and the length of the message.
-/

set_option autoImplicit false

namespace Sotoportego.WireGuard

open Octets HeldBack

/-! ## BLAKE2s of a whole message -/

/-- One block, at the count of octets up to its end. -/
def compressAt (total : Nat) (final : Bool) (h : List UInt32) (block : Bytes) : List UInt32 :=
  compressWords h (.ofNat total) (.ofNat (total / 2 ^ 32)) (if final then 0xFFFFFFFF else 0) 0 block

/-- The chain value after the first blocks of a message. -/
def chainAt (start : List UInt32) (message : Bytes) (count : Nat) : List UInt32 :=
  chain 64 (fun index h block => compressAt (64 * (index + 1)) false h block) start message count

def padded (block : Bytes) : Bytes := block ++ List.replicate (64 - block.length) 0

/-- The words the chain starts from. -/
def startWords (outLen keyLen : Nat) : List UInt32 :=
  kIV.set 0 (wordAt kIV 0 ^^^
    ((0x01010000 : UInt32) ^^^ (UInt32.ofNat keyLen <<< 8) ^^^ UInt32.ofNat outLen))

/-- A key is a block of its own in front of the message. -/
def keyed (key message : Bytes) : Bytes := if key = [] then message else padded key ++ message

def blake2s (outLen : Nat) (key message : Bytes) : Bytes :=
  let whole := keyed key message
  let start := startWords outLen key.length
  let last := compressAt whole.length true (chainAt start whole (full 64 whole))
    (padded (held 64 whole))
  (last.flatMap store32Le).take outLen

/-! ## The counter -/

/-- The two counter words are the 64-bit count. -/
structure Blake2s.Counts (s : Blake2s) (total : Nat) : Prop where
  low : s.t0 = .ofNat total
  high : s.t1 = .ofNat (total / 2 ^ 32)

theorem counts_increment {s : Blake2s} {total inc : Nat} (counts : s.Counts total)
    (small : inc < 2 ^ 32) : (s.increment (.ofNat inc)).Counts (total + inc) := by
  have low : s.t0 + UInt32.ofNat inc = .ofNat (total + inc) := by
    rw [counts.low, UInt32.ofNat_add]
  refine ⟨low, ?_⟩
  have carried : s.t0 + UInt32.ofNat inc < UInt32.ofNat inc ↔ (total + inc) % 2 ^ 32 < inc := by
    rw [low, UInt32.lt_iff_toNat_lt, UInt32.toNat_ofNat', UInt32.toNat_ofNat',
      Nat.mod_eq_of_lt small]
  simp only [Blake2s.increment, carried, counts.high]
  apply UInt32.toNat_inj.mp
  split
  · rw [UInt32.toNat_add, UInt32.toNat_ofNat', UInt32.toNat_ofNat']
    change (total / 2 ^ 32 % 2 ^ 32 + 1) % 2 ^ 32 = _
    omega
  · rw [UInt32.toNat_add, UInt32.toNat_ofNat', UInt32.toNat_ofNat']
    change (total / 2 ^ 32 % 2 ^ 32 + 0) % 2 ^ 32 = _
    omega

/-! ## The buffer -/

theorem copyInto_take {buf : Buffer 64} {offset : Nat} {source : Bytes}
    (fits : offset + source.length ≤ 64) :
    (copyInto buf offset source).bytes.take (offset + source.length) =
      buf.bytes.take offset ++ source := by
  apply List.ext_getElem
  · simp
    omega
  · intro position inside _
    rw [List.length_take, Buffer.length_bytes] at inside
    have size : buf.bytes.length = 64 := buf.length_bytes
    simp only [copyInto, List.getElem_take, List.getElem_map, List.getElem_range, octetAt,
      List.getElem_append, List.length_take, size]
    by_cases early : position < offset
    · rw [if_neg (by omega), dif_pos (by omega), List.getD_eq_getElem _ _ (by omega)]
    · rw [if_pos (by omega), dif_neg (by omega), List.getD_eq_getElem _ _ (by omega)]
      congr 1
      omega

theorem copyInto_bytes {buf : Buffer 64} {offset : Nat} {source : Bytes}
    (fills : offset + source.length = 64) :
    (copyInto buf offset source).bytes = buf.bytes.take offset ++ source := by
  rw [← copyInto_take (Nat.le_of_eq fills), fills, List.take_of_length_le]
  rw [Buffer.length_bytes]

/-! ## Updates -/

/-- What a state has taken in. -/
structure Absorbed (start : List UInt32) (outLen : Nat) (message : Bytes) (s : Blake2s) : Prop where
  buflen : s.buflen = (held 64 message).length
  buf : s.buf.bytes.take s.buflen = held 64 message
  h : s.h = chainAt start message (full 64 message)
  counts : s.Counts (64 * full 64 message)
  f0 : s.f0 = 0
  f1 : s.f1 = 0
  outlen : s.outlen = outLen

/-- The state between two whole blocks. -/
structure Between (start : List UInt32) (message : Bytes) (count : Nat) (s : Blake2s) : Prop where
  h : s.h = chainAt start message count
  counts : s.Counts (64 * count)
  f0 : s.f0 = 0
  f1 : s.f1 = 0

section Update

variable {start : List UInt32} {outLen : Nat} {message : Bytes}

theorem between_compress {count : Nat} {s : Blake2s}
    (between : Between start message count s) :
    Between start message (count + 1) ((s.increment 64).compress (block 64 message count)) := by
  obtain ⟨h, counts, f0, f1⟩ := between
  have counted : (s.increment 64).Counts (64 * (count + 1)) := by
    have added := counts_increment counts (by decide : 64 < 2 ^ 32)
    rwa [← Nat.mul_succ] at added
  refine ⟨?_, ⟨counted.low, counted.high⟩, f0, f1⟩
  have words : (s.increment 64).h = s.h ∧ (s.increment 64).f0 = 0 ∧ (s.increment 64).f1 = 0 :=
    ⟨rfl, f0, f1⟩
  simp only [Blake2s.compress, words, counted.low, counted.high, h]
  rfl

/-- The loop stops at the last block, with the rest of the state as it was. -/
theorem blocks_between {count : Nat} {s : Blake2s} {rest : Bytes}
    (between : Between start message count s)
    (left : rest = message.drop (64 * count)) (nonempty : rest ≠ []) :
    Between start message (full 64 message) (s.blocks rest).1 ∧
      (s.blocks rest).2 = held 64 message ∧ (s.blocks rest).1.buf = s.buf ∧
      (s.blocks rest).1.buflen = s.buflen ∧ (s.blocks rest).1.outlen = s.outlen := by
  have length := congrArg List.length left
  rw [List.length_drop] at length
  have some := List.length_pos_iff.mpr nonempty
  unfold Blake2s.blocks
  split
  · next more =>
    have next := between_compress between
    have taken : rest.take 64 = block 64 message count := by rw [left, block]
    have dropped : rest.drop 64 = message.drop (64 * (count + 1)) := by
      rw [left, List.drop_drop]
      congr 1
    have later : rest.drop 64 ≠ [] := by
      rw [← List.length_pos_iff, List.length_drop]
      omega
    rw [← taken] at next
    exact blocks_between next dropped later
  · next last =>
    have stopped : full 64 message = count := full_eq (by omega) (by omega)
    rw [stopped]
    refine ⟨between, ?_, rfl, rfl, rfl⟩
    rw [held, stopped, left]
termination_by rest.length
decreasing_by
  rw [List.length_drop]
  omega

theorem chainAt_append {count : Nat} (inside : 64 * count ≤ message.length) (more : Bytes) :
    chainAt start (message ++ more) count = chainAt start message count :=
  chain_append inside more

/-- An update takes its chunk in behind what came before. -/
theorem absorbed_update {s : Blake2s} (absorbed : Absorbed start outLen message s)
    (input : Bytes) :
    Absorbed start outLen (message ++ input) (hashUpdate s input) := by
  obtain ⟨buflen, buf, h, counts, f0, f1, outlen⟩ := absorbed
  unfold hashUpdate
  by_cases empty : input = []
  · rw [if_pos empty, empty, List.append_nil]
    exact ⟨buflen, buf, h, counts, f0, f1, outlen⟩
  rw [if_neg empty]
  have some := List.length_pos_iff.mpr empty
  have bound : (held 64 message).length ≤ 64 := held_le (by decide)
  have whole := @length_held _ 64 message
  have before := @full_le _ 64 message
  have joined : (message ++ input).length = message.length + input.length := List.length_append
  have behind : (message ++ input).drop (64 * full 64 message) = held 64 message ++ input := by
    rw [List.drop_append_of_le_length before, held]
  by_cases exceeds : 64 - s.buflen < input.length
  · simp only [if_pos exceeds]
    have filled : (input.take (64 - s.buflen)).length = 64 - s.buflen := by
      rw [List.length_take]
      omega
    have first : (copyInto s.buf s.buflen (input.take (64 - s.buflen))).bytes =
        block 64 (message ++ input) (full 64 message) := by
      rw [copyInto_bytes (by omega), buf, block, behind, List.take_append,
        List.take_of_length_le bound, ← buflen]
    have between : Between start (message ++ input) (full 64 message)
        { s with buflen := 0, buf := copyInto s.buf s.buflen (input.take (64 - s.buflen)) } :=
      ⟨h.trans (chainAt_append before input).symm, ⟨counts.low, counts.high⟩, f0, f1⟩
    have next := between_compress between
    have left : input.drop (64 - s.buflen) =
        (message ++ input).drop (64 * (full 64 message + 1)) := by
      rw [Nat.mul_succ, ← List.drop_drop, behind, List.drop_append,
        List.drop_eq_nil_of_le bound, List.nil_append, ← buflen]
    have later : input.drop (64 - s.buflen) ≠ [] := by
      rw [← List.length_pos_iff, List.length_drop]
      omega
    rw [← first] at next
    obtain ⟨final, rest, _, size, out⟩ := blocks_between next left later
    have fits : (held 64 (message ++ input)).length ≤ 64 := held_le (by decide)
    refine ⟨?_, ?_, final.h, ⟨final.counts.low, final.counts.high⟩, final.f0, final.f1,
      out.trans outlen⟩
    · simp only [size, rest]
      exact Nat.zero_add _
    · simp only [size, rest]
      exact copyInto_take (Nat.le_trans (Nat.le_of_eq (Nat.zero_add _)) fits)
  · simp only [if_neg exceeds]
    have same : full 64 (message ++ input) = full 64 message := full_eq (by omega) (by omega)
    have rest : held 64 (message ++ input) = held 64 message ++ input := by
      rw [held, same, behind]
    refine ⟨?_, ?_, ?_, ?_, f0, f1, outlen⟩
    · rw [rest, List.length_append, ← buflen]
    · rw [rest, ← buf]
      exact copyInto_take (by omega)
    · rw [same]
      exact h.trans (chainAt_append before input).symm
    · rw [same]
      exact ⟨counts.low, counts.high⟩

theorem absorbed_chunks {s : Blake2s} (absorbed : Absorbed start outLen message s)
    (chunks : List Bytes) :
    Absorbed start outLen (message ++ chunks.flatten) (chunks.foldl hashUpdate s) := by
  induction chunks generalizing message s with
  | nil => simpa using absorbed
  | cons chunk chunks continued =>
      have later := continued (absorbed_update absorbed chunk)
      rwa [List.append_assoc, ← List.flatten_cons] at later

/-! ## From the first state to the digest -/

theorem absorbed_nil {s : Blake2s} (h : s.h = start) (counts : s.Counts 0) (f0 : s.f0 = 0)
    (f1 : s.f1 = 0) (empty : s.buflen = 0) (outlen : s.outlen = outLen) :
    Absorbed start outLen [] s := by
  refine ⟨?_, ?_, ?_, ?_, f0, f1, outlen⟩
  · rw [held_nil, empty]
    rfl
  · rw [held_nil, empty]
    rfl
  · rw [full_nil]
    exact h
  · rw [full_nil]
    exact counts

theorem copyInto_zero {key : Bytes} (short : key.length ≤ 64) :
    (copyInto (.zero 64) 0 key).bytes = padded key := by
  apply List.ext_getElem
  · simp [padded]
    omega
  · intro position inside _
    rw [Buffer.length_bytes] at inside
    simp only [copyInto, List.getElem_map, List.getElem_range, Nat.zero_le, true_and,
      Nat.zero_add, Nat.sub_zero, padded, List.getElem_append, octetAt, Buffer.zero]
    by_cases early : position < key.length
    · rw [if_pos early, dif_pos early, List.getD_eq_getElem _ _ early]
    · rw [if_neg early, dif_neg early, List.getElem_replicate, List.getD_replicate _ inside]

/-- A key of at most one block is taken in first. -/
theorem absorbed_init {key : Bytes} (short : key.length ≤ 64) :
    Absorbed (startWords outLen key.length) outLen (keyed key []) (blake2sInitKey outLen key) := by
  have fresh : Absorbed (startWords outLen key.length) outLen []
      { h := startWords outLen key.length, outlen := outLen } :=
    absorbed_nil rfl ⟨rfl, rfl⟩ rfl rfl rfl rfl
  unfold keyed blake2sInitKey
  by_cases unkeyed : key = []
  · rw [if_pos unkeyed]
    simp only [if_pos unkeyed]
    exact fresh
  · rw [if_neg unkeyed]
    simp only [if_neg unkeyed, copyInto_zero short]
    have taken := absorbed_update fresh (padded key)
    rw [List.append_nil]
    exact taken

theorem keyed_append (key message : Bytes) : keyed key [] ++ message = keyed key message := by
  unfold keyed
  split
  · rfl
  · rw [List.append_nil]

variable {s : Blake2s}

theorem finish_counts (absorbed : Absorbed start outLen message s) :
    s.finish.Counts message.length := by
  have bound : (held 64 message).length ≤ 64 := held_le (by decide)
  have length := @length_held _ 64 message
  have before := @full_le _ 64 message
  have total : 64 * full 64 message + s.buflen = message.length := by
    have buflen := absorbed.buflen
    omega
  have counted := counts_increment absorbed.counts
    (show s.buflen < 2 ^ 32 by have buflen := absorbed.buflen; omega)
  rw [total] at counted
  exact ⟨counted.low, counted.high⟩

/-- The held block is compressed once, flagged and at the length of the message. -/
theorem finish_h (absorbed : Absorbed start outLen message s) :
    s.finish.h = compressAt message.length true (chainAt start message (full 64 message))
      (padded (held 64 message)) := by
  have bound : (held 64 message).length ≤ 64 := held_le (by decide)
  have counts := finish_counts absorbed
  have low : (s.increment (.ofNat s.buflen)).t0 = .ofNat message.length := counts.low
  have high : (s.increment (.ofNat s.buflen)).t1 = .ofNat (message.length / 2 ^ 32) := counts.high
  have block : (copyInto s.buf s.buflen (List.replicate (64 - s.buflen) 0)).bytes =
      padded (held 64 message) := by
    have buflen := absorbed.buflen
    rw [copyInto_bytes (by rw [List.length_replicate]; omega), absorbed.buf, padded, buflen]
  have words : (s.increment (.ofNat s.buflen)).h = s.h ∧
      (s.increment (.ofNat s.buflen)).f1 = 0 ∧ (s.increment (.ofNat s.buflen)).buf = s.buf ∧
      (s.increment (.ofNat s.buflen)).buflen = s.buflen := ⟨rfl, absorbed.f1, rfl, rfl⟩
  simp only [Blake2s.finish, Blake2s.compress, words, low, high, block, absorbed.h]
  rfl

theorem hashFinal_absorbed {key : Bytes}
    (absorbed : Absorbed (startWords outLen key.length) outLen (keyed key message) s) :
    hashFinal s = blake2s outLen key message := by
  have out : s.finish.outlen = outLen := absorbed.outlen
  rw [hashFinal, finish_h absorbed]
  simp only [absorbed.outlen]
  rfl

end Update

/-- The states between two chunks, and the digest that ends them. -/
theorem absorbed_stream (outLen : Nat) {key : Bytes} (short : key.length ≤ 64)
    (chunks : List Bytes) :
    Absorbed (startWords outLen key.length) outLen (keyed key chunks.flatten)
      (chunks.foldl hashUpdate (blake2sInitKey outLen key)) := by
  have taken := absorbed_chunks (@absorbed_init outLen key short) chunks
  rwa [keyed_append] at taken

theorem hash_eq (input : Bytes) : hash input = blake2s 32 [] input := by
  have taken := @absorbed_stream 32 [] (Nat.zero_le 64) [input]
  rw [List.flatten_singleton] at taken
  exact hashFinal_absorbed taken

theorem mac16_eq (key : Key) (input : Bytes) : mac16 key input = blake2s 16 key.bytes input := by
  have short : key.bytes.length ≤ 64 := by
    rw [key.length_bytes]
    decide
  have taken := absorbed_stream 16 short [input]
  rw [List.flatten_singleton] at taken
  exact hashFinal_absorbed taken

/-- The buffer holds at most a block, the counter counts what is compressed, and in the end
everything is. -/
structure Streaming (s : Blake2s) (total : Nat) : Prop where
  bounded : s.buflen ≤ 64
  inside : s.buflen ≤ total
  counts : s.Counts (total - s.buflen)
  finished : s.finish.Counts total

theorem Absorbed.streaming {start : List UInt32} {outLen : Nat} {message : Bytes} {s : Blake2s}
    (absorbed : Absorbed start outLen message s) : Streaming s message.length := by
  have bound : (held 64 message).length ≤ 64 := held_le (by decide)
  have length := @length_held _ 64 message
  have before := @full_le _ 64 message
  have buflen := absorbed.buflen
  have compressed : 64 * full 64 message = message.length - s.buflen := by omega
  refine ⟨by omega, by omega, ?_, finish_counts absorbed⟩
  rw [← compressed]
  exact absorbed.counts

theorem hash_streamed (chunks : List Bytes) (key : Key) :
    (hashFinal (chunks.foldl hashUpdate hashInit) = blake2s 32 [] chunks.flatten ∧
      hash chunks.flatten = blake2s 32 [] chunks.flatten ∧
      Streaming (chunks.foldl hashUpdate hashInit) chunks.flatten.length) ∧
    hashFinal (chunks.foldl hashUpdate (blake2sInitKey 16 key.bytes)) =
        blake2s 16 key.bytes chunks.flatten ∧
      mac16 key chunks.flatten = blake2s 16 key.bytes chunks.flatten ∧
      Streaming (chunks.foldl hashUpdate (blake2sInitKey 16 key.bytes))
        (keyed key.bytes chunks.flatten).length := by
  have short : key.bytes.length ≤ 64 := by
    rw [key.length_bytes]
    decide
  have unkeyed := @absorbed_stream 32 [] (Nat.zero_le 64) chunks
  have withKey := absorbed_stream 16 short chunks
  exact ⟨⟨hashFinal_absorbed unkeyed, hash_eq _, unkeyed.streaming⟩,
    hashFinal_absorbed withKey, mac16_eq key _, withKey.streaming⟩

-- The digest that the reference implementation gives for these three octets.
example : hash (ascii "abc") =
    [0x50, 0x8c, 0x5e, 0x8c, 0x32, 0x7c, 0x14, 0xe2, 0xe1, 0xa7, 0x2b, 0xa3, 0x4e, 0xeb, 0x45, 0x2f,
      0x37, 0x45, 0x8b, 0x20, 0x9e, 0xd6, 0x3a, 0x29, 0x4d, 0x99, 0x9b, 0x4c, 0x86, 0x67, 0x59,
      0x82] := by
  decide +kernel

end Sotoportego.WireGuard
