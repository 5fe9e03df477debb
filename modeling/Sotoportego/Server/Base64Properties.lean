import Sotoportego.Lib.Sextets
import Sotoportego.Server.Base64

/-!
# Both decoders invert the encoder

White space goes anywhere in the text, and the accumulators are never masked: what they hold
is the whole register modulo `2 ^ 32`, and an octet comes from the bits at its end.
-/

set_option autoImplicit false

namespace Sotoportego.Server

open Octets CText Sextets
open WireGuard (base64Value decodeFrom base64Decode)

/-! ## The encoder -/

def charOf (group : Nat) : UInt8 := kAlphabet.getD group 0

theorem base64Char_eq (n : UInt32) : base64Char n = charOf (n.toNat % 64) := by
  have masked : n.toNat &&& 63 = n.toNat % 64 := Nat.and_two_pow_sub_one_eq_mod n.toNat 6
  rw [base64Char, charOf, UInt32.toNat_and]
  exact congrArg (kAlphabet.getD · 0) masked

theorem joined_toNat (first second third : UInt8) :
    (first.toUInt32 <<< 16 ||| second.toUInt32 <<< 8 ||| third.toUInt32).toNat =
      first.toNat * 65536 + second.toNat * 256 + third.toNat := by
  have small := first.toNat_lt
  have middle := second.toNat_lt
  have high : first.toNat <<< 16 ||| second.toNat <<< 8 =
      (first.toNat * 256 + second.toNat) <<< 8 := by
    rw [join_below first.toNat (show second.toNat <<< 8 < 2 ^ 16 by rw [Nat.shiftLeft_eq]; omega),
      Nat.shiftLeft_eq, Nat.shiftLeft_eq]
    omega
  have fits : first.toNat <<< 16 % 2 ^ 32 = first.toNat <<< 16 := by
    rw [Nat.shiftLeft_eq]
    omega
  have fitsToo : second.toNat <<< 8 % 2 ^ 32 = second.toNat <<< 8 := by
    rw [Nat.shiftLeft_eq]
    omega
  rw [UInt32.toNat_or, UInt32.toNat_or, UInt32.toNat_shiftLeft, UInt32.toNat_shiftLeft]
  simp only [UInt8.toNat_toUInt32]
  change first.toNat <<< 16 % 2 ^ 32 ||| second.toNat <<< 8 % 2 ^ 32 ||| third.toNat = _
  rw [fits, fitsToo, high, join_below _ third.toNat_lt]
  omega

theorem base64Char_parts (n : UInt32) :
    base64Char (n >>> 18) = charOf (n.toNat / 262144 % 64) ∧
      base64Char (n >>> 12) = charOf (n.toNat / 4096 % 64) ∧
      base64Char (n >>> 6) = charOf (n.toNat / 64 % 64) ∧
      base64Char n = charOf (n.toNat % 64) := by
  simp [base64Char_eq, Nat.shiftRight_eq_div_pow]

/-- The characters of the groups, and the signs that fill up the last four. -/
theorem base64Encode_eq (source : Bytes) :
    ∃ fill, base64Encode source = (sextets source).map charOf ++ fill ∧
      ∀ octet ∈ fill, octet = 61 := by
  induction source using sextets.induct with
  | case1 first second third rest continued =>
      obtain ⟨fill, encoded, filled⟩ := continued
      have joined := joined_toNat first second third
      have small : (first.toNat * 65536 + second.toNat * 256 + third.toNat) / 262144 % 64 =
          (first.toNat * 65536 + second.toNat * 256 + third.toNat) / 262144 := by
        have high := first.toNat_lt
        have middle := second.toNat_lt
        have low := third.toNat_lt
        omega
      have parts := base64Char_parts
        (first.toUInt32 <<< 16 ||| second.toUInt32 <<< 8 ||| third.toUInt32)
      rw [joined, small] at parts
      refine ⟨fill, ?_, filled⟩
      simp only [base64Encode, parts, encoded, sextets, List.map_append, List.map_cons,
        List.map_nil, List.append_assoc]
  | case2 first second =>
      have joined := joined_toNat first second 0
      have zero : (0 : UInt8).toUInt32 = 0 := rfl
      have small : (first.toNat * 65536 + second.toNat * 256) / 262144 % 64 =
          (first.toNat * 65536 + second.toNat * 256) / 262144 := by
        have high := first.toNat_lt
        have middle := second.toNat_lt
        omega
      have parts := base64Char_parts (first.toUInt32 <<< 16 ||| second.toUInt32 <<< 8)
      rw [zero, UInt32.or_zero, UInt8.toNat_zero, Nat.add_zero] at joined
      rw [joined, small] at parts
      refine ⟨ascii "=", ?_, by simp [ascii]⟩
      simp only [base64Encode, parts, sextets, List.map_cons, List.map_nil]
  | case3 first =>
      have joined := joined_toNat first 0 0
      have zero : (0 : UInt8).toUInt32 = 0 := rfl
      have small : first.toNat * 65536 / 262144 % 64 = first.toNat * 65536 / 262144 := by
        have high := first.toNat_lt
        omega
      have parts := base64Char_parts (first.toUInt32 <<< 16)
      rw [zero, UInt32.zero_shiftLeft, UInt32.or_zero, UInt32.or_zero, UInt8.toNat_zero,
        Nat.zero_mul, Nat.add_zero] at joined
      rw [joined, small] at parts
      refine ⟨ascii "==", ?_, by simp [ascii]⟩
      simp only [base64Encode, parts, sextets, List.map_cons, List.map_nil]
  | case4 => exact ⟨[], rfl, by simp⟩

/-! ## One character -/

def isBreak (octet : UInt8) : Bool := octet = 32 || octet = 9 || octet = 13 || octet = 10

theorem isBreak_iff {octet : UInt8} :
    isBreak octet = true ↔ octet = 32 ∨ octet = 9 ∨ octet = 13 ∨ octet = 10 := by
  simp [isBreak, or_assoc]

theorem char_values : ∀ group < 64, base64Value (charOf group) = some group ∧
    isBreak (charOf group) = false ∧ charOf group ≠ 61 := by
  decide +kernel

/-! ## The accumulators -/

section Accumulator

variable {register group bits : Nat}

/-- The next group below what an accumulator holds. -/
theorem or_group {word : Nat} (held : word = register % 2 ^ 32) (small : group < 64) :
    word <<< 6 % 2 ^ 32 ||| group = (register * 64 + group) % 2 ^ 32 := by
  have shifted : word <<< 6 % 2 ^ 32 = (register % 2 ^ 26) <<< 6 := by
    rw [held, Nat.shiftLeft_eq, Nat.shiftLeft_eq]
    omega
  rw [shifted, join_below _ small]
  omega

theorem unsigned_next {buffer : UInt32} (held : buffer.toNat = register % 2 ^ 32)
    (small : group < 64) :
    (buffer <<< 6 ||| .ofNat group).toNat = (register * 64 + group) % 2 ^ 32 := by
  have value : (UInt32.ofNat group).toNat = group := by
    rw [UInt32.toNat_ofNat']
    omega
  rw [UInt32.toNat_or, UInt32.toNat_shiftLeft, value]
  exact or_group held small

theorem signed_next {buffer : Int32} (held : buffer.toBitVec.toNat = register % 2 ^ 32)
    (small : group < 64) :
    (buffer <<< 6 ||| .ofNat group).toBitVec.toNat = (register * 64 + group) % 2 ^ 32 := by
  have value : (BitVec.ofNat 32 group).toNat = group := by
    rw [BitVec.toNat_ofNat]
    omega
  rw [Int32.toBitVec_or, Int32.toBitVec_shiftLeft, BitVec.toNat_or]
  change (buffer.toBitVec <<< (6 : BitVec 32)).toNat ||| (BitVec.ofNat 32 group).toNat = _
  rw [value, BitVec.shiftLeft_eq', BitVec.toNat_shiftLeft]
  exact or_group held small

theorem shift_cases (low : bits ≤ 5) :
    bits = 0 ∨ bits = 1 ∨ bits = 2 ∨ bits = 3 ∨ bits = 4 ∨ bits = 5 := by
  omega

/-- The octet that an accumulator gives out lies well below its top. -/
theorem unsigned_octet {buffer : UInt32} (held : buffer.toNat = register % 2 ^ 32)
    (low : bits ≤ 5) : (buffer >>> .ofNat bits).toUInt8 = UInt8.ofNat (register / 2 ^ bits) := by
  apply UInt8.toNat_inj.mp
  have amount : (UInt32.ofNat bits).toNat % 32 = bits := by
    rw [UInt32.toNat_ofNat']
    omega
  rw [UInt32.toNat_toUInt8, UInt32.toNat_shiftRight, amount, held, UInt8.toNat_ofNat',
    Nat.shiftRight_eq_div_pow]
  obtain rfl | rfl | rfl | rfl | rfl | rfl := shift_cases low
  all_goals omega

/-- The sign that an arithmetic shift brings in stays above the octet. -/
theorem signed_octet {buffer : Int32} (held : buffer.toBitVec.toNat = register % 2 ^ 32)
    (low : bits ≤ 5) :
    (buffer >>> .ofNat bits &&& 0xff).toUInt32.toUInt8 = UInt8.ofNat (register / 2 ^ bits) := by
  apply UInt8.toNat_inj.mp
  have amount : ((BitVec.ofNat 32 bits).smod 32).toNat = bits := by
    obtain rfl | rfl | rfl | rfl | rfl | rfl := shift_cases low
    all_goals rfl
  have shifted : (buffer >>> Int32.ofNat bits).toBitVec =
      buffer.toBitVec.sshiftRight bits := by
    rw [Int32.toBitVec_shiftRight, BitVec.sshiftRight_eq']
    change buffer.toBitVec.sshiftRight ((BitVec.ofNat 32 bits).smod 32).toNat = _
    rw [amount]
  have masked : (buffer >>> Int32.ofNat bits &&& 0xff).toUInt32.toNat =
      (buffer.toBitVec.sshiftRight bits).toNat % 256 := by
    change ((buffer >>> Int32.ofNat bits).toBitVec &&& 255).toNat = _
    rw [shifted, BitVec.toNat_and]
    exact Nat.and_two_pow_sub_one_eq_mod _ 8
  rw [UInt32.toNat_toUInt8, masked, BitVec.toNat_sshiftRight, held, UInt8.toNat_ofNat']
  simp only [Nat.shiftRight_eq_div_pow]
  obtain rfl | rfl | rfl | rfl | rfl | rfl := shift_cases low
  all_goals
    split
    all_goals omega

end Accumulator

/-! ## The decoders on the groups of a text -/

section Groups

variable {fill : Bytes}

theorem decodeBase64From_fill (filled : ∀ octet ∈ fill, octet = 61) (buffer : Int32) (bits : Nat)
    (out : Bytes) :
    decodeBase64From buffer bits out fill = if 6 ≤ bits then none else some out := by
  cases fill with
  | nil => rfl
  | cons octet fill =>
      rw [filled octet List.mem_cons_self, decodeBase64From, if_neg (by decide), if_pos rfl]

theorem decodeFrom_fill (filled : ∀ octet ∈ fill, octet = 61) (outCap : Nat) (buffer : UInt32)
    (bits : Nat) (out : Bytes) : decodeFrom outCap buffer bits out fill = some out := by
  cases fill with
  | nil => rfl
  | cons octet fill =>
      rw [filled octet List.mem_cons_self, decodeFrom, if_pos rfl]

theorem char_plain {group : Nat} (small : group < 64) :
    base64Value (charOf group) = some group ∧ charOf group ≠ 61 ∧
      ¬ (charOf group = 32 ∨ charOf group = 9 ∨ charOf group = 13 ∨ charOf group = 10) := by
  obtain ⟨value, solid, other⟩ := char_values group small
  rw [← Bool.not_eq_true, isBreak_iff] at solid
  exact ⟨value, other, solid⟩

/-- The signed accumulator is the register modulo `2 ^ 32`. -/
theorem decodeBase64From_groups (filled : ∀ octet ∈ fill, octet = 61) (groups : List Nat)
    (small : ∀ group ∈ groups, group < 64) (register bits : Nat) (low : bits ≤ 7) (buffer : Int32)
    (held : buffer.toBitVec.toNat = register % 2 ^ 32) (out : Bytes) :
    decodeBase64From buffer bits out (groups.map charOf ++ fill) =
      if 6 ≤ (octets register bits groups).2 then none
      else some (out ++ (octets register bits groups).1) := by
  induction groups generalizing register bits buffer out with
  | nil =>
      rw [List.map_nil, List.nil_append, decodeBase64From_fill filled, octets, List.append_nil]
  | cons group groups continued =>
      obtain ⟨value, other, solid⟩ := char_plain (small group List.mem_cons_self)
      have next := signed_next held (small group List.mem_cons_self)
      have later : ∀ group ∈ groups, group < 64 :=
        fun other member => small other (List.mem_cons_of_mem _ member)
      rw [List.map_cons, List.cons_append, decodeBase64From, if_neg solid, if_neg other, value,
        octets]
      by_cases pending : bits + 6 < 8
      · simp only [if_pos pending]
        exact continued later (register * 64 + group) (bits + 6) (by omega) _ next out
      · simp only [if_neg pending]
        rw [continued later (register * 64 + group) (bits - 2) (by omega) _ next,
          signed_octet next (by omega), List.append_assoc, List.singleton_append]

/-- The unsigned accumulator is so as well, and the capacity is not reached. -/
theorem decodeFrom_groups (filled : ∀ octet ∈ fill, octet = 61) (outCap : Nat) (groups : List Nat)
    (small : ∀ group ∈ groups, group < 64) (register bits : Nat) (low : bits ≤ 7)
    (buffer : UInt32) (held : buffer.toNat = register % 2 ^ 32) (out : Bytes)
    (fits : out.length + (octets register bits groups).1.length ≤ outCap) :
    decodeFrom outCap buffer bits out (groups.map charOf ++ fill) =
      some (out ++ (octets register bits groups).1) := by
  induction groups generalizing register bits buffer out with
  | nil => rw [List.map_nil, List.nil_append, decodeFrom_fill filled, octets, List.append_nil]
  | cons group groups continued =>
      obtain ⟨value, other, solid⟩ := char_plain (small group List.mem_cons_self)
      have next := unsigned_next held (small group List.mem_cons_self)
      have later : ∀ group ∈ groups, group < 64 :=
        fun other member => small other (List.mem_cons_of_mem _ member)
      rw [octets] at fits ⊢
      rw [List.map_cons, List.cons_append, decodeFrom, if_neg other, if_neg solid, value]
      by_cases pending : bits + 6 < 8
      · simp only [if_pos pending] at fits ⊢
        exact continued later (register * 64 + group) (bits + 6) (by omega) _ next out fits
      · simp only [if_neg pending, List.length_cons] at fits ⊢
        rw [if_neg (by omega), continued later (register * 64 + group) (bits - 2) (by omega) _ next,
          unsigned_octet next (by omega), List.append_assoc, List.singleton_append]
        rw [List.length_append, List.length_singleton]
        omega

end Groups

/-! ## White space and foreign characters -/

section Text

theorem decodeBase64From_filter (text : Bytes) (buffer : Int32) (bits : Nat) (out : Bytes) :
    decodeBase64From buffer bits out (text.filter fun octet => !isBreak octet) =
      decodeBase64From buffer bits out text := by
  induction text generalizing buffer bits out with
  | nil => rfl
  | cons octet text continued =>
      cases broken : isBreak octet with
      | true =>
          rw [List.filter_cons_of_neg (by simp [broken]), decodeBase64From,
            if_pos (isBreak_iff.mp broken)]
          exact continued buffer bits out
      | false =>
          rw [List.filter_cons_of_pos (by simp [broken]), decodeBase64From, decodeBase64From]
          simp only [continued]

theorem decodeFrom_filter (outCap : Nat) (text : Bytes) (buffer : UInt32) (bits : Nat)
    (out : Bytes) :
    decodeFrom outCap buffer bits out (text.filter fun octet => !isBreak octet) =
      decodeFrom outCap buffer bits out text := by
  induction text generalizing buffer bits out with
  | nil => rfl
  | cons octet text continued =>
      cases broken : isBreak octet with
      | true =>
          have other : octet ≠ 61 := by
            rintro rfl
            cases broken
          rw [List.filter_cons_of_neg (by simp [broken]), decodeFrom, if_neg other,
            if_pos (isBreak_iff.mp broken)]
          exact continued buffer bits out
      | false =>
          rw [List.filter_cons_of_pos (by simp [broken]), decodeFrom, decodeFrom]
          simp only [continued]

/-- Neither of the alphabet nor white space. -/
structure Foreign (octet : UInt8) : Prop where
  noValue : base64Value octet = none
  noBreak : isBreak octet = false
  noFill : octet ≠ 61

variable {foreign : UInt8} {front : Bytes}

theorem decodeBase64From_foreign (strange : Foreign foreign) (open_ : 61 ∉ front) (rest : Bytes)
    (buffer : Int32) (bits : Nat) (out : Bytes) :
    decodeBase64From buffer bits out (front ++ foreign :: rest) = none := by
  induction front generalizing buffer bits out with
  | nil =>
      have solid := strange.noBreak
      rw [← Bool.not_eq_true, isBreak_iff] at solid
      rw [List.nil_append, decodeBase64From, if_neg solid, if_neg strange.noFill, strange.noValue]
  | cons octet front continued =>
      obtain ⟨other, open_⟩ := List.ne_and_not_mem_of_not_mem_cons open_
      rw [List.cons_append, decodeBase64From, if_neg (Ne.symm other)]
      split
      · exact continued open_ _ _ _
      · cases base64Value octet with
        | none => rfl
        | some value =>
            simp only [continued open_, ite_self]

theorem decodeFrom_foreign (strange : Foreign foreign) (open_ : 61 ∉ front) (rest : Bytes)
    (outCap : Nat) (buffer : UInt32) (bits : Nat) (out : Bytes) :
    decodeFrom outCap buffer bits out (front ++ foreign :: rest) = none := by
  induction front generalizing buffer bits out with
  | nil =>
      have solid := strange.noBreak
      rw [← Bool.not_eq_true, isBreak_iff] at solid
      rw [List.nil_append, decodeFrom, if_neg strange.noFill, if_neg solid, strange.noValue]
  | cons octet front continued =>
      obtain ⟨other, open_⟩ := List.ne_and_not_mem_of_not_mem_cons open_
      rw [List.cons_append, decodeFrom, if_neg (Ne.symm other)]
      split
      · exact continued open_ _ _ _
      · cases base64Value octet with
        | none => rfl
        | some value =>
            simp only [continued open_, ite_self]

end Text

/-! ## The round trip -/

/-- The encoding of some octets, with white space anywhere. -/
def Spaced (bytes : Bytes) (text : CString) : Prop :=
  text.bytes.filter (fun octet => !isBreak octet) = base64Encode bytes

theorem decodeBase64_spaced {bytes : Bytes} {text : CString} (spaced : Spaced bytes text) :
    decodeBase64 text = some bytes := by
  obtain ⟨fill, encoded, filled⟩ := base64Encode_eq bytes
  obtain ⟨back, left⟩ := octets_sextets bytes 0
  rw [decodeBase64, ← decodeBase64From_filter, spaced, encoded,
    decodeBase64From_groups filled _ (sextets_lt bytes) 0 0 (Nat.zero_le _) _ rfl, back,
    if_neg (by omega), List.nil_append]

theorem base64Decode_spaced {bytes : Bytes} {text : CString} (spaced : Spaced bytes text)
    {outCap : Nat} (fits : bytes.length ≤ outCap) : base64Decode text outCap = some bytes := by
  obtain ⟨fill, encoded, filled⟩ := base64Encode_eq bytes
  obtain ⟨back, _⟩ := octets_sextets bytes 0
  rw [base64Decode, ← decodeFrom_filter, spaced, encoded,
    decodeFrom_groups filled outCap _ (sextets_lt bytes) 0 0 (Nat.zero_le _) _ rfl, back,
    List.nil_append]
  rw [back, List.length_nil, Nat.zero_add]
  exact fits

theorem mem_base64Encode {source : Bytes} {octet : UInt8} (member : octet ∈ base64Encode source) :
    octet = 61 ∨ ∃ group < 64, octet = charOf group := by
  obtain ⟨fill, encoded, filled⟩ := base64Encode_eq source
  rw [encoded] at member
  rcases List.mem_append.mp member with member | member
  · obtain ⟨group, listed, rfl⟩ := List.mem_map.mp member
    exact .inr ⟨group, sextets_lt source group listed, rfl⟩
  · exact .inl (filled octet member)

theorem base64Encode_clean {source : Bytes} : ∀ octet ∈ base64Encode source,
    octet ≠ 0 ∧ isBreak octet = false := by
  have chars : ∀ group < 64, charOf group ≠ 0 ∧ isBreak (charOf group) = false := by
    decide +kernel
  intro octet member
  rcases mem_base64Encode member with rfl | ⟨group, small, rfl⟩
  · decide
  · exact chars group small

theorem bytes_base64Encode (source : Bytes) :
    (CString.ofBytes (base64Encode source)).bytes = base64Encode source := by
  refine List.takeWhile_eq_self_iff.mpr fun octet member => ?_
  rw [decide_eq_true_eq]
  exact (base64Encode_clean octet member).1

theorem spaced_base64Encode (source : Bytes) :
    Spaced source (.ofBytes (base64Encode source)) := by
  rw [Spaced, bytes_base64Encode, List.filter_eq_self]
  intro octet member
  rw [(base64Encode_clean octet member).2]
  rfl

/-- Both decoders give the octets of a spaced encoding back, and both refuse a text with a
foreign character before its first fill sign. -/
theorem base64_inverse :
    (∀ bytes text, Spaced bytes text → decodeBase64 text = some bytes ∧
      ∀ outCap, bytes.length ≤ outCap → base64Decode text outCap = some bytes) ∧
    ∀ (text : CString) (front rest : Bytes) (foreign : UInt8),
      text.bytes = front ++ foreign :: rest → 61 ∉ front → Foreign foreign →
      decodeBase64 text = none ∧ ∀ outCap, base64Decode text outCap = none := by
  refine ⟨fun bytes text spaced => ?_, fun text front rest foreign split open_ strange => ?_⟩
  · exact ⟨decodeBase64_spaced spaced, fun outCap fits => base64Decode_spaced spaced fits⟩
  · rw [decodeBase64, split]
    refine ⟨decodeBase64From_foreign strange open_ rest 0 0 [], fun outCap => ?_⟩
    rw [base64Decode, split]
    exact decodeFrom_foreign strange open_ rest outCap 0 0 []

namespace Base64Sample

/-- Four octets on two lines. -/
def text : CString := ⟨ascii "Zm9v\r\n Yg==", by simp [ascii]⟩

def strange : CString := ⟨ascii "Zm9-Yg==", by simp [ascii]⟩

end Base64Sample

open Base64Sample in
theorem base64_inverse_lines :
    (decodeBase64 text = some (ascii "foob") ∧ base64Decode text 4 = some (ascii "foob")) ∧
      decodeBase64 strange = none ∧ base64Decode strange 4 = none := by
  have spaced : Spaced (ascii "foob") text := by
    unfold Spaced
    decide +kernel
  have decoded := base64_inverse.1 (ascii "foob") text spaced
  have refused := base64_inverse.2 strange (ascii "Zm9") (ascii "Yg==") 45 (by decide +kernel)
    (by simp [ascii]) ⟨by decide +kernel, rfl, by decide⟩
  exact ⟨⟨decoded.1, decoded.2 4 (by simp [ascii])⟩, refused.1, refused.2 4⟩

end Sotoportego.Server
