import Sotoportego.Tailscale.MagicDns
import Sotoportego.Tailscale.Stun

/-!
# What the walk finds

The reader returns the first address the attributes hold, and stays inside any datagram.
-/

set_option autoImplicit false

namespace Sotoportego.Tailscale.Stun

open Octets CText Checked

/-! ## Messages -/

def be16 (value : UInt16) : Bytes := [(value >>> 8).toUInt8, value.toUInt8]

/-- An attribute, padded with any octets. -/
structure Attribute where
  type : UInt16
  value : Bytes
  padding : Bytes
  short : value.length < 2 ^ 16
  padded : padding.length = (4 - value.length % 4) % 4

def Attribute.encode (attr : Attribute) : Bytes :=
  be16 attr.type ++ (be16 (.ofNat attr.value.length) ++
    (attr.value ++ attr.padding))

/-- A binding success, with as many attributes as its length field can count. -/
structure BindingSuccess where
  txId : Buffer 12
  attributes : List Attribute
  short : (attributes.flatMap Attribute.encode).length < 2 ^ 16

def BindingSuccess.encode (message : BindingSuccess) : Bytes :=
  let body := message.attributes.flatMap Attribute.encode
  be16 kBindingSuccess ++ (be16 (.ofNat body.length) ++ (cookie ++ (message.txId.bytes ++ body)))

/-- The IPv4 address and the port that an attribute maps. -/
def Attribute.mapped (attr : Attribute) : Option (CString × UInt16) :=
  let port := join16 attr.value 2
  let address := (attr.value.drop 4).take 4
  if attr.value.length < 8 ∨ octetAt attr.value 1 ≠ 1 then none
  else if attr.type = kAttrMappedAddr then some (dottedQuad address 0, port)
  else if attr.type = kAttrXorMappedAddr then
    some (dottedQuad (address.zipWith (· ^^^ ·) cookie) 0, port ^^^ 0x2112)
  else none

theorem Attribute.length_encode (attr : Attribute) :
    attr.encode.length = 4 + (attr.value.length + attr.padding.length) := by
  rw [encode, List.length_append, List.length_append, List.length_append]
  simp only [be16, List.length_cons, List.length_nil]
  omega

/-! ## Reading at a position -/

theorem fetch16_append {front rest : Bytes} {high low : UInt8} (leading : Bytes) :
    fetch16 (front ++ (leading ++ high :: low :: rest)) (front.length + leading.length) =
      .ok (high.toUInt16 <<< 8 ||| low.toUInt16) := by
  have first : octetAt (front ++ (leading ++ high :: low :: rest))
      (front.length + leading.length) = high := by
    rw [octetAt_append_length_add, octetAt_append_length]
    rfl
  have second : octetAt (front ++ (leading ++ high :: low :: rest))
      (front.length + leading.length + 1) = low := by
    rw [Nat.add_assoc, octetAt_append_length_add, octetAt_append_length_add]
    rfl
  rw [fetch16_ok, first, second]
  simp only [List.length_append, List.length_cons]
  omega

theorem fetch16_be16 {front rest : Bytes} (value : UInt16) (leading : Bytes) :
    fetch16 (front ++ (leading ++ (be16 value ++ rest))) (front.length + leading.length) =
      .ok value := by
  have read := @fetch16_append front rest (value >>> 8).toUInt8 value.toUInt8 leading
  rwa [joinWord] at read

/-- The octets of a value, read where it stands. -/
theorem octetAt_value (front value rest : Bytes) {position : Nat} (inside : position < value.length) :
    octetAt (front ++ (value ++ rest)) (front.length + position) = octetAt value position := by
  rw [octetAt_append_length_add, octetAt_append_left inside]

theorem readAddress_at (front rest : Bytes) (attr : Attribute) :
    readAddress (front ++ (attr.value ++ rest)) front.length attr.type (.ofNat attr.value.length) =
      .ok attr.mapped := by
  have size : (8 : UInt16) ≤ .ofNat attr.value.length ↔ 8 ≤ attr.value.length := by
    have small := attr.short
    rw [UInt16.le_iff_toNat_le, UInt16.toNat_ofNat', Nat.mod_eq_of_lt small]
    rfl
  rw [readAddress, Attribute.mapped]
  simp only [size]
  by_cases room : 8 ≤ attr.value.length
  · have whole : front.length + 8 ≤ (front ++ (attr.value ++ rest)).length := by
      rw [List.length_append, List.length_append]
      omega
    have family : fetch (front ++ (attr.value ++ rest)) (front.length + 1) =
        .ok (octetAt attr.value 1) := by
      rw [fetch_ok (by omega), octetAt_value _ _ _ (by omega)]
    have port : fetch16 (front ++ (attr.value ++ rest)) (front.length + 2) =
        .ok (join16 attr.value 2) := by
      rw [fetch16_ok (by omega), octetAt_value _ _ _ (by omega), Nat.add_assoc,
        octetAt_value _ _ _ (by omega)]
      rfl
    have address : fetchRange (front ++ (attr.value ++ rest)) (front.length + 4) 4 =
        .ok ((attr.value.drop 4).take 4) := by
      rw [fetchRange_ok (by omega), List.drop_length_add_append,
        List.drop_append_of_le_length (by omega),
        List.take_append_of_le_length (by rw [List.length_drop]; omega)]
    simp only [family, port, address, ok_bind, room, and_true, Nat.not_lt.mpr room, false_or]
    by_cases xored : attr.type = kAttrXorMappedAddr
    · have different : ¬ kAttrXorMappedAddr = kAttrMappedAddr := by decide
      simp only [xored, true_or, if_true, if_neg different]
      by_cases ipv4 : octetAt attr.value 1 = 1
      · simp [ipv4]
      · simp [ipv4]
    · by_cases plain : attr.type = kAttrMappedAddr
      · have different : ¬ kAttrMappedAddr = kAttrXorMappedAddr := by decide
        simp only [plain, or_true, if_true, if_neg different]
        by_cases ipv4 : octetAt attr.value 1 = 1
        · simp [ipv4]
        · simp [ipv4]
      · simp [xored, plain]
  · rw [if_neg fun both => room both.2, if_pos (.inl (Nat.not_le.mp room))]
    rfl

/-! ## The walk -/

/-- Behind the value and its padding. -/
theorem next_offset (attr : Attribute) (val : Nat) :
    (if (UInt16.ofNat attr.value.length &&& 3) ≠ 0 then
      val + attr.value.length + (4 - (UInt16.ofNat attr.value.length &&& 3).toNat)
    else val + attr.value.length) = val + (attr.value.length + attr.padding.length) := by
  have odd : (UInt16.ofNat attr.value.length &&& 3).toNat = attr.value.length % 4 := by
    have masked := Nat.and_two_pow_sub_one_eq_mod (attr.value.length % 2 ^ 16) 2
    have small := attr.short
    rw [UInt16.toNat_and, UInt16.toNat_ofNat']
    rw [Nat.mod_eq_of_lt small] at masked ⊢
    exact masked
  have padded := attr.padded
  by_cases aligned : UInt16.ofNat attr.value.length &&& 3 = 0
  · rw [if_neg (not_not.mpr aligned)]
    rw [aligned, UInt16.toNat_zero] at odd
    omega
  · rw [if_pos aligned]
    have some : attr.value.length % 4 ≠ 0 := by
      rw [← odd]
      exact fun zero => aligned (UInt16.toNat_inj.mp zero)
    omega

/-- One attribute that lies inside the message. -/
theorem walk_attribute {front rest : Bytes} {attr : Attribute} {stop : Nat}
    (room : front.length + (4 + attr.value.length) ≤ stop) :
    walkAttributes (front ++ (attr.encode ++ rest)) stop front.length =
      match attr.mapped with
      | some found => .ok (some found)
      | none =>
          walkAttributes (front ++ attr.encode ++ rest) stop (front ++ attr.encode).length := by
  have split : front ++ (attr.encode ++ rest) =
      front ++ (be16 attr.type ++ (be16 (.ofNat attr.value.length) ++
        (attr.value ++ (attr.padding ++ rest)))) := by
    simp [Attribute.encode]
  have typeRead : fetch16 (front ++ (attr.encode ++ rest)) front.length = .ok attr.type := by
    rw [split]
    exact fetch16_be16 attr.type []
  have lenRead : fetch16 (front ++ (attr.encode ++ rest)) (front.length + 2) =
      .ok (.ofNat attr.value.length) := by
    rw [split]
    exact fetch16_be16 (.ofNat attr.value.length) (be16 attr.type)
  have valueRead : readAddress (front ++ (attr.encode ++ rest)) (front.length + 4) attr.type
      (.ofNat attr.value.length) = .ok attr.mapped := by
    have read := readAddress_at (front ++ (be16 attr.type ++ be16 (.ofNat attr.value.length)))
      (attr.padding ++ rest) attr
    rw [List.length_append, List.append_assoc, List.append_assoc, ← split] at read
    exact read
  have size : (UInt16.ofNat attr.value.length).toNat = attr.value.length := by
    rw [UInt16.toNat_ofNat']
    exact Nat.mod_eq_of_lt attr.short
  rw [walkAttributes, if_pos (by omega), typeRead, ok_bind, lenRead, ok_bind, size]
  simp only
  rw [if_neg (by omega), valueRead, ok_bind, next_offset, List.append_assoc, List.length_append,
    attr.length_encode, Nat.add_assoc]
  cases attr.mapped with
  | none => rfl
  | some found => rfl

theorem walk_encode (attrs : List Attribute) (front rest : Bytes) {stop : Nat}
    (last : stop = front.length + (attrs.flatMap Attribute.encode).length) :
    walkAttributes (front ++ (attrs.flatMap Attribute.encode ++ rest)) stop front.length =
      .ok (attrs.findSome? Attribute.mapped) := by
  induction attrs generalizing front with
  | nil =>
      rw [walkAttributes, if_neg (by rw [last]; simp)]
      rfl
  | cons attr attrs continued =>
      have size := attr.length_encode
      rw [List.flatMap_cons, List.length_append] at last
      rw [List.flatMap_cons, List.append_assoc, walk_attribute (by omega), List.findSome?_cons]
      cases attr.mapped with
      | some found => rfl
      | none =>
          exact continued (front ++ attr.encode) (by rw [last, List.length_append, Nat.add_assoc])

/-! ## Any datagram -/

/-- The reads of an address stay below the end of its value. -/
theorem readAddress_inside {buf : Bytes} {val : Nat} {attrType attrLen : UInt16}
    (inside : val + attrLen.toNat ≤ buf.length) :
    ∃ found, readAddress buf val attrType attrLen = .ok found := by
  rw [readAddress]
  split
  · next fits =>
    have long : 8 ≤ attrLen.toNat := UInt16.le_iff_toNat_le.mp fits.2
    rw [fetch_ok (by omega), ok_bind]
    split
    · rw [fetch16_ok (by omega), ok_bind, fetchRange_ok (by omega), ok_bind]
      split <;> exact ⟨_, rfl⟩
    · exact ⟨none, rfl⟩
  · exact ⟨none, rfl⟩

theorem walk_inside {buf : Bytes} {stop : Nat} (inside : stop ≤ buf.length) (off : Nat) :
    ∃ found, walkAttributes buf stop off = .ok found := by
  induction off using walkAttributes.induct stop with
  | case1 off room continued =>
      rw [walkAttributes, if_pos room, fetch16_ok (by omega), ok_bind, fetch16_ok (by omega), ok_bind]
      simp only
      split
      · exact ⟨none, rfl⟩
      · next fits =>
        obtain ⟨found, read⟩ := readAddress_inside (Nat.le_trans (Nat.not_lt.mp fits) inside)
        rw [read, ok_bind]
        cases found with
        | some found => exact ⟨_, rfl⟩
        | none => exact continued _ fits
  | case2 off done =>
      rw [walkAttributes, if_neg done]
      exact ⟨none, rfl⟩

/-- A datagram whose cookie or transaction differs is no answer. -/
theorem response_inside (buf : Bytes) (txId : Buffer 12) :
    ∃ found, parseResponse buf txId = .ok found ∧
      ((buf.drop 4).take 4 ≠ cookie ∨ (buf.drop 8).take 12 ≠ txId.bytes → found = none) := by
  rw [parseResponse]
  by_cases short : buf.length < 20
  · rw [if_pos short]
    exact ⟨none, rfl, fun _ => rfl⟩
  · rw [if_neg short, fetch16_ok (by omega), ok_bind]
    split
    · exact ⟨none, rfl, fun _ => rfl⟩
    · rw [fetchRange_ok (by omega), ok_bind]
      split
      · exact ⟨none, rfl, fun _ => rfl⟩
      · next sameCookie =>
        rw [fetchRange_ok (by omega), ok_bind]
        split
        · exact ⟨none, rfl, fun _ => rfl⟩
        · next sameId =>
          rw [fetch16_ok (by omega), ok_bind]
          simp only
          have inside (msgLen : Nat) :
              20 + (if 20 + msgLen > buf.length then (buf.length - 20) % 2 ^ 16 else msgLen) ≤
                buf.length := by
            split <;> omega
          obtain ⟨found, walked⟩ := walk_inside (inside _) 20
          refine ⟨found, walked, ?_⟩
          rintro (differs | differs)
          · exact absurd differs sameCookie
          · exact absurd differs sameId

/-- What an accepted datagram starts with. -/
theorem parse_accepted {buf : Bytes} {txId : Buffer 12} {mapped : CString × UInt16}
    (parsed : parseResponse buf txId = .ok (some mapped)) :
    20 ≤ buf.length ∧ octetAt buf 0 = 1 ∧ (buf.drop 4).take 4 = cookie := by
  rw [parseResponse] at parsed
  by_cases short : buf.length < 20
  · rw [if_pos short] at parsed
    cases parsed
  · rw [if_neg short, fetch16_ok (by omega), ok_bind] at parsed
    split at parsed
    · cases parsed
    · next success =>
      rw [fetchRange_ok (by omega), ok_bind] at parsed
      split at parsed
      · cases parsed
      · next same =>
        have code := congrArg UInt16.toNat (not_not.mp success)
        rw [toNat_joined] at code
        have low := (octetAt buf (0 + 1)).toNat_lt
        have value : kBindingSuccess.toNat = 257 := rfl
        refine ⟨by omega, UInt8.toNat_inj.mp ?_, not_not.mp same⟩
        have one : (1 : UInt8).toNat = 1 := rfl
        omega

/-! ## Responses -/

theorem BindingSuccess.length_encode (message : BindingSuccess) :
    message.encode.length = 20 + (message.attributes.flatMap Attribute.encode).length := by
  simp [encode, be16, cookie]
  omega

theorem parse_encode (message : BindingSuccess) :
    parseResponse message.encode message.txId =
      .ok (message.attributes.findSome? Attribute.mapped) := by
  have length := message.length_encode
  have code : fetch16 message.encode 0 = .ok kBindingSuccess := @fetch16_be16 [] _ kBindingSuccess []
  have count : fetch16 message.encode 2 =
      .ok (.ofNat (message.attributes.flatMap Attribute.encode).length) :=
    @fetch16_be16 [] _ _ (be16 kBindingSuccess)
  have first : fetchRange message.encode 4 4 = .ok cookie := by
    rw [fetchRange_ok (by omega)]
    rfl
  have second : fetchRange message.encode 8 12 = .ok message.txId.bytes := by
    have behind : message.encode.drop 8 =
        message.txId.bytes ++ message.attributes.flatMap Attribute.encode := rfl
    rw [fetchRange_ok (by omega), behind, List.take_left' message.txId.length_bytes]
  have size : (UInt16.ofNat (message.attributes.flatMap Attribute.encode).length).toNat =
      (message.attributes.flatMap Attribute.encode).length := by
    rw [UInt16.toNat_ofNat']
    exact Nat.mod_eq_of_lt message.short
  rw [parseResponse, if_neg (by omega), code, ok_bind, if_neg (not_not.mpr rfl), first, ok_bind,
    if_neg (not_not.mpr rfl), second, ok_bind, if_neg (not_not.mpr rfl), count, ok_bind, size]
  simp only
  rw [if_neg (by omega)]
  have header : (be16 kBindingSuccess ++
      (be16 (.ofNat (message.attributes.flatMap Attribute.encode).length) ++
        (cookie ++ message.txId.bytes))).length = 20 := by
    simp [be16, cookie]
  have walked := @walk_encode message.attributes
    (be16 kBindingSuccess ++ (be16 (.ofNat (message.attributes.flatMap Attribute.encode).length) ++
      (cookie ++ message.txId.bytes))) [] _ rfl
  rw [header, List.append_nil, List.append_assoc, List.append_assoc, List.append_assoc] at walked
  exact walked

/-- The first mapped address is returned, and no datagram is read past its end. -/
theorem parseResponse_correct :
    (∀ message : BindingSuccess,
        parseResponse message.encode message.txId =
          .ok (message.attributes.findSome? Attribute.mapped)) ∧
      ∀ (buf : Bytes) (txId : Buffer 12),
        ∃ found, parseResponse buf txId = .ok found ∧
          ((buf.drop 4).take 4 ≠ cookie ∨ (buf.drop 8).take 12 ≠ txId.bytes → found = none) :=
  ⟨parse_encode, response_inside⟩

end Sotoportego.Tailscale.Stun
