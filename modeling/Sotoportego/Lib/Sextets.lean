import Sotoportego.Lib.Octets

/-!
# Groups of six bits

Octets are cut into groups of six bits, three octets into four groups, and a shift register
puts them together again. The register is never masked: what it has given out stays above
the bits that are pending and does not reach the next octet.
-/

set_option autoImplicit false

namespace Sextets

open Octets

/-- The groups of a string of octets. The bits missing in the last group are zero. -/
def sextets : Bytes → List Nat
  | first :: second :: third :: rest =>
      let joined := first.toNat * 65536 + second.toNat * 256 + third.toNat
      [joined / 262144, joined / 4096 % 64, joined / 64 % 64, joined % 64] ++ sextets rest
  | [first, second] =>
      let joined := first.toNat * 65536 + second.toNat * 256
      [joined / 262144, joined / 4096 % 64, joined / 64 % 64]
  | [first] =>
      let joined := first.toNat * 65536
      [joined / 262144, joined / 4096 % 64]
  | [] => []

/-- What a register gives out, and the bits that stay pending in the end. -/
def octets (register bits : Nat) : List Nat → Bytes × Nat
  | [] => ([], bits)
  | group :: groups =>
      let register := register * 64 + group
      if bits + 6 < 8 then octets register (bits + 6) groups
      else
        let (later, left) := octets register (bits - 2) groups
        (UInt8.ofNat (register / 2 ^ (bits - 2)) :: later, left)

theorem sextets_lt (source : Bytes) : ∀ group ∈ sextets source, group < 64 := by
  induction source using sextets.induct with
  | case1 first second third rest continued =>
      have small := first.toNat_lt
      have middle := second.toNat_lt
      have last := third.toNat_lt
      intro group member
      rw [sextets, List.mem_append] at member
      obtain early | late := member
      · simp only [List.mem_cons, List.not_mem_nil, or_false] at early
        omega
      · exact continued group late
  | case2 first second =>
      have small := first.toNat_lt
      have middle := second.toNat_lt
      intro group member
      simp only [sextets, List.mem_cons, List.not_mem_nil, or_false] at member
      omega
  | case3 first =>
      have small := first.toNat_lt
      intro group member
      simp only [sextets, List.mem_cons, List.not_mem_nil, or_false] at member
      omega
  | case4 => simp [sextets]

theorem ofNat_eq {octet : UInt8} {value : Nat} (same : value % 256 = octet.toNat) :
    UInt8.ofNat value = octet := by
  apply UInt8.toNat_inj.mp
  rw [UInt8.toNat_ofNat']
  exact same

/-- Whatever the register holds, the groups give their octets back and leave less than one
group pending. -/
theorem octets_sextets (source : Bytes) (register : Nat) :
    (octets register 0 (sextets source)).1 = source ∧
      (octets register 0 (sextets source)).2 < 6 := by
  induction source using sextets.induct generalizing register with
  | case1 first second third rest continued =>
      have small := first.toNat_lt
      have middle := second.toNat_lt
      have last := third.toNat_lt
      simp only [sextets, List.cons_append, List.nil_append, octets, Nat.reduceAdd, Nat.reduceLT,
        if_true, if_false, Nat.reduceSub, Nat.reducePow, Nat.div_one]
      refine ⟨?_, (continued _).2⟩
      rw [(continued _).1, @ofNat_eq first _ (by omega), @ofNat_eq second _ (by omega),
        @ofNat_eq third _ (by omega)]
  | case2 first second =>
      have small := first.toNat_lt
      have middle := second.toNat_lt
      simp only [sextets, octets, Nat.reduceAdd, Nat.reduceLT, if_true, if_false, Nat.reduceSub,
        Nat.reducePow, and_true]
      rw [@ofNat_eq first _ (by omega), @ofNat_eq second _ (by omega)]
  | case3 first =>
      have small := first.toNat_lt
      simp only [sextets, octets, Nat.reduceAdd, Nat.reduceLT, if_true, if_false, Nat.reduceSub,
        Nat.reducePow, and_true]
      rw [@ofNat_eq first _ (by omega)]
  | case4 => simp [sextets, octets]

end Sextets
