import Mathlib.Data.ZMod.Basic
import Sotoportego.Lib.Limbs
import Sotoportego.Tailscale.Poly1305

/-!
# The polynomial behind the tag

No word of the authenticator wraps, whatever the key and the message, and the tag is the
polynomial of the message at the clamped key, reduced once and added to the other half of
the key.
-/

set_option autoImplicit false

namespace Sotoportego.Tailscale.Poly1305

open Octets Words Limbs

/-! ## Words as limbs -/

/-- Limbs as words. -/
def words (limbs : List Nat) : List UInt32 := limbs.map UInt32.ofNat

theorem words_cons (first : Nat) (limbs : List Nat) :
    words (first :: limbs) = .ofNat first :: words limbs := rfl

/-- 17 limbs of 8 bits. -/
structure Small (limbs : List Nat) : Prop where
  length : limbs.length = 17
  small : ∀ limb ∈ limbs, limb < 256

theorem limb_words (limbs : List Nat) (i : Nat) :
    limb (words limbs) i = .ofNat (limbs.getD i 0) := by
  rw [limb, words, List.getD_eq_getElem?_getD, List.getD_eq_getElem?_getD, List.getElem?_map]
  cases limbs[i]? <;> rfl

theorem Small.getD_le {limbs : List Nat} (small : Small limbs) (i : Nat) :
    limbs.getD i 0 ≤ 255 := by
  rw [List.getD_eq_getElem?_getD]
  cases found : limbs[i]? with
  | none => decide
  | some limb =>
      have bound := small.small limb (List.mem_of_getElem? found)
      rw [Option.getD_some]
      omega

/-! ## Sums -/

/-- One limb leaves the low octet and passes the rest on. -/
theorem split_ofNat {value : Nat} (small : value < 2 ^ 32) :
    UInt32.ofNat value &&& 255 = .ofNat (value % 256) ∧
      UInt32.ofNat value >>> 8 = .ofNat (value / 256) :=
  ⟨and_ofNat 8 small (by decide), shiftRight_ofNat 8 small (by decide)⟩

theorem addLimbs_words {h c : List Nat} (same : h.length = c.length)
    (hSmall : ∀ limb ∈ h, limb < 256) (cSmall : ∀ limb ∈ c, limb < 256) {u : Nat}
    (carried : u ≤ 1) :
    addLimbs (.ofNat u) (words h) (words c) =
      pure (words (carry 256 u (h.zipWith (· + ·) c)).1) := by
  induction h generalizing u c with
  | nil => rfl
  | cons a h continued =>
      cases c with
      | nil => cases same
      | cons b c =>
          obtain ⟨aSmall, hSmall⟩ := List.forall_mem_cons.mp hSmall
          obtain ⟨bSmall, cSmall⟩ := List.forall_mem_cons.mp cSmall
          have fits : u + (a + b) < 2 ^ 32 := by omega
          obtain ⟨low, high⟩ := split_ofNat fits
          rw [words_cons, words_cons, addLimbs, add_ofNat (by omega), Tracked.pure_bind,
            add_ofNat fits, Tracked.pure_bind, low, high,
            continued (Nat.succ_inj.mp same) hSmall cSmall (by omega)]
          rfl

/-- `add1305` adds modulo `2 ^ 136`. -/
theorem add1305_words {h c : List Nat} (hSmall : Small h) (cSmall : Small c) :
    ∃ sum, add1305 (words h) (words c) = pure (words sum) ∧ Small sum ∧
      Nat.ofDigits 256 sum = (Nat.ofDigits 256 h + Nat.ofDigits 256 c) % 2 ^ 136 := by
  have same : h.length = c.length := hSmall.length.trans cSmall.length.symm
  have length : (h.zipWith (· + ·) c).length = 17 := by
    rw [List.length_zipWith, hSmall.length, cSmall.length]
    rfl
  refine ⟨(carry 256 0 (h.zipWith (· + ·) c)).1,
    addLimbs_words same hSmall.small cSmall.small (Nat.zero_le 1),
    ⟨by rw [length_carry, length], carry_lt (by decide) _ _⟩, ?_⟩
  rw [(carry_eq (by decide) _ _).1, length, Nat.zero_add,
    ← Nat.ofDigits_add_ofDigits_eq_ofDigits_zipWith_of_length_eq same]
  rfl

/-! ## Products -/

/-- The prime `2 ^ 130 - 5`. -/
def p : Nat := 2 ^ 130 - 5

/-- The column `i` of a product, with 320 for the octets past the last. -/
def column (h r : List Nat) (i : Nat) : Nat :=
  ∑ j ∈ Finset.range 17,
    h.getD j 0 * (if j ≤ i then r.getD (i - j) 0 else 320 * r.getD (i + 17 - j) 0)

theorem term_words {h r : List Nat} (hSmall : Small h) (rSmall : Small r) (i j : Nat) :
    term (words h) (words r) i j =
        pure (.ofNat
          (h.getD j 0 * (if j ≤ i then r.getD (i - j) 0 else 320 * r.getD (i + 17 - j) 0))) ∧
      h.getD j 0 * (if j ≤ i then r.getD (i - j) 0 else 320 * r.getD (i + 17 - j) 0) ≤
        255 * (320 * 255) := by
  have left := hSmall.getD_le j
  rw [term, limb_words, limb_words, limb_words]
  by_cases below : j ≤ i
  · have right := rSmall.getD_le (i - j)
    have bound : h.getD j 0 * r.getD (i - j) 0 ≤ 255 * (320 * 255) :=
      Nat.mul_le_mul left (by omega)
    rw [if_pos below, if_pos below, Tracked.pure_bind]
    exact ⟨mul_ofNat (Nat.lt_of_le_of_lt bound (by decide)) (by omega) (by omega), bound⟩
  · have right := rSmall.getD_le (i + 17 - j)
    have bound : h.getD j 0 * (320 * r.getD (i + 17 - j) 0) ≤ 255 * (320 * 255) :=
      Nat.mul_le_mul left (by omega)
    have wrapped : mul 320 (.ofNat (r.getD (i + 17 - j) 0)) =
        pure (.ofNat (320 * r.getD (i + 17 - j) 0)) :=
      @mul_ofNat 320 _ (by omega) (by decide) (by omega)
    rw [if_neg below, if_neg below, wrapped, Tracked.pure_bind]
    exact ⟨mul_ofNat (Nat.lt_of_le_of_lt bound (by decide)) (by omega) (by omega), bound⟩

/-- The bound of a column. -/
def columnBound : Nat := 17 * (255 * (320 * 255))

theorem product_words {h r : List Nat} (hSmall : Small h) (rSmall : Small r) (i : Nat) :
    product (words h) (words r) i = pure (.ofNat (column h r i)) ∧ column h r i ≤ columnBound :=
  foldlM_add 17 (fun j _ => term_words hSmall rSmall i j) (by decide)

/-- The columns stand for the product modulo `p`. -/
theorem columns_modEq {h r : List Nat} (hSmall : Small h) (rSmall : Small r) :
    Nat.ofDigits 256 ((List.range 17).map (column h r)) ≡
      Nat.ofDigits 256 h * Nat.ofDigits 256 r [MOD p] := by
  have wraps : (256 : ZMod p) ^ 17 = 320 := by
    have power : ((2 ^ 136 : Nat) : ZMod p) = ((320 : Nat) : ZMod p) :=
      (ZMod.natCast_eq_natCast_iff _ _ _).mpr (by decide)
    push_cast at power
    rw [← power]
    norm_num
  have product :=
    cyclic_product wraps (fun j => (h.getD j 0 : ZMod p)) fun k => (r.getD k 0 : ZMod p)
  rw [← ZMod.natCast_eq_natCast_iff, ofDigits_eq_sum, ofDigits_eq_sum 256 h, ofDigits_eq_sum 256 r,
    hSmall.length, rSmall.length]
  push_cast
  rw [List.length_map, List.length_range, ← product]
  refine Finset.sum_congr rfl fun i member => ?_
  have inside := Finset.mem_range.mp member
  have at_i : ((List.range 17).map (column h r)).getD i 0 = column h r i := by
    rw [List.getD_eq_getElem?_getD, List.getElem?_map, List.getElem?_range inside]
    rfl
  rw [at_i, column]
  push_cast
  rfl

/-! ## Blocks -/

theorem squeeze_words {limbs : List Nat} {u bound : Nat} (fits : bound + bound < 2 ^ 32)
    (first : u ≤ bound) (every : ∀ limb ∈ limbs, limb ≤ bound) :
    squeeze (.ofNat u) (words limbs) =
      pure (words (carry 256 u limbs).1, .ofNat (carry 256 u limbs).2) := by
  induction limbs generalizing u with
  | nil => rfl
  | cons limb limbs continued =>
      obtain ⟨head, rest⟩ := List.forall_mem_cons.mp every
      have sum : u + limb < 2 ^ 32 := by omega
      obtain ⟨low, high⟩ := split_ofNat sum
      rw [words_cons, squeeze, add_ofNat sum, Tracked.pure_bind, low, high,
        continued (by omega) rest]
      rfl

/-- The number between two blocks. -/
structure Reduced (h : List Nat) : Prop extends Small h where
  reduced : Nat.ofDigits 256 h < 2 ^ 130 + 2 ^ 30

/-- The last limb behind the others. -/
theorem take_last {α : Type} {x : List α} {default : α} (length : x.length = 17) :
    x = x.take 16 ++ [x.getD 16 default] := by
  conv_lhs => rw [← List.take_append_drop 16 x]
  rw [List.drop_eq_getElem_cons (by omega), List.drop_eq_nil_of_le (by omega),
    List.getD_eq_getElem?_getD, List.getElem?_eq_getElem (by omega)]
  rfl

section Squeezed

variable {x : List Nat}

theorem length_lower (length : x.length = 17) : (x.take 16).length = 16 := by
  rw [List.length_take, length]
  rfl

theorem value_lower (length : x.length = 17) :
    Nat.ofDigits 256 x = Nat.ofDigits 256 (x.take 16) + 2 ^ 128 * x.getD 16 0 := by
  conv_lhs => rw [@take_last _ x 0 length]
  rw [Nat.ofDigits_append, length_lower length, Nat.ofDigits_singleton]
  rfl

theorem Small.lower_lt (small : Small x) : Nat.ofDigits 256 (x.take 16) < 2 ^ 128 := by
  have bound := Nat.ofDigits_lt_base_pow_length (by decide) fun limb (member : limb ∈ x.take 16) =>
    small.small limb (List.mem_of_mem_take member)
  rw [length_lower small.length] at bound
  exact bound

theorem last_le (every : ∀ limb ∈ x, limb ≤ columnBound) : x.getD 16 0 ≤ columnBound := by
  rw [List.getD_eq_getElem?_getD]
  cases found : x[16]? with
  | none => exact Nat.zero_le _
  | some limb => exact every limb (List.mem_of_getElem? found)

theorem carried_le (every : ∀ limb ∈ x, limb ≤ columnBound) :
    (carry 256 0 (x.take 16)).2 ≤ columnBound :=
  carry_le (by decide) (Nat.zero_le _) fun limb member => every limb (List.mem_of_mem_take member)

/-- What is left above the lower limbs after the first pass. -/
def upper (x : List Nat) : Nat := (carry 256 0 (x.take 16)).2 + x.getD 16 0

/-- The limbs after both passes: what stands above `2 ^ 130` comes back five times. -/
def twice (x : List Nat) : List Nat :=
  let (low, last) := carry 256 (5 * (upper x / 4)) (carry 256 0 (x.take 16)).1
  low ++ [last + upper x % 4]

theorem upper_le (every : ∀ limb ∈ x, limb ≤ columnBound) : upper x ≤ 2 * columnBound := by
  have carried := carried_le every
  have last := last_le every
  rw [upper]
  omega

/-- The two passes of a block on words. -/
theorem reduce_words (every : ∀ limb ∈ x, limb ≤ columnBound) :
    (do
        let (low, u) ← squeeze 0 ((words x).take 16)
        let u ← add u (limb (words x) 16)
        let top := u &&& 3
        let u ← mul 5 (u >>> 2)
        let (low, u) ← squeeze u low
        let u ← add u top
        return low ++ [u]) = pure (words (twice x)) := by
  have bound : columnBound = 353736000 := rfl
  have size := upper_le every
  have taken : (words x).take 16 = words (x.take 16) := (List.map_take ..).symm
  have first : squeeze 0 (words (x.take 16)) =
      pure (words (carry 256 0 (x.take 16)).1, .ofNat (carry 256 0 (x.take 16)).2) :=
    @squeeze_words _ 0 columnBound (by decide) (Nat.zero_le _)
      fun limb member => every limb (List.mem_of_mem_take member)
  have sum : add (.ofNat (carry 256 0 (x.take 16)).2) (limb (words x) 16) =
      pure (.ofNat (upper x)) := by
    have fits : (carry 256 0 (x.take 16)).2 + x.getD 16 0 < 2 ^ 32 :=
      Nat.lt_of_le_of_lt size (by decide)
    rw [limb_words, add_ofNat fits]
    rfl
  have small : upper x < 2 ^ 32 := by omega
  have low : UInt32.ofNat (upper x) &&& 3 = .ofNat (upper x % 4) := and_ofNat 2 small (by decide)
  have high : UInt32.ofNat (upper x) >>> 2 = .ofNat (upper x / 4) :=
    shiftRight_ofNat 2 small (by decide)
  have folded : mul 5 (.ofNat (upper x / 4)) = pure (.ofNat (5 * (upper x / 4))) :=
    @mul_ofNat 5 _ (by omega) (by decide) (by omega)
  have octets : ∀ limb ∈ (carry 256 0 (x.take 16)).1, limb ≤ 2 ^ 30 := fun limb member =>
    Nat.le_of_lt (Nat.lt_trans (carry_lt (by decide) _ _ limb member) (by decide))
  have second : squeeze (.ofNat (5 * (upper x / 4))) (words (carry 256 0 (x.take 16)).1) =
      pure (words (carry 256 (5 * (upper x / 4)) (carry 256 0 (x.take 16)).1).1,
        .ofNat (carry 256 (5 * (upper x / 4)) (carry 256 0 (x.take 16)).1).2) :=
    @squeeze_words _ _ (2 ^ 30) (by decide) (by omega) octets
  have again : (carry 256 (5 * (upper x / 4)) (carry 256 0 (x.take 16)).1).2 ≤ 2 ^ 30 :=
    carry_le (by decide) (by omega) octets
  rw [taken, first, Tracked.pure_bind]
  simp only [sum, Tracked.pure_bind, low, high, folded, second]
  rw [add_ofNat (by omega), Tracked.pure_bind, twice, words, words, List.map_append]
  rfl

/-- The number keeps its value modulo `p` and falls below `2 ^ 130 + 2 ^ 30`. -/
theorem twice_value (length : x.length = 17) (every : ∀ limb ∈ x, limb ≤ columnBound) :
    Reduced (twice x) ∧ Nat.ofDigits 256 (twice x) ≡ Nat.ofDigits 256 x [MOD p] := by
  have size := upper_le every
  have bound : columnBound = 353736000 := rfl
  have whole := value_lower length
  have first := @carry_value 256 0 (x.take 16)
  have firstLow := @carry_lt 256 (by decide) 0 (x.take 16)
  have firstLength := @length_carry 256 0 (x.take 16)
  have above : upper x = (carry 256 0 (x.take 16)).2 + x.getD 16 0 := rfl
  rw [length_lower length] at first firstLength
  rw [twice]
  generalize carry 256 0 (x.take 16) = passed at *
  have second := @carry_value 256 (5 * (upper x / 4)) passed.1
  have secondLow := @carry_lt 256 (by decide) (5 * (upper x / 4)) passed.1
  have secondLength := @length_carry 256 (5 * (upper x / 4)) passed.1
  have below := Nat.ofDigits_lt_base_pow_length (by decide) firstLow
  rw [firstLength] at second secondLength below
  simp only
  generalize carry 256 (5 * (upper x / 4)) passed.1 = again at *
  have value : Nat.ofDigits 256 (again.1 ++ [again.2 + upper x % 4]) =
      Nat.ofDigits 256 again.1 + 256 ^ 16 * (again.2 + upper x % 4) := by
    rw [Nat.ofDigits_append, secondLength, Nat.ofDigits_singleton]
  generalize x.getD 16 0 = last at *
  norm_num at first second below whole value
  have top : again.2 ≤ 1 := by omega
  have total : Nat.ofDigits 256 x =
      Nat.ofDigits 256 (again.1 ++ [again.2 + upper x % 4]) + p * (upper x / 4) := by
    rw [value, p]
    norm_num
    omega
  refine ⟨⟨⟨?_, ?_⟩, ?_⟩, ?_⟩
  · rw [List.length_append, secondLength]
    rfl
  · rw [List.forall_mem_append]
    refine ⟨secondLow, fun limb member => ?_⟩
    rw [List.mem_singleton] at member
    omega
  · rw [value]
    norm_num
    omega
  · rw [total]
    exact (Nat.add_mul_mod_self_left _ _ _).symm

end Squeezed

theorem block_words {r h c : List Nat} (rSmall : Small r) (hReduced : Reduced h) (cSmall : Small c)
    (cBound : Nat.ofDigits 256 c < 2 ^ 130) :
    ∃ next, block (words r) (words h) (words c) = pure (words next) ∧ Reduced next ∧
      Nat.ofDigits 256 next ≡
        (Nat.ofDigits 256 h + Nat.ofDigits 256 c) * Nat.ofDigits 256 r [MOD p] := by
  obtain ⟨sum, added, sumSmall, value⟩ := add1305_words hReduced.toSmall cSmall
  have hBound := hReduced.reduced
  rw [Nat.mod_eq_of_lt (by omega)] at value
  have columns : (List.range 17).mapM (product (words sum) (words r)) =
      pure (words ((List.range 17).map (column sum r))) := by
    rw [Tracked.mapM_exact fun i _ => (product_words sumSmall rSmall i).1, words, List.map_map]
    rfl
  have every : ∀ limb ∈ (List.range 17).map (column sum r), limb ≤ columnBound := by
    intro limb member
    obtain ⟨i, -, rfl⟩ := List.mem_map.mp member
    exact (product_words sumSmall rSmall i).2
  obtain ⟨reduced, same⟩ := twice_value (by rw [List.length_map, List.length_range]) every
  refine ⟨_, ?_, reduced, ?_⟩
  · rw [block, added, Tracked.pure_bind, columns, Tracked.pure_bind]
    exact reduce_words every
  · rw [← value]
    exact same.trans (columns_modEq sumSmall rSmall)

/-! ## Messages -/

/-- The number of octets in little-endian order. -/
def littleEndian (octets : Bytes) : Nat := Nat.ofDigits 256 (octets.map UInt8.toNat)

def blocks (m : Bytes) : List Bytes :=
  if m = [] then [] else m.take 16 :: blocks (m.drop 16)
  termination_by m.length
  decreasing_by
    have filled := List.length_pos_iff.mpr (by assumption : ¬ m = [])
    rw [List.length_drop]
    omega

/-- A block with its high one-bit. -/
def blockValue (octets : Bytes) : Nat := littleEndian octets + 2 ^ (8 * octets.length)

/-- The blocks as the coefficients of a polynomial, evaluated by Horner's rule. -/
def horner (r total : Nat) (m : Bytes) : Nat :=
  (blocks m).foldl (fun total octets => (total + blockValue octets) * r) total

theorem horner_filled (r total : Nat) {m : Bytes} (filled : m ≠ []) :
    horner r total m = horner r ((total + blockValue (m.take 16)) * r) (m.drop 16) := by
  rw [horner, blocks, if_neg filled]
  rfl

theorem octets_small (octets : Bytes) : ∀ limb ∈ octets.map UInt8.toNat, limb < 256 := by
  intro limb member
  obtain ⟨octet, -, rfl⟩ := List.mem_map.mp member
  exact octet.toNat_lt

theorem octets_words (octets : Bytes) :
    octets.map (·.toUInt32) = words (octets.map UInt8.toNat) := by
  rw [words, List.map_map]
  refine List.map_congr_left fun octet _ => ?_
  apply UInt32.toNat_inj.mp
  have bound := octet.toNat_lt
  rw [Function.comp_apply, toNat_ofNat (by omega)]
  exact UInt8.toNat_toUInt32 octet

/-- The limbs of a block. -/
def blockLimbs (octets : Bytes) : List Nat :=
  octets.map UInt8.toNat ++ 1 :: List.replicate (16 - octets.length) 0

theorem blockLimbs_value (octets : Bytes) :
    Nat.ofDigits 256 (blockLimbs octets) = blockValue octets := by
  rw [blockLimbs, Nat.ofDigits_append, Nat.ofDigits_cons, Nat.ofDigits_replicate_zero, blockValue,
    littleEndian, List.length_map, Nat.pow_mul]
  simp

theorem blockLimbs_small {octets : Bytes} (short : octets.length ≤ 16) :
    Small (blockLimbs octets) where
  length := by
    rw [blockLimbs, List.length_append, List.length_map, List.length_cons, List.length_replicate]
    omega
  small := by
    rw [blockLimbs, List.forall_mem_append, List.forall_mem_cons]
    refine ⟨octets_small octets, by decide, fun limb member => ?_⟩
    rw [List.eq_of_mem_replicate member]
    decide

/-- The octets of a block, the one behind them and the zeros. -/
theorem blockLimbs_words (m : Bytes) :
    (m.take (min 16 m.length)).map (·.toUInt32) ++ 1 :: List.replicate (16 - min 16 m.length) 0 =
      words (blockLimbs (m.take 16)) := by
  have taken : m.take (min 16 m.length) = m.take 16 := List.take_eq_take_min.symm
  rw [taken, octets_words, blockLimbs, words, words, List.map_append, List.map_cons,
    List.map_replicate, List.length_take]
  rfl

theorem blockValue_lt {octets : Bytes} (short : octets.length ≤ 16) :
    blockValue octets < 2 ^ 130 := by
  have low := Nat.ofDigits_lt_base_pow_length (by decide) (octets_small octets)
  have high : 256 ^ octets.length ≤ 256 ^ 16 := Nat.pow_le_pow_right (by decide) short
  have same : 2 ^ (8 * octets.length) = 256 ^ octets.length := by
    rw [Nat.pow_mul]
  rw [List.length_map] at low
  rw [blockValue, littleEndian, same]
  norm_num at high
  omega

theorem absorb_words {r : List Nat} (rSmall : Small r) (m : Bytes) {h : List Nat} {total : Nat}
    (hReduced : Reduced h) (same : Nat.ofDigits 256 h ≡ total [MOD p]) :
    ∃ next, absorb (words r) (words h) m = pure (words next) ∧ Reduced next ∧
      Nat.ofDigits 256 next ≡ horner (Nat.ofDigits 256 r) total m [MOD p] := by
  induction m using blocks.induct generalizing h total with
  | case1 =>
      rw [absorb, if_pos rfl]
      exact ⟨h, rfl, hReduced, by rwa [horner, blocks, if_pos rfl]⟩
  | case2 m filled continued =>
      have short : (m.take 16).length ≤ 16 := List.length_take_le 16 m
      obtain ⟨next, run, reduced, value⟩ :=
        block_words rSmall hReduced (blockLimbs_small short)
          (by rw [blockLimbs_value]; exact blockValue_lt short)
      rw [blockLimbs_value] at value
      have rest : m.drop (min 16 m.length) = m.drop 16 := by
        obtain long | long := Nat.le_total 16 m.length
        · rw [Nat.min_eq_left long]
        · rw [Nat.min_eq_right long, List.drop_length, List.drop_eq_nil_of_le long]
      rw [absorb, if_neg filled, horner_filled _ _ filled]
      simp only [blockLimbs_words, rest, run, Tracked.pure_bind]
      exact continued reduced (value.trans ((same.add_right _).mul_right _))

/-! ## The last subtraction -/

/-- The limbs of `2 ^ 136 - p`. -/
def minusP : List Nat := 5 :: List.replicate 15 0 ++ [252]

theorem minusP_small : Small minusP where
  length := rfl
  small := by decide

theorem minusP_value : Nat.ofDigits 256 minusP + p = 2 ^ 136 := by decide

/-- The mask `s` takes one of two numbers of the same length. -/
theorem select_words {h g : List UInt32} (same : h.length = g.length) :
    (h.zipWith (fun h g => h ^^^ (-0 &&& (g ^^^ h))) g) = h ∧
      (h.zipWith (fun h g => h ^^^ (-1 &&& (g ^^^ h))) g) = g := by
  induction h generalizing g with
  | nil => exact ⟨rfl, (List.length_eq_zero_iff.mp same.symm).symm⟩
  | cons a h continued =>
      cases g with
      | nil => cases same
      | cons b g =>
          obtain ⟨kept, taken⟩ := continued (Nat.succ_inj.mp same)
          rw [List.zipWith_cons_cons, List.zipWith_cons_cons, kept, taken]
          refine ⟨?_, ?_⟩
          · congr 1
            rw [UInt32.neg_zero, UInt32.zero_and, UInt32.xor_zero]
          · congr 1
            rw [UInt32.neg_one_and, UInt32.xor_comm b a, ← UInt32.xor_assoc, UInt32.xor_self,
              UInt32.zero_xor]

/-- The number after the conditional subtraction of `p`. -/
theorem freeze_words {h : List Nat} (hReduced : Reduced h) :
    ∃ frozen sum, add1305 (words h) kMinusP = pure (words sum) ∧
      (words sum).zipWith (fun h g => h ^^^ (-(limb (words sum) 16 >>> 7) &&& (g ^^^ h)))
        (words h) = words frozen ∧
      Small frozen ∧ Nat.ofDigits 256 frozen = Nat.ofDigits 256 h % p := by
  obtain ⟨sum, added, sumSmall, value⟩ := add1305_words hReduced.toSmall minusP_small
  have minus := minusP_value
  have bound := hReduced.reduced
  have prime : p = 2 ^ 130 - 5 := rfl
  have same : (words sum).length = (words h).length := by
    rw [words, words, List.length_map, List.length_map, sumSmall.length, hReduced.length]
  obtain ⟨kept, taken⟩ := select_words same
  have top : limb (words sum) 16 >>> 7 = .ofNat (sum.getD 16 0 / 2 ^ 7) := by
    have small := sumSmall.getD_le 16
    rw [limb_words]
    exact shiftRight_ofNat 7 (by omega) (by decide)
  have lower := sumSmall.lower_lt
  have whole := value_lower sumSmall.length
  have limit := sumSmall.getD_le 16
  norm_num at lower bound whole value minus prime limit
  by_cases below : Nat.ofDigits 256 h < p
  -- Below `p` the sum does not reach `2 ^ 136`, and its top bit is set.
  · refine ⟨h, sum, added, ?_, hReduced.toSmall, (Nat.mod_eq_of_lt below).symm⟩
    have high : sum.getD 16 0 / 2 ^ 7 = 1 := by
      norm_num
      omega
    rw [top, high]
    exact taken
  · refine ⟨sum, sum, added, ?_, sumSmall, ?_⟩
    · have high : sum.getD 16 0 / 2 ^ 7 = 0 := by
        norm_num
        omega
      rw [top, high]
      exact kept
    · have once : Nat.ofDigits 256 h % p = Nat.ofDigits 256 h - p := by
        rw [Nat.mod_eq_sub_mod (Nat.le_of_not_lt below), Nat.mod_eq_of_lt (by omega)]
      omega

/-! ## The key -/

/-- The bits of the first half of the key that count. -/
def clampMask : Nat := 0x0ffffffc0ffffffc0ffffffc0fffffff

def clampOctets : List Nat :=
  [255, 255, 255, 15, 252, 255, 255, 15, 252, 255, 255, 15, 252, 255, 255, 15]

/-- The clamped half of the key as limbs. -/
def clamped (octets : Bytes) : List Nat :=
  (octets.map UInt8.toNat).zipWith (· &&& ·) clampOctets ++ [0]

theorem masked_octet (octet : UInt8) {mask : Nat} (small : mask < 2 ^ 32) :
    octet.toUInt32 &&& .ofNat mask = .ofNat (octet.toNat &&& mask) := by
  have bound := octet.toNat_lt
  have rest : octet.toNat &&& mask ≤ octet.toNat := Nat.and_le_left
  apply UInt32.toNat_inj.mp
  rw [UInt32.toNat_and, UInt8.toNat_toUInt32, toNat_ofNat small, toNat_ofNat (by omega)]

theorem whole_octet (octet : UInt8) : octet.toUInt32 = .ofNat (octet.toNat &&& 255) := by
  rw [← masked_octet octet (by decide)]
  apply UInt32.toNat_inj.mp
  have bound := octet.toNat_lt
  have all : octet.toNat &&& 255 = octet.toNat := by
    rw [Nat.and_two_pow_sub_one_eq_mod octet.toNat 8, Nat.mod_eq_of_lt (by omega)]
  rw [UInt32.toNat_and, UInt8.toNat_toUInt32, toNat_ofNat (by decide), all]

theorem clamp_words {k : Bytes} (length : (k.take 16).length = 16) :
    clamp k = words (clamped (k.take 16)) := by
  rw [clamp, clamped]
  match k.take 16, length with
  | [_, _, _, _, _, _, _, _, _, _, _, _, _, _, _, _], _ =>
      simp only [clampOctets, List.map_cons, List.map_nil, List.zipWith_cons_cons,
        List.zipWith_nil_left, List.cons_append, List.nil_append, words,
        ← masked_octet _ (by decide : 15 < 2 ^ 32), ← masked_octet _ (by decide : 252 < 2 ^ 32),
        ← whole_octet]
      rfl

theorem clamped_small {octets : Bytes} (length : octets.length = 16) : Small (clamped octets) where
  length := by
    rw [clamped, List.length_append, List.length_zipWith, List.length_map, length]
    rfl
  small := by
    rw [clamped, List.forall_mem_append]
    refine ⟨fun limb member => ?_, by decide⟩
    obtain ⟨i, inside, rfl⟩ := List.mem_iff_getElem.mp member
    rw [List.getElem_zipWith]
    exact Nat.lt_of_le_of_lt Nat.and_le_left (octets_small octets _ (List.getElem_mem _))

theorem clamped_value {octets : Bytes} (length : octets.length = 16) :
    Nat.ofDigits 256 (clamped octets) = littleEndian octets &&& clampMask := by
  have same : (octets.map UInt8.toNat).length = clampOctets.length := by
    rw [List.length_map, length]
    rfl
  have mask : Nat.ofDigits 256 clampOctets = clampMask := by decide
  rw [clamped, Nat.ofDigits_append, Nat.ofDigits_singleton, Nat.mul_zero, Nat.add_zero,
    littleEndian, ← mask]
  exact @ofDigits_and 8 _ _ same (octets_small octets) (by decide)

/-! ## The tag -/

/-- The lower 16 limbs as octets. -/
theorem octets_of_words {limbs : List Nat} (small : ∀ limb ∈ limbs, limb < 256) :
    littleEndian ((words limbs).map (·.toUInt8)) = Nat.ofDigits 256 limbs := by
  have same : ((words limbs).map (·.toUInt8)).map UInt8.toNat = limbs := by
    rw [words, List.map_map, List.map_map]
    refine (List.map_congr_left fun limb member => ?_).trans (List.map_id limbs)
    have bound := small limb member
    rw [Function.comp_apply, Function.comp_apply, UInt32.toNat_toUInt8, toNat_ofNat (by omega)]
    exact Nat.mod_eq_of_lt bound
  rw [littleEndian, same]

/-- The run of the authenticator on words. -/
theorem onetimeauth_words (m : Bytes) (k : Buffer 32) :
    ∃ total, onetimeauth m k = pure ((words (total.take 16)).map (·.toUInt8)) ∧ Small total ∧
      Nat.ofDigits 256 total =
        (horner (littleEndian (k.bytes.take 16) &&& clampMask) 0 m % p +
          littleEndian (k.bytes.drop 16)) % 2 ^ 136 := by
  have first : (k.bytes.take 16).length = 16 := by
    rw [List.length_take, k.length_bytes]
    rfl
  have second : (k.bytes.drop 16).length = 16 := by
    rw [List.length_drop, k.length_bytes]
  have start : Reduced (List.replicate 17 0) := ⟨⟨rfl, by decide⟩, by decide⟩
  obtain ⟨h, absorbed, reduced, value⟩ := @absorb_words _ (clamped_small first) m _ 0 start rfl
  obtain ⟨frozen, sum, added, selected, frozenSmall, frozenValue⟩ := freeze_words reduced
  have padSmall : Small ((k.bytes.drop 16).map UInt8.toNat ++ [0]) := by
    refine ⟨by rw [List.length_append, List.length_map, second]; rfl, ?_⟩
    rw [List.forall_mem_append]
    exact ⟨octets_small _, by decide⟩
  have pad : (k.bytes.drop 16).map (·.toUInt32) ++ [0] =
      words ((k.bytes.drop 16).map UInt8.toNat ++ [0]) := by
    rw [octets_words, words, words, List.map_append]
    rfl
  have padValue : Nat.ofDigits 256 ((k.bytes.drop 16).map UInt8.toNat ++ [0]) =
      littleEndian (k.bytes.drop 16) := by
    rw [Nat.ofDigits_append, Nat.ofDigits_singleton, Nat.mul_zero, Nat.add_zero, littleEndian]
  obtain ⟨total, last, totalSmall, totalValue⟩ := add1305_words frozenSmall padSmall
  refine ⟨total, ?_, totalSmall, ?_⟩
  · have zero : (List.replicate 17 0 : List UInt32) = words (List.replicate 17 0) := rfl
    rw [onetimeauth, clamp_words first, zero, absorbed, Tracked.pure_bind, added, Tracked.pure_bind]
    simp only [selected, pad, last, Tracked.pure_bind]
    simp only [words, List.map_take]
  · rw [clamped_value first] at value
    have polynomial : Nat.ofDigits 256 h % p =
        horner (littleEndian (k.bytes.take 16) &&& clampMask) 0 m % p := value
    rw [totalValue, frozenValue, polynomial, padValue]

theorem length_onetimeauth (m : Bytes) (k : Buffer 32) : (onetimeauth m k).value.length = 16 := by
  obtain ⟨total, run, small, -⟩ := onetimeauth_words m k
  rw [run, Tracked.pure_value, words, List.length_map, List.length_map, length_lower small.length]

/-- No word wraps, and the tag is the polynomial at the clamped key modulo `p`, with the
    second half of the key added modulo `2 ^ 128`. -/
theorem onetimeauth_correct (m : Bytes) (k : Buffer 32) :
    (onetimeauth m k).exact = true ∧
      (onetimeauth m k).value.length = 16 ∧
      littleEndian (onetimeauth m k).value =
        (horner (littleEndian (k.bytes.take 16) &&& clampMask) 0 m % p +
          littleEndian (k.bytes.drop 16)) % 2 ^ 128 := by
  refine ⟨?_, length_onetimeauth m k, ?_⟩
  · obtain ⟨total, run, -, -⟩ := onetimeauth_words m k
    rw [run, Tracked.pure_exact]
  · obtain ⟨total, run, small, value⟩ := onetimeauth_words m k
    have low : ∀ limb ∈ total.take 16, limb < 256 := fun limb member =>
      small.small limb (List.mem_of_mem_take member)
    rw [run, Tracked.pure_value, octets_of_words low]
    calc
      Nat.ofDigits 256 (total.take 16) = Nat.ofDigits 256 total % 2 ^ 128 := by
        rw [value_lower small.length, Nat.add_mul_mod_self_left, Nat.mod_eq_of_lt small.lower_lt]
      _ = _ := by
        rw [value, Nat.mod_mod_of_dvd _ (by decide)]

end Sotoportego.Tailscale.Poly1305
