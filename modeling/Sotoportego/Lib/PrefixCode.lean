import Mathlib.Data.List.Induction
import Mathlib.Data.List.Sort
import Mathlib.Tactic.Ring

/-!
# Prefix codes

Bits in the order they are sent, the number they form, and decoding bit by bit with a code
in which no word begins another.
-/

set_option autoImplicit false

namespace PrefixCode

/-! ## Bits and numbers -/

/-- The number whose binary digits are these, the first being the highest. -/
def value (bits : List Bool) : Nat :=
  bits.foldl (fun number bit => 2 * number + bit.toNat) 0

/-- The `length` low bits of a number. -/
def toBits : Nat → Nat → List Bool
  | 0, _ => []
  | length + 1, number => toBits length (number / 2) ++ [number % 2 == 1]

@[simp] theorem value_nil : value [] = 0 := rfl

@[simp] theorem value_concat (bits : List Bool) (bit : Bool) :
    value (bits ++ [bit]) = 2 * value bits + bit.toNat := by
  rw [value, List.foldl_append]
  rfl

@[simp] theorem length_toBits (length number : Nat) : (toBits length number).length = length := by
  induction length generalizing number with
  | zero => rfl
  | succ length shorter => rw [toBits, List.length_append, shorter, List.length_singleton]

theorem value_lt (bits : List Bool) : value bits < 2 ^ bits.length := by
  induction bits using List.reverseRecOn with
  | nil => decide
  | append_singleton bits bit shorter =>
      have small : bit.toNat ≤ 1 := bit.toNat_le
      rw [value_concat, List.length_append, List.length_singleton, Nat.pow_succ]
      omega

theorem value_append (front back : List Bool) :
    value (front ++ back) = value front * 2 ^ back.length + value back := by
  induction back using List.reverseRecOn with
  | nil => simp
  | append_singleton back bit shorter =>
      rw [← List.append_assoc, value_concat, shorter, value_concat, List.length_append,
        List.length_singleton, Nat.pow_succ]
      ring

theorem value_toBits {length number : Nat} (small : number < 2 ^ length) :
    value (toBits length number) = number := by
  induction length generalizing number with
  | zero =>
      rw [Nat.pow_zero] at small
      rw [toBits, value_nil]
      omega
  | succ length shorter =>
      rw [Nat.pow_succ] at small
      have low : (number % 2 == 1).toNat = number % 2 := by
        have parity := Nat.mod_two_eq_zero_or_one number
        cases parity with
        | inl even => rw [even]; rfl
        | inr odd => rw [odd]; rfl
      rw [toBits, value_concat, shorter (by omega), low]
      omega

theorem toBits_value (bits : List Bool) : toBits bits.length (value bits) = bits := by
  induction bits using List.reverseRecOn with
  | nil => rfl
  | append_singleton bits bit shorter =>
      have half : (2 * value bits + bit.toNat) / 2 = value bits := by
        have small : bit.toNat ≤ 1 := bit.toNat_le
        omega
      have low : ((2 * value bits + bit.toNat) % 2 == 1) = bit := by
        rw [Nat.mul_add_mod]
        cases bit <;> rfl
      rw [List.length_append, List.length_singleton, toBits, value_concat, half, shorter, low]

theorem value_replicate_true (count : Nat) : value (List.replicate count true) = 2 ^ count - 1 := by
  induction count with
  | zero => rfl
  | succ count shorter =>
      have positive : 0 < 2 ^ count := Nat.two_pow_pos count
      rw [List.replicate_succ', value_concat, shorter, Nat.pow_succ, Bool.toNat_true]
      omega

/-! ## Words that take disjoint blocks

A word of `length` bits takes the numbers of `depth` bits that begin with it. -/

/-- The first number of the block of a word and the first after it. -/
def block (depth : Nat) (word : Nat × Nat) : Nat × Nat :=
  (word.2 * 2 ^ (depth - word.1), (word.2 + 1) * 2 ^ (depth - word.1))

def Apart (left right : Nat × Nat) : Prop :=
  left.2 ≤ right.1 ∨ right.2 ≤ left.1

theorem Apart.symm {left right : Nat × Nat} (apart : Apart left right) : Apart right left :=
  Or.symm apart

/-- Blocks in ascending order, each starting where the one before has ended. -/
def Ascending : List (Nat × Nat) → Prop
  | [] => True
  | [_] => True
  | first :: second :: rest => first.2 ≤ second.1 ∧ Ascending (second :: rest)

instance decidableAscending : ∀ blocks, Decidable (Ascending blocks)
  | [] => inferInstanceAs (Decidable True)
  | [_] => inferInstanceAs (Decidable True)
  | first :: second :: rest =>
      @instDecidableAnd _ _ (inferInstanceAs (Decidable (first.2 ≤ second.1)))
        (decidableAscending (second :: rest))

theorem Ascending.pairwise {blocks : List (Nat × Nat)} (ascending : Ascending blocks)
    (proper : ∀ taken ∈ blocks, taken.1 ≤ taken.2) : blocks.Pairwise Apart := by
  have above : ∀ {first : Nat × Nat} {rest : List (Nat × Nat)}, Ascending (first :: rest) →
      (∀ taken ∈ rest, taken.1 ≤ taken.2) → ∀ later ∈ rest, first.2 ≤ later.1 := by
    intro first rest
    induction rest generalizing first with
    | nil =>
        intro _ _ later member
        cases member
    | cons second rest continued =>
        intro ordered proper later member
        cases List.mem_cons.mp member with
        | inl here =>
            rw [here]
            exact ordered.1
        | inr beyond =>
            have next := continued ordered.2
              (fun taken inside => proper taken (List.mem_cons_of_mem _ inside)) later beyond
            have width := proper second List.mem_cons_self
            have start := ordered.1
            omega
  induction blocks with
  | nil => exact .nil
  | cons first rest continued =>
      have proper' : ∀ taken ∈ rest, taken.1 ≤ taken.2 :=
        fun taken inside => proper taken (List.mem_cons_of_mem _ inside)
      refine .cons (fun later member => .inl (above ascending proper' later member)) ?_
      cases rest with
      | nil => exact .nil
      | cons second rest => exact continued ascending.2 proper'

/-- A word that begins another takes a block around its block. -/
theorem not_apart_of_prefix {depth : Nat} {left right : List Bool} (begins : left <+: right)
    (fits : right.length ≤ depth) :
    ¬ Apart (block depth (left.length, value left)) (block depth (right.length, value right)) := by
  obtain ⟨back, rfl⟩ := begins
  rw [List.length_append] at fits
  have small := value_lt back
  have split : 2 ^ (depth - left.length) =
      2 ^ back.length * 2 ^ (depth - (left ++ back).length) := by
    rw [← Nat.pow_add, List.length_append]
    congr 1
    omega
  have positive : 0 < 2 ^ (depth - (left ++ back).length) := Nat.two_pow_pos _
  simp only [Apart, block, value_append, split]
  generalize 2 ^ (depth - (left ++ back).length) = width at *
  generalize 2 ^ back.length = span at *
  intro apart
  cases apart with
  | inl below =>
      have reach : (value left + 1) * span ≤ value left * span + value back := by
        rw [← Nat.mul_assoc] at below
        exact Nat.le_of_mul_le_mul_right below positive
      rw [Nat.succ_mul] at reach
      omega
  | inr above =>
      have reach : value left * span + value back + 1 ≤ value left * span := by
        rw [← Nat.mul_assoc] at above
        exact Nat.le_of_mul_le_mul_right above positive
      omega

/-! ## Decoding bit by bit -/

variable {σ : Type*}

/-- The bits held so far and the symbols found. -/
structure Feed (σ : Type*) where
  held : List Bool := []
  out : List σ := []

/-- One bit; a word never has more bits than `limit`. -/
def feed (limit : Nat) (lookup : List Bool → Option σ) (state : Feed σ) (bit : Bool) :
    Option (Feed σ) :=
  if limit < state.held.length + 1 then none
  else
    match lookup (state.held ++ [bit]) with
    | some symbol => some ⟨[], state.out ++ [symbol]⟩
    | none => some ⟨state.held ++ [bit], state.out⟩

/-- `lookup` finds exactly the words of the code, none is empty or longer than `limit`, and
none begins another. -/
structure Lawful (limit : Nat) (code : σ → List Bool) (lookup : List Bool → Option σ) : Prop where
  lookup_iff : ∀ bits symbol, lookup bits = some symbol ↔ code symbol = bits
  nonempty : ∀ symbol, code symbol ≠ []
  length_le : ∀ symbol, (code symbol).length ≤ limit
  apart : ∀ left right, code left <+: code right → left = right

variable {limit : Nat} {code : σ → List Bool} {lookup : List Bool → Option σ}

/-- Bits that complete no word are held. -/
theorem foldlM_feed_held {held bits : List Bool} (out : List σ)
    (short : held.length + bits.length ≤ limit)
    (unknown : ∀ more, more ≠ [] → more <+: bits → lookup (held ++ more) = none) :
    bits.foldlM (feed limit lookup) ⟨held, out⟩ = some ⟨held ++ bits, out⟩ := by
  induction bits generalizing held with
  | nil =>
      rw [List.append_nil]
      rfl
  | cons bit bits continued =>
      rw [List.length_cons] at short
      have first := unknown [bit] (by simp) (List.prefix_append [bit] bits)
      have step : feed limit lookup ⟨held, out⟩ bit = some ⟨held ++ [bit], out⟩ := by
        have within : ¬ limit < held.length + 1 := by omega
        rw [feed, if_neg within]
        simp only [first]
      rw [List.foldlM_cons, step, Option.bind_eq_bind, Option.bind_some, continued,
        List.append_assoc, List.singleton_append]
      · rw [List.length_append, List.length_singleton]
        omega
      · intro more some begins
        rw [List.append_assoc, List.singleton_append]
        exact unknown (bit :: more) (by simp) (List.cons_prefix_cons.mpr ⟨rfl, begins⟩)

/-- Nothing that begins a word is a word. -/
theorem Lawful.lookup_front (lawful : Lawful limit code lookup) {symbol : σ}
    {front back more : List Bool} (split : code symbol = front ++ back) (longer : back ≠ [])
    (begins : more <+: front) : lookup more = none := by
  cases found : lookup more with
  | none => rfl
  | some other =>
      have word := (lawful.lookup_iff more other).mp found
      have inside : code other <+: code symbol := by
        rw [word, split]
        exact begins.trans (List.prefix_append _ _)
      have lengths := begins.length_le
      have positive := List.length_pos_of_ne_nil longer
      rw [← word, lawful.apart other symbol inside, split, List.length_append] at lengths
      omega

theorem Lawful.foldlM_feed_code (lawful : Lawful limit code lookup) (symbol : σ) (out : List σ) :
    (code symbol).foldlM (feed limit lookup) ⟨[], out⟩ = some ⟨[], out ++ [symbol]⟩ := by
  obtain ⟨front, last, split⟩ :=
    (List.eq_nil_or_concat (code symbol)).resolve_left (lawful.nonempty symbol)
  rw [List.concat_eq_append] at split
  have bounded := lawful.length_le symbol
  rw [split, List.length_append, List.length_singleton] at bounded
  have quiet : front.foldlM (feed limit lookup) ⟨[], out⟩ = some ⟨front, out⟩ := by
    refine foldlM_feed_held out (by rw [List.length_nil]; omega) ?_
    intro more _ begins
    exact lawful.lookup_front split (by simp) begins
  have found : lookup (front ++ [last]) = some symbol := (lawful.lookup_iff _ _).mpr split
  have step : feed limit lookup ⟨front, out⟩ last = some ⟨[], out ++ [symbol]⟩ := by
    have within : ¬ limit < front.length + 1 := by omega
    rw [feed, if_neg within]
    simp only [found]
  rw [split, List.foldlM_append, quiet, Option.bind_eq_bind, Option.bind_some, List.foldlM_cons,
    step]
  rfl

theorem Lawful.foldlM_feed_encode (lawful : Lawful limit code lookup) (symbols out : List σ) :
    (symbols.flatMap code).foldlM (feed limit lookup) ⟨[], out⟩ = some ⟨[], out ++ symbols⟩ := by
  induction symbols generalizing out with
  | nil =>
      rw [List.append_nil]
      rfl
  | cons symbol symbols continued =>
      rw [List.flatMap_cons, List.foldlM_append, lawful.foldlM_feed_code, Option.bind_eq_bind,
        Option.bind_some, continued, List.append_assoc, List.singleton_append]

/-- Encoded symbols and then bits that are no word. -/
theorem Lawful.foldlM_feed_padded (lawful : Lawful limit code lookup) (symbols : List σ)
    {padding : List Bool} (short : padding.length ≤ limit)
    (unknown : ∀ more, more ≠ [] → more <+: padding → lookup more = none) :
    (symbols.flatMap code ++ padding).foldlM (feed limit lookup) {} = some ⟨padding, symbols⟩ := by
  rw [List.foldlM_append, lawful.foldlM_feed_encode, Option.bind_eq_bind, Option.bind_some,
    foldlM_feed_held _ (by rw [List.length_nil]; omega) unknown]
  rfl

/-- The words of the symbols found and the bits held are the bits taken. -/
theorem Lawful.feed_spelled (lawful : Lawful limit code lookup) {state next : Feed σ} {bit : Bool}
    (fed : feed limit lookup state bit = some next) :
    next.out.flatMap code ++ next.held = state.out.flatMap code ++ state.held ++ [bit] := by
  rw [feed] at fed
  split at fed
  next => cases fed
  next =>
    split at fed
    next symbol found =>
      have word := (lawful.lookup_iff _ _).mp found
      cases fed
      simp [word]
    next =>
      cases fed
      simp

theorem Lawful.foldlM_feed_spelled (lawful : Lawful limit code lookup) {bits : List Bool}
    {state next : Feed σ} (fed : bits.foldlM (feed limit lookup) state = some next) :
    next.out.flatMap code ++ next.held = state.out.flatMap code ++ state.held ++ bits := by
  induction bits generalizing state with
  | nil =>
      cases fed
      rw [List.append_nil]
  | cons bit bits continued =>
      rw [List.foldlM_cons] at fed
      obtain ⟨middle, first, rest⟩ := Option.bind_eq_some_iff.mp fed
      rw [continued rest, lawful.feed_spelled first, List.append_assoc, List.singleton_append]

/-- Bits that are no word, and one more than any word has. -/
theorem Lawful.foldlM_feed_overrun (lawful : Lawful limit code lookup) (symbols : List σ)
    {stray : List Bool} (whole : stray.length = limit)
    (unknown : ∀ more, more ≠ [] → more <+: stray → lookup more = none) (bit : Bool)
    (rest : List Bool) :
    (symbols.flatMap code ++ (stray ++ bit :: rest)).foldlM (feed limit lookup) {} = none := by
  rw [← List.append_assoc, List.foldlM_append,
    lawful.foldlM_feed_padded symbols (Nat.le_of_eq whole) unknown, Option.bind_eq_bind,
    Option.bind_some, List.foldlM_cons, feed, if_pos (by rw [whole]; exact Nat.lt_succ_self _)]
  rfl

/-! ## Octets -/

/-- The octets whose bits these are, eight at a time; fewer than eight at the end are lost. -/
def packed : List Bool → List UInt8
  | b7 :: b6 :: b5 :: b4 :: b3 :: b2 :: b1 :: b0 :: rest =>
      UInt8.ofNat (value [b7, b6, b5, b4, b3, b2, b1, b0]) :: packed rest
  | _ => []

/-- The ones that fill the last octet. -/
def fill (bits : List Bool) : List Bool :=
  bits ++ List.replicate ((8 - bits.length % 8) % 8) true

theorem length_fill (bits : List Bool) : (fill bits).length % 8 = 0 := by
  rw [fill, List.length_append, List.length_replicate]
  omega

end PrefixCode
