import Mathlib.Data.List.Basic

/-!
# Boxes from a stream and a tag

A text is masked symbol by symbol with a stream, and a tag of the masked text stands in front.
What opens is exactly what was sealed.
-/

set_option autoImplicit false

namespace StreamBox

variable {α : Type*}

/-! ## Masks -/

/-- The text with the symbols of the stream put on it. -/
def mask (combine : α → α → α) (stream : Nat → α) (text : List α) : List α :=
  text.mapIdx fun position symbol => combine symbol (stream position)

section Mask

variable {combine : α → α → α} {stream : Nat → α}

@[simp] theorem length_mask (text : List α) : (mask combine stream text).length = text.length :=
  List.length_mapIdx

theorem getElem?_mask (text : List α) (position : Nat) :
    (mask combine stream text)[position]? =
      text[position]?.map (combine · (stream position)) :=
  List.getElem?_mapIdx

/-- A mask that is put on twice comes off. -/
theorem mask_mask (cancel : ∀ symbol under, combine (combine symbol under) under = symbol)
    (text : List α) : mask combine stream (mask combine stream text) = text := by
  apply List.ext_getElem?
  intro position
  rw [getElem?_mask, getElem?_mask, Option.map_map]
  cases text[position]? with
  | none => rfl
  | some symbol => exact congrArg some (cancel symbol _)

/-- The stream goes on behind the first part of a text. -/
theorem mask_append (first second : List α) :
    mask combine stream (first ++ second) =
      mask combine stream first ++ mask combine (fun i => stream (first.length + i)) second := by
  simp only [mask, List.mapIdx_append, Nat.add_comm]

theorem drop_mask (count : Nat) (text : List α) :
    (mask combine stream text).drop count =
      mask combine (fun i => stream (count + i)) (text.drop count) := by
  apply List.ext_getElem?
  intro position
  rw [List.getElem?_drop, getElem?_mask, getElem?_mask, List.getElem?_drop]

end Mask

/-! ## Sealing -/

/-- A tag of fixed size and a way to encrypt that can be undone. -/
structure Sealing (α : Type*) where
  size : Nat
  tag : List α → List α
  encrypt : List α → List α
  decrypt : List α → List α
  length_tag : ∀ cipher, (tag cipher).length = size
  decrypt_encrypt : ∀ plain, decrypt (encrypt plain) = plain
  encrypt_decrypt : ∀ cipher, encrypt (decrypt cipher) = cipher

namespace Sealing

variable (sealing : Sealing α)

/-- The tag of the cipher text, and the cipher text. -/
def sealed (plain : List α) : List α := sealing.tag (sealing.encrypt plain) ++ sealing.encrypt plain

theorem length_sealed (plain : List α) :
    (sealing.sealed plain).length = sealing.size + (sealing.encrypt plain).length := by
  rw [sealed, List.length_append, sealing.length_tag]

variable [DecidableEq α]

def opened (box : List α) : Option (List α) :=
  if box.length < sealing.size then none
  else if box.take sealing.size = sealing.tag (box.drop sealing.size) then
    some (sealing.decrypt (box.drop sealing.size))
  else none

/-- A box opens exactly when it was sealed. -/
theorem opened_eq_some_iff {box plain : List α} :
    sealing.opened box = some plain ↔ box = sealing.sealed plain := by
  constructor
  · intro opens
    unfold opened at opens
    split at opens
    · cases opens
    · split at opens
      · next genuine =>
        cases opens
        rw [sealed, sealing.encrypt_decrypt, ← genuine, List.take_append_drop]
      · cases opens
  · rintro rfl
    have length := sealing.length_tag (sealing.encrypt plain)
    have total := sealing.length_sealed plain
    have front : (sealing.sealed plain).take sealing.size = sealing.tag (sealing.encrypt plain) :=
      List.take_left' length
    have rest : (sealing.sealed plain).drop sealing.size = sealing.encrypt plain :=
      List.drop_left' length
    have whole : ¬ (sealing.sealed plain).length < sealing.size := by omega
    rw [opened, if_neg whole, front, rest, if_pos rfl, sealing.decrypt_encrypt]

end Sealing

/-- The sealing that masks with a stream. -/
def streamSealing (combine : α → α → α) (stream : Nat → α) (size : Nat) (tag : List α → List α)
    (length_tag : ∀ cipher, (tag cipher).length = size)
    (cancel : ∀ symbol under, combine (combine symbol under) under = symbol) : Sealing α where
  size
  tag
  encrypt := mask combine stream
  decrypt := mask combine stream
  length_tag
  decrypt_encrypt := mask_mask cancel
  encrypt_decrypt := mask_mask cancel

end StreamBox
