import Sotoportego.Lib.Octets

/-!
# Checked access to buffers

Programs over buffers of fixed size whose reads, writes and cursor moves are tested against the
bounds. A program that returns has stayed inside them. The rules below say when one access
returns, and what it returns.
-/

set_option autoImplicit false

namespace Checked

open Octets

/-- The access that broke the bounds, or a loop that was cut off. -/
inductive Fault where
  | read (position : Nat)
  | write (position : Nat)
  | cursor (position : Nat)
  | fuel
  deriving DecidableEq

abbrev Access (α : Type) := Except Fault α

@[simp] theorem ok_bind {α β : Type} (value : α) (next : α → Access β) :
    (Except.ok value >>= next) = next value := rfl

@[simp] theorem pure_ok {α : Type} (value : α) : (pure value : Access α) = .ok value := rfl

/-! ## Reading -/

def fetch (buffer : Bytes) (position : Nat) : Access UInt8 :=
  match buffer[position]? with
  | some octet => .ok octet
  | none => .error (.read position)

/-- The octets from a position on, all of them read. -/
def fetchRange (buffer : Bytes) (position count : Nat) : Access Bytes :=
  if position + count ≤ buffer.length then .ok ((buffer.drop position).take count)
  else .error (.read buffer.length)

/-- Two octets in big-endian order. -/
def fetch16 (buffer : Bytes) (position : Nat) : Access UInt16 := do
  return (← fetch buffer position).toUInt16 <<< 8 ||| (← fetch buffer (position + 1)).toUInt16

/-- A cursor moves from `position` to `next`: never back, and never past the end. -/
def move (buffer : Bytes) (position next : Nat) : Access Nat :=
  if position ≤ next ∧ next ≤ buffer.length then .ok next else .error (.cursor next)

theorem fetch_ok {buffer : Bytes} {position : Nat} (inside : position < buffer.length) :
    fetch buffer position = .ok (octetAt buffer position) := by
  rw [fetch, octetAt, List.getD_eq_getElem?_getD, List.getElem?_eq_getElem inside]
  rfl

theorem fetchRange_ok {buffer : Bytes} {position count : Nat}
    (inside : position + count ≤ buffer.length) :
    fetchRange buffer position count = .ok ((buffer.drop position).take count) :=
  if_pos inside

theorem fetch16_ok {buffer : Bytes} {position : Nat} (inside : position + 1 < buffer.length) :
    fetch16 buffer position =
      .ok ((octetAt buffer position).toUInt16 <<< 8 ||| (octetAt buffer (position + 1)).toUInt16) := by
  rw [fetch16, fetch_ok (Nat.lt_of_succ_lt inside), ok_bind, fetch_ok inside]
  rfl

theorem move_ok {buffer : Bytes} {position next : Nat} (forward : position ≤ next)
    (inside : next ≤ buffer.length) : move buffer position next = .ok next :=
  if_pos ⟨forward, inside⟩

/-! ## Writing -/

/-- The octets written from a position on, all of them. -/
def putRange (buffer : Bytes) (position : Nat) (octets : Bytes) : Access Bytes :=
  if position + octets.length ≤ buffer.length then
    .ok (buffer.take position ++ (octets ++ buffer.drop (position + octets.length)))
  else .error (.write buffer.length)

def put (buffer : Bytes) (position : Nat) (octet : UInt8) : Access Bytes :=
  putRange buffer position [octet]

/-- What is written behind the octets already there. -/
theorem putRange_append {written rest octets : Bytes} (room : octets.length ≤ rest.length) :
    putRange (written ++ rest) written.length octets =
      .ok (written ++ (octets ++ rest.drop octets.length)) := by
  rw [putRange, if_pos (by rw [List.length_append]; omega), List.take_left,
    List.drop_length_add_append]

theorem putRange_behind {written rest octets : Bytes} {position : Nat}
    (behind : written.length = position) (room : octets.length ≤ rest.length) :
    putRange (written ++ rest) position octets =
      .ok (written ++ (octets ++ rest.drop octets.length)) := by
  rw [← behind]
  exact putRange_append room

/-! ## The octets at a cursor -/

/-- The octets left at a cursor before the end. -/
theorem drop_eq {buffer : Bytes} {position : Nat} (inside : position < buffer.length) :
    buffer.drop position = octetAt buffer position :: buffer.drop (position + 1) := by
  rw [List.drop_eq_getElem_cons inside, octetAt, List.getD_eq_getElem?_getD,
    List.getElem?_eq_getElem inside]
  rfl

theorem drop_end {buffer : Bytes} {position : Nat} (outside : ¬ position < buffer.length) :
    buffer.drop position = [] :=
  List.drop_eq_nil_of_le (Nat.le_of_not_lt outside)

end Checked
