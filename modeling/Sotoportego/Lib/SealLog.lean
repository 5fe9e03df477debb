import Mathlib.Data.List.Nodup

/-!
# Counters restarted at every key installation

A machine that seals under a current identity with a counter, and restarts the
counter whenever an identity is installed. As long as no identity is installed
twice, no pair of identity and counter is used twice.
-/

set_option autoImplicit false

namespace SealLog

structure Machine (Identity : Type*) where
  current : Option Identity := none
  counter : Nat := 0
  installed : List Identity := []
  log : List (Identity × Nat) := []

namespace Machine

variable {Identity : Type*}

def install (machine : Machine Identity) (identity : Identity) : Machine Identity :=
  { machine with
    current := some identity
    counter := 0
    installed := machine.installed ++ [identity] }

def send (machine : Machine Identity) : Machine Identity :=
  match machine.current with
  | none => machine
  | some identity =>
      { machine with
        counter := machine.counter + 1
        log := machine.log ++ [(identity, machine.counter)] }

structure Ordered (machine : Machine Identity) : Prop where
  known : ∀ entry ∈ machine.log, entry.1 ∈ machine.installed
  member : ∀ identity, machine.current = some identity → identity ∈ machine.installed
  below : ∀ entry ∈ machine.log, machine.current = some entry.1 → entry.2 < machine.counter
  once : machine.log.Nodup

theorem ordered_empty : Ordered ({} : Machine Identity) where
  known := by simp
  member := by simp
  below := by simp
  once := List.nodup_nil

theorem ordered_install {machine : Machine Identity} (ordered : machine.Ordered)
    {identity : Identity} (new : identity ∉ machine.installed) :
    (machine.install identity).Ordered where
  known := fun entry member => List.mem_append_left _ (ordered.known entry member)
  member := by
    intro other same
    cases same
    exact List.mem_append_right _ List.mem_cons_self
  below := by
    intro entry member same
    cases same
    exact absurd (ordered.known entry member) new
  once := ordered.once

theorem ordered_send {machine : Machine Identity} (ordered : machine.Ordered) :
    machine.send.Ordered := by
  unfold send
  split
  · exact ordered
  · next identity current =>
    have fresh : (identity, machine.counter) ∉ machine.log := fun member =>
      Nat.lt_irrefl _ (ordered.below _ member current)
    exact {
      known := by
        intro entry member
        rcases List.mem_append.mp member with old | new
        · exact ordered.known entry old
        · rw [List.mem_singleton.mp new]
          exact ordered.member identity current
      member := ordered.member
      below := by
        intro entry member same
        rcases List.mem_append.mp member with old | new
        · exact Nat.lt_succ_of_lt (ordered.below entry old same)
        · rw [List.mem_singleton.mp new]
          exact Nat.lt_succ_self _
      once := List.nodup_append.mpr ⟨ordered.once, List.nodup_singleton _,
        fun old member new newMember same =>
          fresh (List.mem_singleton.mp newMember ▸ same ▸ member)⟩ }

/-- Reading the log through functions that are injective on what was installed and
on the counters used keeps its entries distinct. -/
theorem Ordered.nodup_map {machine : Machine Identity} (ordered : machine.Ordered)
    {Key Counter : Type*} {key : Identity → Key} {counter : Nat → Counter}
    (keyInjective : ∀ left ∈ machine.installed, ∀ right ∈ machine.installed,
      key left = key right → left = right)
    (counterInjective : ∀ left ∈ machine.log, ∀ right ∈ machine.log,
      counter left.2 = counter right.2 → left.2 = right.2) :
    (machine.log.map fun entry => (key entry.1, counter entry.2)).Nodup := by
  apply List.Nodup.map_on _ ordered.once
  intro left leftMember right rightMember same
  obtain ⟨sameKey, sameCounter⟩ := Prod.mk.inj same
  exact Prod.ext
    (keyInjective _ (ordered.known left leftMember) _ (ordered.known right rightMember) sameKey)
    (counterInjective left leftMember right rightMember sameCounter)

end Machine

end SealLog
