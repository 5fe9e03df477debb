import Mathlib.Data.Set.Subsingleton
import Sotoportego.Lib.Run

/-!
# One owner at a time

Components may hold something, and one of them is the owner. If the owner alone acquires, and
ownership passes on only when no other component keeps anything, then no two of them hold
something at once.
-/

set_option autoImplicit false

structure Handover (Component : Type*) where
  owner : Component
  holders : Set Component

namespace Handover

variable {Component State Event : Type*}

/-- Who holds something after a step is the owner, or held it before under the same owner. -/
def Allowed (before after : Handover Component) : Prop :=
  ∀ component ∈ after.holders, component = after.owner ∨
    component ∈ before.holders ∧ after.owner = before.owner

def Owned (handover : Handover Component) : Prop :=
  ∀ component ∈ handover.holders, component = handover.owner

theorem Owned.next {before after : Handover Component} (owned : Owned before)
    (allowed : Allowed before after) : Owned after := by
  intro component holds
  obtain acquires | ⟨held, same⟩ := allowed component holds
  · exact acquires
  · rw [same]
    exact owned component held

theorem Owned.exclusive {handover : Handover Component} (owned : Owned handover) :
    handover.holders.Subsingleton := by
  intro first holds second also
  rw [owned first holds, owned second also]

/-- A system whose steps look like handovers, while an invariant of its own holds. -/
theorem owned_run {step : State → Event → State} {condition : State → Event → Prop}
    {invariant : State → Prop} {view : State → Handover Component}
    (refines : ∀ state event, condition state event → invariant state → Owned (view state) →
      invariant (step state event) ∧ Allowed (view state) (view (step state event)))
    {state : State} {events : List Event} (along : Run.Along step condition state events)
    (initial : invariant state) (owned : Owned (view state)) :
    invariant (Run.run step state events) ∧ Owned (view (Run.run step state events)) := by
  refine @Run.invariant_along State Event step condition
    (fun state => invariant state ∧ Owned (view state)) ?_ state events along ⟨initial, owned⟩
  intro state event permitted sound
  obtain ⟨kept, allowed⟩ := refines state event permitted sound.1 sound.2
  exact ⟨kept, sound.2.next allowed⟩

end Handover
