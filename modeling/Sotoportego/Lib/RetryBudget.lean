import Mathlib.Data.List.Basic
import Mathlib.Data.List.Count
import Mathlib.Data.List.Induction
import Sotoportego.Lib.Run

/-!
# Retry budgets

A session that drops may be retried a bounded number of times: each retry is paid for,
scheduled, and fired. A renewal and a success give the whole budget back, a stop ends the
retries until the next renewal.
-/

set_option autoImplicit false

namespace RetryBudget

inductive Event where
  /-- The owner asks for a session. -/
  | renew
  /-- The owner asks for none. -/
  | stop
  /-- A session is begun on behalf of the owner. -/
  | call
  /-- A retry is paid for and comes to nothing. -/
  | spend
  /-- A retry is paid for and scheduled. -/
  | schedule
  | fire
  | settle
  | other
  deriving DecidableEq

structure State where
  stopped : Bool
  spent : Nat
  scheduled : Bool

def step (state : State) : Event → State
  | .renew => ⟨false, 0, false⟩
  | .stop => { state with stopped := true, scheduled := false }
  | .call => state
  | .spend => { state with spent := state.spent + 1, scheduled := false }
  | .schedule => { state with spent := state.spent + 1, scheduled := true }
  | .fire => { state with scheduled := false }
  | .settle => { state with spent := 0 }
  | .other => state

def Allowed (limit : Nat) (state : State) : Event → Prop
  | .call => state.stopped = false
  | .fire => state.stopped = false ∧ state.scheduled = true
  | .spend | .schedule => state.spent < limit
  | .renew | .stop | .settle | .other => True

/-- A success comes with nothing scheduled. -/
def Timely (state : State) : Event → Prop
  | .settle => state.scheduled = false
  | _ => True

variable {limit : Nat} {state : State}

theorem timely_of_notMem {events : List Event} (unsettled : .settle ∉ events) :
    Run.Along step Timely state events := by
  induction events generalizing state with
  | nil => trivial
  | cons event events continued =>
      rw [List.mem_cons, not_or] at unsettled
      refine ⟨?_, continued unsettled.2⟩
      cases event with
      | settle => exact absurd rfl unsettled.1
      | renew | stop | call | spend | schedule | fire | other => trivial

/-! ## Stops -/

theorem stopped_step {event : Event} (stopped : state.stopped = true) (kept : event ≠ .renew) :
    (step state event).stopped = true := by
  cases event with
  | renew => exact absurd rfl kept
  | stop => rfl
  | call | spend | schedule | fire | settle | other => exact stopped

theorem stopped_run {events : List Event} (stopped : state.stopped = true)
    (kept : .renew ∉ events) : (Run.run step state events).stopped = true := by
  induction events generalizing state with
  | nil => exact stopped
  | cons event events continued =>
      rw [List.mem_cons, not_or] at kept
      exact continued (stopped_step stopped (Ne.symm kept.1)) kept.2

/-- Between a stop and the next session there is a renewal. -/
theorem renewed {before between after : List Event} {event : Event}
    (allowed : Run.Along step (Allowed limit) state
      (before ++ .stop :: between ++ event :: after))
    (begins : event = .call ∨ event = .fire) : .renew ∈ between := by
  by_contra kept
  have stopped : (Run.run step state (before ++ .stop :: between)).stopped = true := by
    rw [Run.run_append, Run.run_cons]
    exact stopped_run rfl kept
  have last := (Run.along_append.mp allowed).2.1
  obtain rfl | rfl := begins
  · exact absurd (stopped.symm.trans last) (by decide)
  · exact absurd (stopped.symm.trans last.1) (by decide)

/-! ## Budgets -/

theorem spent_le_step {event : Event} (within : state.spent ≤ limit)
    (allowed : Allowed limit state event) : (step state event).spent ≤ limit := by
  cases event with
  | spend | schedule => exact allowed
  | renew | settle => exact Nat.zero_le limit
  | stop | call | fire | other => exact within

theorem spent_le {events : List Event} (within : state.spent ≤ limit)
    (allowed : Run.Along step (Allowed limit) state events) :
    (Run.run step state events).spent ≤ limit :=
  @Run.invariant_along _ _ step (Allowed limit) (fun state => state.spent ≤ limit)
    (fun _ _ legal before => spent_le_step before legal) _ _ allowed within

/-- Something scheduled is paid for. -/
def Paid (state : State) : Prop := state.scheduled = true → 1 ≤ state.spent

theorem paid_step {event : Event} (paid : Paid state) (allowed : Allowed limit state event)
    (timely : Timely state event) : Paid (step state event) := by
  intro scheduled
  cases event with
  | schedule => exact Nat.le_add_left 1 state.spent
  | settle => exact absurd (scheduled.symm.trans timely) (by decide)
  | call | other => exact paid scheduled
  | renew | stop | spend | fire => cases scheduled

theorem paid_run {events : List Event} (paid : Paid state)
    (allowed : Run.Along step (Allowed limit) state events)
    (timely : Run.Along step Timely state events) : Paid (Run.run step state events) := by
  induction events generalizing state with
  | nil => exact paid
  | cons event events continued =>
      exact continued (paid_step paid allowed.1 timely.1) allowed.2 timely.2

/-- Each retry but one that was scheduled before is paid for in the course of the run. -/
theorem fires_le {events : List Event} (allowed : Run.Along step (Allowed limit) state events)
    (renewed : .renew ∉ events) (settled : .settle ∉ events) :
    events.count .fire + state.spent ≤
      (Run.run step state events).spent + state.scheduled.toNat := by
  induction events generalizing state with
  | nil => simp
  | cons event events continued =>
      have rest := continued allowed.2 (fun member => renewed (List.mem_cons_of_mem _ member))
        fun member => settled (List.mem_cons_of_mem _ member)
      rw [Run.run_cons]
      have legal := allowed.1
      cases event with
      | renew => exact absurd List.mem_cons_self renewed
      | settle => exact absurd List.mem_cons_self settled
      | fire =>
          rw [List.count_cons_self]
          simp only [step, Bool.toNat_false] at rest ⊢
          rw [legal.2, Bool.toNat_true]
          omega
      | spend =>
          rw [List.count_cons_of_ne (by decide)]
          simp only [step, Bool.toNat_false] at rest ⊢
          omega
      | schedule =>
          rw [List.count_cons_of_ne (by decide)]
          simp only [step, Bool.toNat_true] at rest ⊢
          omega
      | stop =>
          rw [List.count_cons_of_ne (by decide)]
          simp only [step, Bool.toNat_false] at rest ⊢
          omega
      | call | other =>
          rw [List.count_cons_of_ne (by decide)]
          exact rest

/-- No more retries than the limit between two renewals or successes. -/
theorem fires_le_limit {before segment after : List Event} (start : state.spent ≤ limit)
    (paid : Paid state)
    (allowed : Run.Along step (Allowed limit) state (before ++ segment ++ after))
    (timely : Run.Along step Timely state (before ++ segment ++ after))
    (renewed : .renew ∉ segment) (settled : .settle ∉ segment) : segment.count .fire ≤ limit := by
  obtain ⟨early, late⟩ := Run.along_append.mp allowed.earlier
  have known := paid_run paid early timely.earlier.earlier
  have fires := fires_le late renewed settled
  have top := spent_le (spent_le start early) late
  cases scheduled : (Run.run step state before).scheduled with
  | false =>
      rw [scheduled, Bool.toNat_false] at fires
      omega
  | true =>
      have one := known scheduled
      rw [scheduled, Bool.toNat_true] at fires
      omega

/-- What is scheduled has been paid for, and without a success it stays so. -/
theorem scheduled_since {events : List Event} (idle : state.scheduled = false)
    (scheduled : (Run.run step state events).scheduled = true) :
    ∃ before after, events = before ++ .schedule :: after ∧ .schedule ∉ after ∧
      (.settle ∉ after → 1 ≤ (Run.run step state events).spent) := by
  induction events using List.reverseRecOn with
  | nil => exact absurd (scheduled.symm.trans idle) (by decide)
  | append_singleton events event continued =>
      rw [Run.run_append] at scheduled ⊢
      have later (kept : (Run.run step state events).scheduled = true) (other : event ≠ .schedule)
          (spent : event ≠ .settle → (Run.run step state events).spent ≤
            (step (Run.run step state events) event).spent) :
          ∃ before after, events ++ [event] = before ++ .schedule :: after ∧ .schedule ∉ after ∧
            (.settle ∉ after → 1 ≤ (step (Run.run step state events) event).spent) := by
        obtain ⟨before, after, split, last, paid⟩ := continued kept
        refine ⟨before, after ++ [event], ?_, ?_, fun unsettled => ?_⟩
        · rw [split, List.append_assoc, List.cons_append]
        · simp [last, Ne.symm other]
        · simp only [List.mem_append, List.mem_singleton, not_or] at unsettled
          exact Nat.le_trans (paid unsettled.1) (spent (Ne.symm unsettled.2))
      cases event with
      | schedule =>
          exact ⟨events, [], rfl, List.not_mem_nil, fun _ => Nat.le_add_left 1 _⟩
      | settle => exact later scheduled (by decide) fun differs => absurd rfl differs
      | call | other => exact later scheduled (by decide) fun _ => Nat.le_refl _
      | renew | stop | spend | fire => cases scheduled

end RetryBudget
