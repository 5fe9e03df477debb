import Mathlib.Data.List.Basic

/-!
# Runs of a transition function

A run is a fold over the events. `Along` states a condition on every step, read in
the state before it, and the rules below carry an invariant through such runs.
-/

set_option autoImplicit false

namespace Run

variable {State Event : Type*}

def run (step : State → Event → State) (state : State) (events : List Event) : State :=
  events.foldl step state

/-- Every step of the run meets `allowed` in the state it starts from. -/
def Along (step : State → Event → State) (allowed : State → Event → Prop) :
    State → List Event → Prop
  | _, [] => True
  | state, event :: events => allowed state event ∧ Along step allowed (step state event) events

instance decidableAlong (step : State → Event → State) (allowed : State → Event → Prop)
    [decidableStep : ∀ state event, Decidable (allowed state event)] :
    ∀ state events, Decidable (Along step allowed state events)
  | _, [] => inferInstanceAs (Decidable True)
  | state, event :: events =>
      @instDecidableAnd _ _ (decidableStep state event)
        (decidableAlong step allowed (step state event) events)

variable {step : State → Event → State} {allowed : State → Event → Prop}
  {invariant : State → Prop}

@[simp] theorem run_nil (state : State) : run step state [] = state := rfl

@[simp] theorem run_cons (state : State) (event : Event) (events : List Event) :
    run step state (event :: events) = run step (step state event) events := rfl

theorem run_append (state : State) (first second : List Event) :
    run step state (first ++ second) = run step (run step state first) second :=
  List.foldl_append

theorem along_append {state : State} {first second : List Event} :
    Along step allowed state (first ++ second) ↔
      Along step allowed state first ∧ Along step allowed (run step state first) second := by
  induction first generalizing state with
  | nil => simp [Along]
  | cons event first continued => simp [Along, continued, and_assoc]

theorem Along.imp {other : State → Event → Prop}
    (implies : ∀ state event, allowed state event → other state event) {state : State}
    {events : List Event} (along : Along step allowed state events) :
    Along step other state events := by
  induction events generalizing state with
  | nil => trivial
  | cons event events continued => exact ⟨implies _ _ along.1, continued along.2⟩

theorem along_of_forall {events : List Event}
    (every : ∀ event ∈ events, ∀ state, allowed state event) (state : State) :
    Along step allowed state events := by
  induction events generalizing state with
  | nil => trivial
  | cons event events continued =>
      exact ⟨every event List.mem_cons_self state,
        continued (fun later member => every later (List.mem_cons_of_mem _ member)) _⟩

theorem Along.earlier {state : State} {first second : List Event}
    (along : Along step allowed state (first ++ second)) : Along step allowed state first :=
  (along_append.mp along).1

theorem Along.and {other : State → Event → Prop} {state : State} {events : List Event}
    (first : Along step allowed state events) (second : Along step other state events) :
    Along step (fun state event => allowed state event ∧ other state event) state events := by
  induction events generalizing state with
  | nil => trivial
  | cons event events continued =>
      exact ⟨⟨first.1, second.1⟩, continued first.2 second.2⟩

/-- The invariant rule for runs whose steps all meet a condition. -/
theorem invariant_along
    (preserved : ∀ state event, allowed state event → invariant state →
      invariant (step state event))
    {state : State} {events : List Event} (along : Along step allowed state events)
    (initial : invariant state) : invariant (run step state events) := by
  induction events generalizing state with
  | nil => exact initial
  | cons event events continued =>
      exact continued along.2 (preserved state event along.1 initial)

/-- Steps that keep an invariant and meet a further condition. -/
theorem along_invariant {other : State → Event → Prop}
    (each : ∀ state event, allowed state event → invariant state →
      other state event ∧ invariant (step state event))
    {state : State} {events : List Event} (along : Along step allowed state events)
    (initial : invariant state) :
    Along step other state events ∧ invariant (run step state events) := by
  induction events generalizing state with
  | nil => exact ⟨trivial, initial⟩
  | cons event events continued =>
      obtain ⟨met, kept⟩ := each state event along.1 initial
      obtain ⟨rest, final⟩ := continued along.2 kept
      exact ⟨⟨met, rest⟩, final⟩

/-- Two conditions agree along runs when they do under an invariant that they keep. -/
theorem along_iff {other : State → Event → Prop}
    (preserved : ∀ state event, other state event → invariant state →
      invariant (step state event))
    (same : ∀ state event, invariant state → (allowed state event ↔ other state event))
    {state : State} {events : List Event} (initial : invariant state) :
    Along step allowed state events ↔ Along step other state events := by
  induction events generalizing state with
  | nil => exact Iff.rfl
  | cons event events continued =>
      rw [Along, Along, same state event initial]
      exact and_congr_right fun met => continued (preserved state event met initial)

/-- The invariant rule for conditions on the events alone. -/
theorem invariant_run {legal : Event → Prop}
    (preserved : ∀ state event, legal event → invariant state → invariant (step state event))
    {state : State} {events : List Event} (every : ∀ event ∈ events, legal event)
    (initial : invariant state) : invariant (run step state events) := by
  induction events generalizing state with
  | nil => exact initial
  | cons event events continued =>
      rw [run_cons]
      exact continued (fun later member => every later (List.mem_cons_of_mem _ member))
        (preserved state event (every event List.mem_cons_self) initial)

/-! ## Logs -/

section Logs

variable {α : Type*} {justified : List α → α → Prop}

/-- Every entry of the log is justified by the entries before it. -/
def Logged (justified : List α → α → Prop) (log : List α) : Prop :=
  Along (fun earlier entry => earlier ++ [entry]) justified [] log

theorem run_concat (log entries : List α) :
    run (fun earlier entry => earlier ++ [entry]) log entries = log ++ entries := by
  induction entries generalizing log with
  | nil => simp
  | cons entry entries continued => simp [continued]

theorem logged_nil : Logged justified [] := trivial

theorem logged_append {log entries : List α} :
    Logged justified (log ++ entries) ↔ Logged justified log ∧
      Along (fun earlier entry => earlier ++ [entry]) justified log entries := by
  rw [Logged, along_append, run_concat, List.nil_append]
  rfl

theorem logged_concat {log : List α} {entry : α} :
    Logged justified (log ++ [entry]) ↔ Logged justified log ∧ justified log entry := by
  rw [logged_append, Along, Along, and_true]

/-- Entries that do not bear on each other are justified together. -/
theorem along_together {log entries : List α}
    (apart : ∀ earlier, ∀ added ∈ entries, ∀ entry ∈ entries,
      (justified (earlier ++ [added]) entry ↔ justified earlier entry)) :
    Along (fun earlier entry => earlier ++ [entry]) justified log entries ↔
      ∀ entry ∈ entries, justified log entry := by
  induction entries generalizing log with
  | nil => simp [Along]
  | cons head entries continued =>
      have rest : Along (fun earlier entry => earlier ++ [entry]) justified (log ++ [head]) entries ↔
          ∀ entry ∈ entries, justified (log ++ [head]) entry :=
        continued fun earlier added member entry listed =>
          apart earlier added (List.mem_cons_of_mem _ member) entry (List.mem_cons_of_mem _ listed)
      have same : (∀ entry ∈ entries, justified (log ++ [head]) entry) ↔
          ∀ entry ∈ entries, justified log entry :=
        forall₂_congr fun entry listed =>
          apart log head List.mem_cons_self entry (List.mem_cons_of_mem _ listed)
      rw [Along, rest, same, List.forall_mem_cons]

end Logs

/-! ## Steps that may be undefined -/

section Partial

/-- A run that ends where a step is undefined. -/
def runPartial (step : State → Event → Option State) (state : State) (events : List Event) :
    Option State :=
  events.foldlM step state

def AlongPartial (step : State → Event → Option State) (allowed : State → Event → Prop) :
    State → List Event → Prop
  | _, [] => True
  | state, event :: events =>
      allowed state event ∧ ∀ next ∈ step state event, AlongPartial step allowed next events

instance decidableAlongPartial (step : State → Event → Option State)
    (allowed : State → Event → Prop)
    [decidableStep : ∀ state event, Decidable (allowed state event)] :
    ∀ state events, Decidable (AlongPartial step allowed state events)
  | _, [] => inferInstanceAs (Decidable True)
  | state, event :: events =>
      have : ∀ next, Decidable (AlongPartial step allowed next events) :=
        fun next => decidableAlongPartial step allowed next events
      inferInstanceAs (Decidable (allowed state event ∧ ∀ next ∈ step state event, _))

variable {step : State → Event → Option State}

theorem runPartial_append (state : State) (first second : List Event) :
    runPartial step state (first ++ second) =
      (runPartial step state first).bind fun middle => runPartial step middle second :=
  List.foldlM_append

theorem AlongPartial.earlier {state : State} {first second : List Event}
    (along : AlongPartial step allowed state (first ++ second)) :
    AlongPartial step allowed state first := by
  induction first generalizing state with
  | nil => trivial
  | cons event first continued =>
      exact ⟨along.1, fun next stepped => continued (along.2 next stepped)⟩

/-- The invariant rule for runs with undefined steps. -/
theorem invariant_partial
    (preserved : ∀ state event next, allowed state event → step state event = some next →
      invariant state → invariant next)
    {state final : State} {events : List Event} (along : AlongPartial step allowed state events)
    (reached : runPartial step state events = some final) (initial : invariant state) :
    invariant final := by
  induction events generalizing state with
  | nil =>
      cases reached
      exact initial
  | cons event events continued =>
      rw [runPartial, List.foldlM_cons] at reached
      cases stepped : step state event with
      | none =>
          rw [stepped] at reached
          cases reached
      | some next =>
          rw [stepped] at reached
          exact continued (along.2 next stepped) reached
            (preserved state event next along.1 stepped initial)

/-- Under an invariant, a property that each step keeps exactly when it is allowed holds at the
end of a run exactly when it held at the start and every step was allowed. -/
theorem iff_alongPartial {holds : State → Prop}
    (preserved : ∀ state event next, step state event = some next → invariant state →
      invariant next)
    (each : ∀ state event next, invariant state → step state event = some next →
      (holds next ↔ holds state ∧ allowed state event))
    {state final : State} {events : List Event} (initial : invariant state)
    (reached : runPartial step state events = some final) :
    holds final ↔ holds state ∧ AlongPartial step allowed state events := by
  induction events generalizing state with
  | nil =>
      cases reached
      simp [AlongPartial]
  | cons event events continued =>
      rw [runPartial, List.foldlM_cons] at reached
      obtain ⟨next, stepped, rest⟩ := Option.bind_eq_some_iff.mp reached
      rw [continued (preserved state event next stepped initial) rest,
        each state event next initial stepped, AlongPartial, stepped]
      simp [and_assoc]

theorem alongPartial_of_forall (every : ∀ state event, allowed state event) (state : State)
    (events : List Event) : AlongPartial step allowed state events := by
  induction events generalizing state with
  | nil => trivial
  | cons event events continued => exact ⟨every state event, fun next _ => continued next⟩

end Partial

end Run
