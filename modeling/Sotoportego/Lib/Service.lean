import Sotoportego.Lib.Run

/-!
# Services that answer alike

A service answers each call and goes on to another state. Two of them answer alike when a
relation between their states gives equal answers to every call and is kept by it.
-/

set_option autoImplicit false

namespace Service

variable {Call Answer Left Right : Type*}

/-- The answers to calls that are made one after the other. -/
def answers (serve : Left → Call → Answer × Left) : Left → List Call → List Answer
  | _, [] => []
  | state, call :: calls => (serve state call).1 :: answers serve (serve state call).2 calls

/-- The state after them. -/
def after (serve : Left → Call → Answer × Left) (state : Left) (calls : List Call) : Left :=
  Run.run (fun state call => (serve state call).2) state calls

/-- Equal answers, and states that are still related. -/
def Alike (related : Left → Right → Prop) (left : Answer × Left) (right : Answer × Right) : Prop :=
  left.1 = right.1 ∧ related left.2 right.2

theorem alike_answers {left : Left → Call → Answer × Left} {right : Right → Call → Answer × Right}
    {related : Left → Right → Prop} {allowed : Left → Call → Prop}
    (each : ∀ first second call, allowed first call → related first second →
      Alike related (left first call) (right second call))
    {first : Left} {second : Right} {calls : List Call}
    (along : Run.Along (fun state call => (left state call).2) allowed first calls)
    (start : related first second) :
    answers left first calls = answers right second calls ∧
      related (after left first calls) (after right second calls) := by
  induction calls generalizing first second with
  | nil => exact ⟨rfl, start⟩
  | cons call calls continued =>
      obtain ⟨same, onward⟩ := each first second call along.1 start
      obtain ⟨later, last⟩ := continued along.2 onward
      refine ⟨?_, last⟩
      rw [answers, answers, same, later]

end Service
