import Mathlib.Data.List.DropRight
import Sotoportego.Tailscale.DerpReaderProperties

/-!
# Delays between reconnects

What the backoff returns while attempts fail, and what the reader thread makes of it.
-/

set_option autoImplicit false

namespace Sotoportego.Tailscale

open Octets CText Deliveries

namespace ReconnectBackoff

/-- What `init` establishes and every call keeps. -/
structure Proper (backoff : ReconnectBackoff) : Prop where
  positive : 0 < backoff.minDelay
  bounded : backoff.maxDelay < 2 ^ 62
  low : backoff.minDelay ≤ backoff.current
  high : backoff.current ≤ backoff.maxDelay

/-- What consecutive calls with these times return. -/
def delays (backoff : ReconnectBackoff) : List Int → List Int
  | [] => []
  | lasted :: times =>
      (backoff.nextDelay true lasted).1 :: delays (backoff.nextDelay true lasted).2 times

/-- From the third delay on each is at least twice the one before, up to the cap. -/
structure Grows (cap : Int) (delays : List Int) : Prop where
  ascending : delays.Pairwise (· ≤ ·)
  doubling : delays.tail.IsChain fun previous next => min cap (2 * previous) ≤ next

section NextDelay

variable {backoff : ReconnectBackoff} {lasted : Int}

theorem nextDelay_healthy (long : backoff.healthyThreshold ≤ lasted) :
    backoff.nextDelay true lasted =
      (backoff.minDelay, { backoff with current := backoff.minDelay }) := by
  rw [nextDelay, if_pos ⟨rfl, long⟩]

/-- A call after a session that was not long. -/
theorem nextDelay_failed (proper : backoff.Proper) {established : Bool}
    (failed : ¬(established = true ∧ backoff.healthyThreshold ≤ lasted)) :
    backoff.nextDelay established lasted =
      (backoff.current,
        { backoff with current := min backoff.maxDelay (2 * backoff.current) }) := by
  obtain ⟨positive, bounded, low, high⟩ := proper
  have fits : (backoff.current * 2).bmod (2 ^ 64) = 2 * backoff.current := by
    rw [Int.bmod_eq_of_le_mul_two, Int.mul_comm]
    · norm_num
      omega
    · norm_num
      omega
  rw [nextDelay, if_neg failed, fits]
  dsimp only
  split
  next less => rw [min_eq_left (Int.le_of_lt less)]
  next more => rw [min_eq_right (Int.not_lt.mp more)]

theorem nextDelay_unhealthy (proper : backoff.Proper) (short : lasted < backoff.healthyThreshold) :
    backoff.nextDelay true lasted =
      (backoff.current,
        { backoff with current := min backoff.maxDelay (2 * backoff.current) }) :=
  nextDelay_failed proper fun long => Int.not_le.mpr short long.2

theorem Proper.nextDelay (proper : backoff.Proper) (lasted : Int) :
    (backoff.nextDelay true lasted).2.Proper := by
  cases Int.lt_or_le lasted backoff.healthyThreshold with
  | inl short =>
      rw [nextDelay_unhealthy proper short]
      obtain ⟨positive, bounded, low, high⟩ := proper
      exact ⟨positive, bounded, by dsimp only; omega, min_le_left _ _⟩
  | inr long =>
      rw [nextDelay_healthy long]
      exact ⟨proper.positive, proper.bounded, Int.le_refl _, proper.low.trans proper.high⟩

theorem nextDelay_kept (lasted : Int) :
    (backoff.nextDelay true lasted).2.minDelay = backoff.minDelay ∧
      (backoff.nextDelay true lasted).2.maxDelay = backoff.maxDelay ∧
      (backoff.nextDelay true lasted).2.healthyThreshold = backoff.healthyThreshold := by
  rw [ReconnectBackoff.nextDelay]
  split
  next => exact ⟨rfl, rfl, rfl⟩
  next => exact ⟨rfl, rfl, rfl⟩

/-- The delay of a call is no more than the current one after it. -/
theorem nextDelay_le_current (proper : backoff.Proper) (lasted : Int) :
    (backoff.nextDelay true lasted).1 ≤ (backoff.nextDelay true lasted).2.current := by
  cases Int.lt_or_le lasted backoff.healthyThreshold with
  | inl short =>
      rw [nextDelay_unhealthy proper short]
      obtain ⟨positive, -, low, high⟩ := proper
      dsimp only
      omega
  | inr long =>
      rw [nextDelay_healthy long]

end NextDelay

/-! ## Runs of calls -/

theorem head_delays {backoff : ReconnectBackoff} (proper : backoff.Proper) {times : List Int}
    (short : ∀ lasted ∈ times, lasted < backoff.healthyThreshold) :
    ∀ delay ∈ (backoff.delays times).head?, delay = backoff.current := by
  intro delay first
  cases times with
  | nil => cases first
  | cons lasted times =>
      rw [delays, nextDelay_unhealthy proper (short lasted List.mem_cons_self)] at first
      cases first
      rfl

/-- While no session was long, the delays double. -/
theorem delays_unhealthy {times : List Int} {backoff : ReconnectBackoff} (proper : backoff.Proper)
    (short : ∀ lasted ∈ times, lasted < backoff.healthyThreshold) :
    (backoff.delays times).IsChain fun previous next =>
      previous ≤ next ∧ min backoff.maxDelay (2 * previous) ≤ next := by
  induction times generalizing backoff with
  | nil => exact .nil
  | cons lasted times continued =>
      have here := nextDelay_unhealthy proper (short lasted List.mem_cons_self)
      have onward := proper.nextDelay lasted
      have later : ∀ other ∈ times, other < (backoff.nextDelay true lasted).2.healthyThreshold := by
        intro other member
        rw [(nextDelay_kept lasted).2.2]
        exact short other (List.mem_cons_of_mem _ member)
      have rest := continued onward later
      rw [(nextDelay_kept lasted).2.1] at rest
      rw [delays, List.isChain_cons]
      refine ⟨fun next first => ?_, rest⟩
      rw [head_delays onward later next first, here]
      obtain ⟨positive, -, low, high⟩ := proper
      dsimp only
      omega

theorem grows_of_tail {backoff : ReconnectBackoff} (proper : backoff.Proper) {times : List Int}
    (short : ∀ lasted ∈ times.tail, lasted < backoff.healthyThreshold) :
    Grows backoff.maxDelay (backoff.delays times) := by
  cases times with
  | nil => exact ⟨.nil, .nil⟩
  | cons lasted times =>
      have onward := proper.nextDelay lasted
      have later : ∀ other ∈ times, other < (backoff.nextDelay true lasted).2.healthyThreshold := by
        rw [(nextDelay_kept lasted).2.2]
        exact short
      have rest := delays_unhealthy onward later
      rw [(nextDelay_kept lasted).2.1] at rest
      constructor
      · rw [← List.isChain_iff_pairwise, delays, List.isChain_cons]
        refine ⟨fun next first => ?_, rest.imp fun _ _ both => both.1⟩
        rw [head_delays onward later next first]
        exact nextDelay_le_current proper lasted
      · exact rest.imp fun _ _ both => both.2

theorem low_delays {times : List Int} {backoff : ReconnectBackoff} (proper : backoff.Proper) :
    ∀ delay ∈ backoff.delays times, backoff.minDelay ≤ delay := by
  induction times generalizing backoff with
  | nil =>
      intro delay member
      cases member
  | cons lasted times continued =>
      intro delay member
      rw [delays] at member
      cases List.mem_cons.mp member with
      | inl here =>
          rw [here, nextDelay]
          split
          next => exact Int.le_refl _
          next => exact proper.low
      | inr later =>
          have low := continued (proper.nextDelay lasted) delay later
          rw [(nextDelay_kept lasted).1] at low
          exact low

/-- A long session in the middle returns the least delay, which is no double. -/
theorem unhealthy_of_doubling {times : List Int} {lasted : Int} {backoff : ReconnectBackoff}
    (proper : backoff.Proper) (spread : 2 * backoff.minDelay ≤ backoff.maxDelay)
    (doubling : (backoff.delays (lasted :: times)).IsChain fun previous next =>
      min backoff.maxDelay (2 * previous) ≤ next) :
    ∀ other ∈ times, other < backoff.healthyThreshold := by
  induction times generalizing backoff lasted with
  | nil =>
      intro other member
      cases member
  | cons next times continued =>
      obtain ⟨low, high, same⟩ := @nextDelay_kept backoff lasted
      have onward := proper.nextDelay lasted
      rw [delays, delays, List.isChain_cons_cons] at doubling
      obtain ⟨first, rest⟩ := doubling
      rw [← high] at rest
      have later := continued onward (by rw [low, high]; exact spread) rest
      rw [same] at later
      refine List.forall_mem_cons.mpr ⟨?_, later⟩
      by_contra long
      have listed : (backoff.nextDelay true lasted).1 ∈ backoff.delays [lasted] := List.mem_cons_self
      have least := low_delays proper _ listed
      have reset := nextDelay_healthy (same.trans_le (Int.not_lt.mp long))
      rw [reset, low] at first
      have positive := proper.positive
      dsimp only at first
      omega

theorem grows_iff {backoff : ReconnectBackoff} (proper : backoff.Proper)
    (spread : 2 * backoff.minDelay ≤ backoff.maxDelay) (times : List Int) :
    Grows backoff.maxDelay (backoff.delays times) ↔
      (∀ lasted ∈ times.tail, lasted < backoff.healthyThreshold) ∨
        times.length = 2 ∧ ((∃ lasted ∈ times.head?, backoff.healthyThreshold ≤ lasted) ∨
          backoff.current = backoff.minDelay) := by
  constructor
  · rintro ⟨ascending, doubling⟩
    cases times with
    | nil => exact .inl fun lasted member => (List.not_mem_nil member).elim
    | cons first times =>
        obtain ⟨low, high, same⟩ := @nextDelay_kept backoff first
        cases times with
        | nil => exact .inl fun lasted member => (List.not_mem_nil member).elim
        | cons second times =>
            cases times with
            | nil =>
                by_cases short : second < backoff.healthyThreshold
                · exact .inl fun lasted member => List.mem_singleton.mp member ▸ short
                · refine .inr ⟨rfl, ?_⟩
                  have reset := nextDelay_healthy (same.trans_le (Int.not_lt.mp short))
                  have step := List.rel_of_pairwise_cons ascending List.mem_cons_self
                  rw [reset, low] at step
                  by_cases long : backoff.healthyThreshold ≤ first
                  · exact .inl ⟨first, rfl, long⟩
                  · rw [nextDelay_unhealthy proper (Int.not_le.mp long)] at step
                    exact .inr (Int.le_antisymm step proper.low)
            | cons third times =>
                have onward := proper.nextDelay first
                rw [delays, List.tail_cons, ← high] at doubling
                have later := unhealthy_of_doubling onward (by rw [low, high]; exact spread) doubling
                rw [same] at later
                refine .inl (List.forall_mem_cons.mpr ⟨?_, later⟩)
                -- A reset at the second delay is still there at the third.
                by_contra long
                have reset := nextDelay_healthy (same.trans_le (Int.not_lt.mp long))
                rw [delays, delays, List.isChain_cons_cons, reset] at doubling
                have least := doubling.1
                have fresh := onward.nextDelay second
                rw [reset] at fresh
                have short : third < (backoff.nextDelay true first).2.healthyThreshold :=
                  same ▸ later third List.mem_cons_self
                rw [nextDelay_unhealthy fresh short, low, high] at least
                have positive := proper.positive
                dsimp only at least
                omega
  · rintro (short | ⟨pair, reset⟩)
    · exact grows_of_tail proper short
    · obtain ⟨first, second, rfl⟩ := List.length_eq_two.mp pair
      by_cases short : second < backoff.healthyThreshold
      · exact grows_of_tail proper fun lasted member => List.mem_singleton.mp member ▸ short
      · obtain ⟨low, -, same⟩ := @nextDelay_kept backoff first
        have last := nextDelay_healthy (same.trans_le (Int.not_lt.mp short))
        have least : (backoff.nextDelay true first).1 = backoff.minDelay := by
          by_cases long : backoff.healthyThreshold ≤ first
          · rw [nextDelay_healthy long]
          · rw [nextDelay_unhealthy proper (Int.not_le.mp long)]
            rcases reset with ⟨lasted, here, healthy⟩ | current
            · cases here
              exact (long healthy).elim
            · exact current
        have both : backoff.delays [first, second] = [backoff.minDelay, backoff.minDelay] := by
          rw [delays, delays, delays, last, least, low]
        rw [both]
        exact ⟨by simp, .singleton _⟩

/-! ## Any history of calls -/

inductive Call where
  | nextDelay (established : Bool) (lasted : Int)
  | reset

/-- The state after a call. -/
def call (backoff : ReconnectBackoff) : Call → ReconnectBackoff
  | .nextDelay established lasted => (backoff.nextDelay established lasted).2
  | .reset => backoff.reset

/-- A call that reports a session that did not come up or was short. -/
def Call.unhealthy (healthyThreshold : Int) : Call → Bool
  | .nextDelay established lasted => !(established && decide (healthyThreshold ≤ lasted))
  | .reset => false

/-- The unhealthy calls since the last reset. -/
def failures (healthyThreshold : Int) (calls : List Call) : Nat :=
  (calls.rtakeWhile (Call.unhealthy healthyThreshold)).length

theorem failures_concat (healthyThreshold : Int) (calls : List Call) (last : Call) :
    failures healthyThreshold (calls ++ [last]) =
      if last.unhealthy healthyThreshold = true then failures healthyThreshold calls + 1 else 0 := by
  rw [failures, List.rtakeWhile_concat]
  split
  · rw [List.length_append]
    rfl
  · rfl

/-- A backoff of these bounds after that many unhealthy calls. -/
structure After (low high threshold : Int) (count : Nat) (backoff : ReconnectBackoff) : Prop where
  minDelay : backoff.minDelay = low
  maxDelay : backoff.maxDelay = high
  healthyThreshold : backoff.healthyThreshold = threshold
  current : backoff.current = min (low * 2 ^ count) high

section After

variable {low high threshold : Int}

theorem After.proper {count : Nat} {backoff : ReconnectBackoff} (positive : 1 ≤ low)
    (spread : low ≤ high) (bounded : high < 2 ^ 62) (after : After low high threshold count backoff) :
    backoff.Proper := by
  have grown : low ≤ low * 2 ^ count :=
    le_mul_of_one_le_right (by omega) (one_le_pow₀ (by decide))
  obtain ⟨sameLow, sameHigh, -, current⟩ := after
  refine ⟨?_, ?_, ?_, ?_⟩
  · omega
  · omega
  · rw [sameLow, current]
    exact le_min grown spread
  · rw [sameHigh, current]
    exact min_le_right _ _

/-- One more doubling. -/
theorem min_double (count : Nat) (high : Int) (positive : 0 < high) :
    min high (2 * min (low * 2 ^ count) high) = min (low * 2 ^ (count + 1)) high := by
  rw [pow_succ, ← mul_assoc]
  omega

theorem After.call {calls : List Call} {backoff : ReconnectBackoff} (positive : 1 ≤ low)
    (spread : low ≤ high) (bounded : high < 2 ^ 62)
    (after : After low high threshold (failures threshold calls) backoff) (last : Call) :
    After low high threshold (failures threshold (calls ++ [last])) (backoff.call last) := by
  have proper := after.proper positive spread bounded
  obtain ⟨sameLow, sameHigh, same, current⟩ := after
  have least : low = min (low * 2 ^ 0) high := by
    rw [pow_zero, mul_one, min_eq_left spread]
  rw [failures_concat]
  cases last with
  | reset => exact ⟨sameLow, sameHigh, same, sameLow.trans least⟩
  | nextDelay established lasted =>
      by_cases healthy : established = true ∧ threshold ≤ lasted
      · obtain ⟨rfl, long⟩ := healthy
        have quiet : (Call.nextDelay true lasted).unhealthy threshold = false := by
          simp [Call.unhealthy, long]
        rw [quiet, if_neg Bool.false_ne_true, ReconnectBackoff.call,
          nextDelay_healthy (same.trans_le long)]
        exact ⟨sameLow, sameHigh, same, sameLow.trans least⟩
      · have counted : (Call.nextDelay established lasted).unhealthy threshold = true := by
          rw [Call.unhealthy, Bool.not_eq_true', Bool.and_eq_false_iff, decide_eq_false_iff_not,
            ← Bool.not_eq_true]
          exact not_and_or.mp healthy
        rw [counted, if_pos rfl, ReconnectBackoff.call,
          nextDelay_failed proper (by rw [same]; exact healthy)]
        refine ⟨sameLow, sameHigh, same, ?_⟩
        dsimp only
        rw [sameHigh, current]
        exact min_double _ high (by omega)

theorem after_run (positive : 1 ≤ low) (spread : low ≤ high) (bounded : high < 2 ^ 62)
    (calls : List Call) :
    After low high threshold (failures threshold calls)
      (Run.run ReconnectBackoff.call (init low high threshold) calls) := by
  induction calls using List.reverseRecOn with
  | nil =>
      have started : (init low high threshold).current = low := if_pos (by omega)
      refine ⟨started, if_pos spread, rfl, started.trans ?_⟩
      rw [failures, List.rtakeWhile_nil, List.length_nil, pow_zero, mul_one, min_eq_left spread]
  | append_singleton calls last continued =>
      rw [Run.run_append]
      exact continued.call positive spread bounded last

/-- After any calls, an unhealthy one returns the least delay doubled once for each unhealthy
    call since the last reset, up to the cap; a healthy one returns the least delay. -/
theorem delay_closed_form (positive : 1 ≤ low) (spread : low ≤ high) (bounded : high < 2 ^ 62)
    (calls : List Call) (established : Bool) (lasted : Int) :
    let delay := ((Run.run ReconnectBackoff.call (init low high threshold) calls).nextDelay
      established lasted).1
    (established = false ∨ lasted < threshold →
        delay = min (low * 2 ^ failures threshold calls) high) ∧
      (established = true ∧ threshold ≤ lasted → delay = low) ∧ low ≤ delay ∧ delay ≤ high := by
  intro delay
  have after := @after_run low high threshold positive spread bounded calls
  have proper := after.proper positive spread bounded
  have failed (short : ¬(established = true ∧ threshold ≤ lasted)) :
      delay = min (low * 2 ^ failures threshold calls) high := by
    simp only [delay]
    rw [nextDelay_failed proper (by rw [after.healthyThreshold]; exact short)]
    exact after.current
  have healthy (long : established = true ∧ threshold ≤ lasted) : delay = low := by
    simp only [delay]
    rw [nextDelay, if_pos (by rw [after.healthyThreshold]; exact long)]
    exact after.minDelay
  refine ⟨?_, healthy, ?_⟩
  · rintro (down | short)
    · exact failed fun long => Bool.false_ne_true (down.symm.trans long.1)
    · exact failed fun long => Int.not_le.mpr short long.2
  by_cases long : established = true ∧ threshold ≤ lasted
  · rw [healthy long]
    exact ⟨Int.le_refl _, spread⟩
  · rw [failed long, ← after.current]
    exact ⟨after.minDelay.symm.trans_le proper.low, proper.high.trans_eq after.maxDelay⟩

/-- The third attempt in a row that fails. -/
theorem delay_closed_form_third :
    ((Run.run ReconnectBackoff.call (init 1000000 30000000 30000000)
      [.nextDelay true 40000000, .nextDelay false 0, .nextDelay true 5]).nextDelay false 0).1 =
        min (1000000 * 2 ^ 2) 30000000 :=
  (@delay_closed_form 1000000 30000000 30000000 (by decide) (by decide) (by decide)
    [.nextDelay true 40000000, .nextDelay false 0, .nextDelay true 5] false 0).1 (.inl rfl)

end After

end ReconnectBackoff

namespace DerpReader

open Run

/-- The thread is not asked to stop and the TLS connection does not come up. -/
structure Unreachable (turn : Turn) : Prop where
  atTop : turn.stopAtTop = false
  afterDrop : turn.stopAfterDrop = false
  slept : turn.slept = true
  dial : ∃ status message, status ≠ .ok ∧ turn.dial = .error (status, message)

/-- A session that is closed or at its end, and an empty buffer. -/
theorem recvPacket_ended (cap : Nat) {client : DerpClient} (ended : client.tls.getD [] = [])
    (empty : client.live = []) : (client.recvPacket cap).1 = .failed := by
  have ended : (client.fillLoop 5).1 = .ioError := by
    rw [DerpClient.fillLoop, if_neg (by rw [empty]; decide)]
    split
    next answered =>
      have waits := (DerpClient.tlsRead_pause answered).2
      rw [DerpClient.tls_compact, ended] at waits
      cases waits
    next answered =>
      have brought := (DerpClient.tlsRead_bytes answered).1
      rw [DerpClient.ahead, DerpClient.ahead, DerpClient.tls_compact, ended] at brought
      cases brought
    next => rfl
  cases filled : client.fillLoop 5 with
  | mk status next =>
      rw [filled] at ended
      cases ended
      rw [DerpClient.recvPacket, DerpClient.readFrame, DerpClient.readRaw, DerpClient.fill,
        if_neg (by decide), filled]

section Stretch

variable {relay : DerpRelay} {reader : DerpReader} {turn : Turn}

theorem step_unreachable (named : relay.host ≠ .empty) (running : reader.running = true)
    (failed : (reader.derp.recvPacket 2048).1 = .failed) (unreachable : Unreachable turn) :
    let next := reader.step relay turn
    let waited := reader.backoff.nextDelay true (turn.droppedAt - reader.connectedAt)
    next.running = true ∧ (next.derp.recvPacket 2048).1 = .failed ∧
      next.connectedAt = reader.connectedAt ∧ next.backoff = waited.2 ∧
      next.delays = reader.delays ++ [waited.1] := by
  intro next waited
  obtain ⟨status, message, bad, dial⟩ := unreachable.dial
  cases got : reader.derp.recvPacket 2048 with
  | mk received derp =>
      rw [got] at failed
      cases failed
      have stepped : next = { reader with
          derp := ({ derp.close with
            nodePriv := relay.nodePriv, nodePub := relay.nodePub, bufOff := 0, live := [] }).fail
              (ascii "DERP TLS connect failed: " ++ message)
          derpUp := false
          returned := reader.returned ++ [-1]
          backoff := waited.2
          delays := reader.delays ++ [waited.1] } := by
        simp only [next]
        rw [step_received running unreachable.atTop got, react, dropped, unreachable.afterDrop,
          unreachable.slept]
        simp only [Bool.false_eq_true, if_false, if_true, derpMarkDown, derpReconnect, if_neg named,
          DerpClient.connect, dial]
        cases status with
        | ok => exact (bad rfl).elim
        | _ => rfl
      rw [stepped]
      exact ⟨running, recvPacket_ended 2048 rfl rfl, rfl, rfl, rfl⟩

theorem run_unreachable (named : relay.host ≠ .empty) {stretch : List Turn}
    (every : ∀ turn ∈ stretch, Unreachable turn) :
    ∀ {reader : DerpReader}, reader.running = true →
      (reader.derp.recvPacket 2048).1 = .failed →
      (run (step relay) reader stretch).delays =
        reader.delays ++
          reader.backoff.delays (stretch.map fun turn => turn.droppedAt - reader.connectedAt) := by
  induction stretch with
  | nil =>
      intro reader _ _
      exact (List.append_nil _).symm
  | cons turn stretch continued =>
      intro reader running failed
      obtain ⟨still, again, since, backoff, delays⟩ :=
        step_unreachable named running failed (every turn List.mem_cons_self)
      have later := continued (fun other member => every other (List.mem_cons_of_mem _ member))
        still again
      rw [since, backoff, delays, List.append_assoc] at later
      exact later

end Stretch

/-- The backoff of the loop, whatever has happened. -/
structure Sound (reader : DerpReader) : Prop where
  proper : reader.backoff.Proper
  minDelay : reader.backoff.minDelay = 1000000
  maxDelay : reader.backoff.maxDelay = 30000000
  healthyThreshold : reader.backoff.healthyThreshold = 30000000

theorem Sound.dropped {relay : DerpRelay} {reader : DerpReader} (sound : Sound reader)
    (turn : Turn) : Sound (reader.dropped relay turn) := by
  rcases dropped_cases relay turn reader with stopped | ⟨_, _, _, _, waited⟩
  · rw [stopped]
    exact ⟨sound.proper, sound.minDelay, sound.maxDelay, sound.healthyThreshold⟩
  · rw [waited]
    obtain ⟨low, high, same⟩ :=
      @ReconnectBackoff.nextDelay_kept reader.backoff (turn.droppedAt - reader.connectedAt)
    exact ⟨sound.proper.nextDelay _, low.trans sound.minDelay, high.trans sound.maxDelay,
      same.trans sound.healthyThreshold⟩

theorem Sound.step {relay : DerpRelay} {reader : DerpReader} (turn : Turn) (sound : Sound reader) :
    Sound (reader.step relay turn) := by
  rw [DerpReader.step]
  split_ifs
  · exact ⟨sound.proper, sound.minDelay, sound.maxDelay, sound.healthyThreshold⟩
  · cases reader.derp.recvPacket 2048 with
    | mk received derp =>
        have kept : Sound { reader with
            derp, returned := reader.returned ++ [received.value] } :=
          ⟨sound.proper, sound.minDelay, sound.maxDelay, sound.healthyThreshold⟩
        cases received with
        | failed => exact kept.dropped turn
        | control => exact kept
        | packet src out =>
            dsimp only
            rw [react]
            split
            next => exact ⟨kept.proper, kept.minDelay, kept.maxDelay, kept.healthyThreshold⟩
            next => exact kept
  · exact sound

theorem sound_run (relay : DerpRelay) (derp : DerpClient) (connectedAt : Int) (turns : List Turn) :
    Sound (run (step relay) { derp, connectedAt } turns) := by
  have proper : (ReconnectBackoff.init 1000000 30000000 30000000).Proper :=
    ⟨by decide, by decide, by decide, by decide⟩
  have start : Sound { derp, connectedAt } := ⟨proper, rfl, rfl, rfl⟩
  exact invariant_run (fun reader turn _ sound => Sound.step turn sound)
    (fun _ _ => trivial) start

theorem delays_grow_iff (relay : DerpRelay) (named : relay.host ≠ .empty) (derp : DerpClient)
    (started : Int) (earlier stretch : List Turn) :
    let reader := run (step relay) { derp, connectedAt := started } earlier
    reader.running = true → (reader.derp.recvPacket 2048).1 = .failed →
    (∀ turn ∈ stretch, Unreachable turn) →
    (ReconnectBackoff.Grows 30000000
        ((run (step relay) reader stretch).delays.drop reader.delays.length) ↔
      (∀ turn ∈ stretch.tail, turn.droppedAt - reader.connectedAt < 30000000) ∨
        stretch.length = 2 ∧
          ((∃ turn ∈ stretch.head?, 30000000 ≤ turn.droppedAt - reader.connectedAt) ∨
            reader.backoff.current = 1000000)) := by
  intro reader running failed every
  have sound : Sound reader := sound_run relay derp started earlier
  have spread : 2 * reader.backoff.minDelay ≤ reader.backoff.maxDelay := by
    rw [sound.minDelay, sound.maxDelay]
    decide
  have grows := ReconnectBackoff.grows_iff sound.proper spread
    (stretch.map fun turn => turn.droppedAt - reader.connectedAt)
  rw [sound.minDelay, sound.maxDelay, sound.healthyThreshold, ← List.map_tail, List.forall_mem_map,
    List.length_map, List.head?_map] at grows
  simp only [Option.mem_map, exists_exists_and_eq_and] at grows
  rw [run_unreachable named every running failed, List.drop_left]
  exact grows

/-! A relay that was up for an hour, and three attempts to reach it again. -/

namespace Sample

def outage : List Turn :=
  [unreachable 3600000000, unreachable 3601100000, unreachable 3602200000]

theorem outage_unreachable : ∀ turn ∈ outage, Unreachable turn := by
  intro turn member
  simp only [outage, List.mem_cons, List.not_mem_nil, or_false] at member
  rcases member with rfl | rfl | rfl
  · exact ⟨rfl, rfl, rfl, _, _, by decide, rfl⟩
  · exact ⟨rfl, rfl, rfl, _, _, by decide, rfl⟩
  · exact ⟨rfl, rfl, rfl, _, _, by decide, rfl⟩

theorem reader_dropped : ((reader []).derp.recvPacket 2048).1 = .failed :=
  recvPacket_ended 2048 rfl rfl

end Sample

theorem delays_grow_iff_sample :
    ReconnectBackoff.Grows 30000000
        ((run (step Sample.derp1) (Sample.reader []) Sample.outage).delays.drop 0) ↔
      (∀ turn ∈ Sample.outage.tail, turn.droppedAt - 0 < 30000000) ∨
        Sample.outage.length = 2 ∧
          ((∃ turn ∈ Sample.outage.head?, 30000000 ≤ turn.droppedAt - 0) ∨
            (Sample.reader []).backoff.current = 1000000) :=
  delays_grow_iff Sample.derp1 (by decide) (Sample.reader []).derp 0 [] Sample.outage rfl
    Sample.reader_dropped Sample.outage_unreachable

theorem outage_never_backs_off :
    ¬ ReconnectBackoff.Grows 30000000
      (run (step Sample.derp1) (Sample.reader []) Sample.outage).delays := by
  have delays : (run (step Sample.derp1) (Sample.reader []) Sample.outage).delays =
      [1000000, 1000000, 1000000] := by
    rw [run_unreachable (by decide) Sample.outage_unreachable rfl Sample.reader_dropped]
    decide
  rw [delays]
  rintro ⟨-, doubling⟩
  exact absurd (List.isChain_cons_cons.mp doubling).1 (by decide)

end DerpReader

end Sotoportego.Tailscale
