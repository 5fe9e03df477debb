import Sotoportego.Lib.Run
import Sotoportego.Server.Catalogue

/-!
# What the catalogue cache answers with

The cache is the list of the latest fetch, whether that has succeeded or not. It is the
list of a fresh success exactly in the runs in which no failure gets in between.
-/

set_option autoImplicit false

namespace Sotoportego.Server

open Octets

variable {Client Entry : Type}

def Download.Fails (download : Download Entry) : Prop :=
  download.ok = false ∨ download.bodyEmpty = true ∨ download.servers.isEmpty = true

instance Download.decidableFails (download : Download Entry) : Decidable download.Fails :=
  inferInstanceAs (Decidable (_ ∨ _))

/-- A fetch posts an error exactly when it fails. -/
theorem fetchThread_error_eq_none {download : Download Entry} :
    (fetchThread download).error = none ↔ ¬download.Fails := by
  unfold fetchThread Download.Fails
  split_ifs with failed unusable
  · simp only [false_iff, not_not]
    exact failed.imp_right Or.inl
  · simp only [false_iff, not_not]
    exact Or.inr (Or.inr unusable)
  · simp only [true_iff, not_or]
    exact ⟨fun refused => failed (.inl refused), fun empty => failed (.inr empty), unusable⟩

theorem countNames_pos {list : VPNGateList Entry} (failed : list.error ≠ none) :
    0 < list.countNames := by
  obtain ⟨text, present⟩ := Option.ne_none_iff_exists'.mp failed
  simp [VPNGateList.countNames, present]

namespace CatalogueHistory

variable {history : CatalogueHistory Client Entry}

def latestSuccess (history : CatalogueHistory Client Entry) : Option (Fetch Entry) :=
  history.fetches.find? fun fetch => decide fetch.Succeeded

theorem latestSuccess_eq_some {fetch : Fetch Entry} (latest : history.latestSuccess = some fetch) :
    fetch ∈ history.fetches ∧ fetch.Succeeded := by
  unfold latestSuccess at latest
  have succeeded := List.find?_some latest
  exact ⟨List.mem_of_find?_eq_some latest, of_decide_eq_true succeeded⟩

theorem latestSuccess_eq_none : history.latestSuccess = none ↔
    ∀ fetch ∈ history.fetches, ¬fetch.Succeeded := by
  simp [latestSuccess, List.find?_eq_none]

/-- What the step promises: a cached answer is the list of a fetch that has succeeded within
the last ten minutes, and a failure leaves the list of the latest success in place. -/
def Sound (history : CatalogueHistory Client Entry) : CatalogueEvent Client Entry → Prop
  | .request client force =>
      force.getD false = false → ∀ receiver list,
        .sendMessage receiver list ∈ (history.handled (.request client force)).2 →
          ∃ fetch ∈ history.fetches, fetch.Succeeded ∧ fetch.list = list ∧
            history.clock - fetch.completedAt < kCatalogueTTL
  | .fetched download =>
      download.Fails → ∀ fetch ∈ history.latestSuccess,
        (history.step (.fetched download)).catalogue.cache = fetch.list
  | .elapse _ => True

/-- No fetch fails after another has succeeded, and no request that could be answered from
the cache comes within ten minutes of a failure that is the latest fetch. -/
def Undisturbed (history : CatalogueHistory Client Entry) : CatalogueEvent Client Entry → Prop
  | .request client force =>
      client.isSome = true → force.getD false = false → ∀ fetch ∈ history.fetches.head?,
        history.clock - fetch.completedAt < kCatalogueTTL → fetch.Succeeded
  | .fetched download => download.Fails → ∀ fetch ∈ history.fetches, ¬fetch.Succeeded
  | .elapse _ => True

instance decidableUndisturbed (history : CatalogueHistory Client Entry) :
    ∀ event, Decidable (Undisturbed history event)
  | .request _ _ => inferInstanceAs (Decidable (_ → _ → ∀ fetch ∈ history.fetches.head?, _))
  | .fetched _ => inferInstanceAs (Decidable (_ → ∀ fetch ∈ history.fetches, _))
  | .elapse _ => inferInstanceAs (Decidable True)

/-- The cache and its time are those of the latest fetch. -/
structure Recorded (history : CatalogueHistory Client Entry) : Prop where
  running : 0 < history.clock
  none_yet : history.fetches = [] → history.catalogue.fetchedAt = 0
  latest : ∀ fetch ∈ history.fetches.head?, history.catalogue.cache = fetch.list ∧
    history.catalogue.fetchedAt = fetch.completedAt ∧ 0 < fetch.completedAt

theorem recorded_started {clock : Int} (running : 0 < clock) :
    Recorded (started clock : CatalogueHistory Client Entry) where
  running := running
  none_yet := fun _ => rfl
  latest := fun _ member => nomatch member

theorem cache_request (client : Option Client) (force : Option Bool) :
    (history.step (.request client force)).catalogue.cache = history.catalogue.cache ∧
      (history.step (.request client force)).catalogue.fetchedAt =
        history.catalogue.fetchedAt := by
  cases client with
  | none => exact ⟨rfl, rfl⟩
  | some client =>
      simp only [step, handled, Catalogue.handleRequestVPNGate]
      split_ifs <;> exact ⟨rfl, rfl⟩

theorem recorded_step (history : CatalogueHistory Client Entry)
    (event : CatalogueEvent Client Entry) (recorded : Recorded history) :
    Recorded (history.step event) := by
  cases event with
  | request client force =>
      obtain ⟨cache, fetchedAt⟩ := @cache_request _ _ history client force
      refine ⟨recorded.running, ?_, ?_⟩
      · rw [fetchedAt]
        exact recorded.none_yet
      · rw [cache, fetchedAt]
        exact recorded.latest
  | fetched download =>
      refine ⟨recorded.running, (fun empty => nomatch empty), ?_⟩
      intro fetch member
      cases member
      exact ⟨rfl, rfl, recorded.running⟩
  | elapse duration =>
      refine ⟨?_, recorded.none_yet, recorded.latest⟩
      have forward : history.clock ≤ history.clock + duration := by omega
      exact lt_of_lt_of_le recorded.running forward

/-- A request is answered from the cache when it is not forced and the latest fetch is less
than ten minutes old and has brought anything. -/
theorem answered_iff (recorded : Recorded history) {client : Option Client}
    {force : Option Bool} {receiver : Client} {list : VPNGateList Entry} :
    .sendMessage receiver list ∈ (history.handled (.request client force)).2 ↔
      client = some receiver ∧ force.getD false = false ∧ 0 < list.countNames ∧
        ∃ fetch ∈ history.fetches.head?, fetch.list = list ∧
          history.clock - fetch.completedAt < kCatalogueTTL := by
  cases client with
  | none => simp [handled, Catalogue.handleRequestVPNGate]
  | some client =>
      simp only [handled, Catalogue.handleRequestVPNGate]
      split_ifs with warm busy
      · obtain ⟨unforced, started, fresh, named⟩ := warm
        cases latest : history.fetches.head? with
        | none =>
            rw [recorded.none_yet (List.head?_eq_none_iff.mp latest)] at started
            exact absurd started (lt_irrefl 0)
        | some fetch =>
            obtain ⟨cache, fetchedAt, _⟩ := recorded.latest fetch latest
            rw [cache] at named ⊢
            rw [fetchedAt] at fresh
            simp only [List.mem_singleton, CatalogueAct.sendMessage.injEq, Option.some.injEq,
              Option.mem_some_iff]
            constructor
            · rintro ⟨rfl, rfl⟩
              exact ⟨rfl, unforced, named, fetch, rfl, rfl, fresh⟩
            · rintro ⟨rfl, _, _, _, rfl, same, _⟩
              exact ⟨rfl, same.symm⟩
      all_goals
        refine iff_of_false (by simp [Catalogue.kickVPNGateFetch]) ?_
        rintro ⟨_, unforced, named, fetch, member, rfl, fresh⟩
        obtain ⟨cache, fetchedAt, positive⟩ := recorded.latest fetch member
        exact warm ⟨unforced, fetchedAt ▸ positive, fetchedAt ▸ fresh, cache ▸ named⟩

/-- A request is answered as promised when the latest fetch is no recent failure. -/
theorem sound_request_iff (recorded : Recorded history) (client : Option Client)
    (force : Option Bool) :
    Sound history (.request client force) ↔ Undisturbed history (.request client force) := by
  constructor
  · intro sound valid unforced fetch member fresh
    obtain ⟨receiver, rfl⟩ := Option.isSome_iff_exists.mp valid
    by_contra failed
    have named : 0 < fetch.list.countNames := countNames_pos failed
    obtain ⟨source, _, succeeded, same, _⟩ := sound unforced receiver fetch.list
      ((answered_iff recorded).mpr ⟨rfl, unforced, named, fetch, member, rfl, fresh⟩)
    apply failed
    rw [Fetch.Succeeded, ← same]
    exact succeeded
  · intro undisturbed unforced receiver list answered
    obtain ⟨rfl, _, _, fetch, member, same, fresh⟩ := (answered_iff recorded).mp answered
    exact ⟨fetch, List.mem_of_mem_head? member, undisturbed rfl unforced fetch member fresh, same,
      fresh⟩

/-- A failure takes the place of whatever was there. -/
theorem sound_fetched_iff (download : Download Entry) :
    Sound history (.fetched download) ↔ Undisturbed history (.fetched download) := by
  constructor
  · intro sound fails
    cases latest : history.latestSuccess with
    | none => exact latestSuccess_eq_none.mp latest
    | some success =>
        have kept : fetchThread download = success.list := sound fails success latest
        have listed : success.list.error = none := (latestSuccess_eq_some latest).2
        rw [← kept] at listed
        exact absurd fails (fetchThread_error_eq_none.mp listed)
  · intro undisturbed fails fetch latest
    obtain ⟨member, succeeded⟩ := latestSuccess_eq_some latest
    exact absurd succeeded (undisturbed fails fetch member)

theorem sound_iff (history : CatalogueHistory Client Entry) (event : CatalogueEvent Client Entry)
    (recorded : Recorded history) : Sound history event ↔ Undisturbed history event := by
  cases event with
  | request client force => exact sound_request_iff recorded client force
  | fetched download => exact sound_fetched_iff download
  | elapse duration => exact Iff.rfl

/-- Every step of a run keeps the promise exactly when no failure disturbs it. -/
theorem catalogue_sound_iff {clock : Int} (running : 0 < clock)
    (events : List (CatalogueEvent Client Entry)) :
    Run.Along step Sound (started clock : CatalogueHistory Client Entry) events ↔
      Run.Along step Undisturbed (started clock : CatalogueHistory Client Entry) events :=
  Run.along_iff (fun history event _ recorded => recorded_step history event recorded) sound_iff
    (recorded_started running)

namespace Sample

def listing : Download Nat := { ok := true, servers := [1, 2] }

def refused : Download Nat := { ok := false, error := ascii "Connect to vpngate.net failed" }

/-- A failure after which nobody asks for ten minutes, a success, and an answer from the
cache. -/
def calm : List (CatalogueEvent Nat Nat) :=
  [.request (some 1) none, .fetched refused, .elapse 600000000, .request (some 1) none,
    .fetched listing, .elapse 1000, .request (some 2) none]

/-- A refresh fails while the list of a success is warm. -/
def spoiled : List (CatalogueEvent Nat Nat) :=
  [.request (some 1) none, .fetched listing, .request (some 1) (some true), .fetched refused]

end Sample

theorem catalogue_sound_iff_sample :
    Run.Along step Undisturbed (started 1 : CatalogueHistory Nat Nat) Sample.calm ∧
      Run.Along step Sound (started 1 : CatalogueHistory Nat Nat) Sample.calm := by
  have undisturbed :
      Run.Along step Undisturbed (started 1 : CatalogueHistory Nat Nat) Sample.calm := by
    decide
  exact ⟨undisturbed, (catalogue_sound_iff (by decide) Sample.calm).mpr undisturbed⟩

/-- The list is gone, and the next request is answered with the error from the cache. -/
theorem failure_served :
    ¬Run.Along step Sound (started 1 : CatalogueHistory Nat Nat) Sample.spoiled ∧
      ((Run.run step (started 1) Sample.spoiled).handled (.request (some 2) none)).2 =
        [.sendMessage 2 { error := some (ascii "Connect to vpngate.net failed") }] := by
  refine ⟨fun sound => ?_, by decide⟩
  have undisturbed := (Run.along_iff
    (fun history event _ recorded => recorded_step history event recorded) sound_iff
    (recorded_started (by decide))).mp sound
  exact absurd undisturbed (by decide)

end CatalogueHistory

end Sotoportego.Server
