import Mathlib.Data.List.Perm.Basic
import Sotoportego.Server.Registry
import Sotoportego.Server.ProfileStoreProperties
import Sotoportego.Tailscale.IdentityProperties

/-!
# Copies and subscribers last

The copy of a configuration is there as long as a profile refers to it, and what the server
writes or removes is a copy. A live subscriber is told once of everything.
-/

set_option autoImplicit false

namespace Sotoportego.Server

open Octets CText
open Tailscale (toHex)
open Tailscale.Identity (isPlain hexPair bytes_toHex)

/-! ## Hashes of names -/

section Hash

/-- A fold that loses neither the state nor the entry tells a single change apart. -/
theorem foldl_substituted {State Entry : Type} (step : State → Entry → State)
    (state : ∀ {left right entry}, step left entry = step right entry → left = right)
    (entry : ∀ {start left right}, step start left = step start right → left = right)
    {start : State} {front back : List Entry} {left right : Entry}
    (same : (front ++ left :: back).foldl step start = (front ++ right :: back).foldl step start) :
    left = right := by
  rw [List.foldl_append, List.foldl_append, List.foldl_cons, List.foldl_cons] at same
  generalize front.foldl step start = middle at same
  have met : step middle left = step middle right := by
    generalize step middle left = first, step middle right = second at same
    induction back generalizing first second with
    | nil => exact same
    | cons next back continued => exact state (continued _ _ same)
  exact entry met

/-- The prime of FNV-1a is odd. -/
theorem mul_prime_injective {left right : UInt32} (same : left * 16777619 = right * 16777619) :
    left = right := by
  have inverse : (16777619 : UInt32) * 899433627 = 1 := by decide
  calc left = left * (16777619 * 899433627) := by rw [inverse, UInt32.mul_one]
    _ = right * (16777619 * 899433627) := by rw [← UInt32.mul_assoc, same, UInt32.mul_assoc]
    _ = right := by rw [inverse, UInt32.mul_one]

theorem hashOctet_state {left right : UInt32} {octet : UInt8}
    (same : hashOctet left octet = hashOctet right octet) : left = right :=
  (UInt32.xor_left_inj _).mp (mul_prime_injective same)

theorem hashOctet_octet {hash : UInt32} {left right : UInt8}
    (same : hashOctet hash left = hashOctet hash right) : left = right := by
  have wide : left.toUInt32 = right.toUInt32 :=
    (UInt32.xor_right_inj _).mp (mul_prime_injective same)
  have value := congrArg UInt32.toNat wide
  rw [UInt8.toNat_toUInt32, UInt8.toNat_toUInt32] at value
  exact UInt8.toNat_inj.mp value

theorem nameHash_substituted {left right : CString} {front back : Bytes} {first second : UInt8}
    (one : left.bytes = front ++ first :: back) (other : right.bytes = front ++ second :: back)
    (apart : first ≠ second) : nameHash left ≠ nameHash right := by
  intro same
  unfold nameHash at same
  rw [one, other] at same
  generalize (2166136261 : UInt32) = start at same
  exact apart (foldl_substituted hashOctet hashOctet_state hashOctet_octet same)

end Hash

/-! ## Paths of copies -/

section Paths

theorem length_hex8 (value : UInt32) : (hex8 value).length = 8 := by
  rw [hex8, bytes_toHex]
  rfl

theorem hexPair_injective {left right : UInt8} (same : hexPair left = hexPair right) :
    left = right := by
  have digit : ∀ value < 16, ∀ other < 16,
      octetAt Tailscale.hexDigits value = octetAt Tailscale.hexDigits other → value = other := by
    decide
  simp only [hexPair, List.cons.injEq, and_true] at same
  have high := digit _ (by have := left.toNat_lt; omega) _ (by have := right.toNat_lt; omega) same.1
  have low := digit _ (by omega) _ (by omega) same.2
  exact UInt8.toNat_inj.mp (by omega)

theorem hex8_injective {left right : UInt32} (same : hex8 left = hex8 right) : left = right := by
  simp only [hex8, bytes_toHex, List.flatMap_cons, List.flatMap_nil, List.append_nil] at same
  obtain ⟨first, same⟩ := List.append_inj same rfl
  obtain ⟨second, same⟩ := List.append_inj same rfl
  obtain ⟨third, fourth⟩ := List.append_inj same rfl
  rw [← join32 left, ← join32 right]
  rw [hexPair_injective first, hexPair_injective second, hexPair_injective third,
    hexPair_injective fourth]

theorem sanitizeFilename_plain {name : CString} :
    ∀ octet ∈ sanitizeFilename name (ascii "profile"), isPlain octet = true := by
  unfold sanitizeFilename
  dsimp only
  split
  next => decide
  next =>
    intro octet member
    obtain ⟨source, -, rfl⟩ := List.mem_map.mp member
    split
    next kept => exact kept
    next => decide

theorem hexPair_plain (octet : UInt8) : ∀ digit ∈ hexPair octet, isPlain digit = true := by
  have each : ∀ value < 16, isPlain (octetAt Tailscale.hexDigits value) = true := by decide
  have high : octet.toNat / 16 < 16 := by
    have bound := octet.toNat_lt
    omega
  intro digit member
  simp only [hexPair, List.mem_cons, List.not_mem_nil, or_false] at member
  rcases member with rfl | rfl
  · exact each _ high
  · exact each _ (Nat.mod_lt _ (by decide))

theorem stagedName_plain (name : CString) : ∀ octet ∈ stagedName name, isPlain octet = true := by
  have dash : ∀ octet ∈ ascii "-", isPlain octet = true := by decide
  have kind : ∀ octet ∈ ascii ".ovpn", isPlain octet = true := by decide
  intro octet member
  simp only [stagedName, List.mem_append] at member
  rcases member with ((scrubbed | dashed) | hashed) | ending
  · exact sanitizeFilename_plain octet scrubbed
  · exact dash octet dashed
  · rw [hex8, bytes_toHex] at hashed
    obtain ⟨source, -, digit⟩ := List.mem_flatMap.mp hashed
    exact hexPair_plain source octet digit
  · exact kind octet ending

theorem length_stagedName (name : CString) : 14 ≤ (stagedName name).length := by
  have hash := length_hex8 (nameHash name)
  have dash : (ascii "-").length = 1 := by decide
  have kind : (ascii ".ovpn").length = 5 := by decide
  simp only [stagedName, List.length_append, hash, dash, kind]
  omega

theorem stagedName_iff {left right : CString} : stagedName left = stagedName right ↔
    sanitizeFilename left (ascii "profile") = sanitizeFilename right (ascii "profile") ∧
      nameHash left = nameHash right := by
  constructor
  · intro same
    simp only [stagedName, List.append_assoc] at same
    obtain ⟨safe, tail⟩ := List.append_inj' same (by simp [length_hex8])
    obtain ⟨-, tail⟩ := List.append_inj tail rfl
    obtain ⟨hash, -⟩ := List.append_inj tail ((length_hex8 _).trans (length_hex8 _).symm)
    exact ⟨safe, hex8_injective hash⟩
  · rintro ⟨safe, hash⟩
    rw [stagedName, stagedName, safe, hash]

theorem stagedPath_bytes (dir name : CString) :
    (stagedPath dir name).bytes = dir.bytes ++ 47 :: stagedName name := by
  refine Tailscale.ofBytes_bytes fun nul => ?_
  rcases List.mem_append.mp nul with nul | nul
  · exact dir.no_nul nul
  · rcases List.mem_cons.mp nul with nul | nul
    · cases nul
    · exact absurd (stagedName_plain name 0 nul) (by decide)

theorem inStore_stagedPath (dir name : CString) : inStore dir (stagedPath dir name) = true := by
  rw [inStore, List.isPrefixOf_iff_prefix, stagedPath_bytes]
  exact ⟨stagedName name, by simp⟩

def storePlace (cwd : Place) (dir : CString) : Place :=
  (Lines.pieces 47 dir.bytes).foldl walk (if (dir.bytes ++ [47]).head? = some 47 then [] else cwd)

theorem walk_stagedName (place : Place) (name : CString) :
    walk place (stagedName name) = place ++ [stagedName name] := by
  have long := length_stagedName name
  unfold walk
  rw [if_neg, if_neg]
  · intro same
    rw [same] at long
    simp at long
  · rintro (same | same)
    · rw [same] at long
      simp at long
    · rw [same] at long
      simp at long

theorem resolve_stagedPath (cwd : Place) (dir name : CString) :
    resolve cwd (stagedPath dir name) = storePlace cwd dir ++ [stagedName name] := by
  have whole : 47 ∉ stagedName name := fun member =>
    absurd (stagedName_plain name 47 member) (by decide)
  have head : (dir.bytes ++ 47 :: stagedName name).head? = (dir.bytes ++ [47]).head? := by
    cases dir.bytes with
    | nil => rfl
    | cons first rest => rfl
  rw [resolve, stagedPath_bytes, Lines.pieces_append, Lines.pieces_single whole, List.foldl_append,
    head, List.foldl_cons, List.foldl_nil, walk_stagedName]
  rfl

/-- Two names share a copy when they scrub to one text and have one hash; names that differ in
one octet never do. -/
theorem shared_copy_iff (cwd : Place) (dir left right : CString) :
    (resolve cwd (stagedPath dir left) = resolve cwd (stagedPath dir right) ↔
      sanitizeFilename left (ascii "profile") = sanitizeFilename right (ascii "profile") ∧
        nameHash left = nameHash right) ∧
    ∀ front back first second, left.bytes = front ++ first :: back →
      right.bytes = front ++ second :: back → first ≠ second →
      resolve cwd (stagedPath dir left) ≠ resolve cwd (stagedPath dir right) := by
  have places : resolve cwd (stagedPath dir left) = resolve cwd (stagedPath dir right) ↔
      stagedName left = stagedName right := by
    rw [resolve_stagedPath, resolve_stagedPath, List.append_cancel_left_eq, List.cons.injEq]
    exact and_iff_left rfl
  rw [places]
  refine ⟨stagedName_iff, ?_⟩
  intro front back first second one other apart same
  exact nameHash_substituted one other apart (stagedName_iff.mp (places.mp same)).2

theorem resolve_staged_inj {cwd : Place} {dir left right : CString}
    (same : resolve cwd (stagedPath dir left) = resolve cwd (stagedPath dir right)) :
    stagedPath dir left = stagedPath dir right := by
  rw [resolve_stagedPath, resolve_stagedPath, List.append_cancel_left_eq, List.cons.injEq] at same
  rw [stagedPath, stagedPath, same.1]

end Paths

/-! ## Subscribers -/

section Subscribers

variable {Client : Type} [DecidableEq Client]

theorem fanOut_eq (gone : List Client) (notice : Notice) (clients : List Client) :
    fanOut gone notice clients =
      (clients.filter (· ∉ gone), (clients.filter (· ∉ gone)).map (·, notice)) := by
  induction clients with
  | nil => rfl
  | cons client rest continued =>
      rw [fanOut, continued]
      by_cases dead : client ∈ gone
      · simp [dead]
      · simp [dead]

/-- What an event says of the subscription of a client. -/
def asks (client : Client) : RegistryEvent Client → Option Bool
  | .subscribe (some other) => if other = client then some true else none
  | .unsubscribe (some other) => if other = client then some false else none
  | .restarted _ => some false
  | _ => none

/-- The last word on the subscription of a client. -/
def wanted (client : Client) (events : List (RegistryEvent Client)) : Bool :=
  (events.filterMap (asks client)).getLast?.getD false

theorem wanted_append (client : Client) (events : List (RegistryEvent Client))
    (event : RegistryEvent Client) :
    wanted client (events ++ [event]) = (asks client event).getD (wanted client events) := by
  rw [wanted, List.filterMap_append]
  cases asked : asks client event with
  | none => simp [asked, wanted]
  | some answer => simp [asked]

namespace Registry

/-- The subscribers that `SendMessage` reaches. -/
def live (registry : Registry Client) : List Client := registry.clients.filter (· ∉ registry.gone)

theorem broadcast_eq (registry : Registry Client) (notice : Notice) :
    registry.broadcast notice =
      { registry with
        clients := registry.live
        sent := registry.sent ++ registry.live.map (·, notice) } := by
  rw [broadcast, fanOut_eq]
  rfl

theorem sendMessage_frame (registry : Registry Client) (client : Client) (notice : Notice) :
    (registry.sendMessage client notice).clients = registry.clients ∧
      (registry.sendMessage client notice).gone = registry.gone ∧
      (registry.sendMessage client notice).host = registry.host ∧
      (registry.sendMessage client notice).files = registry.files := by
  unfold sendMessage
  split <;> exact ⟨rfl, rfl, rfl, rfl⟩

/-- The subscribers after an event, beside those that a broadcast may drop. -/
structure Turned (registry : Registry Client) (event : RegistryEvent Client)
    (next : Registry Client) : Prop where
  distinct : registry.clients.Nodup → next.clients.Nodup
  gone : ∀ client, client ∈ next.gone ↔ event = .died client ∨ client ∈ registry.gone
  clients : ∀ client, client ∉ next.gone →
    (client ∈ next.clients ↔ (asks client event).getD (decide (client ∈ registry.clients)) = true)

theorem turned_of_eq {registry next : Registry Client} {event : RegistryEvent Client}
    (silent : ∀ client, asks client event = none) (clients : next.clients = registry.clients)
    (gone : ∀ client, client ∈ next.gone ↔ event = .died client ∨ client ∈ registry.gone) :
    Turned registry event next := by
  refine ⟨fun distinct => clients ▸ distinct, gone, fun client _ => ?_⟩
  rw [clients, silent, Option.getD_none, decide_eq_true_eq]

theorem turned_broadcast {registry next : Registry Client} {event : RegistryEvent Client}
    {notice : Notice}
    (turned : Turned registry event next) : Turned registry event (next.broadcast notice) := by
  rw [broadcast_eq]
  refine ⟨fun distinct => (turned.distinct distinct).filter _, turned.gone, fun client alive => ?_⟩
  rw [← turned.clients client alive, live, List.mem_filter]
  exact and_iff_left (decide_eq_true alive)

theorem turned_subscribe (registry : Registry Client) (client : Option Client) :
    Turned registry (.subscribe client) (registry.handleSubscribe client) := by
  cases client with
  | none => exact turned_of_eq (fun _ => rfl) rfl fun _ => by simp [handleSubscribe]
  | some client =>
      unfold handleSubscribe
      dsimp only
      split
      next subscribed =>
        refine ⟨id, fun _ => by simp, fun other _ => ?_⟩
        by_cases same : client = other
        · simp [asks, same ▸ subscribed, same]
        · simp [asks, same]
      next fresh =>
        obtain ⟨clients, gone, -⟩ := sendMessage_frame
          { registry with clients := registry.clients ++ [client] } client
          (.listProfiles registry.host.store.archiveAll)
        rw [sendProfileList]
        refine ⟨fun distinct => ?_, fun other => ?_, fun other _ => ?_⟩
        · rw [clients]
          refine List.nodup_append.mpr ⟨distinct, List.nodup_singleton _, ?_⟩
          rintro member listed _ single rfl
          exact fresh (List.mem_singleton.mp single ▸ listed)
        · rw [gone]
          simp
        · rw [clients]
          by_cases same : client = other
          · simp [asks, same]
          · simp [asks, same, Ne.symm same]

theorem turned_step (registry : Registry Client) (event : RegistryEvent Client)
    (distinct : registry.clients.Nodup) :
    Turned registry event (registry.step event) := by
  cases event with
  | subscribe client => exact turned_subscribe registry client
  | unsubscribe client =>
      cases client with
      | none => exact turned_of_eq (fun _ => rfl) rfl fun _ => by simp [step, handleUnsubscribe]
      | some client =>
          refine ⟨fun distinct => distinct.erase client, fun _ => by simp [step, handleUnsubscribe],
            fun other _ => ?_⟩
          simp only [step, handleUnsubscribe, asks, distinct.mem_erase_iff]
          by_cases same : client = other
          · simp [same]
          · simp [same, Ne.symm same]
  | getStatus client status =>
      cases client with
      | none => exact turned_of_eq (fun _ => rfl) rfl fun _ => by simp [step, handleGetStatus]
      | some client =>
          obtain ⟨clients, gone, -⟩ := sendMessage_frame registry client (.update status)
          refine turned_of_eq (fun _ => rfl) clients fun other => ?_
          rw [step, handleGetStatus, gone]
          simp
  | saveProfile archive staging failure =>
      cases archive with
      | none => exact turned_of_eq (fun _ => rfl) rfl fun _ => by simp [step, handleSaveProfile]
      | some archive =>
          rw [step, handleSaveProfile]
          dsimp only
          split
          next => exact turned_of_eq (fun _ => rfl) rfl fun _ => by simp
          next => exact turned_broadcast (turned_of_eq (fun _ => rfl) rfl fun _ => by simp)
  | deleteProfile name removal failure =>
      cases name with
      | none => exact turned_of_eq (fun _ => rfl) rfl fun _ => by simp [step, handleDeleteProfile]
      | some name =>
          rw [step, handleDeleteProfile]
          dsimp only
          split
          next => exact turned_of_eq (fun _ => rfl) rfl fun _ => by simp
          next => exact turned_broadcast (turned_of_eq (fun _ => rfl) rfl fun _ => by simp)
  | broadcast message =>
      exact turned_broadcast (turned_of_eq (fun _ => rfl) rfl fun _ => by simp)
  | died client =>
      refine turned_of_eq (fun _ => rfl) rfl fun other => ?_
      simp [step, eq_comm]
  | edited place content => exact turned_of_eq (fun _ => rfl) rfl fun _ => by simp [step]
  | restarted failure =>
      exact ⟨fun _ => List.nodup_nil, fun _ => by simp [step, restart], fun _ _ => by
        simp [step, restart, asks]⟩

/-- The registry has the subscribers that the events so far ask for. -/
structure Attended (events : List (RegistryEvent Client)) (registry : Registry Client) : Prop where
  distinct : registry.clients.Nodup
  gone : ∀ client, client ∈ registry.gone ↔ .died client ∈ events
  clients : ∀ client, .died client ∉ events →
    (client ∈ registry.clients ↔ wanted client events = true)

theorem attended_run (start : Registry Client) (attended : Attended [] start)
    (events : List (RegistryEvent Client)) : Attended events (Run.run step start events) := by
  induction events using List.reverseRecOn with
  | nil => exact attended
  | append_singleton events event continued =>
      rw [Run.run_append, Run.run_cons, Run.run_nil]
      have turned := turned_step _ event continued.distinct
      have gone : ∀ client, client ∈ ((Run.run step start events).step event).gone ↔
          .died client ∈ events ++ [event] := by
        intro client
        rw [turned.gone, continued.gone, List.mem_append, List.mem_singleton, or_comm, eq_comm]
      refine ⟨turned.distinct continued.distinct, gone, fun client alive => ?_⟩
      have before : .died client ∉ events := fun member =>
        alive (List.mem_append_left _ member)
      rw [turned.clients client (fun member => alive ((gone client).mp member)), wanted_append]
      have same : decide (client ∈ (Run.run step start events).clients) = wanted client events := by
        rw [Bool.eq_iff_iff, decide_eq_true_eq]
        exact continued.clients client before
      rw [same]

/-! What the subscribers know of the profiles. -/

/-- The profile list that a notice carries to a client. -/
def listFor (client : Client) : Client × Notice → Option (List Archive)
  | (receiver, .listProfiles profiles) => if receiver = client then some profiles else none
  | (_, .update _) => none

/-- The profile list that a client got last. -/
def lastList (registry : Registry Client) (client : Client) : Option (List Archive) :=
  (registry.sent.filterMap (listFor client)).getLast?

/-- A write that fails has no change to lose. -/
def Lossless (registry : Registry Client) : RegistryEvent Client → Prop
  | .saveProfile archive staging failure => ∀ given ∈ archive, registry.host.Lossless
      (.save (registry.stageImportedConfig staging (VPNProfile.unarchive {} given)).1 failure)
  | .deleteProfile name _ failure => registry.host.Lossless (.delete name failure)
  | _ => True

/-- Every live subscriber has the list as it is. -/
def Current (registry : Registry Client) : Prop :=
  ∀ client ∈ registry.live, registry.lastList client = some registry.host.store.archiveAll

theorem mem_live {registry : Registry Client} {client : Client} :
    client ∈ registry.live ↔ client ∈ registry.clients ∧ client ∉ registry.gone := by
  rw [live, List.mem_filter, decide_eq_true_eq]

theorem lastList_sent {registry next : Registry Client} {sent : List (Client × Notice)}
    (grown : next.sent = registry.sent ++ sent) (client : Client) :
    next.lastList client = (sent.filterMap (listFor client)).getLast?.or
      (registry.lastList client) := by
  rw [lastList, grown, List.filterMap_append, List.getLast?_append]
  rfl

theorem current_of_eq {registry next : Registry Client} (current : Current registry)
    (clients : ∀ client ∈ next.live, client ∈ registry.live) (sent : next.sent = registry.sent)
    (store : next.host.store = registry.host.store) : Current next := by
  intro client member
  have known := current client (clients client member)
  rw [lastList] at known ⊢
  rw [sent, store, known]

theorem current_update {registry : Registry Client} (current : Current registry)
    (message : Archive) :
    Current (registry.broadcast (.update message)) := by
  rw [broadcast_eq]
  intro client member
  have listed : client ∈ registry.live := mem_live.mpr
    ⟨(mem_live.mp (mem_live.mp member).1).1, (mem_live.mp member).2⟩
  have nothing :
      (registry.live.map (·, Notice.update message)).filterMap (listFor client) = [] := by
    rw [List.filterMap_eq_nil_iff]
    intro notice sent
    obtain ⟨receiver, -, rfl⟩ := List.mem_map.mp sent
    rfl
  rw [lastList_sent rfl, nothing]
  exact current client listed

theorem current_broadcastProfileList (registry : Registry Client) :
    Current registry.broadcastProfileList := by
  rw [broadcastProfileList, broadcast_eq]
  intro client member
  have listed : client ∈ registry.live := (mem_live.mp member).1
  rw [lastList_sent rfl]
  have only : ∀ list ∈ (registry.live.map
      (·, Notice.listProfiles registry.host.store.archiveAll)).filterMap (listFor client),
      list = registry.host.store.archiveAll := by
    intro list sent
    obtain ⟨notice, sent, carried⟩ := List.mem_filterMap.mp sent
    obtain ⟨receiver, -, rfl⟩ := List.mem_map.mp sent
    simp only [listFor] at carried
    split at carried
    next => exact (Option.some.inj carried).symm
    next => cases carried
  have reached : registry.host.store.archiveAll ∈
      (registry.live.map (·, Notice.listProfiles registry.host.store.archiveAll)).filterMap
        (listFor client) :=
    List.mem_filterMap.mpr ⟨_, List.mem_map_of_mem listed, by simp [listFor]⟩
  cases last : ((registry.live.map
      (·, Notice.listProfiles registry.host.store.archiveAll)).filterMap
      (listFor client)).getLast? with
  | none => rw [List.getLast?_eq_none_iff.mp last] at reached; cases reached
  | some list => rw [only list (List.mem_of_getLast? last)]; rfl

/-- A call that fails without a loss keeps the list. -/
theorem store_of_failed {host after : StoreHost} {call : StoreCall} {fault : Fault}
    (change : ∀ failure, call ≠ .load failure) (lossless : host.Lossless call)
    (called : host.call call = (.error fault, after)) : after.store = host.store := by
  cases call with
  | load failure => exact absurd rfl (change failure)
  | save profile failure =>
      by_cases nameless : profile.name = .empty
      · rw [StoreHost.call, ProfileStore.save, if_pos nameless] at called
        cases called
        rfl
      · rw [StoreHost.call, ProfileStore.save, if_neg nameless] at called
        cases failure with
        | none => cases called
        | some failure =>
            have kept := StoreHost.upsert_eq_self.mpr (lossless rfl nameless)
            rw [kept] at called
            exact (congrArg (fun result => result.2.store) called).symm
  | delete name failure =>
      cases name with
      | none =>
          cases called
          rfl
      | some name =>
          rw [StoreHost.call, ProfileStore.delete] at called
          dsimp only at called
          split at called
          next listed =>
            cases failure with
            | none => cases called
            | some failure =>
                obtain ⟨profile, member, same⟩ := List.any_eq_true.mp listed
                exact absurd (of_decide_eq_true same) (lossless rfl name rfl profile member)
          next =>
            cases called

theorem current_subscribe {registry : Registry Client} (current : Current registry)
    (client : Option Client) :
    Current (registry.handleSubscribe client) := by
  cases client with
  | none => exact current
  | some client =>
      unfold handleSubscribe
      dsimp only
      split
      next => exact current
      next fresh =>
        rw [sendProfileList, sendMessage]
        dsimp only
        split
        next dead =>
          refine current_of_eq current (fun other member => ?_) rfl rfl
          obtain ⟨listed, alive⟩ := mem_live.mp member
          rcases List.mem_append.mp listed with listed | same
          · exact mem_live.mpr ⟨listed, alive⟩
          · rw [List.mem_singleton.mp same] at alive
            exact absurd dead alive
        next =>
          intro other member
          rw [lastList_sent rfl]
          by_cases same : client = other
          · simp [listFor, same]
          · obtain ⟨listed, alive⟩ := mem_live.mp member
            have before : other ∈ registry.clients := by
              rcases List.mem_append.mp listed with listed | equal
              · exact listed
              · exact absurd (List.mem_singleton.mp equal).symm same
            simp only [listFor, same, List.filterMap_cons, List.filterMap_nil, if_false]
            exact current other (mem_live.mpr ⟨before, alive⟩)

theorem current_step {registry : Registry Client} {event : RegistryEvent Client}
    (lossless : Lossless registry event)
    (current : Current registry) : Current (registry.step event) := by
  cases event with
  | subscribe client => exact current_subscribe current client
  | unsubscribe client =>
      cases client with
      | none => exact current
      | some client =>
          refine current_of_eq current (fun other member => ?_) rfl rfl
          obtain ⟨listed, alive⟩ := mem_live.mp member
          exact mem_live.mpr ⟨List.mem_of_mem_erase listed, alive⟩
  | getStatus client status =>
      cases client with
      | none => exact current
      | some client =>
          rw [step, handleGetStatus, sendMessage]
          split
          next => exact current
          next =>
            intro other member
            rw [lastList_sent rfl]
            exact current other member
  | saveProfile archive staging failure =>
      cases archive with
      | none => exact current
      | some archive =>
          rw [step, handleSaveProfile]
          dsimp only
          split
          next fault host failed =>
            exact current_of_eq current (fun _ member => member) rfl
              (store_of_failed (by intro _ same; cases same) (lossless archive rfl) failed)
          next => exact current_broadcastProfileList _
  | deleteProfile name removal failure =>
      cases name with
      | none => exact current
      | some name =>
          rw [step, handleDeleteProfile]
          dsimp only
          split
          next fault host failed =>
            have kept : registry.host.Lossless (.delete (some name) failure) := lossless
            exact current_of_eq current (fun _ member => member) rfl
              (store_of_failed (by intro _ same; cases same) kept failed)
          next => exact current_broadcastProfileList _
  | broadcast message => exact current_update current message
  | died client =>
      refine current_of_eq current (fun other member => ?_) rfl rfl
      obtain ⟨listed, alive⟩ := mem_live.mp member
      exact mem_live.mpr ⟨listed, fun dead => alive (List.mem_cons_of_mem _ dead)⟩
  | edited place content => exact current
  | restarted failure =>
      intro client member
      cases (mem_live.mp member).1

/-- Whatever happens, each broadcast reaches once each client that asked last to be told and is
still there, and nobody else. Unless a lost write changed the list before that, the client has
the list of profiles as it is. -/
theorem subscribers_told (dir : CString) (cwd : Place) (host : StoreHost) (files : Files)
    (events : List (RegistryEvent Client)) :
    ∃ told : List Client, told.Nodup ∧
      (∀ client, client ∈ told ↔ wanted client events = true ∧ .died client ∉ events) ∧
      (∀ notice,
        ((Run.run step { dir, cwd, host, files } events).broadcast notice).sent =
          (Run.run step { dir, cwd, host, files } events).sent ++ told.map (·, notice)) ∧
      (Run.Along step Lossless { dir, cwd, host, files } events → ∀ client ∈ told,
        (Run.run step { dir, cwd, host, files } events).lastList client =
          some (Run.run step { dir, cwd, host, files } events).host.store.archiveAll) := by
  have attended := attended_run ({ dir, cwd, host, files } : Registry Client)
    ⟨List.nodup_nil, fun _ => by simp, fun _ _ => by simp [wanted]⟩ events
  refine ⟨(Run.run step { dir, cwd, host, files } events).live, attended.distinct.filter _,
    fun client => ?_, fun notice => by rw [broadcast_eq], fun along => ?_⟩
  · rw [mem_live, attended.gone]
    refine and_congr_left fun alive => attended.clients client alive
  · have fresh : Current ({ dir, cwd, host, files } : Registry Client) := by
      intro client member
      cases (mem_live.mp member).1
    have preserved : ∀ (registry : Registry Client) (event : RegistryEvent Client),
        Lossless registry event →
        Current registry → Current (registry.step event) :=
      fun _ _ lossless current => current_step lossless current
    exact Run.invariant_along preserved along fresh

end Registry

end Subscribers

/-! ## Copies -/

/-- Profiles whose names identify them, each with its copy where it refers to one. -/
structure Covered (dir : CString) (cwd : Place) (files : Files) (profiles : List VPNProfile) :
    Prop where
  nonempty : ∀ profile ∈ profiles, profile.name ≠ .empty
  distinct : (profiles.map VPNProfile.name).Nodup
  copied : ∀ profile ∈ profiles, inStore dir profile.configPath = true →
    ∃ name, profile.configPath = stagedPath dir name ∧
      (files (resolve cwd profile.configPath)).isSome = true

namespace Covered

variable {dir : CString} {cwd : Place} {files : Files} {profiles : List VPNProfile}

theorem nil : Covered dir cwd files [] :=
  ⟨fun _ member => (nomatch member), List.nodup_nil, fun _ member => (nomatch member)⟩

theorem sublist {others : List VPNProfile} (covered : Covered dir cwd files profiles)
    (less : others.Sublist profiles) : Covered dir cwd files others :=
  ⟨fun profile member => covered.nonempty profile (less.subset member),
    covered.distinct.sublist (less.map _),
    fun profile member => covered.copied profile (less.subset member)⟩

theorem withoutKeys (covered : Covered dir cwd files profiles) :
    Covered dir cwd files (profiles.map VPNProfile.withoutKey) := by
  refine ⟨fun entry member => ?_, ?_, fun entry member => ?_⟩
  · obtain ⟨profile, listed, rfl⟩ := List.mem_map.mp member
    exact covered.nonempty profile listed
  · have names : (profiles.map VPNProfile.withoutKey).map VPNProfile.name =
        profiles.map VPNProfile.name := by
      rw [List.map_map]
      rfl
    rw [names]
    exact covered.distinct
  · obtain ⟨profile, listed, rfl⟩ := List.mem_map.mp member
    exact covered.copied profile listed

/-- Files may change as long as the copies stay. -/
theorem rewritten {next : Files} (covered : Covered dir cwd files profiles)
    (stays : ∀ profile ∈ profiles, ∀ name, profile.configPath = stagedPath dir name →
      (files (resolve cwd profile.configPath)).isSome = true →
      (next (resolve cwd profile.configPath)).isSome = true) :
    Covered dir cwd next profiles := by
  refine ⟨covered.nonempty, covered.distinct, fun profile member refers => ?_⟩
  obtain ⟨name, path, there⟩ := covered.copied profile member refers
  exact ⟨name, path, stays profile member name path there⟩

/-- A profile that has its copy takes the place of the one of its name. -/
theorem upserted {next : Files} {profile : VPNProfile} (covered : Covered dir cwd files profiles)
    (named : profile.name ≠ .empty)
    (own : inStore dir profile.configPath = true → ∃ name,
      profile.configPath = stagedPath dir name ∧
        (next (resolve cwd profile.configPath)).isSome = true)
    (stays : ∀ other ∈ profiles, other.name ≠ profile.name → ∀ name,
      other.configPath = stagedPath dir name →
      (files (resolve cwd other.configPath)).isSome = true →
      (next (resolve cwd other.configPath)).isSome = true) :
    Covered dir cwd next (Table.upsert (·.name = profile.name) profile profiles) := by
  have distinct : ((Table.upsert (·.name = profile.name) profile profiles).map
      VPNProfile.name).Nodup := StoreHost.nodup_upsert covered.distinct
  refine ⟨fun other member => ?_, distinct, fun other member refers => ?_⟩
  · obtain rfl | member := Table.mem_upsert member
    · exact named
    · exact covered.nonempty other member
  · by_cases same : other = profile
    · rw [same] at refers ⊢
      exact own refers
    · have listed : profile ∈ Table.upsert (·.name = profile.name) profile profiles :=
        Table.fresh_mem_upsert
      have apart : other.name ≠ profile.name := fun equal =>
        same (List.inj_on_of_nodup_map distinct member listed equal)
      obtain equal | member := Table.mem_upsert member
      · exact absurd equal same
      · obtain ⟨name, path, there⟩ := covered.copied other member refers
        exact ⟨name, path, stays other member apart name path there⟩

end Covered

section Staging

variable {Client : Type} {registry : Registry Client}

namespace Registry

/-- What the daemon has in memory, and what one that starts now would load. -/
def known (registry : Registry Client) : List VPNProfile :=
  registry.host.store.profiles ++ registry.host.freshLoad.2.profiles

structure Sound (registry : Registry Client) : Prop where
  memory : Covered registry.dir registry.cwd registry.files registry.host.store.profiles
  stored : Covered registry.dir registry.cwd registry.files registry.host.freshLoad.2.profiles

/-- A saved profile refers to a copy only as a profile of the list does, a broken copy is not
followed by a broken write, and the copy to be written is no other profile's. -/
structure CarefulSave (registry : Registry Client) (profile : VPNProfile) (staging : Staging)
    (failure : Option DiskFailure) : Prop where
  listed : inStore registry.dir profile.configPath = true →
    ∃ other ∈ registry.host.store.profiles, other.configPath = profile.configPath
  unshared : ∀ other ∈ registry.known,
    other.configPath = stagedPath registry.dir profile.name → other.name = profile.name
  written : staging.copying = .broken → failure = none

def Careful (registry : Registry Client) : RegistryEvent Client → Prop
  | .saveProfile archive staging failure =>
      ∀ given ∈ archive, CarefulSave registry (VPNProfile.unarchive {} given) staging failure
  | .edited place _ => ∀ name, place ≠ resolve registry.cwd (stagedPath registry.dir name)
  | _ => True

/-- What becomes of the copy of a profile to be saved. -/
theorem stage_cases (registry : Registry Client) (staging : Staging) (profile : VPNProfile) :
    registry.stageImportedConfig staging profile = (profile, registry.files) ∨
      inStore registry.dir profile.configPath = false ∧
        (staging.copying = .broken ∧
            registry.stageImportedConfig staging profile =
              (profile, Function.update registry.files
                (resolve registry.cwd (stagedPath registry.dir profile.name)) none) ∨
          ∃ content, registry.stageImportedConfig staging profile =
            ({ profile with configPath := stagedPath registry.dir profile.name },
              Function.update registry.files
                (resolve registry.cwd (stagedPath registry.dir profile.name)) (some content))) := by
  unfold stageImportedConfig
  by_cases bare : profile.configPath = .empty
  · rw [if_pos bare]
    exact .inl rfl
  by_cases lost : ¬ staging.located
  · rw [if_neg bare, if_pos lost]
    exact .inl rfl
  by_cases stored : inStore registry.dir profile.configPath = true
  · rw [if_neg bare, if_neg lost, if_pos stored]
    exact .inl rfl
  by_cases refused : ¬ staging.directory
  · rw [if_neg bare, if_neg lost, if_neg stored, if_pos refused]
    exact .inl rfl
  rw [if_neg bare, if_neg lost, if_neg stored, if_neg refused]
  have outside := Bool.eq_false_iff.mpr stored
  dsimp only
  split
  next => exact .inl rfl
  next => exact .inl rfl
  next broken => exact .inr ⟨outside, .inl ⟨broken, rfl⟩⟩
  next whole =>
    cases source : registry.files (resolve registry.cwd profile.configPath) with
    | none => exact .inl (if_pos rfl)
    | some content =>
        refine .inr ⟨outside, .inr ?_⟩
        rw [if_neg (Option.some_ne_none _), Function.update_idem]
        by_cases same : resolve registry.cwd profile.configPath =
            resolve registry.cwd (stagedPath registry.dir profile.name)
        · exact ⟨[], by rw [same, Function.update_self]⟩
        · exact ⟨content, by rw [Function.update_of_ne same, source]⟩

theorem stage_name (registry : Registry Client) (staging : Staging) (profile : VPNProfile) :
    (registry.stageImportedConfig staging profile).1.name = profile.name := by
  rcases stage_cases registry staging profile with same | ⟨-, ⟨-, same⟩ | ⟨content, same⟩⟩
  · rw [same]
  · rw [same]
  · rw [same]

/-- Staging touches the copy of the name alone. -/
theorem stage_frame (registry : Registry Client) (staging : Staging) (profile : VPNProfile)
    {place : Place}
    (other : place ≠ resolve registry.cwd (stagedPath registry.dir profile.name)) :
    (registry.stageImportedConfig staging profile).2 place = registry.files place := by
  rcases stage_cases registry staging profile with same | ⟨-, ⟨-, same⟩ | ⟨content, same⟩⟩
  · rw [same]
  · rw [same]
    exact Function.update_of_ne other _ _
  · rw [same]
    exact Function.update_of_ne other _ _

theorem stage_stays {staging : Staging} {profile : VPNProfile} {path : CString} {name : CString}
    (copy : path = stagedPath registry.dir name)
    (spared : staging.copying = .broken → path ≠ stagedPath registry.dir profile.name)
    (there : (registry.files (resolve registry.cwd path)).isSome = true) :
    ((registry.stageImportedConfig staging profile).2
      (resolve registry.cwd path)).isSome = true := by
  by_cases same :
      resolve registry.cwd path = resolve registry.cwd (stagedPath registry.dir profile.name)
  · rcases stage_cases registry staging profile with kept | ⟨-, ⟨broken, -⟩ | ⟨content, written⟩⟩
    · rw [kept]
      exact there
    · rw [copy] at same
      exact absurd (copy.trans (resolve_staged_inj same)) (spared broken)
    · rw [written, same]
      simp
  · rw [stage_frame registry staging profile same]
    exact there

/-- The profile as it is saved has its copy. -/
theorem stage_own {staging : Staging} {profile : VPNProfile} {failure : Option DiskFailure}
    (sound : Sound registry) (careful : CarefulSave registry profile staging failure)
    (refers :
      inStore registry.dir (registry.stageImportedConfig staging profile).1.configPath = true) :
    ∃ name,
      (registry.stageImportedConfig staging profile).1.configPath = stagedPath registry.dir name ∧
      ((registry.stageImportedConfig staging profile).2
        (resolve registry.cwd
          (registry.stageImportedConfig staging profile).1.configPath)).isSome = true := by
  rcases stage_cases registry staging profile with same | ⟨outside, ⟨-, same⟩ | ⟨content, same⟩⟩
  · rw [same] at refers ⊢
    obtain ⟨other, listed, path⟩ := careful.listed refers
    rw [← path] at refers ⊢
    exact sound.memory.copied other listed refers
  · rw [same, outside] at refers
    cases refers
  · rw [same]
    exact ⟨profile.name, rfl, by simp⟩

end Registry

end Staging

/-! ## Calls of the store -/

namespace StoreHost

theorem fresh_written (store : ProfileStore) (disk : Disk)
    (nonempty : ∀ profile ∈ store.profiles, profile.name ≠ .empty) :
    ({ store, disk := (writeToDisk store.profiles none disk).2 } : StoreHost).freshLoad.2.profiles =
      store.profiles.map VPNProfile.withoutKey := by
  have idle : ∀ profiles : List VPNProfile,
      (profiles.map VPNProfile.archive).map (VPNProfile.unarchive {}) =
        profiles.map VPNProfile.withoutKey := fun profiles => by
    simp [VPNProfile.unarchive_archive]
  have kept : (store.profiles.map VPNProfile.withoutKey).filter (·.name ≠ .empty) =
      store.profiles.map VPNProfile.withoutKey := by
    rw [List.filter_eq_self]
    intro entry member
    obtain ⟨profile, stored, rfl⟩ := List.mem_map.mp member
    exact decide_eq_true (nonempty profile stored)
  exact (congrArg (List.filter _) (idle store.profiles)).trans kept

/-- A save that is not refused has the new list in memory, and has it or the old one on the disk. -/
theorem save_cases (host : StoreHost) (profile : VPNProfile) (failure : Option DiskFailure)
    (named : profile.name ≠ .empty) :
    (host.call (.save profile failure)).2.store =
        { profiles := Table.upsert (·.name = profile.name) profile host.store.profiles } ∧
      ((host.call (.save profile failure)).2.freshLoad.2 = host.freshLoad.2 ∧
          failure.isSome = true ∨
        ((∀ other ∈ host.store.profiles, other.name ≠ .empty) →
          (host.call (.save profile failure)).2.freshLoad.2.profiles =
            (Table.upsert (·.name = profile.name) profile host.store.profiles).map
              VPNProfile.withoutKey)) := by
  rw [call, ProfileStore.save, if_neg named]
  refine ⟨rfl, ?_⟩
  cases failure with
  | some failure =>
      obtain ⟨-, kept⟩ := writeToDisk_failed
        (Table.upsert (·.name = profile.name) profile host.store.profiles) failure host.disk
      refine .inl ⟨?_, rfl⟩
      unfold freshLoad ProfileStore.load
      dsimp only
      rw [kept]
  | none =>
      refine .inr fun nonempty => ?_
      have every : ∀ other ∈ Table.upsert (·.name = profile.name) profile host.store.profiles,
          other.name ≠ .empty := by
        intro other member
        obtain rfl | member := Table.mem_upsert member
        · exact named
        · exact nonempty other member
      exact fresh_written { profiles := _ } host.disk every

/-- A deletion shortens the list in memory, and has it or the old one on the disk. -/
theorem delete_cases (host : StoreHost) (name : CString) (failure : Option DiskFailure)
    (nonempty : ∀ profile ∈ host.store.profiles, profile.name ≠ .empty) :
    (host.call (.delete (some name) failure)).2 = host ∧
        (∀ profile ∈ host.store.profiles, profile.name ≠ name) ∨
      (host.call (.delete (some name) failure)).2.store =
          { profiles := host.store.profiles.eraseP (·.name = name) } ∧
        ((∃ fault, (host.call (.delete (some name) failure)).1 = .error fault) ∧
            (host.call (.delete (some name) failure)).2.freshLoad.2 = host.freshLoad.2 ∨
          (host.call (.delete (some name) failure)).1 = .ok () ∧
            (host.call (.delete (some name) failure)).2.freshLoad.2.profiles =
              (host.store.profiles.eraseP (·.name = name)).map VPNProfile.withoutKey) := by
  rw [call, ProfileStore.delete]
  dsimp only
  split
  next listed =>
    refine .inr ⟨rfl, ?_⟩
    cases failure with
    | some failure =>
        obtain ⟨status, kept⟩ := writeToDisk_failed
          (host.store.profiles.eraseP (·.name = name)) failure host.disk
        refine .inl ⟨⟨failure.fault, status⟩, ?_⟩
        unfold freshLoad ProfileStore.load
        dsimp only
        rw [kept]
    | none =>
        refine .inr ⟨rfl, fresh_written { profiles := _ } host.disk ?_⟩
        exact fun profile member => nonempty profile (List.mem_of_mem_eraseP member)
  next unlisted =>
    refine .inl ⟨rfl, fun profile member same => unlisted ?_⟩
    exact List.any_eq_true.mpr ⟨profile, member, decide_eq_true same⟩

end StoreHost

/-! ## Runs of careful events -/

section Careful

variable {Client : Type}

namespace Registry

theorem broadcast_frame [DecidableEq Client] (registry : Registry Client) (notice : Notice) :
    (registry.broadcast notice).dir = registry.dir ∧
      (registry.broadcast notice).cwd = registry.cwd ∧
      (registry.broadcast notice).host = registry.host ∧
      (registry.broadcast notice).files = registry.files := by
  rw [broadcast_eq]
  exact ⟨rfl, rfl, rfl, rfl⟩

/-- The parts of a registry that its copies are in. -/
structure Same (registry next : Registry Client) : Prop where
  dir : next.dir = registry.dir
  cwd : next.cwd = registry.cwd
  host : next.host = registry.host
  files : next.files = registry.files

theorem Sound.of_same {registry next : Registry Client} (same : Same registry next)
    (sound : Sound registry) : Sound next := by
  obtain ⟨memory, stored⟩ := sound
  constructor
  · rw [same.dir, same.cwd, same.files, same.host]
    exact memory
  · rw [same.dir, same.cwd, same.files, same.host]
    exact stored

theorem same_broadcast [DecidableEq Client] (registry : Registry Client) (notice : Notice) :
    Same registry (registry.broadcast notice) := by
  obtain ⟨dir, cwd, host, files⟩ := broadcast_frame registry notice
  exact ⟨dir, cwd, host, files⟩

theorem same_sendMessage [DecidableEq Client] (registry : Registry Client) (client : Client)
    (notice : Notice) :
    Same registry (registry.sendMessage client notice) := by
  unfold sendMessage
  split <;> exact ⟨rfl, rfl, rfl, rfl⟩

theorem same_subscribe [DecidableEq Client] (registry : Registry Client) (client : Option Client) :
    Same registry (registry.handleSubscribe client) := by
  cases client with
  | none => exact ⟨rfl, rfl, rfl, rfl⟩
  | some client =>
      unfold handleSubscribe
      dsimp only
      split
      next => exact ⟨rfl, rfl, rfl, rfl⟩
      next =>
        obtain ⟨dir, cwd, host, files⟩ := same_sendMessage
          { registry with clients := registry.clients ++ [client] } client
          (.listProfiles registry.host.store.archiveAll)
        exact ⟨dir, cwd, host, files⟩

/-- A save, up to its broadcast. -/
def saved (registry : Registry Client) (profile : VPNProfile) (staging : Staging)
    (failure : Option DiskFailure) : Registry Client :=
  { registry with
    host := (registry.host.call
      (.save (registry.stageImportedConfig staging profile).1 failure)).2
    files := (registry.stageImportedConfig staging profile).2 }

theorem same_saveProfile [DecidableEq Client] (registry : Registry Client) (archive : Archive)
    (staging : Staging)
    (failure : Option DiskFailure) :
    Same (registry.saved (VPNProfile.unarchive {} archive) staging failure)
      (registry.handleSaveProfile (some archive) staging failure) := by
  unfold handleSaveProfile saved
  dsimp only
  split
  next failed =>
    rw [failed]
    exact ⟨rfl, rfl, rfl, rfl⟩
  next succeeded =>
    rw [succeeded]
    exact same_broadcast _ _

theorem sound_saved {registry : Registry Client} {profile : VPNProfile} {staging : Staging}
    {failure : Option DiskFailure} (sound : Sound registry)
    (careful : CarefulSave registry profile staging failure) :
    Sound (registry.saved profile staging failure) := by
  have name := stage_name registry staging profile
  have foreign : ∀ other ∈ registry.known, other.name ≠ profile.name → ∀ name,
      other.configPath = stagedPath registry.dir name →
      (registry.files (resolve registry.cwd other.configPath)).isSome = true →
      ((registry.stageImportedConfig staging profile).2
        (resolve registry.cwd other.configPath)).isSome = true :=
    fun other listed apart name path there =>
      stage_stays path (fun _ shared => apart (careful.unshared other listed shared)) there
  by_cases nameless : profile.name = .empty
  · -- The store refuses the profile, whose copy is nobody's.
    have unchanged : (registry.saved profile staging failure).host = registry.host := by
      rw [saved, StoreHost.call, ProfileStore.save, if_pos (name.trans nameless)]
    refine ⟨?_, ?_⟩
    · rw [unchanged]
      exact sound.memory.rewritten fun other listed => foreign other
        (List.mem_append_left _ listed) (nameless ▸ sound.memory.nonempty other listed)
    · rw [unchanged]
      exact sound.stored.rewritten fun other listed => foreign other
        (List.mem_append_right _ listed) (nameless ▸ sound.stored.nonempty other listed)
  · obtain ⟨memory, disk⟩ := StoreHost.save_cases registry.host
      (registry.stageImportedConfig staging profile).1 failure
      (name.symm ▸ nameless)
    have covered : Covered registry.dir registry.cwd
        (registry.stageImportedConfig staging profile).2
        (Table.upsert (·.name = (registry.stageImportedConfig staging profile).1.name)
          (registry.stageImportedConfig staging profile).1 registry.host.store.profiles) := by
      refine sound.memory.upserted (name.symm ▸ nameless) (stage_own sound careful) ?_
      intro other listed apart
      exact foreign other (List.mem_append_left _ listed) (name ▸ apart)
    refine ⟨?_, ?_⟩
    · change Covered _ _ _ (registry.host.call _).2.store.profiles
      rw [memory]
      exact covered
    · change Covered _ _ _ (registry.host.call _).2.freshLoad.2.profiles
      rcases disk with ⟨kept, failing⟩ | written
      · rw [kept]
        refine sound.stored.rewritten fun other listed name path there => stage_stays path ?_ there
        intro broken
        rw [careful.written broken] at failing
        cases failing
      · rw [written sound.memory.nonempty]
        exact covered.withoutKeys

/-- A deletion, up to its broadcast. -/
def deleted (registry : Registry Client) (name : CString) (removal : Removal)
    (failure : Option DiskFailure) : Registry Client :=
  match registry.host.call (.delete (some name) failure) with
  | (.error _, host) => { registry with host }
  | (.ok (), host) =>
      { registry with
        host
        files := ({ registry with host } : Registry Client).removeStagedConfig removal
          (registry.configPathOf name) }

theorem same_deleteProfile [DecidableEq Client] (registry : Registry Client) (name : CString)
    (removal : Removal)
    (failure : Option DiskFailure) :
    Same (registry.deleted name removal failure)
      (registry.handleDeleteProfile (some name) removal failure) := by
  unfold handleDeleteProfile deleted
  dsimp only
  cases registry.host.call (.delete (some name) failure) with
  | mk status host =>
      cases status with
      | error fault => exact ⟨rfl, rfl, rfl, rfl⟩
      | ok => exact same_broadcast _ _

/-- A removed file is in the store, and no profile in memory has its path. -/
theorem removeStagedConfig_cases (registry : Registry Client) (removal : Removal) (path : CString) :
    registry.removeStagedConfig removal path = registry.files ∨
      inStore registry.dir path = true ∧
        (∀ profile ∈ registry.host.store.profiles, profile.configPath ≠ path) ∧
        registry.removeStagedConfig removal path =
          Function.update registry.files (resolve registry.cwd path) none := by
  unfold removeStagedConfig
  by_cases bare : path = .empty
  · rw [if_pos bare]
    exact .inl rfl
  by_cases lost : ¬ removal.located
  · rw [if_neg bare, if_pos lost]
    exact .inl rfl
  by_cases outside : ¬ inStore registry.dir path
  · rw [if_neg bare, if_neg lost, if_pos outside]
    exact .inl rfl
  by_cases shared : registry.host.store.profiles.any (·.configPath = path)
  · rw [if_neg bare, if_neg lost, if_neg outside, if_pos shared]
    exact .inl rfl
  rw [if_neg bare, if_neg lost, if_neg outside, if_neg shared]
  by_cases removes : removal.removes
  · rw [if_pos removes]
    refine .inr ⟨not_not.mp outside, fun profile member same => shared ?_, rfl⟩
    exact List.any_eq_true.mpr ⟨profile, member, decide_eq_true same⟩
  · rw [if_neg removes]
    exact .inl rfl

/-- What a deletion may remove is the copy of the profile that it deletes. -/
theorem deleted_cases {registry : Registry Client} (sound : Sound registry) (name : CString)
    (removal : Removal) (failure : Option DiskFailure) :
    ((registry.deleted name removal failure).files = registry.files ∨
      ∃ owner, (∀ profile ∈ (registry.deleted name removal failure).known,
          profile.configPath ≠ stagedPath registry.dir owner) ∧
        (registry.deleted name removal failure).files = Function.update registry.files
          (resolve registry.cwd (stagedPath registry.dir owner)) none) ∧
      (registry.deleted name removal failure).dir = registry.dir ∧
      (registry.deleted name removal failure).cwd = registry.cwd ∧
      (registry.deleted name removal failure).host =
        (registry.host.call (.delete (some name) failure)).2 := by
  have outcome := StoreHost.delete_cases registry.host name failure
    sound.memory.nonempty
  unfold deleted
  cases called : registry.host.call (.delete (some name) failure) with
  | mk status host =>
      rw [called] at outcome
      cases status with
      | error fault => exact ⟨.inl rfl, rfl, rfl, rfl⟩
      | ok =>
          refine ⟨?_, rfl, rfl, rfl⟩
          rcases removeStagedConfig_cases { registry with host } removal
            (registry.configPathOf name) with kept | ⟨inside, unshared, removed⟩
          · exact .inl kept
          · refine .inr ?_
            cases found : registry.host.store.profiles.find? (·.name = name) with
            | none =>
                have bare : registry.configPathOf name = .empty := by rw [configPathOf, found]; rfl
                rw [bare] at inside
                simp [inStore, CString.empty] at inside
            | some profile =>
                have owned : registry.configPathOf name = profile.configPath := by
                  rw [configPathOf, found]
                  rfl
                have listed := List.mem_of_find?_eq_some found
                rw [owned] at inside
                obtain ⟨owner, path, -⟩ := sound.memory.copied profile listed inside
                rw [owned, path] at unshared
                refine ⟨owner, ?_, removed.trans (by rw [owned, path])⟩
                rcases outcome with ⟨-, absent⟩ | ⟨memory, ⟨⟨fault, failed⟩, -⟩ | ⟨-, disk⟩⟩
                · have same : profile.name = name := by simpa using List.find?_some found
                  exact absurd same (absent profile listed)
                · cases failed
                · intro other member
                  rcases List.mem_append.mp member with member | member
                  · exact unshared other member
                  · change other ∈ host.freshLoad.2.profiles at member
                    rw [disk] at member
                    obtain ⟨source, kept, rfl⟩ := List.mem_map.mp member
                    refine unshared source ?_
                    change source ∈ host.store.profiles
                    rw [memory]
                    exact kept

theorem sound_deleted {registry : Registry Client} (sound : Sound registry) (name : CString)
    (removal : Removal) (failure : Option DiskFailure) :
    Sound (registry.deleted name removal failure) := by
  obtain ⟨files, dir, cwd, host⟩ := deleted_cases sound name removal failure
  have memory : Covered registry.dir registry.cwd registry.files
      (registry.deleted name removal failure).host.store.profiles := by
    rw [host]
    rcases StoreHost.delete_cases registry.host name failure sound.memory.nonempty with
      ⟨same, -⟩ | ⟨less, -⟩
    · rw [same]
      exact sound.memory
    · rw [less]
      exact sound.memory.sublist List.eraseP_sublist
  have stored : Covered registry.dir registry.cwd registry.files
      (registry.deleted name removal failure).host.freshLoad.2.profiles := by
    rw [host]
    rcases StoreHost.delete_cases registry.host name failure sound.memory.nonempty with
      ⟨same, -⟩ | ⟨-, ⟨-, same⟩ | ⟨-, less⟩⟩
    · rw [same]
      exact sound.stored
    · rw [same]
      exact sound.stored
    · rw [less]
      exact (sound.memory.sublist List.eraseP_sublist).withoutKeys
  have stays : ∀ profile ∈ (registry.deleted name removal failure).known, ∀ owner,
      profile.configPath = stagedPath registry.dir owner →
      (registry.files (resolve registry.cwd profile.configPath)).isSome = true →
      ((registry.deleted name removal failure).files
        (resolve registry.cwd profile.configPath)).isSome = true := by
    intro profile member owner path there
    rcases files with same | ⟨removed, unshared, removal⟩
    · rw [same]
      exact there
    · have apart : resolve registry.cwd profile.configPath ≠
          resolve registry.cwd (stagedPath registry.dir removed) := by
        intro same
        rw [path] at same
        exact unshared profile member (path.trans (resolve_staged_inj same))
      rw [removal, Function.update_of_ne apart]
      exact there
  refine ⟨?_, ?_⟩
  · rw [dir, cwd]
    exact memory.rewritten fun profile listed => stays profile (List.mem_append_left _ listed)
  · rw [dir, cwd]
    exact stored.rewritten fun profile listed => stays profile (List.mem_append_right _ listed)

theorem sound_step [DecidableEq Client] {registry : Registry Client} {event : RegistryEvent Client}
    (careful : Careful registry event) (sound : Sound registry) : Sound (registry.step event) := by
  cases event with
  | subscribe client => exact sound.of_same (same_subscribe registry client)
  | unsubscribe client =>
      cases client with
      | none => exact sound
      | some client =>
          have same : Same registry (registry.handleUnsubscribe (some client)) :=
            ⟨rfl, rfl, rfl, rfl⟩
          exact sound.of_same same
  | getStatus client status =>
      cases client with
      | none => exact sound
      | some client => exact sound.of_same (same_sendMessage registry client _)
  | saveProfile archive staging failure =>
      cases archive with
      | none => exact sound
      | some archive =>
          exact (sound_saved sound (careful archive rfl)).of_same
            (same_saveProfile registry archive staging failure)
  | deleteProfile name removal failure =>
      cases name with
      | none => exact sound
      | some name =>
          exact (sound_deleted sound name removal failure).of_same
            (same_deleteProfile registry name removal failure)
  | broadcast message => exact sound.of_same (same_broadcast registry _)
  | died client =>
      have same : Same registry (registry.step (.died client)) := ⟨rfl, rfl, rfl, rfl⟩
      exact sound.of_same same
  | edited place content =>
      have stays : ∀ profile : VPNProfile, ∀ name,
          profile.configPath = stagedPath registry.dir name →
          (registry.files (resolve registry.cwd profile.configPath)).isSome = true →
          (Function.update registry.files place content
            (resolve registry.cwd profile.configPath)).isSome = true := by
        intro profile name path there
        rw [Function.update_of_ne]
        · exact there
        · rw [path]
          exact (careful name).symm
      exact ⟨sound.memory.rewritten fun profile _ => stays profile,
        sound.stored.rewritten fun profile _ => stays profile⟩
  | restarted failure =>
      cases failure with
      | some fault => exact ⟨Covered.nil, sound.stored⟩
      | none => exact ⟨sound.stored, sound.stored⟩

/-- The event saves a profile of that name. -/
def Saves (name : CString) : RegistryEvent Client → Prop
  | .saveProfile archive _ _ => ∃ given ∈ archive, (VPNProfile.unarchive {} given).name = name
  | _ => False

/-- What a careful event leaves alone: what is no copy, and a copy that some profile keeps
referring to, unless it is one of the profile to be saved. -/
structure Spared (registry : Registry Client) (event : RegistryEvent Client)
    (next : Registry Client) : Prop where
  outside : ∀ place, (∀ name, place ≠ resolve registry.cwd (stagedPath registry.dir name)) →
    (∀ content, event ≠ .edited place content) → next.files place = registry.files place
  copies : ∀ profile ∈ registry.known, ¬ Saves profile.name event →
    (∃ other ∈ next.known, other.configPath = profile.configPath) →
    inStore registry.dir profile.configPath = true →
    next.files (resolve registry.cwd profile.configPath) =
      registry.files (resolve registry.cwd profile.configPath)

theorem spared_of_same {registry next : Registry Client} {event : RegistryEvent Client}
    (files : next.files = registry.files) : Spared registry event next :=
  ⟨fun place _ _ => congrFun files place, fun _ _ _ _ _ => congrFun files _⟩

theorem Sound.copied {registry : Registry Client} (sound : Sound registry) {profile : VPNProfile}
    (member : profile ∈ registry.known)
    (refers : inStore registry.dir profile.configPath = true) :
    ∃ name, profile.configPath = stagedPath registry.dir name ∧
      (registry.files (resolve registry.cwd profile.configPath)).isSome = true := by
  rcases List.mem_append.mp member with member | member
  · exact sound.memory.copied profile member refers
  · exact sound.stored.copied profile member refers

theorem spared_saved [DecidableEq Client] {registry : Registry Client} (sound : Sound registry)
    {archive : Archive}
    {staging : Staging} {failure : Option DiskFailure}
    (careful : CarefulSave registry (VPNProfile.unarchive {} archive) staging failure) :
    Spared registry (.saveProfile (some archive) staging failure)
      (registry.handleSaveProfile (some archive) staging failure) := by
  have files := (same_saveProfile registry archive staging failure).files
  refine ⟨fun place other _ => ?_, fun profile member foreign _ refers => ?_⟩
  · rw [files]
    exact stage_frame registry staging _ (other _)
  · rw [files]
    refine stage_frame registry staging _ fun same => ?_
    obtain ⟨owner, path, -⟩ := sound.copied member refers
    rw [path] at same
    have own := careful.unshared profile member (path.trans (resolve_staged_inj same))
    exact foreign ⟨archive, rfl, own.symm⟩

theorem spared_deleted [DecidableEq Client] {registry : Registry Client} (sound : Sound registry)
    (name : CString)
    (removal : Removal) (failure : Option DiskFailure) :
    Spared registry (.deleteProfile (some name) removal failure)
      (registry.handleDeleteProfile (some name) removal failure) := by
  have same := same_deleteProfile registry name removal failure
  obtain ⟨files, -⟩ := deleted_cases sound name removal failure
  rcases files with kept | ⟨owner, unshared, removed⟩
  · exact spared_of_same (same.files.trans kept)
  · refine ⟨fun place other _ => ?_, fun profile member _ stays refers => ?_⟩
    · rw [same.files, removed]
      exact Function.update_of_ne (other owner) _ _
    · rw [same.files, removed]
      refine Function.update_of_ne (fun equal => ?_) _ _
      obtain ⟨copy, path, -⟩ := sound.copied member refers
      rw [path] at equal
      obtain ⟨other, stays, shared⟩ := stays
      rw [known, same.host] at stays
      exact unshared other stays ((shared.trans path).trans (resolve_staged_inj equal))

theorem spared_step [DecidableEq Client] {registry : Registry Client} {event : RegistryEvent Client}
    (careful : Careful registry event) (sound : Sound registry) :
    Spared registry event (registry.step event) := by
  cases event with
  | subscribe client => exact spared_of_same (same_subscribe registry client).files
  | unsubscribe client =>
      cases client with
      | none => exact spared_of_same rfl
      | some client => exact spared_of_same rfl
  | getStatus client status =>
      cases client with
      | none => exact spared_of_same rfl
      | some client => exact spared_of_same (same_sendMessage registry client _).files
  | saveProfile archive staging failure =>
      cases archive with
      | none => exact spared_of_same rfl
      | some archive => exact spared_saved sound (careful archive rfl)
  | deleteProfile name removal failure =>
      cases name with
      | none => exact spared_of_same rfl
      | some name => exact spared_deleted sound name removal failure
  | broadcast message => exact spared_of_same (same_broadcast registry _).files
  | died client => exact spared_of_same rfl
  | edited place content =>
      refine ⟨fun other _ apart => ?_, fun profile member _ _ refers => ?_⟩
      · refine Function.update_of_ne (fun same => apart content ?_) _ _
        rw [same]
      · obtain ⟨name, path, -⟩ := sound.copied member refers
        refine Function.update_of_ne ?_ _ _
        rw [path]
        exact (careful name).symm
  | restarted failure => exact spared_of_same rfl

theorem sites_step [DecidableEq Client] (registry : Registry Client)
    (event : RegistryEvent Client) :
    (registry.step event).dir = registry.dir ∧ (registry.step event).cwd = registry.cwd := by
  cases event with
  | subscribe client =>
      have same := same_subscribe registry client
      exact ⟨same.dir, same.cwd⟩
  | unsubscribe client => cases client <;> exact ⟨rfl, rfl⟩
  | getStatus client status =>
      cases client with
      | none => exact ⟨rfl, rfl⟩
      | some client =>
          have same := same_sendMessage registry client (.update status)
          exact ⟨same.dir, same.cwd⟩
  | saveProfile archive staging failure =>
      cases archive with
      | none => exact ⟨rfl, rfl⟩
      | some archive =>
          have same := same_saveProfile registry archive staging failure
          exact ⟨same.dir, same.cwd⟩
  | deleteProfile name removal failure =>
      cases name with
      | none => exact ⟨rfl, rfl⟩
      | some name =>
          have same := same_deleteProfile registry name removal failure
          rw [step, same.dir, same.cwd, deleted]
          split <;> exact ⟨rfl, rfl⟩
  | broadcast message =>
      have same := same_broadcast registry (.update message)
      exact ⟨same.dir, same.cwd⟩
  | died client => exact ⟨rfl, rfl⟩
  | edited place content => exact ⟨rfl, rfl⟩
  | restarted failure => exact ⟨rfl, rfl⟩

/-- A profile whose source can be read is saved with a copy of it; a source that is the copy is
emptied. -/
theorem imported [DecidableEq Client] {registry : Registry Client} {archive : Archive}
    {failure : Option DiskFailure} {profile : VPNProfile} {content : Bytes}
    (unarchived : VPNProfile.unarchive {} archive = profile) (named : profile.name ≠ .empty)
    (path : profile.configPath ≠ .empty)
    (outside : inStore registry.dir profile.configPath = false)
    (source : registry.files (resolve registry.cwd profile.configPath) = some content) :
    { profile with configPath := stagedPath registry.dir profile.name } ∈
        (registry.handleSaveProfile (some archive) {} failure).host.store.profiles ∧
      (registry.handleSaveProfile (some archive) {} failure).files
          (resolve registry.cwd (stagedPath registry.dir profile.name)) =
        some (if resolve registry.cwd profile.configPath =
            resolve registry.cwd (stagedPath registry.dir profile.name) then []
          else content) := by
  have same := same_saveProfile registry archive {} failure
  have staged : registry.stageImportedConfig {} profile =
      ({ profile with configPath := stagedPath registry.dir profile.name },
        Function.update registry.files
          (resolve registry.cwd (stagedPath registry.dir profile.name))
          (some (if resolve registry.cwd profile.configPath =
              resolve registry.cwd (stagedPath registry.dir profile.name) then []
            else content))) := by
    simp only [stageImportedConfig, if_neg path, outside, source, Function.update_idem,
      not_true, if_false, Bool.false_eq_true, reduceCtorEq]
    by_cases own : resolve registry.cwd profile.configPath =
        resolve registry.cwd (stagedPath registry.dir profile.name)
    · rw [if_pos own, own, Function.update_self]
    · rw [if_neg own, Function.update_of_ne own, source]
  rw [same.host, same.files, unarchived]
  constructor
  · have listed := (StoreHost.save_cases registry.host
      (registry.stageImportedConfig {} profile).1 failure
      ((stage_name registry {} profile).symm ▸ named)).1
    rw [saved, listed, staged]
    exact Table.fresh_mem_upsert
  · rw [saved, staged]
    exact Function.update_self _ _ _

/-- A profile of that name refers to the path. -/
def Refers (registry : Registry Client) (name path : CString) : Prop :=
  ∃ profile ∈ registry.known, profile.name = name ∧ profile.configPath = path

theorem refers_saved {registry : Registry Client} {profile : VPNProfile} {staging : Staging}
    {failure : Option DiskFailure} (sound : Sound registry) {name path : CString}
    (foreign : profile.name ≠ name)
    (refers : Refers (registry.saved profile staging failure) name path) :
    Refers registry name path := by
  have staged := stage_name registry staging profile
  obtain ⟨other, member, named, atPath⟩ := refers
  by_cases nameless : profile.name = .empty
  · have unchanged : (registry.saved profile staging failure).host = registry.host := by
      rw [saved, StoreHost.call, ProfileStore.save, if_pos (staged.trans nameless)]
    rw [known, unchanged] at member
    exact ⟨other, member, named, atPath⟩
  · obtain ⟨memory, disk⟩ := StoreHost.save_cases registry.host
      (registry.stageImportedConfig staging profile).1 failure
      (staged.symm ▸ nameless)
    have upserted : ∀ entry ∈ Table.upsert
        (·.name = (registry.stageImportedConfig staging profile).1.name)
        (registry.stageImportedConfig staging profile).1 registry.host.store.profiles,
        entry.name = name → entry ∈ registry.known := by
      intro entry listed same
      obtain rfl | listed := Table.mem_upsert listed
      · exact absurd (staged.symm.trans same) foreign
      · exact List.mem_append_left _ listed
    rcases List.mem_append.mp member with member | member
    · change other ∈ (registry.host.call _).2.store.profiles at member
      rw [memory] at member
      exact ⟨other, upserted other member named, named, atPath⟩
    · change other ∈ (registry.host.call _).2.freshLoad.2.profiles at member
      rcases disk with ⟨kept, -⟩ | written
      · rw [kept] at member
        exact ⟨other, List.mem_append_right _ member, named, atPath⟩
      · rw [written sound.memory.nonempty] at member
        obtain ⟨source, listed, rfl⟩ := List.mem_map.mp member
        exact ⟨source, upserted source listed named, named, atPath⟩

theorem refers_deleted {registry : Registry Client} (sound : Sound registry) {removed : CString}
    {removal : Removal} {failure : Option DiskFailure} {name path : CString}
    (refers : Refers (registry.deleted removed removal failure) name path) :
    Refers registry name path := by
  obtain ⟨-, -, -, host⟩ := deleted_cases sound removed removal failure
  obtain ⟨other, member, named, atPath⟩ := refers
  rw [known, host] at member
  rcases StoreHost.delete_cases registry.host removed failure sound.memory.nonempty with
    ⟨same, -⟩ | ⟨memory, disk⟩
  · rw [same] at member
    exact ⟨other, member, named, atPath⟩
  · rw [memory] at member
    rcases List.mem_append.mp member with member | member
    · exact ⟨other, List.mem_append_left _ (List.mem_of_mem_eraseP member), named, atPath⟩
    · rcases disk with ⟨-, kept⟩ | ⟨-, written⟩
      · rw [kept] at member
        exact ⟨other, List.mem_append_right _ member, named, atPath⟩
      · rw [written] at member
        obtain ⟨source, listed, rfl⟩ := List.mem_map.mp member
        exact ⟨source, List.mem_append_left _ (List.mem_of_mem_eraseP listed), named, atPath⟩

/-- Nothing but a save of its name makes a profile refer to a path. -/
theorem refers_step [DecidableEq Client] {registry : Registry Client}
    {event : RegistryEvent Client} (sound : Sound registry) {name path : CString}
    (unsaved : ¬ Saves name event) (refers : Refers (registry.step event) name path) :
    Refers registry name path := by
  have of_same : ∀ next : Registry Client, next.host = registry.host → Refers next name path →
      Refers registry name path := by
    rintro next host ⟨profile, member, found⟩
    rw [known, host] at member
    exact ⟨profile, member, found⟩
  cases event with
  | subscribe client => exact of_same _ (same_subscribe registry client).host refers
  | unsubscribe client => cases client <;> exact of_same _ rfl refers
  | getStatus client status =>
      cases client with
      | none => exact refers
      | some client => exact of_same _ (same_sendMessage registry client _).host refers
  | saveProfile archive staging failure =>
      cases archive with
      | none => exact refers
      | some archive =>
          have foreign : (VPNProfile.unarchive {} archive).name ≠ name := fun same =>
            unsaved ⟨archive, rfl, same⟩
          obtain ⟨profile, member, found⟩ := refers
          rw [step, known, (same_saveProfile registry archive staging failure).host] at member
          exact refers_saved sound foreign ⟨profile, member, found⟩
  | deleteProfile removed removal failure =>
      cases removed with
      | none => exact refers
      | some removed =>
          obtain ⟨profile, member, found⟩ := refers
          rw [step, known, (same_deleteProfile registry removed removal failure).host] at member
          exact refers_deleted sound ⟨profile, member, found⟩
  | broadcast message => exact of_same _ (same_broadcast registry _).host refers
  | died client => exact refers
  | edited place content => exact refers
  | restarted failure =>
      obtain ⟨profile, member, found⟩ := refers
      refine ⟨profile, List.mem_append_right _ ?_, found⟩
      cases failure with
      | some fault =>
          rcases List.mem_append.mp member with member | member
          · cases member
          · exact member
      | none =>
          rcases List.mem_append.mp member with member | member
          · exact member
          · exact member

theorem sound_run [DecidableEq Client] {dir : CString} {cwd : Place} {files : Files}
    {events : List (RegistryEvent Client)}
    (careful : Run.Along step Careful { dir, cwd, files } events) :
    Sound (Run.run step { dir, cwd, files } events) ∧
      (Run.run step { dir, cwd, files } events).dir = dir ∧
      (Run.run step { dir, cwd, files } events).cwd = cwd := by
  have preserved : ∀ (registry : Registry Client) (event : RegistryEvent Client),
      Careful registry event → (Sound registry ∧ registry.dir = dir ∧ registry.cwd = cwd) →
      Sound (registry.step event) ∧ (registry.step event).dir = dir ∧
        (registry.step event).cwd = cwd := by
    rintro registry event careful ⟨sound, atDir, atCwd⟩
    obtain ⟨sameDir, sameCwd⟩ := sites_step registry event
    exact ⟨sound_step careful sound, sameDir.trans atDir, sameCwd.trans atCwd⟩
  have fresh : Sound ({ dir, cwd, files } : Registry Client) := ⟨Covered.nil, Covered.nil⟩
  exact Run.invariant_along preserved careful ⟨fresh, rfl, rfl⟩

/-- From a fresh install on, as long as the events are careful: every profile that refers to a
copy has it, in memory and on the disk, across restarts; and no event changes a file that is not
a copy, or a copy that some profile refers to before and after it, the saved one apart. -/
theorem copies_last [DecidableEq Client] (dir : CString) (cwd : Place) (files : Files)
    (events : List (RegistryEvent Client)) (event : RegistryEvent Client)
    (careful : Run.Along step Careful { dir, cwd, files } (events ++ [event])) :
    (∀ profile ∈ (Run.run step { dir, cwd, files } (events ++ [event])).known,
        inStore dir profile.configPath = true →
          ((Run.run step { dir, cwd, files } (events ++ [event])).files
            (resolve cwd profile.configPath)).isSome = true) ∧
      Spared (Run.run step { dir, cwd, files } events) event
        (Run.run step { dir, cwd, files } (events ++ [event])) := by
  obtain ⟨earlier, last⟩ := Run.along_append.mp careful
  obtain ⟨sound, -, -⟩ := sound_run earlier
  obtain ⟨next, atDir, atCwd⟩ := sound_run careful
  constructor
  · intro profile member refers
    rw [← atDir] at refers
    obtain ⟨-, -, there⟩ := next.copied member refers
    rw [atCwd] at there
    exact there
  · rw [Run.run_append, Run.run_cons, Run.run_nil]
    exact spared_step last.1 sound

/-- What a copy holds stays as it is until a profile of its name is saved again. -/
theorem copy_stays [DecidableEq Client] {registry : Registry Client} {name owner : CString}
    {later : List (RegistryEvent Client)} (sound : Sound registry)
    (careful : Run.Along step Careful registry later)
    (unsaved : ∀ event ∈ later, ¬ Saves name event)
    (kept : Refers (Run.run step registry later) name (stagedPath registry.dir owner)) :
    (Run.run step registry later).files (resolve registry.cwd (stagedPath registry.dir owner)) =
        registry.files (resolve registry.cwd (stagedPath registry.dir owner)) ∧
      Refers registry name (stagedPath registry.dir owner) := by
  induction later generalizing registry with
  | nil => exact ⟨rfl, kept⟩
  | cons event later continued =>
      obtain ⟨atDir, atCwd⟩ := sites_step registry event
      have rest := continued (sound_step careful.1 sound) careful.2
        (fun event member => unsaved event (List.mem_cons_of_mem _ member))
      rw [atDir, atCwd] at rest
      obtain ⟨same, refers⟩ := rest kept
      have first := unsaved event List.mem_cons_self
      have before := refers_step sound first refers
      obtain ⟨profile, member, rfl, atPath⟩ := before
      obtain ⟨other, stays, -, alike⟩ := refers
      have spared := (spared_step careful.1 sound).copies profile member first
        ⟨other, stays, alike.trans atPath.symm⟩ (atPath ▸ inStore_stagedPath _ _)
      rw [atPath] at spared
      exact ⟨same.trans spared, profile, member, rfl, atPath⟩

/-- The copy of an imported configuration holds what its source held then, whatever becomes of
the source, for as long as its profile refers to it and is not saved again; a source that is the
copy in another spelling is emptied before it is read. -/
theorem import_lasts [DecidableEq Client] (dir : CString) (cwd : Place) (files : Files)
    (events later : List (RegistryEvent Client)) {archive : Archive}
    {failure : Option DiskFailure} (profile : VPNProfile) (content : Bytes)
    (careful : Run.Along step Careful { dir, cwd, files }
      (events ++ .saveProfile (some archive) {} failure :: later))
    (unarchived : VPNProfile.unarchive {} archive = profile) (named : profile.name ≠ .empty)
    (path : profile.configPath ≠ .empty) (outside : inStore dir profile.configPath = false)
    (source : (Run.run step { dir, cwd, files } events).files (resolve cwd profile.configPath) =
      some content)
    (unsaved : ∀ event ∈ later, ¬ Saves profile.name event)
    (kept : Refers (Run.run step { dir, cwd, files }
      (events ++ .saveProfile (some archive) {} failure :: later)) profile.name
        (stagedPath dir profile.name)) :
    (Run.run step { dir, cwd, files } (events ++ .saveProfile (some archive) {} failure :: later)
      ).files (resolve cwd (stagedPath dir profile.name)) =
      some (if resolve cwd profile.configPath = resolve cwd (stagedPath dir profile.name) then []
        else content) := by
  obtain ⟨earlier, step, after⟩ := Run.along_append.mp careful
  obtain ⟨sound, atDir, atCwd⟩ := sound_run earlier
  rw [Run.run_append, Run.run_cons] at kept ⊢
  generalize Run.run Registry.step { dir, cwd, files } events = registry at *
  subst atDir atCwd
  obtain ⟨nextDir, nextCwd⟩ := sites_step registry (.saveProfile (some archive) {} failure)
  have stays := (copy_stays (sound_step step sound) after unsaved (by rw [nextDir]; exact kept)).1
  rw [nextDir, nextCwd] at stays
  exact stays.trans (imported unarchived named path outside source).2

end Registry

namespace Sample

def configs : CString := .ofBytes (ascii "/configs")

/-- The file that the profile of the office is imported from. -/
def officeFile : Files := fun place =>
  if place = [ascii "boot", ascii "home", ascii "office.ovpn"] then some (ascii "client") else none

def officeSaved : RegistryEvent Nat := .saveProfile (some StoreHost.Sample.office.archive) {} none

def officeRemoved : RegistryEvent Nat :=
  .edited [ascii "boot", ascii "home", ascii "office.ovpn"] none

end Sample

namespace Registry

theorem careful_officeSaved : Careful
    ({ dir := Sample.configs, cwd := [], files := Sample.officeFile } : Registry Nat)
    Sample.officeSaved := by
  rintro given same
  cases same
  refine ⟨fun inside => ?_, fun other member => (nomatch member), fun _ => rfl⟩
  have outside : inStore Sample.configs
      (VPNProfile.unarchive {} StoreHost.Sample.office.archive).configPath = false := by
    decide +kernel
  exact absurd inside (outside ▸ Bool.false_ne_true)

theorem copies_last_office :
    (∀ profile ∈ (Run.run step ({ dir := Sample.configs, cwd := [], files := Sample.officeFile } :
        Registry Nat) ([] ++ [Sample.officeSaved])).known,
      inStore Sample.configs profile.configPath = true →
        ((Run.run step ({ dir := Sample.configs, cwd := [], files := Sample.officeFile } :
          Registry Nat) ([] ++ [Sample.officeSaved])).files
            (resolve [] profile.configPath)).isSome = true) ∧
      Spared (Run.run step ({ dir := Sample.configs, cwd := [], files := Sample.officeFile } :
          Registry Nat) []) Sample.officeSaved
        (Run.run step ({ dir := Sample.configs, cwd := [], files := Sample.officeFile } :
          Registry Nat) ([] ++ [Sample.officeSaved])) :=
  copies_last Sample.configs [] Sample.officeFile [] Sample.officeSaved
    ⟨careful_officeSaved, trivial⟩

theorem import_lasts_office :
    (Run.run step ({ dir := Sample.configs, cwd := [], files := Sample.officeFile } : Registry Nat)
      ([] ++ Sample.officeSaved :: [Sample.officeRemoved])).files
        (resolve [] (stagedPath Sample.configs StoreHost.Sample.office.name)) =
      some (ascii "client") := by
  have edited : ∀ registry : Registry Nat, registry.dir = Sample.configs → registry.cwd = [] →
      Careful registry Sample.officeRemoved := by
    rintro registry dir cwd name same
    rw [dir, cwd, resolve_stagedPath] at same
    have store : (storePlace [] Sample.configs).length = 1 := by decide +kernel
    have long := congrArg List.length same
    rw [List.length_append, store] at long
    cases long
  have sites := sites_step
    ({ dir := Sample.configs, cwd := [], files := Sample.officeFile } : Registry Nat)
    Sample.officeSaved
  have whole := import_lasts Sample.configs [] Sample.officeFile [] [Sample.officeRemoved]
    StoreHost.Sample.office (ascii "client")
    ⟨careful_officeSaved, edited _ sites.1 sites.2, trivial⟩ (by decide +kernel)
    (by decide +kernel) (by decide +kernel) (by decide +kernel) (by decide +kernel)
    (fun event member saves => by
      rw [List.mem_singleton.mp member] at saves
      exact saves) ?_
  · rw [if_neg (by decide +kernel)] at whole
    exact whole
  · exact ⟨_, List.mem_append_left _ List.mem_cons_self, rfl, rfl⟩

end Registry

end Careful

end Sotoportego.Server
