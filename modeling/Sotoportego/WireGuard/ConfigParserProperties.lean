import Sotoportego.Lib.LastWrite
import Sotoportego.WireGuard.ConfigParser

/-!
# Entries of a config, and the ports they leave

The lines of a text come down to the entries of the `[Interface]` sections and of the first
`[Peer]`, and each field is what the last of its entries wrote. A port text is read by
`atoi` and cut to sixteen bits, so it keeps its value exactly when nothing is cut.
-/

set_option autoImplicit false

namespace Sotoportego.WireGuard.WireGuardConfigParser

open Octets CText

/-! ## Entries -/

inductive Block where
  | interface
  | firstPeer
  deriving DecidableEq

structure Entry where
  block : Block
  key : Bytes
  value : Bytes

def setEntry (config : WireGuardConfig) (entry : Entry) : WireGuardConfig :=
  match entry.block with
  | .interface => interfaceEntry config entry.key entry.value
  | .firstPeer => { config with peer := peerEntry config.peer entry.key entry.value }

/-! ## What one entry sets -/

/-- What one key leaves in a field. -/
def keyed {Value : Type} (wanted : Bytes) (read : Bytes → Option Value) (key value : Bytes)
    (old : Value) : Value :=
  (if key = wanted then read value else none).getD old

/-- The text of a field is the value as it stands. -/
def readText (value : Bytes) : Option CString := some (.ofBytes value)

def readNumber (value : Bytes) : Option Int32 := some (.ofInt (atoi (.ofBytes value)))

def readHost (value : Bytes) : Option CString := (endpointParts value).1.map CString.ofBytes

def readPort (value : Bytes) : Option UInt16 := (endpointParts value).2.map portOf

/-- Every field of the interface takes the value of its own key. -/
theorem interfaceEntry_eq (config : WireGuardConfig) (key value : Bytes) :
    interfaceEntry config key value =
      { config with
        privateKey := keyed (ascii "privatekey") readText key value config.privateKey
        address := keyed (ascii "address") readText key value config.address
        dns := keyed (ascii "dns") readText key value config.dns
        listenPort := keyed (ascii "listenport") (some ∘ portOf) key value config.listenPort
        mtu := keyed (ascii "mtu") readNumber key value config.mtu } := by
  unfold interfaceEntry keyed
  split
  · next same => subst same; rfl
  · split
    · next same => subst same; rfl
    · split
      · next same => subst same; rfl
      · split
        · next same => subst same; rfl
        · split
          · next same => subst same; rfl
          · rfl

theorem interfaceEntry_peer (config : WireGuardConfig) (key value : Bytes) :
    (interfaceEntry config key value).peer = config.peer := by
  rw [interfaceEntry_eq]

/-- Every field of a peer takes the value of its own key, the endpoint's both parts. -/
theorem peerEntry_eq (peer : WireGuardPeer) (key value : Bytes) :
    peerEntry peer key value =
      { peer with
        publicKey := keyed (ascii "publickey") readText key value peer.publicKey
        presharedKey := keyed (ascii "presharedkey") readText key value peer.presharedKey
        endpointHost := keyed (ascii "endpoint") readHost key value peer.endpointHost
        endpointPort := keyed (ascii "endpoint") readPort key value peer.endpointPort
        allowedIPs := keyed (ascii "allowedips") readText key value peer.allowedIPs
        persistentKeepalive :=
          keyed (ascii "persistentkeepalive") readNumber key value peer.persistentKeepalive } := by
  unfold peerEntry keyed
  split
  · next same => subst same; rfl
  · split
    · next same => subst same; rfl
    · split
      · next same => subst same; rfl
      · split
        · next same => subst same; rfl
        · split
          · next same => subst same; rfl
          · rfl

/-! ## Lines in their place -/

/-- Where a line stands: its section, and the `[Peer]` blocks so far. -/
abbrev Place := Section × Nat

def Place.block : Place → Option Block
  | (.none, _) => none
  | (.interface, _) => some .interface
  | (.peer, peerCount) => if peerCount = 1 then some .firstPeer else none

def Place.move (place : Place) (raw : Bytes) : Place :=
  match trim raw with
  | [] => place
  | first :: rest =>
      if first = 35 ∨ first = 59 then place
      else if first = 91 then header (toLower (trim (rest.takeWhile (· ≠ 93)))) place.2
      else place

def Place.entry (place : Place) (raw : Bytes) : Option Entry :=
  match trim raw with
  | [] => none
  | first :: rest =>
      if first = 35 ∨ first = 59 ∨ first = 91 then none
      else
        (keyValue (first :: rest)).bind fun pair =>
          place.block.map fun block => { block := block, key := pair.1, value := pair.2 }

/-- The entries of the lines, in the blocks that are read. -/
def entries : Place → List Bytes → List Entry
  | _, [] => []
  | place, raw :: lines => (place.entry raw).toList ++ entries (place.move raw) lines

def Pass.where (pass : Pass) : Place := (pass.place, pass.peerCount)

theorem pass_entry (pass : Pass) (key value : Bytes) :
    pass.entry key value =
      { pass with config := ((pass.where.block.map fun block =>
          ({ block := block, key := key, value := value } : Entry)).toList.foldl setEntry
            pass.config) } := by
  obtain ⟨config, place, peerCount⟩ := pass
  cases place with
  | none => rfl
  | interface => rfl
  | peer =>
      simp only [Pass.entry, Pass.where, Place.block]
      split <;> rfl

theorem pass_line (pass : Pass) (raw : Bytes) :
    (pass.line raw).where = pass.where.move raw ∧
      (pass.line raw).config = (pass.where.entry raw).toList.foldl setEntry pass.config := by
  unfold Pass.line Place.move Place.entry
  cases trim raw with
  | nil => exact ⟨rfl, rfl⟩
  | cons first rest =>
      by_cases comment : first = 35 ∨ first = 59
      · simp [comment, ← or_assoc]
      · by_cases opening : first = 91
        · subst opening
          simp [Pass.where]
        · have plain : ¬ (first = 35 ∨ first = 59 ∨ first = 91) := by
            rw [← or_assoc]
            exact not_or.mpr ⟨comment, opening⟩
          simp only [if_neg comment, if_neg opening, if_neg plain]
          cases keyValue (first :: rest) with
          | none => exact ⟨rfl, rfl⟩
          | some pair =>
              simp only [pass_entry, Option.bind_some, and_true]
              rfl

theorem pass_entries (lines : List Bytes) (pass : Pass) :
    (lines.foldl Pass.line pass).config =
      (entries pass.where lines).foldl setEntry pass.config := by
  induction lines generalizing pass with
  | nil => rfl
  | cons raw lines continued =>
      obtain ⟨moved, written⟩ := pass_line pass raw
      rw [List.foldl_cons, continued, moved, written, entries, List.foldl_append]

/-- The entries of a text. -/
def textEntries (text : Bytes) : List Entry := entries (.none, 0) (text.splitOn 10)

theorem parseText_entries (text : Bytes) (config : WireGuardConfig) :
    parseText text config = (textEntries text).foldl setEntry config :=
  pass_entries (text.splitOn 10) { config := config }

/-! ## Port texts -/

/-- The port text of an `Endpoint` of the first `[Peer]`. -/
def endpointPortText (entry : Entry) : Option Bytes :=
  if entry.block = .firstPeer ∧ entry.key = ascii "endpoint" then (endpointParts entry.value).2
  else none

def listenPortText (entry : Entry) : Option Bytes :=
  if entry.block = .interface ∧ entry.key = ascii "listenport" then some entry.value else none

def endpointPortTexts (text : Bytes) : List Bytes := (textEntries text).filterMap endpointPortText

def listenPortTexts (text : Bytes) : List Bytes := (textEntries text).filterMap listenPortText

theorem endpointPort_setEntry (config : WireGuardConfig) (entry : Entry) :
    (setEntry config entry).peer.endpointPort =
      ((endpointPortText entry).map portOf).getD config.peer.endpointPort := by
  obtain ⟨block, key, value⟩ := entry
  cases block with
  | interface => simp [setEntry, interfaceEntry_peer, endpointPortText]
  | firstPeer =>
      simp only [setEntry, peerEntry_eq, keyed, endpointPortText, true_and]
      by_cases named : key = ascii "endpoint"
      · rw [if_pos named, if_pos named]
        rfl
      · rw [if_neg named, if_neg named]
        rfl

theorem listenPort_setEntry (config : WireGuardConfig) (entry : Entry) :
    (setEntry config entry).listenPort =
      ((listenPortText entry).map portOf).getD config.listenPort := by
  obtain ⟨block, key, value⟩ := entry
  cases block with
  | interface =>
      simp only [setEntry, interfaceEntry_eq, keyed, listenPortText, true_and]
      by_cases named : key = ascii "listenport"
      · rw [if_pos named, if_pos named]
        rfl
      · rw [if_neg named, if_neg named]
        rfl
  | firstPeer => simp [setEntry, listenPortText]

theorem endpointPort_last (text : Bytes) :
    (parseText text {}).peer.endpointPort =
      ((endpointPortTexts text).getLast?.map portOf).getD 0 := by
  rw [parseText_entries, ← List.getLast?_map, endpointPortTexts, List.map_filterMap]
  exact @LastWrite.foldl_field _ _ _ setEntry (·.peer.endpointPort)
    (fun entry => (endpointPortText entry).map portOf) endpointPort_setEntry _ {}

theorem listenPort_last (text : Bytes) :
    (parseText text {}).listenPort = ((listenPortTexts text).getLast?.map portOf).getD 0 := by
  rw [parseText_entries, ← List.getLast?_map, listenPortTexts, List.map_filterMap]
  exact @LastWrite.foldl_field _ _ _ setEntry (·.listenPort)
    (fun entry => (listenPortText entry).map portOf) listenPort_setEntry _ {}

/-! ## Ports that keep their value -/

/-- The value of a port text: a whole number in range. -/
def validPort (text : Bytes) : Option UInt16 :=
  (wholeNumber (.ofBytes text)).bind fun value =>
    if 1 ≤ value ∧ value ≤ 65535 then some (.ofNat value.toNat) else none

/-- A port is zero or the value of one of its texts, and a last text without a value gives zero. -/
def PortKept (texts : List Bytes) (port : UInt16) : Prop :=
  (port = 0 ∨ ∃ text ∈ texts, validPort text = some port) ∧
    ∀ last ∈ texts.getLast?, validPort last = none → port = 0

def PortsKept (text : Bytes) : Prop :=
  PortKept (endpointPortTexts text) (parseText text {}).peer.endpointPort ∧
    PortKept (listenPortTexts text) (parseText text {}).listenPort

/-- The last text has a value, or the number it starts with is cut to nothing. -/
def Uncut (texts : List Bytes) : Prop :=
  ∀ last ∈ texts.getLast?, validPort last ≠ none ∨ strtol (.ofBytes last) % 2 ^ 16 = 0

theorem portOf_eq (text : Bytes) :
    portOf text = UInt16.ofNat (strtol (.ofBytes text) % 2 ^ 16).toNat := by
  have cut : (atoi (.ofBytes text)) % 2 ^ 16 = strtol (.ofBytes text) % 2 ^ 16 := by
    have wrapped : (atoi (.ofBytes text)) % 2 ^ 32 = strtol (.ofBytes text) % 2 ^ 32 :=
      Int.bmod_emod
    omega
  rw [portOf, UInt16.ofInt, cut]

theorem portOf_eq_zero (text : Bytes) : portOf text = 0 ↔ strtol (.ofBytes text) % 2 ^ 16 = 0 := by
  rw [portOf_eq, ← UInt16.toNat_inj, UInt16.toNat_ofNat']
  change (strtol (.ofBytes text) % 2 ^ 16).toNat % 2 ^ 16 = 0 ↔ _
  omega

theorem portOf_valid {text : Bytes} {port : UInt16} (valid : validPort text = some port) :
    portOf text = port := by
  obtain ⟨value, whole, ranged⟩ := Option.bind_eq_some_iff.mp valid
  split at ranged
  · next bounds =>
    have named : strtol (.ofBytes text) = value := by
      unfold wholeNumber at whole
      simp only at whole
      split at whole
      · exact Option.some.inj whole
      · cases whole
    have small : value % 2 ^ 16 = value := by omega
    rw [portOf_eq, named, small]
    exact Option.some.inj ranged
  · cases ranged

theorem portKept_iff (texts : List Bytes) :
    PortKept texts ((texts.getLast?.map portOf).getD 0) ↔ Uncut texts := by
  unfold PortKept Uncut
  cases found : texts.getLast? with
  | none => simp
  | some last =>
      have inside : last ∈ texts := List.mem_of_getLast? found
      simp only [Option.map_some, Option.getD_some, Option.mem_def, Option.some.injEq,
        forall_eq']
      cases valid : validPort last with
      | some port =>
          simp only [ne_eq, reduceCtorEq, not_false_eq_true, true_or, iff_true, false_imp_iff,
            and_true]
          exact .inr ⟨last, inside, valid.trans (congrArg some (portOf_valid valid).symm)⟩
      | none =>
          simp only [ne_eq, not_true_eq_false, false_or, true_imp_iff, ← portOf_eq_zero]
          exact ⟨fun kept => kept.2, fun zero => ⟨.inl zero, zero⟩⟩

theorem portsKept_iff (text : Bytes) :
    PortsKept text ↔ Uncut (endpointPortTexts text) ∧ Uncut (listenPortTexts text) := by
  rw [PortsKept, endpointPort_last, listenPort_last, portKept_iff, portKept_iff]

namespace PortSample

/-- One more than sixteen bits hold. -/
def wide : Bytes := ascii "[Peer]\nEndpoint = gateway:65537\n"

end PortSample

open PortSample in
theorem port_wraps :
    endpointPortTexts wide = [ascii "65537"] ∧ (parseText wide {}).peer.endpointPort = 1 ∧
      ¬ PortsKept wide := by
  have texts : endpointPortTexts wide = [ascii "65537"] := by decide +kernel
  have written : (parseText wide {}).peer.endpointPort = 1 := by decide +kernel
  have outside : validPort (ascii "65537") = none := by decide +kernel
  refine ⟨texts, written, fun kept => ?_⟩
  have zero := kept.1.2 (ascii "65537") (by rw [texts]; rfl) outside
  rw [written] at zero
  exact absurd zero (by decide)

end Sotoportego.WireGuard.WireGuardConfigParser
