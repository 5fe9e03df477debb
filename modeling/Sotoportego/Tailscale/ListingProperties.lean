import Sotoportego.Tailscale.JsonTextProperties
import Sotoportego.Tailscale.Netmap

/-!
# A response that lists node keys

Any node keys without a NUL can be listed, so a control server can keep every peer that is
managed and put a new one behind them.
-/

set_option autoImplicit false

namespace Sotoportego.Tailscale.Listing

open Octets CText JsonParser JsonText

/-! ## Texts -/

/-- The octets between the quotes of a string. -/
def escaped (text : Bytes) : Bytes :=
  text.flatMap fun octet => if octet = 34 ∨ octet = 92 then [92, octet] else [octet]

theorem bodyAt_escaped (text out rest : Bytes) :
    bodyAt out (escaped text ++ 34 :: rest) = some (out ++ text, rest) := by
  induction text generalizing out with
  | nil =>
      rw [List.append_nil]
      exact bodyAt_quote out rest
  | cons octet text continued =>
      have later : bodyAt (out ++ [octet]) (escaped text ++ 34 :: rest) =
          some (out ++ octet :: text, rest) := by
        rw [continued, List.append_assoc, List.singleton_append]
      rw [escaped, List.flatMap_cons, ← escaped, List.append_assoc]
      split
      next special =>
        rw [List.cons_append, bodyAt_escape, List.singleton_append]
        have read : escapeAt (octet :: (escaped text ++ 34 :: rest)) =
            some ([octet], escaped text ++ 34 :: rest) := by
          obtain rfl | rfl := special
          · exact escapeAt_short (by decide) _
          · exact escapeAt_short (by decide) _
        rw [read]
        exact later
      next plain =>
        have notQuote : octet ≠ 34 := fun same => plain (.inl same)
        have notEscape : octet ≠ 92 := fun same => plain (.inr same)
        rw [List.singleton_append, bodyAt_octet notQuote notEscape]
        exact later

theorem stringAt_escaped (text rest : Bytes) :
    stringAt (34 :: (escaped text ++ 34 :: rest)) = some (text, rest) := by
  rw [stringAt_quote, bodyAt_escaped, List.nil_append]

theorem valueAt_string (text rest : Bytes) :
    valueAt (34 :: (escaped text ++ 34 :: rest)) = some (.string text, rest) := by
  rw [valueAt_of_skipWs (skipWs_solid rfl _), valueFrom, if_neg (by decide), if_neg (by decide),
    if_pos rfl, bodyAt_escaped, List.nil_append]
  rfl

/-- A peer of which only the node key is given. -/
def peerText (key : CString) : Bytes :=
  123 :: (34 :: (escaped (ascii "Key") ++ 34 :: 58 :: 34 :: (escaped (58 :: key.bytes) ++ [34, 125])))

def peerValue (key : CString) : JsonValue :=
  .object [(ascii "Key", .string (58 :: key.bytes))]

theorem valueAt_peer (key : CString) (rest : Bytes) :
    valueAt (peerText key ++ rest) = some (peerValue key, rest) := by
  have name (tail : Bytes) : stringAt (skipWs (34 :: (escaped (ascii "Key") ++ 34 :: tail))) =
      some (ascii "Key", tail) := by
    rw [skipWs_solid rfl, stringAt_escaped]
  simp only [peerText, List.cons_append, List.append_assoc]
  rw [valueAt_object (skipWs_solid rfl _) (by decide), membersAt_eq, name]
  simp only [Option.bind_some, skipWs_solid (show isWs 58 = false from rfl)]
  rw [skipWs_solid rfl, valueAt_string]
  simp only [Option.bind_some, skipWs_solid (show isWs 125 = false from rfl)]
  rfl

/-- The elements of an array of peers, and its end. -/
def peersText (key : CString) : List CString → Bytes
  | [] => peerText key ++ [93]
  | next :: keys => peerText key ++ 44 :: peersText next keys

theorem elementsAt_peers (seen : List JsonValue) (key : CString) (keys : List CString)
    (rest : Bytes) :
    elementsAt seen (peersText key keys ++ rest) =
      some (seen ++ (key :: keys).map peerValue, rest) := by
  have peer (key : CString) (tail : Bytes) : valueAt (skipWs (peerText key ++ tail)) =
      some (peerValue key, tail) := by
    rw [peerText, List.cons_append, skipWs_solid rfl, ← List.cons_append, ← peerText, valueAt_peer]
  induction keys generalizing seen key with
  | nil =>
      rw [peersText, List.append_assoc, elementsAt_eq, peer]
      simp only [Option.bind_some, List.singleton_append,
        skipWs_solid (show isWs 93 = false from rfl)]
      rfl
  | cons next keys continued =>
      rw [peersText, List.append_assoc, elementsAt_eq, peer]
      simp only [Option.bind_some, List.cons_append, skipWs_solid (show isWs 44 = false from rfl)]
      rw [continued, List.append_assoc, List.singleton_append]
      rfl

/-- A response that lists these peers. -/
def listing (key : CString) (keys : List CString) : Bytes :=
  123 :: (34 :: (escaped (ascii "Peers") ++ 34 :: 58 :: 91 :: (peersText key keys ++ [125])))

def listed (key : CString) (keys : List CString) : JsonValue :=
  .object [(ascii "Peers", .array ((key :: keys).map peerValue))]

theorem parse_listing (key : CString) (keys : List CString) :
    parse (listing key keys) = some (listed key keys) := by
  have name (tail : Bytes) : stringAt (skipWs (34 :: (escaped (ascii "Peers") ++ 34 :: tail))) =
      some (ascii "Peers", tail) := by
    rw [skipWs_solid rfl, stringAt_escaped]
  have elements : valueAt (skipWs (91 :: (peersText key keys ++ [125]))) =
      some (.array ((key :: keys).map peerValue), [125]) := by
    have starts : ∃ tail, skipWs (peersText key keys ++ [125]) = 123 :: tail := by
      cases keys <;> exact ⟨_, skipWs_solid rfl _⟩
    obtain ⟨tail, starts⟩ := starts
    rw [skipWs_solid rfl, valueAt_array starts (by decide), elementsAt_peers]
    rfl
  rw [parse_eq, listing, valueAt_object (skipWs_solid rfl _) (by decide), membersAt_eq, name]
  simp only [Option.bind_some, skipWs_solid (show isWs 58 = false from rfl)]
  rw [elements]
  rfl

theorem find_single (key : Bytes) (value : JsonValue) (name : String) :
    (JsonValue.object [(key, value)]).find name =
      if CString.ofBytes key = CString.ofBytes (ascii name) then some value else none := by
  simp only [JsonValue.find, List.find?_cons, List.find?_nil]
  split <;> simp_all

/-- The netmap entry of such a peer. -/
def peerEntry (key : CString) : NetmapPeer := { nodeKey := key }

theorem parsePeer_peerValue {key : CString} (filled : key ≠ .empty) :
    parsePeer (peerValue key) = some (peerEntry key) := by
  have find := find_single (ascii "Key") (.string (58 :: key.bytes))
  have absent : ∀ name ∈ ["ID", "DiscoKey", "Hostinfo", "Online", "DERP", "AllowedIPs", "Addresses",
      "Endpoints"], CString.ofBytes (ascii "Key") ≠ CString.ofBytes (ascii name) := by
    decide +kernel
  simp only [List.forall_mem_cons] at absent
  obtain ⟨id, discoKey, hostinfo, online, derp, allowed, addresses, endpoints, -⟩ := absent
  have stripped : stripKeyPrefix (.ofBytes (58 :: key.bytes)) = key := by
    have plain : (CString.ofBytes (58 :: key.bytes)).bytes = 58 :: key.bytes := by
      refine List.takeWhile_eq_self_iff.mpr fun octet member => decide_eq_true ?_
      rintro rfl
      obtain zero | inside := List.mem_cons.mp member
      · cases zero
      · exact key.no_nul inside
    rw [stripKeyPrefix]
    simp only [plain]
    rw [if_pos List.mem_cons_self]
    rfl
  have named : (peerValue key).keyMember "Key" = some key := by
    rw [JsonValue.keyMember, JsonValue.stringMember, peerValue, find, if_pos rfl]
    exact congrArg some stripped
  have isObject : (peerValue key).isObject = true := rfl
  rw [parsePeer, if_pos isObject, named]
  simp only [JsonValue.keyMember, JsonValue.stringMember, parseAllowed, peerValue, find, if_neg, id,
    discoKey, hostinfo, online, derp, allowed, addresses, endpoints, not_false_eq_true]
  exact if_neg filled

theorem arrayMember_listed (key : CString) (keys : List CString) :
    (listed key keys).arrayMember "Peers" = some ((key :: keys).map peerValue) := by
  rw [JsonValue.arrayMember, listed, find_single, if_pos rfl]
  rfl

theorem readPeers_listed {key : CString} {keys : List CString}
    (filled : ∀ name ∈ key :: keys, name ≠ .empty) (peers : List NetmapPeer) :
    readPeers (listed key keys) peers = (key :: keys).map peerEntry := by
  have find := find_single (ascii "Peers") (.array ((key :: keys).map peerValue))
  have changed : CString.ofBytes (ascii "Peers") ≠ CString.ofBytes (ascii "PeersChanged") := by
    decide +kernel
  have patched : CString.ofBytes (ascii "Peers") ≠ CString.ofBytes (ascii "PeersChangedPatch") := by
    decide +kernel
  have removed : CString.ofBytes (ascii "Peers") ≠ CString.ofBytes (ascii "PeersRemoved") := by
    decide +kernel
  simp only [readPeers, readRemoved, readPatches, readChanged, readSnapshot, arrayMember_listed]
  simp only [JsonValue.arrayMember, listed, find, if_neg changed, if_neg patched, if_neg removed,
    Option.bind_none]
  have parsed : ∀ name ∈ key :: keys, (parsePeer ∘ peerValue) name = some (peerEntry name) :=
    fun name member => parsePeer_peerValue (filled name member)
  rw [List.filterMap_map, List.filterMap_congr parsed, List.filterMap_eq_map']

end Sotoportego.Tailscale.Listing
