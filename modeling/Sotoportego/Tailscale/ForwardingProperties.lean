import Sotoportego.Tailscale.CidrProperties
import Sotoportego.Tailscale.ExitNodeProperties

/-!
# Packets for the exit node

A packet that only default ranges cover goes to the first peer in the set that advertises one.
The demultiplexer does not know which peer the exit node is, so the packet reaches the exit
node exactly when that first peer is the exit node.
-/

set_option autoImplicit false

namespace Sotoportego.Tailscale

open Octets CText Ipv4

/-! ## Dotted addresses -/

theorem octet_digits : ∀ octet : Fin 256, ascii (toString octet.val) ≠ [] ∧
    (ascii (toString octet.val)).all isDigit = true ∧
    decimal (ascii (toString octet.val)) = octet.val := by
  decide +kernel

theorem octet_field (octet : UInt8) : Field (ascii (toString octet.toNat)) ∧
    decimal (ascii (toString octet.toNat)) = octet.toNat := by
  obtain ⟨nonempty, digits, value⟩ := octet_digits ⟨octet.toNat, octet.toNat_lt⟩
  have small : octet.toNat ≤ 255 := Nat.le_of_lt_succ octet.toNat_lt
  exact ⟨⟨nonempty, List.all_eq_true.mp digits, value.trans_le small⟩, value⟩

/-- The four octets at an offset as one number. -/
def quadAt (packet : Bytes) (offset : Nat) : Nat :=
  (((octetAt packet offset).toNat * 256 + (octetAt packet (offset + 1)).toNat) * 256 +
    (octetAt packet (offset + 2)).toNat) * 256 + (octetAt packet (offset + 3)).toNat

/-- The printed address reads back. -/
theorem parseIpv4_dottedQuad (packet : Bytes) (offset : Nat) :
    TSPeerSet.parseIpv4 (dottedQuad packet offset) = some (quadAt packet offset) := by
  have field (position : Nat) := octet_field (octetAt packet position)
  have printed := Quad.fields (field offset).1 (field (offset + 1)).1 (field (offset + 2)).1
    (field (offset + 3)).1
  rw [(field offset).2, (field (offset + 1)).2, (field (offset + 2)).2,
    (field (offset + 3)).2] at printed
  have parsed := parseIpv4_quad printed
  rw [dottedQuad, quadAt]
  simpa only [List.append_assoc, List.cons_append, List.nil_append, Nat.add_zero] using parsed

/-! ## Default ranges -/

/-- A peer with a range of width zero. -/
def advertisesDefault (peer : ManagedPeer) : Bool :=
  peer.allowedIPs.any fun cidr => (TSPeerSet.parseCidr cidr).any fun range => range.2 = 0

/-- No range covers the address but those of width zero. -/
def OnlyDefault (set : TSPeerSet) (address : Nat) : Prop :=
  ∀ peer ∈ set.peers, ∀ cidr ∈ peer.allowedIPs, ∀ range ∈ TSPeerSet.parseCidr cidr,
    TSPeerSet.covers range.1 range.2 address = true → range.2 = 0

instance (set : TSPeerSet) (address : Nat) : Decidable (OnlyDefault set address) := by
  unfold OnlyDefault
  infer_instance

theorem parseIpv4_lt {source : CString} {address : Nat}
    (parsed : TSPeerSet.parseIpv4 source = some address) : address < 2 ^ 32 := by
  simp only [TSPeerSet.parseIpv4, Option.bind_eq_bind, Option.bind_eq_some_iff] at parsed
  obtain ⟨first, _, _, _, second, _, _, _, third, _, _, _, fourth, _, whole⟩ := parsed
  split at whole
  · cases whole
  · cases whole
    omega

theorem parseCidr_lt {cidr : Bytes} {network width : Nat}
    (parsed : TSPeerSet.parseCidr cidr = some (network, width)) : network < 2 ^ 32 := by
  have read : ∃ address, TSPeerSet.parseIpv4 (.ofBytes (cidr.takeWhile (· ≠ 47))) = some address ∧
      network = address := by
    simp only [TSPeerSet.parseCidr, Option.bind_eq_bind, Option.pure_def] at parsed
    split_ifs at parsed
    all_goals
      obtain ⟨address, read, same⟩ := Option.bind_eq_some_iff.mp parsed
      cases same
      exact ⟨_, read, rfl⟩
  obtain ⟨address, parsed, rfl⟩ := read
  exact parseIpv4_lt parsed

theorem covers_zero {network address : Nat} (left : network < 2 ^ 32) (right : address < 2 ^ 32) :
    TSPeerSet.covers network 0 address = true := by
  rw [TSPeerSet.covers, Nat.sub_zero, Nat.div_eq_of_lt left, Nat.div_eq_of_lt right]
  rfl

/-- The ranges of one peer: a default range is taken when nothing is held yet. -/
theorem foldl_considerRange {address : Nat} (small : address < 2 ^ 32) (position : Nat)
    {ranges : List Bytes}
    (only : ∀ cidr ∈ ranges, ∀ range ∈ TSPeerSet.parseCidr cidr,
      TSPeerSet.covers range.1 range.2 address = true → range.2 = 0) :
    (∀ held, ranges.foldl (TSPeerSet.considerRange address position) (some (held, 0)) =
      some (held, 0)) ∧
    ranges.foldl (TSPeerSet.considerRange address position) none =
      if ranges.any (fun cidr => (TSPeerSet.parseCidr cidr).any fun range => range.2 = 0) then
        some (position, 0)
      else none := by
  induction ranges with
  | nil => exact ⟨fun _ => rfl, rfl⟩
  | cons cidr ranges continued =>
      obtain ⟨keeps, takes⟩ := continued fun later member =>
        only later (List.mem_cons_of_mem _ member)
      have head := only cidr List.mem_cons_self
      cases parsed : TSPeerSet.parseCidr cidr with
      | none => simp [TSPeerSet.considerRange, parsed, keeps, takes]
      | some range =>
          obtain ⟨network, width⟩ := range
          by_cases zero : width = 0
          · subst zero
            have covered := covers_zero (parseCidr_lt parsed) small
            simp [TSPeerSet.considerRange, parsed, covered, keeps]
          · have uncovered : TSPeerSet.covers network width address = false :=
              Bool.eq_false_iff.mpr fun covered => zero (head _ parsed covered)
            simp [TSPeerSet.considerRange, parsed, uncovered, zero, keeps, takes]

/-- With default ranges only, the demultiplexer takes the first peer that advertises one. -/
theorem findByAllowedIP_default {set : TSPeerSet} {ipv4 : CString} {address : Nat}
    (parsed : TSPeerSet.parseIpv4 ipv4 = some address) (only : OnlyDefault set address) :
    set.findByAllowedIP ipv4 = set.peers.findIdx? advertisesDefault := by
  have small := parseIpv4_lt parsed
  have walk (peers : List ManagedPeer) (start : Nat)
      (every : ∀ peer ∈ peers, ∀ cidr ∈ peer.allowedIPs, ∀ range ∈ TSPeerSet.parseCidr cidr,
        TSPeerSet.covers range.1 range.2 address = true → range.2 = 0) :
      (∀ held, (peers.zipIdx start).foldl (fun best entry =>
          entry.1.allowedIPs.foldl (TSPeerSet.considerRange address entry.2) best)
          (some (held, 0)) = some (held, 0)) ∧
      ((peers.zipIdx start).foldl (fun best entry =>
          entry.1.allowedIPs.foldl (TSPeerSet.considerRange address entry.2) best)
          none).map Prod.fst = (peers.findIdx? advertisesDefault).map (· + start) := by
    induction peers generalizing start with
    | nil => exact ⟨fun _ => rfl, rfl⟩
    | cons peer peers continued =>
        obtain ⟨keeps, takes⟩ := continued (start + 1) fun later member =>
          every later (List.mem_cons_of_mem _ member)
        obtain ⟨held, fresh⟩ :=
          foldl_considerRange small start (every peer List.mem_cons_self)
        refine ⟨fun position => by simp [held, keeps], ?_⟩
        rw [List.zipIdx_cons, List.foldl_cons, fresh, List.findIdx?_cons]
        by_cases advertises : advertisesDefault peer = true
        · have any : peer.allowedIPs.any _ = true := advertises
          rw [if_pos any, if_pos advertises, keeps]
          simp
        · have any : ¬ peer.allowedIPs.any _ = true := advertises
          rw [if_neg any, if_neg advertises, takes, Option.map_map]
          congr 1
          funext position
          simp only [Function.comp_apply]
          omega
  rw [TSPeerSet.findByAllowedIP, parsed]
  simpa using (walk set.peers 0 only).2

/-! ## Forwarding -/

namespace ExitRouting

/-- The reader of the tun hands the packet to the active exit node. -/
def Forwarded (exit : ExitRouting) (packet : Bytes) : Prop :=
  (({ set := exit.set } : DataPlane).route packet).bind (fun position =>
    exit.set.peers[position]?.map ManagedPeer.nodeKeyHex) = some exit.routing.activeExitNode

/-- The first peer that advertises a default range is the active exit node. -/
def FirstDefault (exit : ExitRouting) : Prop :=
  (exit.set.peers.find? advertisesDefault).map ManagedPeer.nodeKeyHex =
    some exit.routing.activeExitNode

instance (exit : ExitRouting) (packet : Bytes) : Decidable (exit.Forwarded packet) :=
  inferInstanceAs (Decidable (_ = _))

/-- In every state of every run, a packet that only default ranges cover is handed to the
active exit node exactly when that is the first peer with such a range. -/
theorem exit_forwarding (controlHost : CString) (table : List KernelRoute) (events : List Event)
    (packet : Bytes) (whole : 20 ≤ packet.length) (version : octetAt packet 0 >>> 4 = 4)
    (only : OnlyDefault (Run.run step (fresh controlHost table) events).set (quadAt packet 16)) :
    (Run.run step (fresh controlHost table) events).Forwarded packet ↔
      (Run.run step (fresh controlHost table) events).FirstDefault := by
  generalize Run.run step (fresh controlHost table) events = exit at only ⊢
  have header : ¬ (packet.length < 20 ∨ octetAt packet 0 >>> 4 ≠ 4) := by
    rintro (short | other)
    · omega
    · exact other version
  have routed : ({ set := exit.set } : DataPlane).route packet =
      exit.set.peers.findIdx? advertisesDefault := by
    rw [DataPlane.route, if_neg header]
    exact findByAllowedIP_default (parseIpv4_dottedQuad packet 16) only
  rw [Forwarded, FirstDefault, routed, List.find?_eq_bind_findIdx?_getElem?, Option.map_bind]
  rfl

namespace Sample

/-- A header to 8.8.8.8. -/
def packet : Bytes := [0x45, 0, 0, 20, 0, 0, 0, 0, 64, 17, 0, 0, 100, 64, 0, 1, 8, 8, 8, 8]

def exitNode (key : String) : ManagedPeer :=
  { nodeKeyHex := text key, allowedIPs := [ascii "0.0.0.0/0"] }

/-- Of two exit nodes the one with the given key is enabled. -/
def choosing (key : String) : List Event :=
  [.peers { peers := [exitNode "0a", exitNode "0b"] },
    .tunUp (text "tun/0") (text "100.64.0.1"), .request (text key), .tick resolver]

end Sample

theorem exit_forwarding_sample :
    let exit := Run.run step (fresh (text "control") Sample.table) (Sample.choosing "0a")
    exit.routing.activeExitNode = text "0a" ∧
      (exit.Forwarded Sample.packet ↔ exit.FirstDefault) :=
  ⟨by decide +kernel, exit_forwarding (text "control") Sample.table (Sample.choosing "0a")
    Sample.packet (by decide) (by decide) (by decide +kernel)⟩

/-- The second of two exit nodes is active, and the first gets the packet. -/
theorem second_exit_bypassed :
    let exit := Run.run step (fresh (text "control") Sample.table) (Sample.choosing "0b")
    exit.routing.activeExitNode = text "0b" ∧
      (∀ peer ∈ exit.set.peers, exitCapable peer = true) ∧
      OnlyDefault exit.set (quadAt Sample.packet 16) ∧ ¬ exit.Forwarded Sample.packet := by
  decide +kernel

end ExitRouting

end Sotoportego.Tailscale
