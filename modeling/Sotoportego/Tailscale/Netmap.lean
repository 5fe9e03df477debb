import Sotoportego.Lib.Table
import Sotoportego.Tailscale.Json

/-!
# The network map

One MapResponse is a snapshot or a delta. `TSNetmap.parse` applies the sections in the
source's order; only sections that are present change anything.
-/

set_option autoImplicit false

namespace Sotoportego.Tailscale

open Octets CText

structure NetmapPeer where
  nodeID : Int := 0
  nodeKey : CString := .empty
  discoKey : CString := .empty
  hostname : Bytes := []
  online : Bool := false
  derpRegion : Int := -1
  allowedIPs : List Bytes := []
  endpoints : List Bytes := []
  deriving DecidableEq

structure DerpNode where
  hostName : Bytes := []
  ipv4 : Bytes := []
  ipv6 : Bytes := []
  derpPort : Int := 0
  deriving DecidableEq

structure DerpRegion where
  regionID : Int := 0
  regionCode : Bytes := []
  nodes : List DerpNode := []
  deriving DecidableEq

structure DnsConfig where
  resolvers : List Bytes := []
  domains : List Bytes := []
  deriving DecidableEq

structure TSNetmap where
  selfAddresses : List Bytes := []
  peers : List NetmapPeer := []
  derpRegions : List DerpRegion := []
  dns : DnsConfig := {}
  deriving DecidableEq

/-- Keep what follows the first colon of a `nodekey:` or `discokey:` text. -/
def stripKeyPrefix (key : CString) : CString :=
  if 58 ∈ key.bytes then
    ⟨(key.bytes.dropWhile (· ≠ 58)).tail, fun member =>
      key.no_nul ((List.dropWhile_suffix _).subset (List.mem_of_mem_tail member))⟩
  else key

/-- The text after the last colon, or all of it when there is none. -/
def afterLastColon (text : CString) : CString :=
  .ofBytes (text.bytes.reverse.takeWhile (· ≠ 58)).reverse

def parseDerp (derp : CString) : Int :=
  if derp.bytes = [] then -1 else atoi (afterLastColon derp)

namespace JsonValue

def stringMember (key : String) (value : JsonValue) : Option Bytes :=
  (value.find key).bind asString?

def arrayMember (key : String) (value : JsonValue) : Option (List JsonValue) :=
  (value.find key).bind asArray?

/-- A key text, as far as a C string reaches, without its prefix. -/
def keyMember (key : String) (value : JsonValue) : Option CString :=
  (value.stringMember key).map fun text => stripKeyPrefix (.ofBytes text)

/-- `(int64)AsNumber(0)`: what is no number counts as zero. -/
def asId (value : JsonValue) : Int :=
  truncate 64 (value.asNumber (doubleOfInt 0))

/-- `(int)AsNumber(fallback)`. -/
def asInt (fallback : Int) (value : JsonValue) : Int :=
  truncate 32 (value.asNumber (doubleOfInt fallback))

def collectStrings : JsonValue → List Bytes
  | array elements => elements.filterMap asString?
  | _ => []

end JsonValue

open JsonValue

/-- `AllowedIPs`, or the node's own `Addresses` when that is absent or empty. -/
def parseAllowed (node : JsonValue) : List Bytes :=
  let allowed := ((node.find "AllowedIPs").map collectStrings).getD []
  if allowed = [] then ((node.find "Addresses").map collectStrings).getD [] else allowed

/-- One `tailcfg.Node`; a node without a key is unusable. -/
def parsePeer (node : JsonValue) : Option NetmapPeer :=
  if node.isObject then
    let peer : NetmapPeer :=
      { nodeID := ((node.find "ID").map asId).getD 0
        nodeKey := (node.keyMember "Key").getD .empty
        discoKey := (node.keyMember "DiscoKey").getD .empty
        hostname := ((node.find "Hostinfo").bind (stringMember "Hostname")).getD []
        online := ((node.find "Online").map (asBool false)).getD false
        derpRegion := ((node.stringMember "DERP").map fun derp => parseDerp (.ofBytes derp)).getD (-1)
        allowedIPs := parseAllowed node
        endpoints := ((node.find "Endpoints").map collectStrings).getD [] }
    if peer.nodeKey = .empty then none else some peer
  else none

namespace NetmapPeer

/-- The test of an upsert: the same node key, or the same ID when the first has one. -/
def same (peer stored : NetmapPeer) : Bool :=
  (peer.nodeID ≠ 0 && stored.nodeID = peer.nodeID) || stored.nodeKey = peer.nodeKey

/-- The fields a `PeersChangedPatch` element carries. -/
def applyPatch (fields : JsonValue) (peer : NetmapPeer) : NetmapPeer :=
  { peer with
    endpoints := ((fields.find "Endpoints").map collectStrings).getD peer.endpoints
    derpRegion := ((fields.find "DERPRegion").map (asInt peer.derpRegion)).getD peer.derpRegion
    online := ((fields.find "Online").map (asBool peer.online)).getD peer.online
    nodeKey := (fields.keyMember "Key").getD peer.nodeKey
    discoKey := (fields.keyMember "DiscoKey").getD peer.discoKey }

def hasID (target : Int) (peer : NetmapPeer) : Bool :=
  peer.nodeID = target

end NetmapPeer

def upsertPeer (peers : List NetmapPeer) (peer : NetmapPeer) : List NetmapPeer :=
  Table.upsert peer.same peer peers

/-- One `PeersChanged` element; an unusable node is skipped. -/
def changePeer (peers : List NetmapPeer) (node : JsonValue) : List NetmapPeer :=
  match parsePeer node with
  | some peer => upsertPeer peers peer
  | none => peers

/-- The node a patch element is for. -/
def patchTarget (fields : JsonValue) : Option Int :=
  if fields.isObject then (fields.find "NodeID").map asId else none

def patchPeer (peers : List NetmapPeer) (fields : JsonValue) : List NetmapPeer :=
  match patchTarget fields with
  | some target => Table.amend (NetmapPeer.hasID target) (NetmapPeer.applyPatch fields) peers
  | none => peers

def removePeer (peers : List NetmapPeer) (gone : JsonValue) : List NetmapPeer :=
  peers.eraseP (NetmapPeer.hasID gone.asId)

/-! ## The peer sections of a response -/

def readSnapshot (root : JsonValue) (peers : List NetmapPeer) : List NetmapPeer :=
  match root.arrayMember "Peers" with
  | some nodes => nodes.filterMap parsePeer
  | none => peers

def readChanged (root : JsonValue) (peers : List NetmapPeer) : List NetmapPeer :=
  match root.arrayMember "PeersChanged" with
  | some nodes => nodes.foldl changePeer peers
  | none => peers

def readPatches (root : JsonValue) (peers : List NetmapPeer) : List NetmapPeer :=
  match root.arrayMember "PeersChangedPatch" with
  | some patches => patches.foldl patchPeer peers
  | none => peers

def readRemoved (root : JsonValue) (peers : List NetmapPeer) : List NetmapPeer :=
  match root.arrayMember "PeersRemoved" with
  | some removed => removed.foldl removePeer peers
  | none => peers

def readPeers (root : JsonValue) (peers : List NetmapPeer) : List NetmapPeer :=
  readRemoved root (readPatches root (readChanged root (readSnapshot root peers)))

/-! ## Addresses, relays and name servers -/

def readSelf (root : JsonValue) (addresses : List Bytes) : List Bytes :=
  match (root.find "Node").bind (find "Addresses") with
  | some listed => listed.collectStrings
  | none => addresses

def parseDerpNode (node : JsonValue) : Option DerpNode :=
  if node.isObject then
    some
      { hostName := (node.stringMember "HostName").getD []
        ipv4 := (node.stringMember "IPv4").getD []
        ipv6 := (node.stringMember "IPv6").getD []
        derpPort := ((node.find "DERPPort").map (asInt 0)).getD 0 }
  else none

def parseDerpRegion (entry : Bytes × JsonValue) : Option DerpRegion :=
  let keyId := atoi (.ofBytes entry.1)
  if entry.2.isObject then
    some
      { regionID := ((entry.2.find "RegionID").map (asInt keyId)).getD keyId
        regionCode := (entry.2.stringMember "RegionCode").getD []
        nodes := ((entry.2.arrayMember "Nodes").getD []).filterMap parseDerpNode }
  else none

def readDerp (root : JsonValue) (regions : List DerpRegion) : List DerpRegion :=
  match (root.find "DERPMap").bind (find "Regions") with
  | some (object entries) => entries.filterMap parseDerpRegion
  | _ => regions

def readDns (root : JsonValue) (dns : DnsConfig) : DnsConfig :=
  match root.find "DNSConfig" with
  | some (object members) =>
      let config := object members
      { resolvers := ((config.arrayMember "Resolvers").getD []).filterMap (stringMember "Addr") ++
          ((config.find "Nameservers").map collectStrings).getD []
        domains := ((config.find "Domains").map collectStrings).getD [] }
  | _ => dns

namespace TSNetmap

def apply (netmap : TSNetmap) (root : JsonValue) : TSNetmap :=
  { selfAddresses := readSelf root netmap.selfAddresses
    peers := readPeers root netmap.peers
    derpRegions := readDerp root netmap.derpRegions
    dns := readDns root netmap.dns }

/-- The return value of `Parse` and the netmap it leaves. -/
def parse (netmap : TSNetmap) (json : Bytes) : Bool × TSNetmap :=
  match JsonParser.parse json with
  | some root => if root.isObject then (true, netmap.apply root) else (false, netmap)
  | none => (false, netmap)

/-- Responses in the order they arrive, accepted or not. -/
def parseAll (netmap : TSNetmap) (responses : List Bytes) : TSNetmap :=
  responses.foldl (fun current json => (current.parse json).2) netmap

end TSNetmap

end Sotoportego.Tailscale
