import Sotoportego.Lib.Octets

/-!
# The VPNGate catalogue

The reply that `SotoportegoServer` keeps between requests for the list of public servers,
and the background fetch that renews it. An `Entry` is the message about one public server,
a `Client` a valid messenger.
-/

set_option autoImplicit false

namespace Sotoportego.Server

open Octets

/-- How long a catalogue stays warm, in microseconds. -/
def kCatalogueTTL : Int := 10 * 60 * 1000000

/-- The fields of a `kMsgVPNGateFetched` and of the `kMsgVPNGateList` made from it:
`kFieldVPNGateServer`, and `kFieldError` where it is there. -/
structure VPNGateList (Entry : Type) where
  servers : List Entry := []
  error : Option Bytes := none
  deriving DecidableEq

/-- `CountNames(B_ANY_TYPE)`: a name counts once, whatever it holds. -/
def VPNGateList.countNames {Entry : Type} (list : VPNGateList Entry) : Nat :=
  (if list.servers.isEmpty then 0 else 1) + (if list.error.isSome then 1 else 0)

/-- What `http_get` leaves to the fetch thread, with the rows of the body that it can use. -/
structure Download (Entry : Type) where
  ok : Bool
  error : Bytes := []
  bodyEmpty : Bool := false
  servers : List Entry := []

/-- `fetch_thread`: the message that it posts. -/
def fetchThread {Entry : Type} (download : Download Entry) : VPNGateList Entry :=
  if download.ok = false ∨ download.bodyEmpty = true then
    { error := some
        (if download.error.isEmpty then ascii "Empty response from vpngate.net"
          else download.error) }
  else
    { servers := download.servers
      error :=
        if download.servers.isEmpty then some (ascii "vpngate.net response had no usable servers")
        else none }

/-- The fields of the server that hold the catalogue. -/
structure Catalogue (Client Entry : Type) where
  cache : VPNGateList Entry := {}
  fetchedAt : Int := 0
  fetchInFlight : Bool := false
  pending : List Client := []

/-- What a handler sends off. -/
inductive CatalogueAct (Client Entry : Type) where
  | sendMessage (client : Client) (list : VPNGateList Entry)
  | backgroundFetch
  deriving DecidableEq

namespace Catalogue

variable {Client Entry : Type} (catalogue : Catalogue Client Entry)

def kickVPNGateFetch : Catalogue Client Entry × List (CatalogueAct Client Entry) :=
  ({ catalogue with fetchInFlight := true }, [.backgroundFetch])

/-- `none` for a messenger that is not valid, and for a request without `force`. -/
def handleRequestVPNGate (now : Int) (client : Option Client) (force : Option Bool) :
    Catalogue Client Entry × List (CatalogueAct Client Entry) :=
  match client with
  | none => (catalogue, [])
  | some client =>
      if force.getD false = false ∧ catalogue.fetchedAt > 0 ∧
          now - catalogue.fetchedAt < kCatalogueTTL ∧ catalogue.cache.countNames > 0 then
        (catalogue, [.sendMessage client catalogue.cache])
      else
        let catalogue := { catalogue with pending := catalogue.pending ++ [client] }
        if catalogue.fetchInFlight then (catalogue, []) else catalogue.kickVPNGateFetch

/-- The error is kept with the list, and the time is taken of either. -/
def handleVPNGateFetched (now : Int) (message : VPNGateList Entry) :
    Catalogue Client Entry × List (CatalogueAct Client Entry) :=
  let cache : VPNGateList Entry := { servers := message.servers, error := message.error }
  ({ cache, fetchedAt := now, fetchInFlight := false, pending := [] },
    catalogue.pending.map fun client => .sendMessage client cache)

end Catalogue

/-! ## Runs -/

inductive CatalogueEvent (Client Entry : Type) where
  | request (client : Option Client) (force : Option Bool)
  | fetched (download : Download Entry)
  | elapse (duration : Nat)

/-- A fetch whose result the server has taken. -/
structure Fetch (Entry : Type) where
  completedAt : Int
  list : VPNGateList Entry

def Fetch.Succeeded {Entry : Type} (fetch : Fetch Entry) : Prop :=
  fetch.list.error = none

instance Fetch.decidableSucceeded {Entry : Type} (fetch : Fetch Entry) :
    Decidable fetch.Succeeded :=
  decidable_of_iff (fetch.list.error.isNone = true) Option.isNone_iff_eq_none

/-- The catalogue, `system_time()`, and the fetches so far with the latest first. -/
structure CatalogueHistory (Client Entry : Type) where
  catalogue : Catalogue Client Entry := {}
  clock : Int
  fetches : List (Fetch Entry) := []

namespace CatalogueHistory

variable {Client Entry : Type}

/-- The system has been up for `clock` when the server starts. -/
def started (clock : Int) : CatalogueHistory Client Entry := { clock }

def handled (history : CatalogueHistory Client Entry) :
    CatalogueEvent Client Entry → Catalogue Client Entry × List (CatalogueAct Client Entry)
  | .request client force => history.catalogue.handleRequestVPNGate history.clock client force
  | .fetched download =>
      history.catalogue.handleVPNGateFetched history.clock (fetchThread download)
  | .elapse _ => (history.catalogue, [])

def step (history : CatalogueHistory Client Entry) (event : CatalogueEvent Client Entry) :
    CatalogueHistory Client Entry where
  catalogue := (history.handled event).1
  clock :=
    match event with
    | .elapse duration => history.clock + duration
    | _ => history.clock
  fetches :=
    match event with
    | .fetched download => ⟨history.clock, fetchThread download⟩ :: history.fetches
    | _ => history.fetches

end CatalogueHistory

end Sotoportego.Server
