import Sotoportego.Tailscale.DerpReader
import Sotoportego.Tailscale.Lifecycle
import Sotoportego.Tailscale.Register

/-!
# The control worker

`_RunControlFlow`, `_RunMap`, `_RunMapSession` and `_SleepInterruptible`, cut at their calls
and at every test of `fStopRequested`, beside the looper that receives what the worker posts.
A `Node` is the backend, its worker and the mailbox between them.
-/

set_option autoImplicit false

namespace Sotoportego.Tailscale

open Octets CText

/-- A message of the worker to the looper. -/
inductive Post where
  | authURL (url : CString)
  | authorized
  | endpoint (endpoint : CString)
  | netmap (peers : Nat) (selfIP : CString) (up : Bool)
  | failed (detail : CString)
  deriving DecidableEq

/-- What a request of `ControlSession` ends with when it has no answer. -/
inductive ControlFault where
  | handshake (detail : CString)
  | bootstrap (detail : CString)
  | register (detail : CString)
  | followup (detail : CString)
  deriving DecidableEq

/-- The `fLastError` that goes with it. -/
def ControlFault.lastError : ControlFault → CString
  | .handshake detail => .ofBytes (ascii "control handshake failed: " ++ detail.bytes)
  | .bootstrap detail => .ofBytes (ascii "HTTP/2 bootstrap failed: " ++ detail.bytes)
  | .register detail => .ofBytes (ascii "register failed: " ++ detail.bytes)
  | .followup detail => .ofBytes (ascii "followup register failed: " ++ detail.bytes)

/-- The HTTP status and the body of the RegisterResponse. -/
abbrev Registration := Except ControlFault (Int × CString)

/-- What `_RunMap` goes by. -/
structure MapLoop where
  /-- The session is the first one, which no other follows unless it was established. -/
  first : Bool := true
  start : Int
  backoff : ReconnectBackoff := .init 1000000 30000000 30000000

/-- Where the worker is. -/
inductive Worker where
  /-- In `ControlSession::Connect`. -/
  | connecting
  | connected (outcome : Registration)
  /-- At the head of the loop that polls for the login. -/
  | loginTest (followup : CString)
  /-- In `PollAuthorized`. -/
  | polling (followup : CString)
  | polled (followup : CString) (outcome : Registration)
  /-- In `_RunMapSession`, up to the response of `Begin`. -/
  | opening (loop : MapLoop)
  /-- At the head of the loop that reads MapResponses. -/
  | streamTest (loop : MapLoop)
  /-- In `ReadMessage`. -/
  | reading (loop : MapLoop)
  /-- `_RunMapSession` has returned. -/
  | closed (loop : MapLoop) (established : Bool) (lastError : CString)
  /-- At the head of the loop that opens the map again. -/
  | retryTest (loop : MapLoop) (established : Bool)
  /-- At the head of the loop of `_SleepInterruptible`. -/
  | sleeping (loop : MapLoop) (delay waited : Int)

/-- How the system answers while the first MapResponse brings up the data plane. -/
structure BringUp where
  /-- `fMagicSock.Open`. -/
  opens : Bool := true
  /-- The public endpoint that `DiscoverEndpoint` finds. -/
  discovered : Option CString := none
  comesUp : Nat → Bool := fun _ => true
  assigned : Bool := true
  dataPlane : Bool := true
  reaches : Bool := true
  derpThread : Bool := true
  bound : Bool := true
  dnsThread : Bool := true

/-- What the worker meets on its way to the next place; each place uses its own part. -/
structure Encounter where
  outcome : Registration := .ok (0, .empty)
  /-- Establishing the connection and `Begin` with status 200, or `LastError`. -/
  accepted : Except CString Unit := .ok ()
  /-- What `ReadMessage` returns. -/
  message : Status × Bytes := (.wouldBlock, [])
  bringUp : BringUp := {}
  now : Int := 0

/-- The backend with its threads, and the worker and its messages. -/
structure Node where
  host : TailscaleHost := {}
  /-- Where the worker is while its thread runs. -/
  worker : Option Worker := none
  /-- What the looper has not received yet. -/
  mailbox : List Post := []
  /-- `fMagicSock` is open. -/
  sockOpen : Bool := false
  remoteIP : CString := .empty
  /-- What the worker has posted since it was started; nothing reads it. -/
  posted : List Post := []

def kSleepSlice : Int := 200000

/-- The first DERP node that has a name. -/
def SessionState.stunHost (session : SessionState) : CString :=
  let nodes := session.netmap.derpRegions.filterMap (·.nodes.head?)
  ((nodes.map fun node => CString.ofBytes node.hostName).find? (· ≠ .empty)).getD .empty

namespace Node

variable (node : Node)

def stopRequested : Bool :=
  node.host.backend.stopRequested

def post (message : Post) : Node :=
  { node with mailbox := node.mailbox ++ [message], posted := node.posted ++ [message] }

/-- What the worker does to the backend itself. -/
def act (event : HostEvent) : Node :=
  { node with host := node.host.threaded event }

def goto (worker : Worker) : Node :=
  { node with worker := some worker }

/-- The worker posts its last message and returns. -/
def finish (detail : CString) : Node :=
  { (node.post (.failed detail)) with worker := none }

/-- The end of `_RunMap`. -/
def finishMap (detail : CString) : Node :=
  { (node.finish detail) with sockOpen := false }

/-- `_RunMap` up to its first session. -/
def runMap (met : Encounter) : Node :=
  { (node.post .authorized).goto (.opening { start := met.now }) with
    sockOpen := node.sockOpen || met.bringUp.opens }

/-- What follows a registration that came back while no stop was requested. -/
def registered (met : Encounter) (outcome : Registration) (login : RegisterResult → Node) : Node :=
  match outcome with
  | .error fault => node.finish fault.lastError
  | .ok (status, resp) =>
      let result := RegisterResult.ofResponse status resp.bytes
      if result.error ≠ [] then node.finish (.ofBytes result.error)
      else if result.machineAuthorized then node.runMap met
      else login result

def askLogin (result : RegisterResult) : Node :=
  if result.authURL = [] then
    node.finish (.ofBytes (ascii "control returned neither authorization nor a login URL"))
  else
    (node.post (.authURL (.ofBytes result.authURL))).goto (.loginTest (.ofBytes result.authURL))

/-- The server may hand out a fresh followup URL. -/
def askAgain (followup : CString) (result : RegisterResult) : Node :=
  node.goto (.loginTest (if result.authURL = [] then followup else .ofBytes result.authURL))

/-! ## A MapResponse -/

def bringUpMagicSock (answers : BringUp) : Node :=
  let node := { node with sockOpen := node.sockOpen || answers.opens }
  if node.sockOpen ∧ node.host.backend.session.stunHost ≠ .empty then
    match answers.discovered with
    | some endpoint => node.post (.endpoint endpoint)
    | none => node
  else node

/-- The data plane comes up with the first netmap. -/
def bringUp (answers : BringUp) : Node :=
  let node := (node.bringUpMagicSock answers).act (.bringUpTun answers.comesUp answers.assigned)
  let node := node.act (.startDataPlane (node.sockOpen && answers.dataPlane))
  (node.act (.bringUpDerp answers.reaches answers.derpThread)).act
    (.startMagicDns answers.bound answers.dnsThread)

/-- A message that does not parse is skipped; `none` is an overrun in `Update`. -/
def mapResponse (answers : BringUp) (json : Bytes) : Option Node :=
  (node.host.backend.session.applyMapResponse json).map fun applied =>
    if applied.1 then
      let node := node.act (.mapResponse applied.2)
      let node := if node.host.backend.tunOpen then node else node.bringUp answers
      let node := node.act .syncRoutes
      node.post (.netmap node.host.backend.session.peers.peers.length
        node.host.backend.session.selfIP node.host.backend.tunOpen)
    else node

/-! ## The worker -/

/-- From one place to the next. -/
def work (met : Encounter) : Worker → Option Node
  | .connecting => some (node.goto (.connected met.outcome))
  | .connected outcome =>
      some (if node.stopRequested then node.finish .empty
        else node.registered met outcome node.askLogin)
  | .loginTest followup =>
      some (if node.stopRequested then node.finish .empty else node.goto (.polling followup))
  | .polling followup => some (node.goto (.polled followup met.outcome))
  | .polled followup outcome =>
      some (if node.stopRequested then node.finish .empty
        else node.registered met outcome (node.askAgain followup))
  | .opening loop =>
      some (match met.accepted with
        | .ok () => node.goto (.streamTest loop)
        | .error lastError => node.goto (.closed loop false lastError))
  | .streamTest loop =>
      some (if node.stopRequested then node.goto (.closed loop true .empty)
        else node.goto (.reading loop))
  | .reading loop =>
      match met.message with
      | (.ok, json) => (node.mapResponse met.bringUp json).map (·.goto (.streamTest loop))
      | (.wouldBlock, _) => some (node.goto (.streamTest loop))
      | _ => some (node.goto (.closed loop true .empty))
  | .closed loop established lastError =>
      some (if loop.first then
        if node.stopRequested then node.finishMap .empty
        else if established then node.goto (.retryTest loop established)
        else
          node.finishMap
            (if lastError = .empty then .ofBytes (ascii "network map request failed")
              else lastError)
      else node.goto (.retryTest loop established))
  | .retryTest loop established =>
      some (if node.stopRequested then node.finishMap .empty
        else
          let (delay, backoff) := loop.backoff.nextDelay established (met.now - loop.start)
          node.goto (.sleeping { loop with backoff, first := false } delay 0))
  | .sleeping loop delay waited =>
      some (if node.stopRequested then node.finishMap .empty
        else if waited < delay then
          node.goto (.sleeping loop delay (waited + min (delay - waited) kSleepSlice))
        else node.goto (.opening { loop with start := met.now }))

/-! ## The looper -/

/-- `MessageReceived` on a message of the worker. -/
def handle : Post → Node
  | .authURL url => node.act (.authURL url)
  | .authorized => node.act .authorized
  | .endpoint endpoint => { node with remoteIP := endpoint }
  | .netmap peers selfIP up => node.act (.netmap peers selfIP up)
  | .failed detail => node.act (.failed detail)

def receive : Node :=
  match node.mailbox with
  | [] => node
  | message :: rest => { node with mailbox := rest }.handle message

/-- A worker starts where `Connect` succeeds. -/
def connect (profile : Server.VPNProfile) (answer : Enrolment) : Node :=
  match node.host.connect profile answer with
  | (.ok (), host) => { node with host, worker := some .connecting, posted := [] }
  | (.error _, host) => { node with host }

end Node

/-- The events of a host that neither the worker causes nor a message of it. -/
def HostEvent.aside : HostEvent → Bool
  | .setExitNode _ | .syncExitNode _ _ | .derpTurn _ | .strayEnds => true
  | _ => false

inductive NodeEvent where
  | connect (profile : Server.VPNProfile) (answer : Enrolment)
  | disconnect
  /-- The looper receives the next message. -/
  | receive
  /-- The worker goes on to its next place. -/
  | work (met : Encounter)
  /-- Another thread takes a turn, or an exit node is chosen. -/
  | aside (event : HostEvent)

/-- In any order. -/
def Node.step (node : Node) : NodeEvent → Option Node
  | .connect profile answer => some (node.connect profile answer)
  | .disconnect => some { node with host := node.host.disconnect }
  | .receive => some node.receive
  | .work met =>
      match node.worker with
      | some worker => node.work met worker
      | none => some node
  | .aside event =>
      some (if event.aside then { node with host := node.host.step event } else node)

end Sotoportego.Tailscale
