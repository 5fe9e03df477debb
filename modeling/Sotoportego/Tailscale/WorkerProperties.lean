import Sotoportego.Lib.Run
import Sotoportego.Tailscale.CidrProperties
import Sotoportego.Tailscale.LifecycleProperties
import Sotoportego.Tailscale.RegisterProperties
import Sotoportego.Tailscale.Worker

/-!
# What a control worker tells its looper

The messages of one worker form a conversation with one last word. The looper receives it
whole before another worker starts, and a connection that had a netmap ends only on request.
-/

set_option autoImplicit false

namespace Sotoportego.Tailscale

open Octets CText
open Server (Fault)

/-! ## The conversation -/

/-- How far a worker is in what it has to tell. -/
inductive Stage where
  | asking
  /-- The login URL is out. -/
  | login
  | authorized
  /-- A netmap is out. -/
  | mapped
  | ended
  deriving DecidableEq

/-- After a netmap the last word is that the worker was stopped. -/
def Stage.next : Stage → Post → Option Stage
  | .asking, .authURL _ => some .login
  | .asking, .authorized | .login, .authorized => some .authorized
  | .authorized, .endpoint _ | .authorized, .netmap _ _ _ => some .mapped
  | .mapped, .endpoint _ | .mapped, .netmap _ _ _ => some .mapped
  | .asking, .failed _ | .login, .failed _ | .authorized, .failed _ => some .ended
  | .mapped, .failed detail => if detail = .empty then some .ended else none
  | _, _ => none

namespace Stage

/-- The stage that the messages lead to, where they make up a conversation. -/
def run (posts : List Post) : Option Stage :=
  Run.runPartial Stage.next .asking posts

variable {stage : Stage} {posts earlier : List Post}

theorem run_append (later : List Post) (told : run earlier = some stage) :
    run (earlier ++ later) = Run.runPartial Stage.next stage later := by
  rw [run, Run.runPartial_append, ← run, told]
  rfl

theorem run_concat (post : Post) (told : run earlier = some stage) :
    run (earlier ++ [post]) = stage.next post := by
  rw [run_append [post] told, Run.runPartial, List.foldlM_cons]
  cases stage.next post with
  | none => rfl
  | some later => rfl

/-- What was told before is a conversation too. -/
theorem run_earlier {later : List Post} (told : run (earlier ++ later) = some stage) :
    ∃ before, run earlier = some before := by
  rw [run, Run.runPartial_append] at told
  obtain ⟨before, first, -⟩ := Option.bind_eq_some_iff.mp told
  exact ⟨before, first⟩

theorem next_ended {later : Stage} {post : Post} (told : stage.next post = some later) :
    later = .ended ↔ ∃ detail, post = .failed detail := by
  unfold next at told
  split at told
  all_goals try split at told
  all_goals first
    | cases told; simp
    | cases told

/-- A conversation is over with its last word. -/
theorem ended_iff (told : run posts = some stage) :
    stage = .ended ↔ ∃ earlier detail, posts = earlier ++ [.failed detail] := by
  cases posts using List.reverseRecOn with
  | nil =>
      cases told
      simp
  | append_singleton earlier post =>
      obtain ⟨before, first⟩ := run_earlier told
      rw [run_concat post first] at told
      rw [next_ended told]
      constructor
      · rintro ⟨detail, rfl⟩
        exact ⟨earlier, detail, rfl⟩
      · rintro ⟨other, detail, same⟩
        exact ⟨detail, (List.append_inj' same rfl).2 |> List.singleton_inj.mp⟩

end Stage

/-! ## Texts of the worker -/

theorem mem_unescape {octet : UInt8} {text : Bytes} (member : octet ∈ Register.unescape text) :
    octet ∈ text := by
  induction text using Register.unescape.induct with
  | case1 => cases member
  | case2 => cases member
  | case3 escaped rest continued =>
      rw [Register.unescape] at member
      cases member with
      | head => simp
      | tail _ later => simp [continued later]
  | case4 first rest notQuote notEscape continued =>
      rw [Register.unescape] at member
      · cases member with
        | head => exact List.mem_cons_self
        | tail _ later => exact List.mem_cons_of_mem _ (continued later)
      · exact notQuote
      · exact notEscape

/-- A string is made of octets of the document. -/
theorem mem_jsonString {octet : UInt8} {doc text : Bytes} {key : String}
    (found : Register.jsonString doc key = some text) (member : octet ∈ text) : octet ∈ doc := by
  unfold Register.jsonString at found
  split at found
  · cases found
  · next k first =>
    split at found
    · next value valueAt =>
      cases found
      have skipped : octet ∈ Register.skipColon (k.drop (Register.needle key).length) := by
        rw [valueAt]
        exact List.mem_cons_of_mem _ (mem_unescape member)
      have dropped := (List.dropWhile_suffix _).subset skipped
      exact (Register.findFirst_found first).2.subset (List.mem_of_mem_drop dropped)
    · cases found

/-! ## The worker -/

/-- The stages that a worker may be in at a place. -/
def Worker.Fits : Worker → Stage → Prop
  | .connecting, stage | .connected _, stage => stage = .asking
  | .loginTest _, stage | .polling _, stage | .polled _ _, stage => stage = .login
  | .opening loop, stage | .sleeping loop _ _, stage =>
      stage = .authorized ∨ (stage = .mapped ∧ loop.first = false)
  | .closed loop established _, stage =>
      stage = .authorized ∨ (stage = .mapped ∧ (loop.first = true → established = true))
  | _, stage => stage = .authorized ∨ stage = .mapped

/-- A worker that has returned has had its last word. -/
def Worker.FitsEnd : Option Worker → Stage → Prop
  | none, stage => stage = .ended
  | some worker, stage => worker.Fits stage

namespace TailscaleHost

/-- What a host may be asked to do, or does on a thread of its own. -/
inductive Request where
  | connect (profile : Server.VPNProfile) (answer : Enrolment)
  | disconnect
  | event (event : HostEvent)

def serve (host : TailscaleHost) : Request → TailscaleHost
  | .connect profile answer => (host.connect profile answer).2
  | .disconnect => host.disconnect
  | .event event => host.step event

theorem serve_event {host : TailscaleHost} (flight : host.backend.worker = true)
    (event : HostEvent) (runs : host.runs event = host.backend.worker) :
    host.threaded event = Run.run serve host [.event event] := by
  rw [Run.run_cons, Run.run_nil, serve, step, if_pos (runs.trans flight)]

/-- What a thread that is not the looper leaves alone; a tun that is open stays so. -/
structure Keeps (host next : TailscaleHost) : Prop where
  worker : next.backend.worker = host.backend.worker
  stopRequested : next.backend.stopRequested = host.backend.stopRequested
  state : next.backend.state = host.backend.state
  tunOpen : host.backend.tunOpen = true → next.backend.tunOpen = true

variable {host middle next : TailscaleHost}

theorem Keeps.refl : Keeps host host :=
  ⟨rfl, rfl, rfl, id⟩

theorem Keeps.trans (first : Keeps host middle) (second : Keeps middle next) : Keeps host next :=
  ⟨second.worker.trans first.worker, second.stopRequested.trans first.stopRequested,
    second.state.trans first.state, fun up => second.tunOpen (first.tunOpen up)⟩

theorem keeps_bringUpTun (host : TailscaleHost) (comesUp : Nat → Bool) (assigned : Bool) :
    Keeps host (host.bringUpTun comesUp assigned) := by
  unfold bringUpTun
  dsimp only
  split
  · exact .refl
  · split
    · exact ⟨rfl, rfl, rfl, id⟩
    · split
      · exact ⟨rfl, rfl, rfl, id⟩
      · exact ⟨rfl, rfl, rfl, id⟩

theorem keeps_startDataPlane (host : TailscaleHost) (opened : Bool) :
    Keeps host (host.startDataPlane opened) := by
  unfold startDataPlane
  split
  · exact .refl
  · next down => exact ⟨rfl, rfl, rfl, fun up => absurd (.inl up) down⟩

theorem keeps_bringUpDerp (host : TailscaleHost) (reaches readerStarts : Bool) :
    Keeps host (host.bringUpDerp reaches readerStarts) := by
  unfold bringUpDerp
  split
  · exact .refl
  · exact ⟨rfl, rfl, rfl, id⟩

theorem keeps_startMagicDns (host : TailscaleHost) (bound threadStarts : Bool) :
    Keeps host (host.startMagicDns bound threadStarts) := by
  unfold startMagicDns
  split
  · exact .refl
  · exact ⟨rfl, rfl, rfl, id⟩

theorem keeps_aside (host : TailscaleHost) {event : HostEvent} (aside : event.aside = true) :
    Keeps host (host.step event) := by
  unfold step
  split
  · cases event with
    | setExitNode | syncExitNode | derpTurn | strayEnds => exact ⟨rfl, rfl, rfl, id⟩
    | authURL | authorized | mapResponse | bringUpTun | startDataPlane | bringUpDerp
    | startMagicDns | syncRoutes | netmap | failed => cases aside
  · exact .refl

/-- A `Connect` starts a worker where none was, or shows an error and leaves the rest. -/
inductive Answered (host : TailscaleHost) : Server.Status × TailscaleHost → Prop where
  | started {next : TailscaleHost} (idle : host.backend.worker = false)
      (worker : next.backend.worker = true) (running : next.backend.stopRequested = false)
      (state : next.backend.state = .connecting) : Answered host (.ok (), next)
  | refused {fault : Fault} {next : TailscaleHost}
      (worker : next.backend.worker = host.backend.worker)
      (stopRequested : host.backend.worker = true →
        next.backend.stopRequested = host.backend.stopRequested)
      (tunOpen : next.backend.tunOpen = host.backend.tunOpen)
      (state : next.backend.state = .error) : Answered host (.error fault, next)

theorem answered_connect (host : TailscaleHost) (profile : Server.VPNProfile)
    (answer : Enrolment) : Answered host (host.connect profile answer) := by
  unfold connect
  dsimp only
  by_cases missing : profile.name = .empty
  · rw [if_pos missing, connect_refused (.inl missing)]
    exact .refused rfl (fun _ => rfl) rfl rfl
  rw [if_neg missing]
  by_cases works : host.backend.worker = true
  · rw [if_pos works, connect_refused (.inr works)]
    exact .refused rfl (fun _ => rfl) rfl rfl
  · have idle : host.backend.worker = false := Bool.eq_false_iff.mpr works
    rw [if_neg works]
    unfold TailscaleBackend.connect
    rw [if_neg missing, if_neg works]
    cases answer.identity with
    | error fault => exact .refused rfl (fun _ => rfl) rfl rfl
    | ok nodePrivate =>
        dsimp only [Except.toOption]
        split
        · exact .started idle rfl rfl rfl
        · exact .refused idle.symm (fun works => absurd (idle.symm.trans works) (by decide)) rfl rfl

/-- What the last word leaves behind. -/
structure Ended (host : TailscaleHost) (detail : CString) : Prop where
  worker : host.backend.worker = false
  stopRequested : host.backend.stopRequested = true
  tunOpen : host.backend.tunOpen = false
  state : host.backend.state = if detail = .empty then .disconnected else .error

theorem ended_failed (works : host.backend.worker = true) (detail : CString) :
    Ended (host.failed detail) detail := by
  have failed : (host.failed detail).backend = host.backend.failed detail := rfl
  unfold TailscaleBackend.failed at failed
  rw [if_pos works] at failed
  constructor
  · rw [failed]
    rfl
  · rw [failed]
    rfl
  · rw [failed]
    rfl
  · rw [failed]

end TailscaleHost

namespace Node

open TailscaleHost (Keeps keeps_bringUpTun keeps_startDataPlane keeps_bringUpDerp
  keeps_startMagicDns keeps_aside)

variable {node next : Node}

/-- From one state of the worker's run to another, with what it posts in between. -/
structure Tells (node next : Node) (news : List Post) : Prop where
  keeps : Keeps node.host next.host
  mailbox : next.mailbox = node.mailbox ++ news
  posted : next.posted = node.posted ++ news
  served : node.host.backend.worker = true →
    ∃ requests, next.host = Run.run TailscaleHost.serve node.host requests

/-- A worker that only moves. -/
theorem tells_host {news : List Post} (host : next.host = node.host)
    (mailbox : next.mailbox = node.mailbox ++ news) (posted : next.posted = node.posted ++ news) :
    Tells node next news :=
  ⟨host ▸ .refl, mailbox, posted, fun _ => ⟨[], host⟩⟩

theorem Tells.refl : Tells node node [] :=
  tells_host rfl (List.append_nil _).symm (List.append_nil _).symm

theorem Tells.trans {middle : Node} {first second : List Post} (one : Tells node middle first)
    (two : Tells middle next second) : Tells node next (first ++ second) where
  keeps := one.keeps.trans two.keeps
  mailbox := by rw [two.mailbox, one.mailbox, List.append_assoc]
  posted := by rw [two.posted, one.posted, List.append_assoc]
  served flight := by
    obtain ⟨before, begun⟩ := one.served flight
    obtain ⟨after, ended⟩ := two.served (one.keeps.worker.trans flight)
    exact ⟨before ++ after, by rw [ended, begun, Run.run_append]⟩

theorem tells_post (node : Node) (message : Post) : Tells node (node.post message) [message] :=
  tells_host rfl rfl rfl

theorem tells_act (event : HostEvent) (runs : node.host.runs event = node.host.backend.worker)
    (keeps : Keeps node.host (node.host.threaded event)) : Tells node (node.act event) [] :=
  ⟨keeps, (List.append_nil _).symm, (List.append_nil _).symm,
    fun flight => ⟨[.event event], TailscaleHost.serve_event flight event runs⟩⟩

theorem tells_bringUpMagicSock (node : Node) (answers : BringUp) :
    ∃ found : List CString, Tells node (node.bringUpMagicSock answers) (found.map .endpoint) := by
  unfold bringUpMagicSock
  dsimp only
  split
  · cases answers.discovered with
    | none => exact ⟨[], tells_host rfl (List.append_nil _).symm (List.append_nil _).symm⟩
    | some endpoint => exact ⟨[endpoint], tells_host rfl rfl rfl⟩
  · exact ⟨[], tells_host rfl (List.append_nil _).symm (List.append_nil _).symm⟩

/-- The public endpoint is all that it may post. -/
theorem tells_bringUp (node : Node) (answers : BringUp) :
    ∃ found : List CString, Tells node (node.bringUp answers) (found.map .endpoint) := by
  obtain ⟨found, told⟩ := tells_bringUpMagicSock node answers
  have tun := told.trans
    (tells_act (.bringUpTun answers.comesUp answers.assigned) rfl (keeps_bringUpTun _ _ _))
  have plane := tun.trans
    (tells_act (.startDataPlane ((node.bringUpMagicSock answers).sockOpen && answers.dataPlane)) rfl
      (keeps_startDataPlane _ _))
  have derp := plane.trans
    (tells_act (.bringUpDerp answers.reaches answers.derpThread) rfl (keeps_bringUpDerp _ _ _))
  have dns := derp.trans
    (tells_act (.startMagicDns answers.bound answers.dnsThread) rfl (keeps_startMagicDns _ _ _))
  simp only [List.append_nil] at dns
  exact ⟨found, dns⟩

/-- What an applied MapResponse posts: a netmap last, which says truly that the tun is up. -/
inductive Mapped (next : Node) : List Post → Prop where
  | skipped : Mapped next []
  | applied (found : List CString) (peers : Nat) (selfIP : CString) (up : Bool)
      (open_ : up = true → next.host.backend.tunOpen = true) :
      Mapped next (found.map .endpoint ++ [.netmap peers selfIP up])

theorem tells_mapResponse {answers : BringUp} {json : Bytes}
    (applied : node.mapResponse answers json = some next) :
    ∃ news, Tells node next news ∧ Mapped next news := by
  obtain ⟨result, -, rfl⟩ := Option.map_eq_some_iff.mp applied
  split
  · have taken : Tells node (node.act (.mapResponse result.2)) [] :=
      tells_act _ rfl ⟨rfl, rfl, rfl, id⟩
    have raised (held : Node) : ∃ found : List CString,
        Tells held (if held.host.backend.tunOpen then held else held.bringUp answers)
          (found.map .endpoint) := by
      split
      · exact ⟨[], .refl⟩
      · exact tells_bringUp held answers
    obtain ⟨found, told⟩ := raised (node.act (.mapResponse result.2))
    have routed := (taken.trans told).trans
      (tells_act .syncRoutes rfl ⟨rfl, rfl, rfl, id⟩)
    rw [List.nil_append, List.append_nil] at routed
    exact ⟨_, routed.trans (tells_post _ _), .applied found _ _ _ id⟩
  · exact ⟨[], .refl, .skipped⟩

/-- What a step of the worker tells from a stage on, and where it leaves the worker. -/
structure Works (stage : Stage) (node next : Node) : Prop where
  told : ∃ news later, Tells node next news ∧ Run.runPartial Stage.next stage news = some later ∧
    Worker.FitsEnd next.worker later ∧
    (∀ peers selfIP, .netmap peers selfIP true ∈ news → next.host.backend.tunOpen = true) ∧
    (.failed .empty ∈ news → node.stopRequested = true)

variable {stage : Stage} {worker : Worker} {met : Encounter}

theorem tells_goto (node : Node) (worker : Worker) : Tells node (node.goto worker) [] :=
  tells_host rfl (List.append_nil _).symm (List.append_nil _).symm

theorem works_goto (fits : worker.Fits stage) : Works stage node (node.goto worker) :=
  ⟨[], stage, tells_goto node worker, rfl, fits, by simp, by simp⟩

/-- The last word, which needs a stop to be empty. -/
theorem works_finish {detail : CString} (open_ : stage ≠ .ended)
    (mapped : stage = .mapped → detail = .empty)
    (stopped : detail = .empty → node.stopRequested = true) :
    Works stage node (node.finish detail) := by
  refine ⟨[.failed detail], .ended, tells_host rfl rfl rfl, ?_, rfl, by simp, ?_⟩
  · cases stage with
    | ended => exact absurd rfl open_
    | asking | login | authorized => rfl
    | mapped =>
        cases mapped rfl
        rfl
  · intro member
    cases List.mem_singleton.mp member
    exact stopped rfl

/-- The socket is not part of what is told. -/
theorem Works.closing (works : Works stage node next) :
    Works stage node { next with sockOpen := false } := by
  obtain ⟨news, later, tells, rest⟩ := works.told
  exact ⟨news, later, ⟨tells.keeps, tells.mailbox, tells.posted, tells.served⟩, rest⟩

theorem lastError_ne_empty (fault : ControlFault) : fault.lastError ≠ .empty := by
  have texts : fault.lastError.bytes ≠ [] := by
    cases fault with
    | handshake | bootstrap | register | followup =>
        simp [ControlFault.lastError, CString.ofBytes, ascii]
  intro empty
  exact texts (congrArg CString.bytes empty)

/-- An error text of the server is no text that stands for a stop. -/
theorem error_ne_empty {status : Int} {resp : CString}
    (refused : (RegisterResult.ofResponse status resp.bytes).error ≠ []) :
    CString.ofBytes (RegisterResult.ofResponse status resp.bytes).error ≠ .empty := by
  refine ofBytes_ne_empty (fun nul => ?_) refused
  cases found : Register.jsonString resp.bytes "Error" with
  | none =>
      rw [RegisterResult.ofResponse, found] at nul
      cases nul
  | some text =>
      rw [RegisterResult.ofResponse, found] at nul
      exact resp.no_nul (mem_jsonString found nul)

theorem works_registered {outcome : Registration} {login : RegisterResult → Node}
    (early : stage = .asking ∨ stage = .login)
    (asks : ∀ result, Works stage node (login result)) :
    Works stage node (node.registered met outcome login) := by
  have open_ : stage ≠ .ended := by
    cases early with
    | inl asking => exact asking ▸ nofun
    | inr login => exact login ▸ nofun
  have unmapped : stage ≠ .mapped := by
    cases early with
    | inl asking => exact asking ▸ nofun
    | inr login => exact login ▸ nofun
  unfold registered
  cases outcome with
  | error fault =>
      exact works_finish open_ (fun mapped => absurd mapped unmapped)
        (fun empty => absurd empty (lastError_ne_empty fault))
  | ok answer =>
      dsimp only
      split
      · next refused =>
        exact works_finish open_ (fun mapped => absurd mapped unmapped)
          (fun empty => absurd empty (error_ne_empty refused))
      · split
        · refine ⟨[.authorized], .authorized, tells_host rfl rfl rfl, ?_, .inl rfl, by simp,
            by simp⟩
          cases early with
          | inl asking =>
              cases asking
              rfl
          | inr login =>
              cases login
              rfl
        · exact asks _

theorem works_askLogin (result : RegisterResult) : Works .asking node (node.askLogin result) := by
  unfold askLogin
  split
  · refine works_finish nofun nofun fun empty => ?_
    exact absurd (congrArg CString.bytes empty) (by decide)
  · exact ⟨[.authURL _], .login, tells_host rfl rfl rfl, rfl, rfl, by simp, by simp⟩

theorem run_news (found : List CString) (peers : Nat) (selfIP : CString) (up : Bool)
    (onward : stage = .authorized ∨ stage = .mapped) :
    Run.runPartial Stage.next stage (found.map .endpoint ++ [.netmap peers selfIP up]) =
      some .mapped := by
  induction found generalizing stage with
  | nil =>
      cases onward with
      | inl authorized =>
          subst authorized
          rfl
      | inr mapped =>
          subst mapped
          rfl
  | cons endpoint found continued =>
      have step : stage.next (.endpoint endpoint) = some .mapped := by
        cases onward with
        | inl authorized =>
            subst authorized
            rfl
        | inr mapped =>
            subst mapped
            rfl
      rw [List.map_cons, List.cons_append, Run.runPartial, List.foldlM_cons, step]
      exact continued (.inr rfl)

theorem works_mapped {news : List Post} {loop : MapLoop}
    (fits : stage = .authorized ∨ stage = .mapped) (tells : Tells node next news)
    (mapped : Mapped next news) : Works stage node (next.goto (.streamTest loop)) := by
  have moved : Tells node (next.goto (.streamTest loop)) news :=
    ⟨tells.keeps, tells.mailbox, tells.posted, tells.served⟩
  cases mapped with
  | skipped => exact ⟨[], stage, moved, rfl, fits, by simp, by simp⟩
  | applied found peers selfIP up open_ =>
      refine ⟨_, .mapped, moved, run_news found peers selfIP up fits, .inr rfl,
        fun shown ip member => ?_, by simp⟩
      simp only [List.mem_append, List.mem_map, reduceCtorEq, and_false, exists_false,
        List.mem_singleton, Post.netmap.injEq, false_or] at member
      exact open_ member.2.2.symm

/-- The last word of a map that was stopped. -/
theorem works_stopped (fits : stage = .authorized ∨ stage = .mapped)
    (stopped : node.stopRequested = true) : Works stage node (node.finishMap .empty) := by
  have open_ : stage ≠ .ended := by
    cases fits with
    | inl authorized => exact authorized ▸ nofun
    | inr mapped => exact mapped ▸ nofun
  have works : Works stage node (node.finish .empty) :=
    works_finish open_ (fun _ => rfl) fun _ => stopped
  exact works.closing

/-- The last word of a map that was never there. -/
theorem works_lost {lastError : CString} (authorized : stage = .authorized) :
    Works stage node (node.finishMap
      (if lastError = .empty then .ofBytes (ascii "network map request failed")
        else lastError)) := by
  subst authorized
  have works : Works .authorized node (node.finish
      (if lastError = .empty then .ofBytes (ascii "network map request failed")
        else lastError)) := by
    refine works_finish nofun nofun fun empty => ?_
    split at empty
    · exact absurd (congrArg CString.bytes empty) (by decide)
    · next shown => exact absurd empty shown
  exact works.closing

/-- The specification of the worker's steps. -/
theorem works_work (fits : worker.Fits stage) (worked : node.work met worker = some next) :
    Works stage node next := by
  cases worker with
  | connecting =>
      cases worked
      exact works_goto fits
  | connected outcome =>
      cases worked
      cases fits
      split
      · next stopped => exact works_finish nofun nofun fun _ => stopped
      · exact works_registered (.inl rfl) works_askLogin
  | loginTest followup =>
      cases worked
      split
      · next stopped =>
        cases fits
        exact works_finish nofun nofun fun _ => stopped
      · exact works_goto fits
  | polling followup =>
      cases worked
      exact works_goto fits
  | polled followup outcome =>
      cases worked
      cases fits
      split
      · next stopped => exact works_finish nofun nofun fun _ => stopped
      · exact works_registered (.inr rfl) fun result => works_goto rfl
  | opening loop =>
      cases worked
      cases met.accepted with
      | ok accepted => exact works_goto (fits.imp id And.left)
      | error lastError =>
          exact works_goto (fits.imp id fun ⟨mapped, later⟩ =>
            ⟨mapped, fun first => absurd (later.symm.trans first) (by decide)⟩)
  | streamTest loop =>
      cases worked
      split
      · exact works_goto (fits.imp id fun mapped => ⟨mapped, fun _ => rfl⟩)
      · exact works_goto fits
  | reading loop =>
      simp only [work] at worked
      split at worked
      · obtain ⟨middle, applied, rfl⟩ := Option.map_eq_some_iff.mp worked
        obtain ⟨news, tells, mapped⟩ := tells_mapResponse applied
        exact works_mapped fits tells mapped
      · cases worked
        exact works_goto fits
      · cases worked
        exact works_goto (fits.imp id fun mapped => ⟨mapped, fun _ => rfl⟩)
  | closed loop established lastError =>
      cases worked
      split
      · next first =>
        split
        · next stopped => exact works_stopped (fits.imp id And.left) stopped
        · split
          · exact works_goto (fits.imp id And.left)
          · next lost =>
            exact works_lost (fits.resolve_right fun mapped => lost (mapped.2 first))
      · exact works_goto (fits.imp id And.left)
  | retryTest loop established =>
      cases worked
      split
      · next stopped => exact works_stopped fits stopped
      · exact works_goto (fits.imp id fun mapped => ⟨mapped, rfl⟩)
  | sleeping loop delay waited =>
      cases worked
      split
      · next stopped => exact works_stopped (fits.imp id And.left) stopped
      · split
        · exact works_goto fits
        · exact works_goto fits

/-! ## The node -/

/-- `fWorker` is set. -/
def inFlight (node : Node) : Bool :=
  node.host.backend.worker

/-- What the looper has received of the worker's messages, and what is still to come. -/
structure Sound (node : Node) : Prop where
  told : ∃ stage, Stage.run node.posted = some stage ∧
    (node.inFlight = true → Worker.FitsEnd node.worker stage)
  received : ∃ received, node.posted = received ++ node.mailbox ∧
    (node.inFlight = true → ∀ detail, .failed detail ∉ received)
  idle : node.inFlight = false → node.worker = none ∧ node.mailbox = []
  stopped : node.inFlight = true → .failed .empty ∈ node.posted → node.stopRequested = true
  open_ : ∀ peers selfIP, .netmap peers selfIP true ∈ node.mailbox →
    node.host.backend.tunOpen = true
  connected : node.host.backend.state = .connected →
    node.inFlight = true ∧ node.host.backend.tunOpen = true

theorem sound_fresh : Sound {} where
  told := ⟨.asking, rfl, nofun⟩
  received := ⟨[], rfl, nofun⟩
  idle _ := ⟨rfl, rfl⟩
  stopped := nofun
  open_ := nofun
  connected := nofun

/-- A message is received of a connection that is in flight. -/
theorem Sound.inFlight_of_mail (sound : Sound node) {message : Post} {rest : List Post}
    (mail : node.mailbox = message :: rest) : node.inFlight = true := by
  rw [← Bool.not_eq_false]
  intro idle
  have empty := (sound.idle idle).2
  rw [mail] at empty
  cases empty

theorem Sound.inFlight_of_worker (sound : Sound node) (runs : node.worker = some worker) :
    node.inFlight = true := by
  rw [← Bool.not_eq_false]
  intro idle
  have none := (sound.idle idle).1
  rw [runs] at none
  cases none

/-- What leaves the worker and the mailbox alone. -/
theorem Sound.keep (sound : Sound node) {host : TailscaleHost} (keeps : Keeps node.host host) :
    Sound { node with host } where
  told := by
    obtain ⟨stage, run, fits⟩ := sound.told
    exact ⟨stage, run, fun flight => fits (keeps.worker.symm.trans flight)⟩
  received := by
    obtain ⟨received, split, open_⟩ := sound.received
    exact ⟨received, split, fun flight => open_ (keeps.worker.symm.trans flight)⟩
  idle idle := sound.idle (keeps.worker.symm.trans idle)
  stopped flight member :=
    keeps.stopRequested.trans (sound.stopped (keeps.worker.symm.trans flight) member)
  open_ peers selfIP member := keeps.tunOpen (sound.open_ peers selfIP member)
  connected shown := by
    obtain ⟨flight, up⟩ := sound.connected (keeps.state.symm.trans shown)
    exact ⟨keeps.worker.trans flight, keeps.tunOpen up⟩

/-! ### The requests -/

theorem sound_disconnect (sound : Sound node) :
    Sound { node with host := node.host.disconnect } := by
  have worker : node.host.disconnect.backend.worker = node.inFlight := by
    unfold TailscaleHost.disconnect
    split
    · rfl
    · rfl
  have stopped : node.host.disconnect.backend.stopRequested = true := by
    unfold TailscaleHost.disconnect
    split
    · rfl
    · rfl
  have tunOpen : node.host.disconnect.backend.tunOpen = node.host.backend.tunOpen := by
    unfold TailscaleHost.disconnect
    split
    · rfl
    · rfl
  obtain ⟨stage, run, fits⟩ := sound.told
  obtain ⟨received, split, open_⟩ := sound.received
  refine ⟨⟨stage, run, fun flight => fits (worker.symm.trans flight)⟩,
    ⟨received, split, fun flight => open_ (worker.symm.trans flight)⟩,
    fun idle => sound.idle (worker.symm.trans idle), fun _ _ => stopped,
    fun peers selfIP member => tunOpen.trans (sound.open_ peers selfIP member), fun shown => ?_⟩
  dsimp only at shown
  unfold TailscaleHost.disconnect at shown
  split at shown
  · next flight =>
    have state : node.host.backend.state = .connected := by
      simpa [TailscaleBackend.disconnect, flight] using shown
    exact ⟨worker.trans flight, tunOpen.trans (sound.connected state).2⟩
  · next idle =>
    simp [TailscaleHost.announce, TailscaleBackend.disconnect, idle] at shown

theorem sound_connect (sound : Sound node) (profile : Server.VPNProfile) (answer : Enrolment) :
    Sound (node.connect profile answer) := by
  unfold connect
  have answered := TailscaleHost.answered_connect node.host profile answer
  generalize node.host.connect profile answer = outcome at answered ⊢
  cases answered with
  | started idle worker running state =>
      have quiet := (sound.idle idle).2
      refine ⟨⟨.asking, rfl, fun _ => rfl⟩, ⟨[], quiet.symm, fun _ _ => List.not_mem_nil⟩,
        fun grounded => absurd (grounded.symm.trans worker) (by decide), nofun,
        fun peers selfIP member => ?_, fun shown => absurd (state.symm.trans shown) (by decide)⟩
      dsimp only at member
      rw [quiet] at member
      cases member
  | refused worker stopRequested tunOpen state =>
      obtain ⟨stage, run, fits⟩ := sound.told
      obtain ⟨received, split, open_⟩ := sound.received
      refine ⟨⟨stage, run, fun flight => fits (worker.symm.trans flight)⟩,
        ⟨received, split, fun flight => open_ (worker.symm.trans flight)⟩,
        fun idle => sound.idle (worker.symm.trans idle), fun flight member => ?_,
        fun peers selfIP member => tunOpen.trans (sound.open_ peers selfIP member),
        fun shown => absurd (state.symm.trans shown) (by decide)⟩
      have held : node.inFlight = true := worker.symm.trans flight
      exact (stopRequested held).trans (sound.stopped held member)

/-! ### The messages -/

/-- A received message that is not the last word. -/
theorem Sound.receive_news (sound : Sound node) {message : Post} {rest : List Post}
    (mail : node.mailbox = message :: rest) (news : ∀ detail, message ≠ .failed detail)
    {host : TailscaleHost} {remoteIP : CString}
    (worker : host.backend.worker = node.host.backend.worker)
    (stopRequested : host.backend.stopRequested = node.host.backend.stopRequested)
    (tunOpen : host.backend.tunOpen = node.host.backend.tunOpen)
    (shows : host.backend.state = .connected → node.host.backend.tunOpen = true) :
    Sound { node with host, remoteIP, mailbox := rest } := by
  have flight := sound.inFlight_of_mail mail
  have flown : host.backend.worker = true := worker.trans flight
  obtain ⟨stage, run, fits⟩ := sound.told
  obtain ⟨received, split, open_⟩ := sound.received
  refine ⟨⟨stage, run, fun _ => fits flight⟩,
    ⟨received ++ [message], ?_, fun _ detail member => ?_⟩,
    fun idle => absurd (idle.symm.trans flown) (by decide), fun _ member => ?_,
    fun peers selfIP member => ?_, fun shown => ⟨flown, tunOpen.trans (shows shown)⟩⟩
  · rw [split, mail, List.append_assoc]
    rfl
  · cases List.mem_append.mp member with
    | inl before => exact open_ flight detail before
    | inr now => exact news detail (List.mem_singleton.mp now).symm
  · exact stopRequested.trans (sound.stopped flight member)
  · refine tunOpen.trans (sound.open_ peers selfIP ?_)
    rw [mail]
    exact List.mem_cons_of_mem _ member

/-- Nothing comes behind the last word. -/
theorem Sound.last (sound : Sound node) {detail : CString} {rest : List Post}
    (mail : node.mailbox = .failed detail :: rest) : rest = [] ∧ node.worker = none := by
  have flight := sound.inFlight_of_mail mail
  obtain ⟨stage, run, fits⟩ := sound.told
  obtain ⟨received, split, -⟩ := sound.received
  have parts : node.posted = (received ++ [.failed detail]) ++ rest := by
    rw [split, mail, List.append_assoc]
    rfl
  rw [parts] at run
  obtain ⟨before, first⟩ := Stage.run_earlier run
  obtain rfl : before = .ended := (Stage.ended_iff first).mpr ⟨received, detail, rfl⟩
  rw [Stage.run_append rest first] at run
  cases rest with
  | nil =>
      cases run
      have place := fits flight
      cases runs : node.worker with
      | none => exact ⟨rfl, rfl⟩
      | some worker =>
          rw [runs] at place
          cases worker with
          | connecting | connected | loginTest | polling | polled => cases place
          | opening | streamTest | reading | closed | retryTest | sleeping =>
              simp [Worker.FitsEnd, Worker.Fits] at place
  | cons message rest =>
      rw [Run.runPartial, List.foldlM_cons] at run
      cases run

theorem sound_receive (sound : Sound node) : Sound node.receive := by
  unfold receive
  cases mail : node.mailbox with
  | nil => exact sound
  | cons message rest =>
      have flight := sound.inFlight_of_mail mail
      cases message with
      | authURL url => exact sound.receive_news mail nofun rfl rfl rfl nofun
      | authorized => exact sound.receive_news mail nofun rfl rfl rfl nofun
      | endpoint endpoint =>
          exact sound.receive_news mail nofun rfl rfl rfl fun shown => (sound.connected shown).2
      | netmap peers selfIP up =>
          refine sound.receive_news mail nofun rfl rfl rfl fun shown => ?_
          cases up with
          | false => cases shown
          | true => exact sound.open_ peers selfIP (mail ▸ List.mem_cons_self)
      | failed detail =>
          obtain ⟨rfl, ended⟩ := sound.last mail
          obtain ⟨stage, run, -⟩ := sound.told
          obtain ⟨received, split, -⟩ := sound.received
          have final := TailscaleHost.ended_failed flight detail
          refine ⟨⟨stage, run, fun flown => ?_⟩,
            ⟨node.posted, (List.append_nil _).symm, fun flown => ?_⟩,
            fun _ => ⟨ended, rfl⟩, fun flown => ?_, nofun, fun shown => ?_⟩
          · exact absurd (final.worker.symm.trans flown) (by decide)
          · exact absurd (final.worker.symm.trans flown) (by decide)
          · exact absurd (final.worker.symm.trans flown) (by decide)
          · have state := final.state.symm.trans shown
            split at state
            · cases state
            · cases state

theorem sound_work (sound : Sound node) (runs : node.worker = some worker)
    (worked : node.work met worker = some next) : Sound next := by
  have flight := sound.inFlight_of_worker runs
  obtain ⟨stage, run, fits⟩ := sound.told
  have place := fits flight
  rw [runs] at place
  obtain ⟨news, later, tells, onward, left, up, stop⟩ := (works_work place worked).told
  have flown : next.inFlight = true := tells.keeps.worker.trans flight
  refine ⟨⟨later, ?_, fun _ => left⟩, ?_, fun idle => ?_, fun _ member => ?_,
    fun peers selfIP member => ?_, fun shown => ?_⟩
  · rw [tells.posted, Stage.run_append news run]
    exact onward
  · obtain ⟨received, split, open_⟩ := sound.received
    refine ⟨received, ?_, fun _ => open_ flight⟩
    rw [tells.posted, tells.mailbox, split, List.append_assoc]
  · exact absurd (idle.symm.trans flown) (by decide)
  · rw [tells.posted, List.mem_append] at member
    refine tells.keeps.stopRequested.trans ?_
    cases member with
    | inl before => exact sound.stopped flight before
    | inr now => exact stop now
  · rw [tells.mailbox, List.mem_append] at member
    cases member with
    | inl before => exact tells.keeps.tunOpen (sound.open_ peers selfIP before)
    | inr now => exact up peers selfIP now
  · have before := sound.connected (tells.keeps.state.symm.trans shown)
    exact ⟨flown, tells.keeps.tunOpen before.2⟩

theorem sound_step (event : NodeEvent) (sound : Sound node)
    (stepped : node.step event = some next) : Sound next := by
  cases event with
  | connect profile answer =>
      cases stepped
      exact sound_connect sound profile answer
  | disconnect =>
      cases stepped
      exact sound_disconnect sound
  | receive =>
      cases stepped
      exact sound_receive sound
  | work met =>
      cases runs : node.worker with
      | none =>
          rw [step, runs] at stepped
          cases stepped
          exact sound
      | some worker =>
          rw [step, runs] at stepped
          exact sound_work sound runs stepped
  | aside event =>
      cases stepped
      split
      · next aside => exact sound.keep (keeps_aside node.host aside)
      · exact sound

theorem sound_run {events : List NodeEvent}
    (reached : Run.runPartial step {} events = some node) : Sound node := by
  have preserved : ∀ (node : Node) (event : NodeEvent) (next : Node), True →
      node.step event = some next → Sound node → Sound next :=
    fun _ event _ _ stepped sound => sound_step event sound stepped
  exact Run.invariant_partial preserved (Run.alongPartial_of_forall (fun _ _ => trivial) _ _)
    reached sound_fresh

/-! ## What the looper hears -/

/-- The messages of one worker, told in order. -/
structure Conversation (posts : List Post) : Prop where
  parts : ∃ (login : Option CString) (mapped : Option (List Post)) (last : Option CString),
    posts = login.toList.map .authURL ++
      (mapped.toList.flatMap fun news => .authorized :: news) ++ last.toList.map .failed ∧
    (∀ news ∈ mapped, ∀ message ∈ news, (∃ endpoint, message = .endpoint endpoint) ∨
      ∃ peers selfIP up, message = .netmap peers selfIP up) ∧
    ∀ news ∈ mapped, news ≠ [] → ∀ detail ∈ last, detail = .empty

/-- What has been told at a stage. -/
def Shape (posts : List Post) : Stage → Prop
  | .asking => posts = []
  | .login => ∃ url, posts = [.authURL url]
  | .authorized => ∃ login : Option CString, posts = login.toList.map .authURL ++ [.authorized]
  | .mapped => ∃ (login : Option CString) (news : List Post),
      posts = login.toList.map .authURL ++ .authorized :: news ∧
      ∀ message ∈ news, (∃ endpoint, message = .endpoint endpoint) ∨
        ∃ peers selfIP up, message = .netmap peers selfIP up
  | .ended => Conversation posts

theorem shape_run {posts : List Post} {stage : Stage} (told : Stage.run posts = some stage) :
    Shape posts stage := by
  induction posts using List.reverseRecOn generalizing stage with
  | nil =>
      cases told
      rfl
  | append_singleton earlier message continued =>
      obtain ⟨before, first⟩ := Stage.run_earlier told
      rw [Stage.run_concat message first] at told
      have shape := continued first
      cases before with
      | asking =>
          cases shape
          cases message with
          | authURL url =>
              cases told
              exact ⟨url, rfl⟩
          | authorized =>
              cases told
              exact ⟨none, rfl⟩
          | failed detail =>
              cases told
              exact ⟨none, none, some detail, rfl, nofun, nofun⟩
          | endpoint | netmap => cases told
      | login =>
          obtain ⟨url, rfl⟩ := shape
          cases message with
          | authorized =>
              cases told
              exact ⟨some url, rfl⟩
          | failed detail =>
              cases told
              exact ⟨some url, none, some detail, rfl, nofun, nofun⟩
          | authURL | endpoint | netmap => cases told
      | authorized =>
          obtain ⟨login, rfl⟩ := shape
          cases message with
          | endpoint endpoint =>
              cases told
              exact ⟨login, [.endpoint endpoint], by simp, by simp⟩
          | netmap peers selfIP up =>
              cases told
              refine ⟨login, [.netmap peers selfIP up], by simp, fun message member => ?_⟩
              exact .inr ⟨peers, selfIP, up, List.mem_singleton.mp member⟩
          | failed detail =>
              cases told
              exact ⟨login, some [], some detail, rfl, by simp, by simp⟩
          | authURL | authorized => cases told
      | mapped =>
          obtain ⟨login, news, rfl, heard⟩ := shape
          cases message with
          | endpoint endpoint =>
              cases told
              refine ⟨login, news ++ [.endpoint endpoint], by simp, fun message member => ?_⟩
              cases List.mem_append.mp member with
              | inl before => exact heard message before
              | inr now => exact .inl ⟨endpoint, List.mem_singleton.mp now⟩
          | netmap peers selfIP up =>
              cases told
              refine ⟨login, news ++ [.netmap peers selfIP up], by simp, fun message member => ?_⟩
              cases List.mem_append.mp member with
              | inl before => exact heard message before
              | inr now => exact .inr ⟨peers, selfIP, up, List.mem_singleton.mp now⟩
          | failed detail =>
              rw [Stage.next] at told
              split at told
              · next empty =>
                cases told
                exact ⟨login, some news, some detail, by simp, by simpa using heard,
                  by simp [empty]⟩
              · cases told
          | authURL | authorized => cases told
      | ended => cases told

/-- What has been told so far is a conversation. -/
theorem conversation_run {posts : List Post} {stage : Stage} (told : Stage.run posts = some stage) :
    Conversation posts := by
  have shape := shape_run told
  cases stage with
  | asking =>
      cases shape
      exact ⟨none, none, none, rfl, nofun, nofun⟩
  | login =>
      obtain ⟨url, rfl⟩ := shape
      exact ⟨some url, none, none, rfl, nofun, nofun⟩
  | authorized =>
      obtain ⟨login, rfl⟩ := shape
      exact ⟨login, some [], none, by simp, by simp, by simp⟩
  | mapped =>
      obtain ⟨login, news, rfl, heard⟩ := shape
      exact ⟨login, some news, none, by simp, by simpa using heard, by simp⟩
  | ended => exact shape

/-- In every run, in any order of the looper, the worker and the other threads: what a worker
posts is a conversation with its last word at the end, the looper receives it in order, and
another worker starts with nothing left to receive. -/
theorem conversation_received {events : List NodeEvent}
    (reached : Run.runPartial step {} events = some node) :
    Conversation node.posted ∧ node.mailbox <:+ node.posted ∧
      (∀ profile answer, (node.host.connect profile answer).1 = .ok () →
        node.worker = none ∧ node.mailbox = []) ∧
      (node.inFlight = true →
        (node.worker = none ↔ ∃ earlier detail, node.mailbox = earlier ++ [.failed detail])) := by
  have sound := sound_run reached
  obtain ⟨stage, run, fits⟩ := sound.told
  obtain ⟨received, split, open_⟩ := sound.received
  refine ⟨conversation_run run, ⟨received, split.symm⟩, fun profile answer taken => ?_,
    fun flight => ?_⟩
  · have answered := TailscaleHost.answered_connect node.host profile answer
    generalize node.host.connect profile answer = outcome at answered taken
    cases answered with
    | started idle => exact sound.idle idle
    | refused => cases taken
  have place := fits flight
  have ended : node.worker = none ↔ stage = .ended := by
    cases runs : node.worker with
    | none =>
        rw [runs] at place
        exact ⟨fun _ => place, fun _ => rfl⟩
    | some worker =>
        rw [runs] at place
        refine ⟨nofun, fun final => ?_⟩
        subst final
        cases worker with
        | connecting | connected | loginTest | polling | polled => cases place
        | opening | streamTest | reading | closed | retryTest | sleeping =>
            simp [Worker.FitsEnd, Worker.Fits] at place
  rw [ended, Stage.ended_iff run]
  constructor
  · rintro ⟨earlier, detail, last⟩
    cases reversed : node.mailbox using List.reverseRecOn with
    | nil =>
        rw [reversed, List.append_nil] at split
        have heard : .failed detail ∈ received := by
          rw [← split, last]
          simp
        exact absurd heard (open_ flight detail)
    | append_singleton mail message =>
        rw [reversed, last, ← List.append_assoc] at split
        have same := (List.append_inj' split rfl).2
        exact ⟨mail, detail, by rw [← List.singleton_inj.mp same]⟩
  · rintro ⟨earlier, detail, mail⟩
    exact ⟨received ++ earlier, detail, by rw [split, mail, List.append_assoc]⟩

/-- A connection that is authorised on its login page, receives a network map and is stopped. -/
def authorized : List NodeEvent :=
  [.connect { name := text "tailnet" } { identity := .ok (.zero 32), workerStarts := true },
    .work { outcome := .ok (200, text "\x7b\"AuthURL\":\"https://login\"\x7d") }, .work {},
    .receive, .work {},
    .work { outcome := .ok (200, text "\x7b\"MachineAuthorized\":true\x7d") }, .work {},
    .receive, .work {}, .work {},
    .work { message := (.ok, ascii "\x7b\"Node\":\x7b\"Addresses\":[\"100.64.0.1/32\"]\x7d\x7d") },
    .disconnect, .work {}, .work {}]

theorem authorized_posts : ∃ node, Run.runPartial step {} authorized = some node ∧
    node.posted = [.authURL (text "https://login"), .authorized,
      .netmap 0 (text "100.64.0.1") true, .failed .empty] := by
  refine Option.map_eq_some_iff.mp (?_ : Option.map Node.posted _ = _)
  decide +kernel

theorem conversation_received_authorized : ∃ node,
    Run.runPartial step {} authorized = some node ∧ Conversation node.posted ∧
      node.mailbox <:+ node.posted ∧ .netmap 0 (text "100.64.0.1") true ∈ node.posted := by
  obtain ⟨node, reached, posted⟩ := authorized_posts
  exact ⟨node, reached, (conversation_received reached).1, (conversation_received reached).2.1,
    by simp [posted]⟩

/-- A connection that is stopped while `ControlSession::Connect` is at work. -/
def stopped : List NodeEvent :=
  [.connect { name := text "tailnet" } { identity := .ok (.zero 32), workerStarts := true },
    .disconnect, .work {}, .work {}]

theorem stopped_posts : ∃ node, Run.runPartial step {} stopped = some node ∧
    node.mailbox = [.failed .empty] :=
  ⟨_, rfl, rfl⟩

/-- The last word ends the connection: on request, without an error, where a netmap had been
announced. -/
theorem ends_on_request {events : List NodeEvent} {detail : CString} {rest : List Post}
    (reached : Run.runPartial step {} events = some node)
    (mail : node.mailbox = .failed detail :: rest) :
    rest = [] ∧ node.receive.inFlight = false ∧ node.receive.host.backend.tunOpen = false ∧
      (node.receive.host.backend.state = .disconnected ∧ node.stopRequested = true ∨
        node.receive.host.backend.state = .error ∧
          ∀ peers selfIP up, .netmap peers selfIP up ∉ node.posted) := by
  have sound := sound_run reached
  have flight := sound.inFlight_of_mail mail
  have received : node.receive = { node with mailbox := rest }.handle (.failed detail) := by
    rw [receive, mail]
  have ended := TailscaleHost.ended_failed flight detail
  rw [received]
  refine ⟨(sound.last mail).1, ended.worker, ended.tunOpen, ?_⟩
  have posted : .failed detail ∈ node.posted := by
    obtain ⟨heard, split, -⟩ := sound.received
    rw [split, mail]
    simp
  by_cases empty : detail = .empty
  · subst empty
    exact .inl ⟨ended.state, sound.stopped flight posted⟩
  · refine .inr ⟨ended.state.trans (if_neg empty), fun peers selfIP up mapped => empty ?_⟩
    obtain ⟨stage, run, -⟩ := sound.told
    obtain ⟨login, news, last, split, heard, stopped⟩ := (conversation_run run).parts
    rw [split] at posted mapped
    have word : last = some detail := by
      have spoken : (∃ all, news = some all ∧ .failed detail ∈ all) ∨ last = some detail := by
        simpa using posted
      refine spoken.resolve_left fun ⟨all, taken, member⟩ => ?_
      cases heard all taken _ member with
      | inl endpoint =>
          obtain ⟨_, same⟩ := endpoint
          cases same
      | inr netmap =>
          obtain ⟨_, _, _, same⟩ := netmap
          cases same
    obtain ⟨all, taken, member⟩ : ∃ all ∈ news, .netmap peers selfIP up ∈ all := by
      simpa using mapped
    exact stopped all taken (List.ne_nil_of_mem member) detail word

theorem ends_on_request_stopped : ∃ node, Run.runPartial step {} stopped = some node ∧
    (node.receive.host.backend.state = .disconnected ∧ node.stopRequested = true ∨
      node.receive.host.backend.state = .error ∧
        ∀ peers selfIP up, .netmap peers selfIP up ∉ node.posted) := by
  obtain ⟨node, reached, mail⟩ := stopped_posts
  exact ⟨node, reached, (ends_on_request reached mail).2.2.2⟩

/-! ## Stopping -/

/-- The turns that a worker takes at most once it is to stop. -/
def turnsLeft : Option Worker → Nat
  | none => 0
  | some (.connected _) | some (.loginTest _) | some (.polled _ _) | some (.retryTest _ _)
  | some (.sleeping _ _ _) => 1
  | some .connecting | some (.polling _) | some (.closed _ _ _) => 2
  | some (.streamTest _) => 3
  | some (.opening _) | some (.reading _) => 4

@[simp] theorem worker_goto (node : Node) (worker : Worker) :
    (node.goto worker).worker = some worker := rfl

@[simp] theorem worker_finish (node : Node) (detail : CString) :
    (node.finish detail).worker = none := rfl

@[simp] theorem worker_finishMap (node : Node) (detail : CString) :
    (node.finishMap detail).worker = none := rfl

theorem turnsLeft_work (stopped : node.stopRequested = true)
    (worked : node.work met worker = some next) :
    turnsLeft next.worker < turnsLeft (some worker) := by
  cases worker with
  | connecting | polling =>
      cases worked
      simp [turnsLeft]
  | connected | loginTest | polled | retryTest | sleeping | streamTest =>
      simp only [work, if_pos stopped] at worked
      cases worked
      simp [turnsLeft]
  | opening loop =>
      cases worked
      cases met.accepted with
      | ok accepted => simp [turnsLeft]
      | error lastError => simp [turnsLeft]
  | reading loop =>
      simp only [work] at worked
      split at worked
      · obtain ⟨middle, -, rfl⟩ := Option.map_eq_some_iff.mp worked
        simp [turnsLeft]
      · cases worked
        simp [turnsLeft]
      · cases worked
        simp [turnsLeft]
  | closed loop established lastError =>
      simp only [work, if_pos stopped] at worked
      cases worked
      split
      · simp [turnsLeft]
      · simp [turnsLeft]

/-- The event is a turn of the worker. -/
def turn : NodeEvent → Bool
  | .work _ => true
  | _ => false

/-- The looper receives, or would if there were a message. -/
def looks : NodeEvent → Bool
  | .receive => true
  | _ => false

def connects : NodeEvent → Bool
  | .connect _ _ => true
  | _ => false

theorem stopRequested_receive (sound : Sound node) (stopped : node.stopRequested = true) :
    node.receive.stopRequested = true := by
  unfold receive
  cases mail : node.mailbox with
  | nil => exact stopped
  | cons message rest =>
      cases message with
      | authURL | authorized | endpoint | netmap => exact stopped
      | failed detail =>
          exact (TailscaleHost.ended_failed (sound.inFlight_of_mail mail) detail).stopRequested

theorem worker_receive (node : Node) : node.receive.worker = node.worker := by
  unfold receive
  cases node.mailbox with
  | nil => rfl
  | cons message rest =>
      cases message with
      | authURL | authorized | endpoint | netmap | failed => rfl

/-- Without a `Connect` a stop stays requested, and every turn of the worker counts. -/
theorem turnsLeft_step {event : NodeEvent} (sound : Sound node)
    (stopped : node.stopRequested = true) (quiet : connects event = false)
    (stepped : node.step event = some next) :
    next.stopRequested = true ∧
      turnsLeft next.worker ≤ turnsLeft node.worker - (turn event).toNat := by
  cases event with
  | connect => cases quiet
  | disconnect =>
      cases stepped
      refine ⟨?_, Nat.le_refl _⟩
      show node.host.disconnect.backend.stopRequested = true
      unfold TailscaleHost.disconnect
      split
      · rfl
      · rfl
  | receive =>
      cases stepped
      exact ⟨stopRequested_receive sound stopped, (worker_receive node).symm ▸ Nat.le_refl _⟩
  | work met =>
      cases runs : node.worker with
      | none =>
          rw [step, runs] at stepped
          cases stepped
          exact ⟨stopped, by simp [runs, turnsLeft]⟩
      | some worker =>
          rw [step, runs] at stepped
          obtain ⟨stage, -, fits⟩ := sound.told
          have place := fits (sound.inFlight_of_worker runs)
          rw [runs] at place
          obtain ⟨news, later, tells, -⟩ := (works_work place stepped).told
          have shorter := turnsLeft_work stopped stepped
          exact ⟨tells.keeps.stopRequested.trans stopped, Nat.le_sub_one_of_lt shorter⟩
  | aside event =>
      cases stepped
      split
      · next aside =>
        exact ⟨(keeps_aside node.host aside).stopRequested.trans stopped, Nat.le_refl _⟩
      · exact ⟨stopped, Nat.le_refl _⟩

theorem turnsLeft_run {events : List NodeEvent} (sound : Sound node)
    (stopped : node.stopRequested = true) (quiet : ∀ event ∈ events, connects event = false)
    (ran : Run.runPartial step node events = some next) :
    Sound next ∧ next.stopRequested = true ∧
      turnsLeft next.worker ≤ turnsLeft node.worker - events.countP turn := by
  induction events generalizing node with
  | nil =>
      cases ran
      exact ⟨sound, stopped, Nat.le_refl _⟩
  | cons event events continued =>
      rw [Run.runPartial, List.foldlM_cons] at ran
      obtain ⟨middle, stepped, rest⟩ := Option.bind_eq_some_iff.mp ran
      have first := turnsLeft_step sound stopped (quiet event List.mem_cons_self) stepped
      have onward := continued (sound_step event sound stepped) first.1
        (fun later member => quiet later (List.mem_cons_of_mem _ member)) rest
      refine ⟨onward.1, onward.2.1, ?_⟩
      have counted : (event :: events).countP turn = events.countP turn + (turn event).toNat := by
        rw [List.countP_cons]
        cases turn event with
        | false => rfl
        | true => rfl
      have bound := first.2
      have rest := onward.2.2
      omega

/-- A worker that has returned posts nothing, and the looper catches up. -/
theorem mailbox_step {event : NodeEvent} (returned : node.worker = none)
    (quiet : connects event = false) (stepped : node.step event = some next) :
    next.worker = none ∧ next.mailbox.length ≤ node.mailbox.length - (looks event).toNat := by
  cases event with
  | connect => cases quiet
  | disconnect =>
      cases stepped
      exact ⟨returned, Nat.le_refl _⟩
  | receive =>
      cases stepped
      refine ⟨(worker_receive node).trans returned, ?_⟩
      unfold receive
      cases mail : node.mailbox with
      | nil => exact Nat.le_of_eq (congrArg List.length mail)
      | cons message rest =>
          cases message with
          | authURL | authorized | endpoint | netmap | failed => exact Nat.le_refl _
  | work met =>
      rw [step, returned] at stepped
      cases stepped
      exact ⟨returned, Nat.le_refl _⟩
  | aside event =>
      cases stepped
      split
      · exact ⟨returned, Nat.le_refl _⟩
      · exact ⟨returned, Nat.le_refl _⟩

theorem mailbox_run {events : List NodeEvent} (returned : node.worker = none)
    (quiet : ∀ event ∈ events, connects event = false)
    (ran : Run.runPartial step node events = some next) :
    next.worker = none ∧ next.mailbox.length ≤ node.mailbox.length - events.countP looks := by
  induction events generalizing node with
  | nil =>
      cases ran
      exact ⟨returned, Nat.le_refl _⟩
  | cons event events continued =>
      rw [Run.runPartial, List.foldlM_cons] at ran
      obtain ⟨middle, stepped, rest⟩ := Option.bind_eq_some_iff.mp ran
      have first := mailbox_step returned (quiet event List.mem_cons_self) stepped
      have onward := continued first.1
        (fun later member => quiet later (List.mem_cons_of_mem _ member)) rest
      refine ⟨onward.1, ?_⟩
      have counted : (event :: events).countP looks =
          events.countP looks + (looks event).toNat := by
        rw [List.countP_cons]
        cases looks event with
        | false => rfl
        | true => rfl
      have bound := first.2
      have rest := onward.2
      omega

/-- Once a stop is requested, four turns of the worker bring its last word, whatever it was
doing, and the connection is over when the looper has looked at all of its messages. -/
theorem stop_takes_effect {events first second : List NodeEvent} {middle last : Node}
    (reached : Run.runPartial step {} events = some node) (stopped : node.stopRequested = true)
    (quiet : ∀ event ∈ first ++ second, connects event = false)
    (worked : Run.runPartial step node first = some middle) (turns : 4 ≤ first.countP turn)
    (heard : Run.runPartial step middle second = some last)
    (looked : middle.mailbox.length ≤ second.countP looks) :
    middle.worker = none ∧ last.worker = none ∧ last.mailbox = [] ∧ last.inFlight = false ∧
      last.host.backend.state ≠ .connected := by
  have quietFirst : ∀ event ∈ first, connects event = false :=
    fun event member => quiet event (List.mem_append_left _ member)
  have quietSecond : ∀ event ∈ second, connects event = false :=
    fun event member => quiet event (List.mem_append_right _ member)
  obtain ⟨sound, still, left⟩ := turnsLeft_run (sound_run reached) stopped quietFirst worked
  have most : turnsLeft node.worker ≤ 4 := by
    cases node.worker with
    | none => decide
    | some worker =>
        cases worker with
        | connecting | connected | loginTest | polling | polled | opening | streamTest | reading
        | closed | retryTest | sleeping => simp [turnsLeft]
  have returned : middle.worker = none := by
    cases runs : middle.worker with
    | none => rfl
    | some worker =>
        rw [runs] at left
        have some_ : 0 < turnsLeft (some worker) := by
          cases worker with
          | connecting | connected | loginTest | polling | polled | opening | streamTest
          | reading | closed | retryTest | sleeping => simp [turnsLeft]
        omega
  obtain ⟨ended, short⟩ := mailbox_run returned quietSecond heard
  have soundLast := (turnsLeft_run sound still quietSecond heard).1
  have empty : last.mailbox = [] := List.eq_nil_of_length_eq_zero (by omega)
  have grounded : last.inFlight = false := by
    rw [← Bool.not_eq_true]
    intro flight
    obtain ⟨stage, run, fits⟩ := soundLast.told
    obtain ⟨received, split, open_⟩ := soundLast.received
    have final := fits flight
    rw [ended] at final
    obtain ⟨earlier, detail, posted⟩ := (Stage.ended_iff run).mp final
    rw [empty, List.append_nil] at split
    refine open_ flight detail ?_
    rw [← split, posted]
    simp
  refine ⟨returned, ended, empty, grounded, fun shown => ?_⟩
  exact absurd (grounded.symm.trans (soundLast.connected shown).1) (by decide)

/-- The worker is in its first call when the stop comes. -/
theorem stop_takes_effect_connecting : ∃ node middle last,
    Run.runPartial step {} (stopped.take 2) = some node ∧
    Run.runPartial step node (List.replicate 4 (.work {})) = some middle ∧
    Run.runPartial step middle [.receive] = some last ∧ last.inFlight = false := by
  obtain ⟨node, middle, last, reached, halted, worked, short, heard⟩ :
      ∃ node middle last, Run.runPartial step {} (stopped.take 2) = some node ∧
        node.stopRequested = true ∧
        Run.runPartial step node (List.replicate 4 (.work {})) = some middle ∧
        middle.mailbox.length ≤ 1 ∧ Run.runPartial step middle [.receive] = some last :=
    ⟨_, _, _, rfl, rfl, rfl, Nat.le_refl _, rfl⟩
  exact ⟨node, middle, last, reached, worked, heard,
    (stop_takes_effect reached halted (by decide) worked (by decide) heard short).2.2.2.1⟩

theorem serves_step {event : NodeEvent} (sound : Sound node)
    (stepped : node.step event = some next) :
    ∃ requests, next.host = Run.run TailscaleHost.serve node.host requests := by
  cases event with
  | connect profile answer =>
      cases stepped
      refine ⟨[.connect profile answer], ?_⟩
      rw [Run.run_cons, Run.run_nil, connect, TailscaleHost.serve]
      split
      · next same => rw [same]
      · next same => rw [same]
  | disconnect =>
      cases stepped
      exact ⟨[.disconnect], rfl⟩
  | receive =>
      cases stepped
      unfold receive
      cases mail : node.mailbox with
      | nil => exact ⟨[], rfl⟩
      | cons message rest =>
          have flight := sound.inFlight_of_mail mail
          cases message with
          | endpoint endpoint => exact ⟨[], rfl⟩
          | authURL url => exact ⟨_, TailscaleHost.serve_event flight (.authURL url) rfl⟩
          | authorized => exact ⟨_, TailscaleHost.serve_event flight .authorized rfl⟩
          | netmap peers selfIP up =>
              exact ⟨_, TailscaleHost.serve_event flight (.netmap peers selfIP up) rfl⟩
          | failed detail => exact ⟨_, TailscaleHost.serve_event flight (.failed detail) rfl⟩
  | work met =>
      cases runs : node.worker with
      | none =>
          rw [step, runs] at stepped
          cases stepped
          exact ⟨[], rfl⟩
      | some worker =>
          rw [step, runs] at stepped
          have flight := sound.inFlight_of_worker runs
          obtain ⟨stage, -, fits⟩ := sound.told
          have place := fits flight
          rw [runs] at place
          obtain ⟨news, later, tells, -⟩ := (works_work place stepped).told
          exact tells.served flight
  | aside event =>
      cases stepped
      split
      · exact ⟨[.event event], rfl⟩
      · exact ⟨[], rfl⟩

/-- The node refines its host: whatever the looper, the worker and the other threads do, the
host has gone through requests and events of its own, each event while its thread runs. -/
theorem refines_host {events : List NodeEvent} {node : Node}
    (reached : Run.runPartial step {} events = some node) :
    ∃ requests, node.host = Run.run TailscaleHost.serve {} requests := by
  have preserved : ∀ (node : Node) (event : NodeEvent) (next : Node), True →
      node.step event = some next →
      (Sound node ∧ ∃ requests, node.host = Run.run TailscaleHost.serve {} requests) →
      Sound next ∧ ∃ requests, next.host = Run.run TailscaleHost.serve {} requests := by
    intro node event next _ stepped held
    obtain ⟨sound, before, same⟩ := held
    obtain ⟨after, onward⟩ := serves_step sound stepped
    refine ⟨sound_step event sound stepped, before ++ after, ?_⟩
    rw [onward, same, Run.run_append]
  exact (Run.invariant_partial preserved (Run.alongPartial_of_forall (fun _ _ => trivial) _ _)
    reached ⟨sound_fresh, [], rfl⟩).2

theorem refines_host_stopped : ∃ node requests, Run.runPartial step {} stopped = some node ∧
    node.host = Run.run TailscaleHost.serve {} requests := by
  obtain ⟨node, reached, -⟩ := stopped_posts
  obtain ⟨requests, same⟩ := refines_host reached
  exact ⟨node, requests, reached, same⟩

end Node

end Sotoportego.Tailscale
