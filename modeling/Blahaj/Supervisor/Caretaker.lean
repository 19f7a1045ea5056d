/-
  File:      Blahaj/Supervisor/Caretaker.lean
  Subject:   THE CARETAKER of supervisor/caretaker.rs, and the steps it takes.

  The state is the actor with its context and everything that acts on it: the mailbox, the
  daemon's future, the futures of handled `Run`s, the replies in flight, the futures of `Wait`
  and `Terminate` (they run on the arbiter and outlive the actor), the processes the operating
  system holds for it, and its side of the health actors it started. A handler or a poll that
  panics yields the state it panicked in, and `drop` says what is left of the actor then.

  `step` takes one `Event`: a message arrives, the oldest message is handled, a future is polled,
  a process exits, a health actor gives up its sender. An event that is not possible in a state
  is not enabled there. Nothing orders the polls, so every schedule of the executor is a run.
-/
import Blahaj.Http
import Blahaj.Lib.Segments
import Blahaj.Supervisor.Futs

namespace Blahaj

/-! ## 1. Data -/

/-- `HealthState`. -/
inductive HealthState where
  | healthy
  | unhealthy
  | unknown
  deriving DecidableEq, Repr

/-- `Lifecycle`. -/
inductive Lifecycle where
  | starting
  | running (health : HealthState)
  | terminating
  | terminated
  | failed
  deriving DecidableEq, Repr

/-- `RunResult`. -/
inductive RunResult where
  | normalExit (stopRx : Receiver)
  | terminated
  | unhealthy (stopRx : Receiver)
  | error (stopRx : Receiver) (e : SupervisorError)
  deriving DecidableEq, Repr

/-- What a round makes of the result of its `Run`: the receiver to go on with, if there is one. -/
def RunResult.stopRx : RunResult → Option Receiver
  | .normalExit stopRx | .unhealthy stopRx | .error stopRx _ => some stopRx
  | .terminated => none

/-- What a round logs of the result of its `Run`. -/
def RunResult.text : RunResult → String
  | .normalExit _ => "Exits without error."
  | .unhealthy _ | .terminated => "Terminated by caretaker."
  | .error _ e => "Exits with error: " ++ e.display ++ "."

/-- `log::Level`, the two the supervisor uses. -/
inductive Level where
  | warn
  | error
  deriving DecidableEq, Repr

/-- `Custom`: a line for the logger. -/
structure Custom where
  level : Level
  name : String
  data : String
  deriving DecidableEq, Repr

/-- The signals `ensure_stop` sends. -/
inductive Signal where
  | sigterm
  | sigkill
  deriving DecidableEq, Repr

/-- The timer of `ensure_stop` at a poll: the grace period is under way, or it is over, and this is
    what `start_kill` answers if it is called. The operating system can refuse a kill (`EPERM`). -/
inductive Grace where
  | underWay
  | elapsed (kill : Except Unit Unit)

/-- The messages of a caretaker. A request carries the number its reply goes to. `SetHealthState`
    carries the number of the child its sender watches, which no handler looks at. -/
inductive Msg where
  | run (stopRx : Receiver) (req : Nat)
  | wait (req : Nat)
  | terminate
  | setHealthState (sender : Nat) (health : HealthState)
  | getStatus
  deriving DecidableEq, Repr

/-- `Daemon`, from the notification to its end. -/
inductive DaemonItem where
  | notified (stopRx : Receiver)
  | running (fut : RepeatedActFut Nat Receiver)
  | ended (res : Bool)
  | dropped
  deriving DecidableEq, Repr

/-- The future a handled `Run` leaves, by where it is: in its `WaitAbortFut`, ready with the
    error of a failed spawn, or in `ensure_stop` (before or after the grace period) with the
    result it will give. -/
inductive RunFut where
  | waitAbort (fut : WaitAbortFut) (healthAddr : Nat)
  | failure (stopRx : Receiver) (e : SupervisorError)
  | ensureStop (killing : Bool) (child : Child) (res : RunResult)
  deriving DecidableEq, Repr

/-- A handled `Run`, and the number its reply goes to. -/
structure RunItem where
  fut : RunFut
  req : Nat
  deriving DecidableEq, Repr

/-- The future a handled `Wait` leaves: ready at once, a broadcast receiver that has its value or
    not, or resolved, its reply sent. -/
inductive StoppedRx where
  | ready
  | receiving (value : Bool)
  | replied
  deriving DecidableEq, Repr

/-- A handled `Wait`, and the number its reply goes to. -/
structure WaitFut where
  req : Nat
  stoppedRx : StoppedRx
  deriving DecidableEq, Repr

/-- A handled `Terminate`: the `Wait` it sent to its own actor, and whether it has replied. -/
structure TerminateFut where
  req : Nat
  replied : Bool
  deriving DecidableEq, Repr

/-- `HealthConfig`. -/
structure HealthConfig where
  uri : Uri
  interval : Duration
  gracePeriod : Duration
  deriving DecidableEq, Repr

/-- A health actor as its caretaker sees it: what it was started with, whether it was told to
    stop, and whether the sender of the unhealthy signal is gone (used or dropped). -/
structure HealthHandle where
  config : Option HealthConfig
  stopped : Bool
  signalled : Bool
  deriving DecidableEq, Repr

/-- The places where a caretaker can panic. -/
inductive Panic where
  /-- `stop_tx.send(()).expect("send stop signal")` -/
  | sendStop
  /-- `state.take().expect("no state available")` -/
  | noState
  /-- the unwraps of `WaitAbortFut::poll` -/
  | handleTaken
  /-- `res.expect("self is alive")` -/
  | selfAlive
  /-- `now - self.tolerance_interval` -/
  | clock
  /-- `expect("health check uri must be legal")` -/
  | healthUri
  /-- `stopped_tx.take().unwrap()` -/
  | stoppedTaken
  /-- `expect("send stopped_tx signal")` -/
  | sendStopped
  deriving DecidableEq, Repr

/-- What the code uses of the timer of the actor runtime: whether `run_interval` takes an interval,
    or panics. A period of zero is a panic. -/
structure TimerCrate where
  takes : Duration → Bool
  zero : takes 0 = false

/-- A timer that takes every other interval. -/
def TimerCrate.nonZero : TimerCrate := ⟨fun interval => decide (0 < interval), rfl⟩

/-- What a caretaker is given: its name, its program, and the libraries it asks. -/
structure Setting where
  crate : HttpCrate
  timer : TimerCrate
  signalName : Nat → Option String
  name : String
  program : Program

/-- `CaretakerActor`, its context and its surroundings. -/
structure Caretaker where
  status : Lifecycle
  stopTx : Option Sender
  stoppedTx : Option Unit
  /-- where the actor has panicked -/
  crashed : Option Panic
  mailbox : List Msg
  daemon : DaemonItem
  runs : List RunItem
  /-- results of `Run`s on their way to the daemon -/
  replies : List (Nat × RunResult)
  waits : List WaitFut
  /-- every `Terminate` handled so far -/
  terminates : List TerminateFut
  /-- the processes spawned so far, by number -/
  procs : List Proc
  /-- the health actors started so far, by the number of their child -/
  health : List HealthHandle
  /-- the signals sent to the children; a SIGKILL also where it was refused -/
  signals : List (Nat × Signal)
  /-- the children given up because their kill was refused: their `Child` was dropped unreaped -/
  refused : List Nat
  log : List Custom
  /-- the answers to `GetStatus` -/
  answers : List Lifecycle
  /-- the number of the next request -/
  nextReq : Nat
  /-- the request of the `Run` handled last -/
  lastRun : Option Nat

/-! ## 2. Channels -/

/-- The receiver of the caretaker's stop signal. -/
def stopReceiver : Receiver := ⟨.stop⟩

/-- A oneshot receiver is ready when its sender is gone, used or dropped. -/
def Caretaker.signalled (self : Caretaker) (rx : Receiver) : Bool :=
  match rx.chan with
  | .stop => self.stopTx.isNone
  | .unhealthy run => match self.health[run]? with
    | some handle => handle.signalled
    | none => true

/-- Whether the health actor with this number was told to stop. -/
def Caretaker.told (self : Caretaker) (k : Nat) : Option Bool :=
  (self.health[k]?).map HealthHandle.stopped

def DaemonItem.receivers : DaemonItem → List Receiver
  | .notified stopRx => [stopRx]
  | .running fut => fut.state.toList
  | .ended _ | .dropped => []

def Msg.receivers : Msg → List Receiver
  | .run stopRx _ => [stopRx]
  | _ => []

def RunFut.receivers : RunFut → List Receiver
  | .waitAbort fut _ => fut.stopRx.toList
  | .failure stopRx _ => [stopRx]
  | .ensureStop _ _ res => res.stopRx.toList

/-- Every stop receiver there is, over all the places that can hold one: the daemon, a `Run` in
    the mailbox, the future of a handled `Run`, a result on its way. -/
def Caretaker.stopReceivers (self : Caretaker) : List Receiver :=
  self.daemon.receivers ++ self.mailbox.flatMap Msg.receivers ++
    self.runs.flatMap (fun item => item.fut.receivers) ++
    self.replies.flatMap (fun reply => reply.2.stopRx.toList)

def StoppedRx.isReceiving : StoppedRx → Bool
  | .receiving _ => true
  | _ => false

/-- A receiver subscribed before the send gets the value. -/
def StoppedRx.deliver : StoppedRx → StoppedRx
  | .receiving _ => .receiving true
  | rx => rx

/-- A `Wait` resolves at once if it was ready, else on the value or when the sender is gone. -/
def StoppedRx.resolves (stoppedTx : Option Unit) : StoppedRx → Bool
  | .ready => true
  | .receiving value => value || stoppedTx.isNone
  | .replied => false

def Msg.isRun (req : Nat) : Msg → Bool
  | .run _ req' => req' == req
  | _ => false

def Msg.isWait (req : Nat) : Msg → Bool
  | .wait req' => req' == req
  | _ => false

/-- The other end of a `Run` request still exists. -/
def Caretaker.answering (self : Caretaker) (req : Nat) : Bool :=
  self.mailbox.any (Msg.isRun req) || self.runs.any (fun item => item.req == req) ||
    self.replies.any (fun reply => reply.1 == req)

/-- A `Wait` request has its reply, or will never get one: nobody holds its other end. -/
def Caretaker.waitOver (self : Caretaker) (req : Nat) : Bool :=
  !self.mailbox.any (Msg.isWait req) &&
    !self.waits.any (fun fut => fut.req == req && fut.stoppedRx != .replied)

/-! ## 3. The handlers -/

/-- The result of running code of the actor: the state after it, or the panic and the state it
    happened in. -/
abbrev Outcome := Except (Panic × Caretaker) Caretaker

/-- `CaretakerActor::new`. -/
def Caretaker.new : Caretaker where
  status := .starting
  stopTx := none
  stoppedTx := none
  crashed := none
  mailbox := []
  daemon := .dropped
  runs := []
  replies := []
  waits := []
  terminates := []
  procs := []
  health := []
  signals := []
  refused := []
  log := []
  answers := []
  nextReq := 0
  lastRun := none

/-- `CaretakerActor::started`. -/
def Caretaker.started (self : Caretaker) : Caretaker :=
  { self with
    stoppedTx := some ()
    stopTx := some ⟨.stop⟩
    daemon := .notified stopReceiver }

/-- A caretaker that has just started. -/
def Caretaker.init : Caretaker := Caretaker.new.started

/-- `CaretakerActor::broadcast_stopped`. -/
def Caretaker.broadcastStopped (self : Caretaker) : Outcome :=
  let self := { self with stopTx := none }
  match self.stoppedTx with
  | none => .error (.stoppedTaken, self)
  | some _ =>
    let self := { self with stoppedTx := none }
    if self.waits.any (fun fut => fut.stoppedRx.isReceiving) then
      .ok { self with
        waits := self.waits.map fun fut => { fut with stoppedRx := fut.stoppedRx.deliver } }
    else .error (.sendStopped, self)

/-- `build_child`; the operating system spawns the process or says why not. -/
def buildChild (spawn : Except String Unit) (procs : List Proc) :
    Except SupervisorError Child × List Proc :=
  match spawn with
  | .ok _ => (.ok ⟨procs.length⟩, procs ++ [.running])
  | .error source => (.error (.spawn source), procs)

/-- `uri_for_check`; `none` is the panic of its `expect`. -/
def uriForCheck (H : HttpCrate) (https : Bool) (port : UInt16) (path : Str) : Option Uri :=
  match H.authority (loopback port),
      H.pathAndQuery ('/' :: Segments.trimStart '/' path) with
  | some authority, some pathAndQuery =>
    H.build (if https then .https else .http) authority pathAndQuery
  | _, _ => none

/-- The health check of a program, with the relay it checks. -/
def Program.check (program : Program) : Option (HttpRelay × HealthCheck) :=
  program.http.bind fun http => http.healthCheck.map fun check => (http, check)

/-- The health-config closure of `Handler<Run>`: the status it leaves and the config it makes.
    `none` is the panic of `uri_for_check`. -/
def healthConfig (S : Setting) (status : Lifecycle) : Option (Lifecycle × Option HealthConfig) :=
  match S.program.check with
  | none => some (status, none)
  | some (http, check) =>
    (uriForCheck S.crate http.https http.port check.path).map fun uri =>
      (.running .unknown, some ⟨uri, check.interval, check.grace⟩)

/-- `Handler<Run>`, up to the future it leaves. -/
def Caretaker.handleRun (S : Setting) (spawn : Except String Unit) (stopRx : Receiver) (req : Nat)
    (self : Caretaker) : Outcome :=
  let self := { self with status := .starting, lastRun := some req }
  match buildChild spawn self.procs with
  | (.ok child, procs) =>
    let self := { self with procs }
    match healthConfig S self.status with
    | none => .error (.healthUri, { self with status := .running .unknown })
    | some (status, config) =>
      .ok { self with
        status
        health := self.health ++ [⟨config, false, false⟩]
        runs := self.runs ++
          [⟨.waitAbort (.new child stopRx ⟨.unhealthy child.pid⟩) child.pid, req⟩] }
  | (.error e, _) => .ok { self with runs := self.runs ++ [⟨.failure stopRx e, req⟩] }

/-- `Handler<Wait>`. -/
def Caretaker.handleWait (req : Nat) (self : Caretaker) : Caretaker :=
  match self.stoppedTx with
  | none => { self with waits := self.waits ++ [⟨req, .ready⟩] }
  | some _ => { self with waits := self.waits ++ [⟨req, .receiving false⟩] }

/-- `ctx.address().send(Wait)` with the rest of `Handler<Terminate>`. -/
def Caretaker.sendWait (self : Caretaker) : Caretaker :=
  { self with
    mailbox := self.mailbox ++ [.wait self.nextReq]
    nextReq := self.nextReq + 1
    terminates := self.terminates ++ [⟨self.nextReq, false⟩] }

/-- `Handler<Terminate>`. The signal can be sent while its receiver exists. -/
def Caretaker.handleTerminate (self : Caretaker) : Outcome :=
  match self.stopTx with
  | some _ =>
    let self := { self with stopTx := none }
    if self.stopReceivers.isEmpty then .error (.sendStop, self) else .ok self.sendWait
  | none => .ok self.sendWait

/-- `Handler<Daemon>`, up to the future it leaves. -/
def Caretaker.handleDaemon (S : Setting) (stopRx : Receiver) (self : Caretaker) : Caretaker :=
  { self with
    daemon := .running (.new stopRx ⟨[], S.program.retry.window, S.program.retry.count⟩
      S.program.retry.delay) }

/-- `Handler<SetHealthState>`. -/
def Caretaker.handleSetHealthState (health : HealthState) (self : Caretaker) : Caretaker :=
  match self.status with
  | .running _ | .starting => { self with status := .running health }
  | _ => self

/-- `Handler<GetStatus>`. -/
def Caretaker.handleGetStatus (self : Caretaker) : Caretaker :=
  { self with answers := self.answers ++ [self.status] }

/-- One message of the mailbox. -/
def Caretaker.handle (S : Setting) (spawn : Except String Unit) (self : Caretaker) :
    Msg → Outcome
  | .run stopRx req => self.handleRun S spawn stopRx req
  | .wait req => .ok (self.handleWait req)
  | .terminate => self.handleTerminate
  | .setHealthState _ health => .ok (self.handleSetHealthState health)
  | .getStatus => .ok self.handleGetStatus

/-! ## 4. The futures -/

/-- The last closure of `Handler<Run>`: process now died, as far as it knows. The result goes to the
    daemon. -/
def Caretaker.finishRun (i req : Nat) (res : RunResult) (self : Caretaker) : Caretaker :=
  { self with
    status := .terminated
    runs := self.runs.eraseIdx i
    replies := self.replies ++ [(req, res)] }

/-- One poll of `ensure_stop`: done when the child is reaped, and a kill when the grace period is
    over before that. -/
def Caretaker.pollEnsureStop (i req : Nat) (killing : Bool) (child : Child) (res : RunResult)
    (grace : Grace) (self : Caretaker) : Caretaker :=
  match child.wait self.procs with
  | (.ready _, procs) =>
    let self : Caretaker := { self with procs }
    self.finishRun i req res
  | (.pending, _) =>
    match killing, grace with
    | false, .elapsed kill =>
      let self : Caretaker := { self with signals := self.signals ++ [(child.pid, .sigkill)] }
      match kill with
      | .ok _ => { self with runs := self.runs.set i ⟨.ensureStop true child res, req⟩ }
      | .error _ =>
        -- `kill` returns at once, its error is dropped, and the `Child` with it
        let self : Caretaker := { self with refused := self.refused ++ [child.pid] }
        self.finishRun i req res
    | _, _ => { self with runs := self.runs.set i ⟨.ensureStop killing child res, req⟩ }

/-- The start of `ensure_stop`: the signal, and its first poll. -/
def Caretaker.ensureStop (i req : Nat) (child : Child) (res : RunResult) (grace : Grace)
    (self : Caretaker) : Caretaker :=
  let self : Caretaker := { self with
    status := .terminating
    signals := self.signals ++ [(child.pid, .sigterm)] }
  self.pollEnsureStop i req false child res grace

/-- The closures of `Handler<Run>` behind a resolved `WaitAbortFut`. -/
def Caretaker.afterWaitAbort (i req : Nat) (grace : Grace) (self : Caretaker) :
    WaitAbortResult → Caretaker
  | .stopSignalReceived child => self.ensureStop i req child .terminated grace
  | .unhealthySignalReceived stopRx child =>
    self.ensureStop i req child (.unhealthy stopRx) grace
  | .exit stopRx => self.finishRun i req (.normalExit stopRx)
  | .exitWithError stopRx e => self.finishRun i req (.error stopRx e)

/-- `health_addr.stop()`. -/
def Caretaker.stopHealth (healthAddr : Nat) (self : Caretaker) : Caretaker :=
  { self with
    health := self.health.modify healthAddr fun handle => { handle with stopped := true } }

/-- One poll of the future of a handled `Run`. -/
def Caretaker.pollRun (S : Setting) (i : Nat) (grace : Grace) (self : Caretaker)
    (item : RunItem) : Outcome :=
  match item.fut with
  | .waitAbort fut healthAddr =>
    match fut.poll S.signalName self.signalled self.procs with
    | none => .error (.handleTaken, self)
    | some (.pending, fut, procs) =>
      .ok { self with procs, runs := self.runs.set i ⟨.waitAbort fut healthAddr, item.req⟩ }
    | some (.ready res, _, procs) =>
      let self : Caretaker := { self with procs }
      .ok ((self.stopHealth healthAddr).afterWaitAbort i item.req grace res)
  | .failure stopRx e => .ok (self.finishRun i item.req (.error stopRx e))
  | .ensureStop killing child res =>
    .ok (self.pollEnsureStop i item.req killing child res grace)

/-- The factory of the daemon: `addr.send(Run(stop_rx))`, enqueued at once. -/
def Caretaker.sendRun (stopRx : Receiver) (self : Caretaker) : Nat × Caretaker :=
  (self.nextReq, { self with
    mailbox := self.mailbox ++ [.run stopRx self.nextReq]
    nextReq := self.nextReq + 1 })

/-- One poll of a round: the reply, once it is there, with the line it logs. -/
def Caretaker.pollRound (S : Setting) (req : Nat) (self : Caretaker) :
    Poll (Option Receiver) × Nat × Caretaker :=
  match self.replies.lookup req with
  | none => (.pending, req, self)
  | some res => (.ready res.stopRx, req, { self with
      replies := self.replies.filter fun reply => reply.1 != req
      log := self.log ++ [⟨.warn, S.name, res.text⟩] })

/-- The request a round waits for. -/
def roundOf : FutureSlot Nat → Option Nat
  | .polling req => some req
  | _ => none

/-- One poll of the daemon's future, and the closure behind it once it has resolved. -/
def Caretaker.pollDaemon (S : Setting) (clock : Clock) (fut : RepeatedActFut Nat Receiver)
    (self : Caretaker) : Outcome :=
  if (roundOf fut.fut).any fun req => !self.answering req then .error (.selfAlive, self) else
  match fut.poll Caretaker.sendRun (Caretaker.pollRound S) clock self with
  | none => .error (if fut.fut = .empty then .noState else .clock, self)
  | some (.pending, fut, self) => .ok { self with daemon := .running fut }
  | some (.ready true, _, self) =>
    let self : Caretaker := { self with daemon := .ended true }
    self.broadcastStopped
  | some (.ready false, _, self) =>
    let self : Caretaker := { self with
      daemon := .ended false
      status := .failed
      log := self.log ++ [⟨.error, S.name, "Retry limits exceeded, giving up"⟩] }
    self.broadcastStopped

/-! ## 5. Steps -/

/-- What is left of an actor that has panicked: its mailbox, its futures and its senders are
    dropped. The processes are not killed, and what runs on the arbiter goes on. -/
def Caretaker.drop (panic : Panic) (self : Caretaker) : Caretaker :=
  { self with
    crashed := some panic
    stopTx := none
    stoppedTx := none
    mailbox := []
    daemon := .dropped
    runs := []
    replies := [] }

def Caretaker.settle : Outcome → Caretaker
  | .ok self => self
  | .error (panic, self) => self.drop panic

/-- The messages others send. -/
inductive Incoming where
  | wait
  | terminate
  | setHealthState (sender : Nat) (health : HealthState)
  | getStatus
  deriving DecidableEq, Repr

inductive Event where
  /-- somebody sends a message -/
  | arrive (m : Incoming)
  /-- the oldest message is handled; the operating system's answer to a spawn -/
  | handle (spawn : Except String Unit)
  /-- the notification of `started` is handled -/
  | startDaemon
  | pollDaemon (clock : Clock)
  | pollRun (i : Nat) (grace : Grace)
  | pollWait (i : Nat)
  | pollTerminate (i : Nat)
  /-- a process exits -/
  | exit (pid : Nat) (status : ExitStatus)
  /-- a process that has exited is reaped by somebody else -/
  | reap (pid : Nat)
  /-- a health actor uses or drops its sender -/
  | unhealthy (run : Nat)

/-- The mailbox of a caretaker takes a message. Only the health actors that a `Run` started send
    `SetHealthState`. -/
def Caretaker.arrive (self : Caretaker) : Incoming → Option Caretaker
  | .wait => some { self with
      mailbox := self.mailbox ++ [.wait self.nextReq]
      nextReq := self.nextReq + 1 }
  | .terminate => some { self with mailbox := self.mailbox ++ [.terminate] }
  | .setHealthState sender health =>
    if self.lastRun.isSome then
      some { self with mailbox := self.mailbox ++ [.setHealthState sender health] }
    else none
  | .getStatus => some { self with mailbox := self.mailbox ++ [.getStatus] }

/-- **One step of a caretaker.** -/
def Caretaker.step (S : Setting) (self : Caretaker) : Event → Option Caretaker
  | .arrive m => if self.crashed.isSome then none else self.arrive m
  | .handle spawn => match self.mailbox with
    | [] => none
    | m :: mailbox =>
      let self : Caretaker := { self with mailbox }
      some (Caretaker.settle (self.handle S spawn m))
  | .startDaemon => match self.daemon with
    | .notified stopRx => some (self.handleDaemon S stopRx)
    | _ => none
  | .pollDaemon clock => match self.daemon with
    | .running fut => some (Caretaker.settle (self.pollDaemon S clock fut))
    | _ => none
  | .pollRun i grace =>
    (self.runs[i]?).map fun item => Caretaker.settle (self.pollRun S i grace item)
  | .pollWait i => match self.waits[i]? with
    | some fut =>
      if fut.stoppedRx.resolves self.stoppedTx then
        some { self with waits := self.waits.set i { fut with stoppedRx := .replied } }
      else none
    | none => none
  | .pollTerminate i => match self.terminates[i]? with
    | some fut =>
      if !fut.replied && self.waitOver fut.req then
        some { self with terminates := self.terminates.set i { fut with replied := true } }
      else none
    | none => none
  | .exit pid status => match self.procs[pid]? with
    | some .running => some { self with procs := self.procs.set pid (.exited status) }
    | _ => none
  | .reap pid => match self.procs[pid]? with
    | some (.exited _) => some { self with procs := self.procs.set pid .reaped }
    | _ => none
  | .unhealthy run =>
    if run < self.health.length then
      some { self with
        health := self.health.modify run fun handle => { handle with signalled := true } }
    else none

/-- The message that arrives, with the request of its reply. -/
def Incoming.msg (req : Nat) : Incoming → Msg
  | .wait => .wait req
  | .terminate => .terminate
  | .setHealthState sender health => .setHealthState sender health
  | .getStatus => .getStatus

theorem Caretaker.arrived {s s' : Caretaker} {m : Incoming} (hs : s.arrive m = some s') :
    (∃ n, s' = { s with mailbox := s.mailbox ++ [m.msg s.nextReq], nextReq := n }) ∧
      ∀ sender health, m = .setHealthState sender health → s.lastRun.isSome := by
  cases m with
  | setHealthState sender health =>
      simp only [Caretaker.arrive] at hs
      split at hs
      · rename_i hrun
        obtain rfl := Option.some.inj hs
        exact ⟨⟨s.nextReq, rfl⟩, fun _ _ _ => hrun⟩
      · cases hs
  | _ =>
      obtain rfl := Option.some.inj hs
      exact ⟨⟨_, rfl⟩, fun _ _ he => by cases he⟩

/-- **Everything a step of a caretaker does**, event by event. -/
inductive Caretaker.Stepped (S : Setting) (s : Caretaker) : Event → Caretaker → Prop where
  | arrive {m : Incoming} {s' : Caretaker} (hlive : s.crashed = none) (hs : s.arrive m = some s') :
      Stepped S s (.arrive m) s'
  | handle {m : Msg} {rest : List Msg} (hm : s.mailbox = m :: rest) (spawn : Except String Unit) :
      Stepped S s (.handle spawn)
        (Caretaker.settle (Caretaker.handle S spawn { s with mailbox := rest } m))
  | startDaemon {stopRx : Receiver} (hd : s.daemon = .notified stopRx) :
      Stepped S s .startDaemon (s.handleDaemon S stopRx)
  | pollDaemon {fut : RepeatedActFut Nat Receiver} (hd : s.daemon = .running fut) (clock : Clock) :
      Stepped S s (.pollDaemon clock) (Caretaker.settle (s.pollDaemon S clock fut))
  | pollRun {i : Nat} {item : RunItem} (hitem : s.runs[i]? = some item) (grace : Grace) :
      Stepped S s (.pollRun i grace)
        (Caretaker.settle (s.pollRun S i grace item))
  | pollWait {i : Nat} {fut : WaitFut} (hfut : s.waits[i]? = some fut)
      (hres : fut.stoppedRx.resolves s.stoppedTx = true) :
      Stepped S s (.pollWait i) { s with waits := s.waits.set i ⟨fut.req, .replied⟩ }
  | pollTerminate {i : Nat} {fut : TerminateFut} (hfut : s.terminates[i]? = some fut)
      (hover : s.waitOver fut.req = true) :
      Stepped S s (.pollTerminate i)
        { s with terminates := s.terminates.set i { fut with replied := true } }
  | exit {pid : Nat} (hget : s.procs[pid]? = some .running) (status : ExitStatus) :
      Stepped S s (.exit pid status) { s with procs := s.procs.set pid (.exited status) }
  | reap {pid : Nat} {status : ExitStatus} (hget : s.procs[pid]? = some (.exited status)) :
      Stepped S s (.reap pid) { s with procs := s.procs.set pid .reaped }
  | unhealthy {run : Nat} (hlt : run < s.health.length) :
      Stepped S s (.unhealthy run) { s with
        health := s.health.modify run fun handle => { handle with signalled := true } }

theorem Caretaker.stepped {S : Setting} {s s' : Caretaker} {e : Event}
    (hs : s.step S e = some s') : Caretaker.Stepped S s e s' := by
  cases e with
  | arrive m =>
      simp only [Caretaker.step] at hs
      split at hs
      · cases hs
      · rename_i hcrash
        exact .arrive (by simpa using hcrash) hs
  | handle spawn =>
      cases hm : s.mailbox with
      | nil => simp [Caretaker.step, hm] at hs
      | cons m rest =>
          simp only [Caretaker.step, hm, Option.some.injEq] at hs
          rw [← hs]
          exact .handle hm spawn
  | startDaemon =>
      simp only [Caretaker.step] at hs
      split at hs
      · rename_i stopRx hd
        obtain rfl := Option.some.inj hs
        exact .startDaemon hd
      · cases hs
  | pollDaemon clock =>
      simp only [Caretaker.step] at hs
      split at hs
      · rename_i fut hd
        obtain rfl := Option.some.inj hs
        exact .pollDaemon hd clock
      · cases hs
  | pollRun i grace =>
      obtain ⟨item, hitem, rfl⟩ := Option.map_eq_some_iff.mp hs
      exact .pollRun hitem grace
  | pollWait i =>
      simp only [Caretaker.step] at hs
      split at hs
      · rename_i fut hfut
        split at hs
        · rename_i hres
          obtain rfl := Option.some.inj hs
          exact .pollWait hfut hres
        · cases hs
      · cases hs
  | pollTerminate i =>
      simp only [Caretaker.step] at hs
      split at hs
      · rename_i fut hfut
        split at hs
        · rename_i hres
          rw [Bool.and_eq_true] at hres
          obtain rfl := Option.some.inj hs
          exact .pollTerminate hfut hres.2
        · cases hs
      · cases hs
  | exit pid status =>
      simp only [Caretaker.step] at hs
      split at hs
      · rename_i hget
        obtain rfl := Option.some.inj hs
        exact .exit hget status
      · cases hs
  | reap pid =>
      simp only [Caretaker.step] at hs
      split at hs
      · rename_i hget
        obtain rfl := Option.some.inj hs
        exact .reap hget
      · cases hs
  | unhealthy run =>
      simp only [Caretaker.step] at hs
      split at hs
      · rename_i hlt
        obtain rfl := Option.some.inj hs
        exact .unhealthy hlt
      · cases hs

/-! ## 6. One poll of `ensure_stop` -/

theorem Child.wait_running {child : Child} {procs procs' : List Proc}
    (h : child.wait procs = (.pending, procs')) : procs[child.pid]? = some .running := by
  unfold Child.wait at h
  split at h <;> simp_all

theorem Child.wait_gone {child : Child} {procs procs' : List Proc} {r : Except Unit ExitStatus}
    (h : child.wait procs = (.ready r, procs')) : procs[child.pid]? ≠ some .running := by
  intro hrun
  rw [Child.wait, hrun] at h
  cases h

/-- **Everything one poll of `ensure_stop` does**: the child is reaped, it still runs, it is killed,
    or the kill is refused. -/
inductive StopPolled (s : Caretaker) (i req : Nat) (killing : Bool) (child : Child)
    (res : RunResult) (grace : Grace) : Caretaker → Prop where
  | reaped (hgone : s.procs[child.pid]? ≠ some .running) :
      StopPolled s i req killing child res grace
        (Caretaker.finishRun i req res { s with procs := s.procs.set child.pid .reaped })
  | waits (hrun : s.procs[child.pid]? = some .running)
      (hgrace : killing = true ∨ grace = .underWay) :
      StopPolled s i req killing child res grace
        { s with runs := s.runs.set i ⟨.ensureStop killing child res, req⟩ }
  | kills (hrun : s.procs[child.pid]? = some .running) (hkilling : killing = false)
      (hgrace : grace = .elapsed (.ok ())) :
      StopPolled s i req killing child res grace { s with
        runs := s.runs.set i ⟨.ensureStop true child res, req⟩
        signals := s.signals ++ [(child.pid, .sigkill)] }
  | refused (hrun : s.procs[child.pid]? = some .running) (hkilling : killing = false)
      (hgrace : grace = .elapsed (.error ())) :
      StopPolled s i req killing child res grace (Caretaker.finishRun i req res { s with
        signals := s.signals ++ [(child.pid, .sigkill)]
        refused := s.refused ++ [child.pid] })

theorem stop_polled (i req : Nat) (killing : Bool) (child : Child) (res : RunResult)
    (grace : Grace) (s : Caretaker) :
    StopPolled s i req killing child res grace
      (s.pollEnsureStop i req killing child res grace) := by
  unfold Caretaker.pollEnsureStop
  rcases hwait : child.wait s.procs with ⟨r | _, procs⟩
  · obtain rfl := Child.wait_ready hwait
    exact .reaped (Child.wait_gone hwait)
  · have hrun := Child.wait_running hwait
    cases killing with
    | true => exact .waits hrun (Or.inl rfl)
    | false =>
        cases grace with
        | underWay => exact .waits hrun (Or.inr rfl)
        | elapsed kill =>
            cases kill with
            | ok _ => exact .kills hrun rfl rfl
            | error _ => exact .refused hrun rfl rfl

/-! ## 7. A setting -/

/-- Program `a` of tests/simple.yaml, its port and paths filled in. -/
def programA : Program where
  http := some
    { port := 8081
      path := ['/', 's', 'o', 'm', 'e', '_', 'p', 'a', 't', 'h']
      https := true
      stripPath := true
      healthCheck := some
        { path := ['/']
          interval := 10000000000
          grace := 60000000000 } }
  retry :=
    { window := 5000000000
      count := 2
      delay := 5000000000 }

def settingA : Setting where
  crate := .ascii
  timer := .nonZero
  signalName _ := none
  name := "a"
  program := programA

end Blahaj
