/-
  File:      Blahaj/Supervisor/Health.lean
  Subject:   THE HEALTH ACTOR of supervisor/health.rs, and a caretaker with its health actors.

  Each child that is spawned gets a health actor. It asks the child in intervals, any number of
  its checks may be in flight, and each answer is reported to the caretaker. After failures for
  the grace period it uses its sender of the unhealthy signal and stops.

  The timer that `run_interval` sets up is a parameter (`TimerCrate`): it panics for an interval
  that it does not take, and zero is one.

  * `HealthActor.started`, `HealthActor.tick`, `HealthActor.checked` -- its closures, each with
    what it does to the caretaker;
  * `Monitored.step` -- the two actors of one program side by side. An actor drains its mailbox
    before it polls a future or a timer: a health actor that was told to stop polls none.
-/
import Blahaj.Supervisor.Caretaker

namespace Blahaj

/-! ## 1. Answers -/

/-- `StatusCode`, with the text it is shown as. -/
structure StatusCode where
  code : Nat
  text : String
  deriving DecidableEq, Repr

/-- `StatusCode::is_success`. -/
def StatusCode.isSuccess (self : StatusCode) : Bool := 200 ≤ self.code && self.code < 300

/-- `HealthError`; a send error with the text it is shown as. -/
inductive HealthError where
  | send (source : String)
  | status (code : StatusCode)
  deriving DecidableEq, Repr

/-- The error texts. -/
def HealthError.display : HealthError → String
  | .send source => "Unable to send request to upstream - " ++ source
  | .status code => "Non-success response status code - " ++ code.text

/-- What a check makes of its answer. -/
def checkResult : Except String StatusCode → Except HealthError Unit
  | .error source => .error (.send source)
  | .ok status => if status.isSuccess then .ok () else .error (.status status)

/-! ## 2. The actor -/

/-- The places where a health actor can panic. -/
inductive HealthPanic where
  /-- `run_interval` -/
  | timer
  /-- `expect("doesn't overflow")` -/
  | count
  /-- the multiplication of a `Duration` -/
  | interval
  /-- `expect("can't be consumed twice")` -/
  | taken
  /-- `expect("notify WaitAbortFut")` -/
  | notify
  deriving DecidableEq, Repr

/-- From the `start` of an actor to its end. -/
inductive HealthPhase where
  /-- `started` is to come -/
  | created
  | running
  | stopped
  | panicked (panic : HealthPanic)
  deriving DecidableEq, Repr

/-- `HealthActor` and its context. -/
structure HealthActor where
  name : String
  config : Option HealthConfig
  stopTx : Option Sender
  unhealthyCount : Nat
  phase : HealthPhase
  /-- the checks in flight, by the order in which they were started -/
  checks : List Nat
  /-- how many checks were started -/
  nextCheck : Nat
  log : List Custom

/-- What a health actor does to its caretaker: it reports, or its sender of the unhealthy signal
    is used or dropped. -/
inductive HealthAction where
  | report (health : HealthState)
  | signal
  deriving DecidableEq, Repr

/-- `HealthActor::new`. -/
def HealthActor.new (name : String) (config : Option HealthConfig) (stopTx : Sender) :
    HealthActor where
  name := name
  config := config
  stopTx := some stopTx
  unhealthyCount := 0
  phase := .created
  checks := []
  nextCheck := 0
  log := []

/-- `ctx.stop()`, or a panic: the checks in flight are dropped, and the actor with its sender. -/
def HealthActor.leave (phase : HealthPhase) (self : HealthActor) :
    HealthActor × List HealthAction :=
  ({ self with phase, stopTx := none, checks := [] },
    if self.stopTx.isSome then [.signal] else [])

/-- `HealthActor::started`. An interval that the timer does not take is a panic. -/
def HealthActor.started (timer : TimerCrate) (self : HealthActor) :
    HealthActor × List HealthAction :=
  match self.config with
  | some config =>
    if timer.takes config.interval then ({ self with phase := .running }, [])
    else self.leave (.panicked .timer)
  | none => ({ self with phase := .running }, [.report .healthy])

/-- The closure of `run_interval`: one more check is in flight. -/
def HealthActor.tick (self : HealthActor) : HealthActor × List HealthAction :=
  ({ self with checks := self.checks ++ [self.nextCheck], nextCheck := self.nextCheck + 1 }, [])

/-- 2^64 seconds: `Duration::MAX` is one nanosecond below. -/
def durationEnd : Nat := 18446744073709551616000000000

/-- 2^32: `u32::MAX` is one below. -/
def countEnd : Nat := 4294967296

/-- `config.interval * count >= config.grace_period`, or the panic of its arithmetic. -/
def HealthConfig.exhausted (self : HealthConfig) (count : Nat) : Except HealthPanic Bool :=
  if countEnd ≤ count then .error .count
  else if durationEnd ≤ self.interval * count then .error .interval
  else .ok (decide (self.gracePeriod ≤ self.interval * count))

/-- The closure behind a check that is answered. `receiving` while the `WaitAbortFut` holds the
    receiver of the unhealthy signal. -/
def HealthActor.checked (receiving : Bool) (check : Nat) (answer : Except String StatusCode)
    (self : HealthActor) : HealthActor × List HealthAction :=
  match self.config with
  | none => (self, [])
  | some config =>
    let self := { self with checks := self.checks.erase check }
    match checkResult answer with
    | .error e =>
      let count := self.unhealthyCount + 1
      let self := { self with
        unhealthyCount := count
        log := self.log ++ [⟨.error, self.name,
          "Health check failed (" ++ toString count ++ "): " ++ e.display⟩] }
      let (self, left) := match config.exhausted count with
        | .error panic => self.leave (.panicked panic)
        | .ok false => (self, [])
        | .ok true => match self.stopTx with
          | none => self.leave (.panicked .taken)
          | some _ => self.leave (if receiving then .stopped else .panicked .notify)
      (self, .report .unhealthy :: left)
    | .ok _ => ({ self with unhealthyCount := 0 }, [.report .healthy])

/-! ## 3. A caretaker and its health actors -/

/-- The caretaker of a program and the health actors of its children, by number. -/
structure Monitored where
  caretaker : Caretaker
  actors : List HealthActor

inductive Turn where
  /-- a step of the caretaker alone -/
  | caretaker (e : Event)
  | started (k : Nat)
  /-- the stop message is handled -/
  | stop (k : Nat)
  | tick (k : Nat)
  | checked (k check : Nat) (answer : Except String StatusCode)

/-- The steps of a caretaker that are not caused by its health actors. -/
def Event.own : Event → Bool
  | .arrive (.setHealthState _ _) | .unhealthy _ => false
  | _ => true

/-- The `WaitAbortFut` of the child with this number holds the receiver of its unhealthy signal. -/
def Caretaker.receiving (self : Caretaker) (k : Nat) : Bool :=
  self.runs.any fun item => match item.fut with
    | .waitAbort fut _ => fut.unhealthyRx == some ⟨.unhealthy k⟩
    | _ => false

/-- What a health actor does reaches its caretaker, if that is still there. -/
def Caretaker.receive (S : Setting) (k : Nat) (self : Caretaker) : HealthAction → Caretaker
  | .report health => (self.step S (.arrive (.setHealthState k health))).getD self
  | .signal => (self.step S (.unhealthy k)).getD self

/-- The caretaker after its step, with the health actor it has started there. -/
def Monitored.hire (S : Setting) (self : Monitored) (caretaker : Caretaker) : Monitored :=
  match caretaker.health[self.actors.length]? with
  | some handle => ⟨caretaker, self.actors ++
      [.new S.name handle.config ⟨.unhealthy self.actors.length⟩]⟩
  | none => ⟨caretaker, self.actors⟩

/-- A turn of one health actor, if it is enabled. -/
def Monitored.turn (S : Setting) (k : Nat) (enabled : HealthActor → Bool → Bool)
    (f : HealthActor → HealthActor × List HealthAction) (self : Monitored) : Option Monitored :=
  match self.actors[k]?, self.caretaker.told k with
  | some actor, some told =>
    if enabled actor told then
      let (actor, actions) := f actor
      some ⟨actions.foldl (Caretaker.receive S k) self.caretaker, self.actors.set k actor⟩
    else none
  | _, _ => none

/-- An actor polls its timer and its checks once its mailbox is drained, and not after it has
    stopped. -/
def HealthActor.polls (self : HealthActor) (told : Bool) : Bool := self.phase == .running && !told

/-- **One step of a caretaker with its health actors.** -/
def Monitored.step (S : Setting) (self : Monitored) : Turn → Option Monitored
  | .caretaker e => if e.own then (self.caretaker.step S e).map (self.hire S) else none
  | .started k => self.turn S k (fun actor _ => actor.phase == .created)
    (HealthActor.started S.timer)
  | .stop k =>
    self.turn S k (fun actor told => actor.phase == .running && told) (HealthActor.leave .stopped)
  | .tick k =>
    self.turn S k (fun actor told => actor.polls told && actor.config.isSome) HealthActor.tick
  | .checked k check answer =>
    self.turn S k (fun actor told => actor.polls told && actor.checks.contains check)
      (HealthActor.checked (self.caretaker.receiving k) check answer)

/-- A caretaker that has just started has no health actor. -/
def Monitored.init : Monitored := ⟨.init, []⟩

end Blahaj
