/-
  File:      Blahaj/Supervisor/Stage.lean
  Subject:   WHERE A DAEMON STANDS: the stages of a caretaker, and the moves between them.

  The stop receiver wanders: from the notification into the slot machine, into a `Run` message,
  into the future of the handled `Run`, into its result and back. A `Stage` says where it is and
  what the caretaker does meanwhile; `Shape` ties the state to its stage, part by part:

  * `Token` -- the futures and messages that carry the receiver;
  * `StatusAt` -- the status;
  * `Procs` -- which child is not reaped;
  * `Doors` -- the stop channel, the broadcast channel and the futures that wait on it;
  * `Watch` -- the health actors.
-/
import Blahaj.Supervisor.Caretaker

namespace Blahaj

/-! ## 1. Stages -/

/-- The stages of a caretaker. `queued` to `replied` carry the request the daemon waits for. -/
inductive Stage where
  /-- the notification of `started` is not handled yet -/
  | boot
  /-- between rounds: the slot sleeps or is empty, and the receiver lies in its state -/
  | idle
  /-- a `Run` message is in the mailbox -/
  | queued (req : Nat)
  /-- the child is waited for -/
  | up (req : Nat) (child : Child)
  /-- the child could not be spawned -/
  | spawnFailed (req : Nat)
  /-- `ensure_stop` is at work, with the result the `Run` will give -/
  | stopping (req : Nat) (child : Child) (res : RunResult)
  /-- the result is on its way to the daemon -/
  | replied (req : Nat) (res : RunResult)
  /-- the daemon has resolved -/
  | ended (res : Bool)
  /-- the actor has panicked -/
  | dropped
  deriving DecidableEq

/-- The daemon is over, in one way or the other. -/
def Stage.over : Stage → Bool
  | .ended _ | .dropped => true
  | _ => false

/-- The child that need not be reaped yet. -/
def Stage.child : Stage → Option Nat
  | .up _ child | .stopping _ child _ => some child.pid
  | _ => none

/-- The child whose health actor may report. -/
def Stage.watched : Stage → Option Nat
  | .up _ child => some child.pid
  | _ => none

/-- The result a `Run` has, or will have once its child is stopped. -/
def Stage.res : Stage → Option RunResult
  | .stopping _ _ res | .replied _ res => some res
  | _ => none

/-! ## 2. The shape of a state -/

/-- The `Run` a message is. -/
def Msg.asRun : Msg → Option (Receiver × Nat)
  | .run stopRx req => some (stopRx, req)
  | _ => none

/-- The `SetHealthState` a message is. -/
def Msg.asReport : Msg → Option (Nat × HealthState)
  | .setHealthState sender health => some (sender, health)
  | _ => none

/-- The daemon's future, by stage. -/
def DaemonAt (daemon : DaemonItem) : Stage → Prop
  | .boot => daemon = .notified stopReceiver
  | .idle => ∃ fut, daemon = .running fut ∧ roundOf fut.fut = none ∧ fut.state = some stopReceiver
  | .queued req | .up req _ | .spawnFailed req | .stopping req _ _ | .replied req _ =>
    ∃ fut, daemon = .running fut ∧ fut.fut = .polling req ∧ fut.state = none
  | .ended res => daemon = .ended res
  | .dropped => daemon = .dropped

/-- The `Run` messages of the mailbox, by stage. -/
def Stage.msgs : Stage → List (Receiver × Nat)
  | .queued req => [(stopReceiver, req)]
  | _ => []

/-- The futures of handled `Run`s, by stage. -/
def RunsAt (runs : List RunItem) : Stage → Prop
  | .up req child =>
    runs = [⟨.waitAbort (.new child stopReceiver ⟨.unhealthy child.pid⟩) child.pid, req⟩]
  | .spawnFailed req => ∃ e, runs = [⟨.failure stopReceiver e, req⟩]
  | .stopping req child res => ∃ killing, runs = [⟨.ensureStop killing child res, req⟩]
  | _ => runs = []

/-- The results on their way, by stage. -/
def Stage.replies : Stage → List (Nat × RunResult)
  | .replied req res => [(req, res)]
  | _ => []

/-- The health-check URI of the program, if it has one, is legal. -/
def Setting.Legal (S : Setting) : Prop :=
  ∀ http check, S.program.check = some (http, check) →
    (uriForCheck S.crate http.https http.port check.path).isSome

/-- There are three panics that can happen, one of them on an illegal health-check URI only. -/
def Panic.Possible (S : Setting) : Panic → Prop
  | .healthUri => ¬ S.Legal
  | .clock | .sendStopped => True
  | _ => False

/-- The panic of a dropped actor. -/
def CrashedAt (S : Setting) (crashed : Option Panic) : Stage → Prop
  | .dropped => ∃ panic, crashed = some panic ∧ panic.Possible S
  | _ => crashed = none

/-- The carriers of the stop receiver. A result without it has seen the stop signal. -/
structure Token (S : Setting) (s : Caretaker) (st : Stage) : Prop where
  crashed : CrashedAt S s.crashed st
  daemon : DaemonAt s.daemon st
  dead : s.crashed.isSome → s.mailbox = []
  msgs : s.mailbox.filterMap Msg.asRun = st.msgs
  runs : RunsAt s.runs st
  replies : s.replies = st.replies
  rx : ∀ res rx, st.res = some res → res.stopRx = some rx → rx = stopReceiver
  heard : ∀ res, st.res = some res → res.stopRx = none → s.stopTx = none

/-- A result and its receiver, at a stage that has none. -/
theorem no_rx {st : Stage} (h : st.res = none) (res : RunResult) (rx : Receiver)
    (hres : st.res = some res) (_ : res.stopRx = some rx) : rx = stopReceiver := by
  rw [h] at hres
  cases hres

theorem no_heard {st : Stage} (h : st.res = none) {s : Caretaker} (res : RunResult)
    (hres : st.res = some res) (_ : res.stopRx = none) : s.stopTx = none := by
  rw [h] at hres
  cases hres

/-- The status of a caretaker none of whose `Run`s is under way. -/
def restStatus : Option Nat → Lifecycle
  | none => .starting
  | some _ => .terminated

/-- A `Run` has set the status, and a report may have changed it. -/
def Lifecycle.live : Lifecycle → Bool
  | .starting | .running _ => true
  | _ => false

/-- The status, by stage. -/
def StatusAt (s : Caretaker) : Stage → Prop
  | .boot => s.lastRun = none ∧ s.status = .starting
  | .idle | .queued _ => s.status = restStatus s.lastRun
  | .up req _ | .spawnFailed req => s.lastRun = some req ∧ s.status.live = true
  | .stopping req _ _ => s.lastRun = some req ∧ s.status = .terminating
  | .replied req _ => s.lastRun = some req ∧ s.status = .terminated
  | .ended res => s.lastRun.isSome ∧ s.status = if res then .terminated else .failed
  | .dropped => True

/-- Which child is not reaped. A panic on the health-check URI leaves one without an owner, and so
    does a kill that is refused. -/
structure Procs (s : Caretaker) (child : Option Nat) : Prop where
  owned : ∀ pid, Unreaped s.procs pid →
    child = some pid ∨ s.crashed = some .healthUri ∨ pid ∈ s.refused
  last : ∀ pid, child = some pid → pid + 1 = s.procs.length
  given : ∀ pid ∈ s.refused, pid < s.procs.length ∧ child ≠ some pid

/-- The channels of the actor, and the futures that wait for its end. -/
structure Doors (s : Caretaker) (closed : Bool) : Prop where
  stopTx : s.stopTx.isSome = (s.terminates.isEmpty && !closed)
  stoppedTx : s.stoppedTx.isSome = !closed
  waiting : closed = false → ∀ fut ∈ s.waits, fut.stoppedRx = .receiving false
  woken : closed = true → s.crashed = none → ∀ fut ∈ s.waits, fut.stoppedRx ≠ .receiving false
  asked : closed = false → ∀ fut ∈ s.terminates, .wait fut.req ∈ s.mailbox ∨
    ∃ wait ∈ s.waits, wait.req = fut.req

/-- The channels of an actor whose daemon is over. -/
theorem doors_closed {s : Caretaker} (hstop : s.stopTx = none) (hstopped : s.stoppedTx = none)
    (hwoken : s.crashed = none → ∀ fut ∈ s.waits, fut.stoppedRx ≠ .receiving false) :
    Doors s true where
  stopTx := by simp [hstop]
  stoppedTx := by simp [hstopped]
  waiting := fun h => absurd h (by decide)
  woken := fun _ => hwoken
  asked := fun h => absurd h (by decide)

/-- The processes of a caretaker that has no child left. -/
theorem procs_none {s : Caretaker}
    (h : ∀ pid, Unreaped s.procs pid → s.crashed = some .healthUri ∨ pid ∈ s.refused)
    (hgiven : ∀ pid ∈ s.refused, pid < s.procs.length) : Procs s none where
  owned := fun pid hun => Or.inr (h pid hun)
  last := fun _ hpid => absurd hpid (by simp)
  given := fun pid hpid => ⟨hgiven pid hpid, by simp⟩

theorem Procs.born {s : Caretaker} {child : Option Nat} (h : Procs s child) :
    ∀ pid ∈ s.refused, pid < s.procs.length := fun pid hpid => (h.given pid hpid).1

theorem Procs.born_snoc {s : Caretaker} {child : Option Nat} (h : Procs s child) (p : Proc) :
    ∀ pid ∈ s.refused, pid < (s.procs ++ [p]).length := fun pid hpid => by
  have hlt := h.born pid hpid
  rw [List.length_append]
  omega

theorem Procs.owner {s : Caretaker} {child : Option Nat} (h : Procs s child)
    (hlive : s.crashed = none) {pid : Nat} (hun : Unreaped s.procs pid) :
    child = some pid ∨ pid ∈ s.refused := by
  refine (h.owned pid hun).imp_right fun hleft => hleft.resolve_left fun hcrash => ?_
  rw [hlive] at hcrash
  cases hcrash

/-- A caretaker that lives and has no child left has reaped all but those it has given up. -/
theorem Procs.given_up {s : Caretaker} (h : Procs s none) (hlive : s.crashed = none) {pid : Nat}
    (hun : Unreaped s.procs pid) : pid ∈ s.refused :=
  (h.owner hlive hun).resolve_left (by simp)

/-- The health actors: one for each child, with a check if the program has one, and told to stop
    unless its child is waited for. -/
structure Watch (S : Setting) (s : Caretaker) (watched : Option Nat) : Prop where
  length : s.crashed = none → s.health.length = s.procs.length
  checks : s.crashed = none → ∀ handle ∈ s.health,
    handle.config.isSome = S.program.check.isSome
  stopped : s.crashed = none → ∀ k handle, s.health[k]? = some handle → handle.stopped = false →
    watched = some k
  reports : s.lastRun = none → ∀ m ∈ s.mailbox, m.asReport = none

/-- **The shape of a caretaker at a stage.** -/
structure Shape (S : Setting) (s : Caretaker) (st : Stage) : Prop where
  token : Token S s st
  status : StatusAt s st
  procs : Procs s st.child
  doors : Doors s st.over
  watch : Watch S s st.watched

theorem shape_init (S : Setting) : Shape S .init .boot where
  token := {
    crashed := rfl
    daemon := rfl
    dead := fun _ => rfl
    msgs := rfl
    runs := rfl
    replies := rfl
    rx := no_rx rfl
    heard := no_heard rfl }
  status := ⟨rfl, rfl⟩
  procs := procs_none (fun _ h => by
    obtain ⟨_, hget, _⟩ := h
    cases hget) fun _ hpid => absurd hpid List.not_mem_nil
  doors := {
    stopTx := rfl
    stoppedTx := rfl
    waiting := fun _ _ h => nomatch h
    woken := fun h => nomatch h
    asked := fun _ _ h => nomatch h }
  watch := {
    length := fun _ => rfl
    checks := fun _ _ h => nomatch h
    stopped := fun _ _ _ h => nomatch h
    reports := fun _ _ h => nomatch h }

/-! ## 3. What a shape says -/

/-- Before a `Run` the status has not changed yet, or the last one has ended. -/
theorem restStatus_cases (run : Option Nat) :
    restStatus run = .starting ∨ restStatus run = .terminated := by
  cases run with
  | none => exact Or.inl rfl
  | some _ => exact Or.inr rfl

/-- The stop receivers there are, by stage. -/
def Stage.holds : Stage → List Receiver
  | .boot | .idle | .queued _ | .up _ _ | .spawnFailed _ => [stopReceiver]
  | .stopping _ _ res | .replied _ res => res.stopRx.toList
  | .ended _ | .dropped => []

theorem mailbox_receivers (mailbox : List Msg) :
    mailbox.flatMap Msg.receivers = (mailbox.filterMap Msg.asRun).map Prod.fst := by
  induction mailbox with
  | nil => rfl
  | cons m mailbox ih =>
      rw [List.flatMap_cons, ih]
      cases m <;> rfl

/-- The stop receivers the daemon's future holds, by stage. -/
def Stage.daemonHolds : Stage → List Receiver
  | .boot | .idle => [stopReceiver]
  | _ => []

/-- The stop receivers the future of a handled `Run` holds, by stage. -/
def Stage.runHolds : Stage → List Receiver
  | .up _ _ | .spawnFailed _ => [stopReceiver]
  | .stopping _ _ res => res.stopRx.toList
  | _ => []

theorem DaemonAt.receivers {daemon : DaemonItem} {st : Stage} (h : DaemonAt daemon st) :
    daemon.receivers = st.daemonHolds := by
  cases st with
  | boot | ended _ | dropped =>
      rw [show daemon = _ from h]
      rfl
  | _ =>
      obtain ⟨fut, hd, -, hstate⟩ := h
      rw [hd]
      simp [DaemonItem.receivers, hstate, Stage.daemonHolds]

theorem RunsAt.receivers {runs : List RunItem} {st : Stage} (h : RunsAt runs st) :
    runs.flatMap (fun item => item.fut.receivers) = st.runHolds := by
  cases st with
  | up req child =>
      rw [show runs = [_] from h]
      rfl
  | spawnFailed req =>
      obtain ⟨e, hr⟩ := h
      rw [hr]
      rfl
  | stopping req child res =>
      obtain ⟨killing, hr⟩ := h
      rw [hr]
      simp [RunFut.receivers, Stage.runHolds]
  | _ =>
      rw [show runs = [] from h]
      rfl

/-- **There is one stop receiver, in one place**, or none once it was seen or the daemon is
    over. -/
theorem Token.receivers {S : Setting} {s : Caretaker} {st : Stage} (h : Token S s st) :
    s.stopReceivers = st.holds := by
  unfold Caretaker.stopReceivers
  rw [mailbox_receivers, h.msgs, h.replies, h.daemon.receivers, h.runs.receivers]
  cases st <;>
    simp [Stage.msgs, Stage.replies, Stage.holds, Stage.daemonHolds, Stage.runHolds]

end Blahaj
