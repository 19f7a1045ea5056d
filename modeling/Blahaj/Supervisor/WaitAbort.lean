/-
  File:      Blahaj/Supervisor/WaitAbort.lean
  Subject:   THE RACE OF A `WaitAbortFut`, over every sequence of polls.

  Between two polls anything may become ready: a sender is used or dropped, the process exits, it
  is reaped by somebody else. A poll takes all three handles and looks at the stop signal, the
  unhealthy signal and the exit, in this order.

  * `Race` -- the future among the events it waits for;
  * `Race.Decides` -- the outcome of a poll, by what is ready;
  * `race_poll` -- one poll decides so, and leaves the handles in place where nothing is ready;
  * `wait_abort` -- the statement, over all runs.
-/
import Blahaj.Lib.Lts
import Blahaj.Supervisor.Futs

namespace Blahaj

/-! ## 1. The race -/

/-- A `WaitAbortFut`, the receivers whose sender is gone, the processes, and what it has resolved
    to. -/
structure Race where
  fut : WaitAbortFut
  signalled : List Receiver
  procs : List Proc
  outcome : Option WaitAbortResult
  panicked : Bool

inductive RaceEvent where
  /-- the sender of this receiver is used or dropped -/
  | signal (rx : Receiver)
  /-- a process exits -/
  | exit (pid : Nat) (status : ExitStatus)
  /-- a process that has exited is reaped by somebody else -/
  | reap (pid : Nat)
  | poll

/-- A race that starts, with what may have happened before. -/
def Race.new (child : Child) (stopRx unhealthyRx : Receiver) (signalled : List Receiver)
    (procs : List Proc) : Race where
  fut := .new child stopRx unhealthyRx
  signalled := signalled
  procs := procs
  outcome := none
  panicked := false

/-- One step of a race. A future that has resolved, or panicked, is not polled again. -/
def Race.step (signalName : Nat → Option String) (self : Race) : RaceEvent → Option Race
  | .signal rx => some { self with signalled := rx :: self.signalled }
  | .exit pid status => match self.procs[pid]? with
    | some .running => some { self with procs := self.procs.set pid (.exited status) }
    | _ => none
  | .reap pid => match self.procs[pid]? with
    | some (.exited _) => some { self with procs := self.procs.set pid .reaped }
    | _ => none
  | .poll =>
    if self.outcome.isSome || self.panicked then none
    else match self.fut.poll signalName self.signalled.contains self.procs with
      | none => some { self with panicked := true }
      | some (.pending, fut, procs) => some { self with fut, procs }
      | some (.ready res, fut, procs) => some { self with fut, procs, outcome := some res }

/-! ## 2. What a poll decides -/

/-- **The outcome of a poll, by what is ready**, and the processes after it: the stop signal comes
    before the unhealthy signal, and both before the exit. -/
inductive Race.Decides (signalName : Nat → Option String) (child : Child)
    (stopRx unhealthyRx : Receiver) (s : Race) : Option WaitAbortResult → List Proc → Prop where
  | stop (hs : stopRx ∈ s.signalled) :
      Decides signalName child stopRx unhealthyRx s (some (.stopSignalReceived child)) s.procs
  | unhealthy (hs : stopRx ∉ s.signalled) (hu : unhealthyRx ∈ s.signalled) :
      Decides signalName child stopRx unhealthyRx s
        (some (.unhealthySignalReceived stopRx child)) s.procs
  | exit {status : ExitStatus} (hs : stopRx ∉ s.signalled) (hu : unhealthyRx ∉ s.signalled)
      (hp : s.procs[child.pid]? = some (.exited status)) (hc : status.code = some 0) :
      Decides signalName child stopRx unhealthyRx s (some (.exit stopRx))
        (s.procs.set child.pid .reaped)
  | nonZero {status : ExitStatus} {code : Int} (hs : stopRx ∉ s.signalled)
      (hu : unhealthyRx ∉ s.signalled) (hp : s.procs[child.pid]? = some (.exited status))
      (hc : status.code = some code) (hne : code ≠ 0) :
      Decides signalName child stopRx unhealthyRx s
        (some (.exitWithError stopRx (.nonZeroExit code))) (s.procs.set child.pid .reaped)
  | killed {status : ExitStatus} {signal : Nat} (hs : stopRx ∉ s.signalled)
      (hu : unhealthyRx ∉ s.signalled) (hp : s.procs[child.pid]? = some (.exited status))
      (hc : status.code = none) (hsig : status.signal = some signal) :
      Decides signalName child stopRx unhealthyRx s
        (some (.exitWithError stopRx (.exitBySignal ((signalName signal).getD "UNKNOWN"))))
        (s.procs.set child.pid .reaped)
  | gone (hs : stopRx ∉ s.signalled) (hu : unhealthyRx ∉ s.signalled)
      (hp : s.procs[child.pid]? = some .reaped ∨ s.procs[child.pid]? = none) :
      Decides signalName child stopRx unhealthyRx s
        (some (.exitWithError stopRx .alreadyDied)) s.procs
  | pending (hs : stopRx ∉ s.signalled) (hu : unhealthyRx ∉ s.signalled)
      (hp : s.procs[child.pid]? = some .running) :
      Decides signalName child stopRx unhealthyRx s none s.procs

variable {signalName : Nat → Option String} {child : Child} {stopRx unhealthyRx : Receiver}

theorem exitError_code {status : ExitStatus} {code : Int} (hc : status.code = some code) :
    exitError signalName status = .nonZeroExit code := by
  unfold exitError
  split
  · rename_i code' hcode
    rw [hc] at hcode
    rw [Option.some.inj hcode]
  · rename_i hnone
    rw [hc] at hnone
    cases hnone

theorem exitError_signal {status : ExitStatus} {signal : Nat} (hc : status.code = none)
    (hsig : status.signal = some signal) :
    exitError signalName status = .exitBySignal ((signalName signal).getD "UNKNOWN") := by
  unfold exitError
  split
  · rename_i code hcode
    rw [hc] at hcode
    cases hcode
  · simp only [hsig, Option.get_some]

/-- What a wait that has resolved decides. -/
theorem decides_wait {s : Race} (hs : stopRx ∉ s.signalled) (hu : unhealthyRx ∉ s.signalled)
    {res : Except Unit ExitStatus} {procs : List Proc}
    (hw : child.wait s.procs = (.ready res, procs)) :
    s.Decides signalName child stopRx unhealthyRx (some (ofWait signalName stopRx res)) procs := by
  unfold Child.wait at hw
  split at hw
  · simp at hw
  · rename_i status hp
    obtain ⟨hres, rfl⟩ := Prod.mk.inj hw
    obtain rfl := Poll.ready.inj hres
    cases hc : status.code with
    | some code =>
        by_cases hzero : code = 0
        · have hexit : ofWait signalName stopRx (.ok status) = .exit stopRx := by
            simp [ofWait, ExitStatus.success, hc, hzero]
          rw [hexit]
          exact .exit hs hu hp (by rw [hc, hzero])
        · have herror : ofWait signalName stopRx (.ok status) =
              .exitWithError stopRx (.nonZeroExit code) := by
            simp [ofWait, ExitStatus.success, exitError_code hc, hc, hzero]
          rw [herror]
          exact .nonZero hs hu hp hc hzero
    | none =>
        obtain ⟨signal, hsignal⟩ := Option.isSome_iff_exists.mp (status.signaled hc)
        have herror : ofWait signalName stopRx (.ok status) =
            .exitWithError stopRx (.exitBySignal ((signalName signal).getD "UNKNOWN")) := by
          simp [ofWait, ExitStatus.success, exitError_signal hc hsignal, hc]
        rw [herror]
        exact .killed hs hu hp hc hsignal
  · rename_i hp
    obtain ⟨hres, rfl⟩ := Prod.mk.inj hw
    obtain rfl := Poll.ready.inj hres
    exact .gone hs hu (Or.inl hp)
  · rename_i hp
    obtain ⟨hres, rfl⟩ := Prod.mk.inj hw
    obtain rfl := Poll.ready.inj hres
    exact .gone hs hu (Or.inr hp)

/-- A wait that stays pending waits for a process that runs. -/
theorem wait_running {procs procs' : List Proc} (hw : child.wait procs = (.pending, procs')) :
    procs[child.pid]? = some .running := by
  unfold Child.wait at hw
  split at hw
  · assumption
  · simp at hw
  · simp at hw
  · simp at hw

/-! ## 3. Every poll -/

/-- The future has all three handles as long as it has not resolved, and has not panicked. -/
structure Race.Armed (child : Child) (stopRx unhealthyRx : Receiver) (s : Race) : Prop where
  panicked : s.panicked = false
  fut : s.outcome = none → s.fut = .new child stopRx unhealthyRx

/-- The future after a poll: its handles are in place where it stays pending, and gone else. -/
def WaitAbortFut.after (self : WaitAbortFut) : Option WaitAbortResult → WaitAbortFut
  | none => self
  | some _ => ⟨none, none, none⟩

theorem not_signalled {signalled : List Receiver} {rx : Receiver}
    (h : signalled.contains rx = false) : rx ∉ signalled := by
  simpa using h

/-- **One poll**: no unwrap fails, and what is ready decides. -/
theorem race_poll (signalName : Nat → Option String) {s : Race}
    (h : s.Armed child stopRx unhealthyRx) (hout : s.outcome = none) :
    ∃ outcome procs, s.Decides signalName child stopRx unhealthyRx outcome procs ∧
      s.step signalName .poll =
        some { s with outcome, procs, fut := s.fut.after outcome } := by
  obtain ⟨r, fut', procs', hpoll, hpolled⟩ := WaitAbortFut.polled signalName s.signalled.contains
    child stopRx unhealthyRx s.procs
  have hstep : s.step signalName .poll = match r with
      | .pending => some { s with fut := fut', procs := procs' }
      | .ready res => some { s with fut := fut', procs := procs', outcome := some res } := by
    simp only [Race.step, hout, h.panicked, h.fut hout, hpoll]
    cases r <;> rfl
  rw [hstep]
  cases hpolled with
  | stop hs => exact ⟨_, _, .stop (List.contains_iff_mem.mp hs), rfl⟩
  | unhealthy hs hu =>
      exact ⟨_, _, .unhealthy (not_signalled hs) (List.contains_iff_mem.mp hu), rfl⟩
  | exited hs hu hw =>
      exact ⟨_, _, decides_wait (not_signalled hs) (not_signalled hu) hw, rfl⟩
  | pending hs hu hw =>
      refine ⟨_, _, .pending (not_signalled hs) (not_signalled hu) (wait_running hw), ?_⟩
      rw [h.fut hout, hout]
      rfl

/-- A poll is taken before the future has resolved. -/
theorem poll_enabled {s s' : Race} (hs : s.step signalName .poll = some s') : s.outcome = none := by
  cases hout : s.outcome with
  | none => rfl
  | some _ => simp [Race.step, hout] at hs

theorem armed_step {s s' : Race} {e : RaceEvent} (h : s.Armed child stopRx unhealthyRx)
    (hs : s.step signalName e = some s') : s'.Armed child stopRx unhealthyRx := by
  cases e with
  | signal rx =>
      obtain rfl := Option.some.inj hs
      exact ⟨h.panicked, h.fut⟩
  | exit pid status =>
      simp only [Race.step] at hs
      split at hs
      · obtain rfl := Option.some.inj hs
        exact ⟨h.panicked, h.fut⟩
      · cases hs
  | reap pid =>
      simp only [Race.step] at hs
      split at hs
      · obtain rfl := Option.some.inj hs
        exact ⟨h.panicked, h.fut⟩
      · cases hs
  | poll =>
      have hout := poll_enabled hs
      obtain ⟨outcome, procs, -, hstep⟩ := race_poll signalName h hout
      obtain rfl := Option.some.inj (hstep.symm.trans hs)
      refine ⟨h.panicked, fun hnone => ?_⟩
      dsimp only at hnone
      rw [hnone]
      exact h.fut hout

/-- **A `WaitAbortFut` resolves to the right outcome and loses nothing.** In every run no unwrap
    fails, and as long as the future has not resolved all three handles are in place; each poll
    decides by what is ready, and it stays pending only where nothing is. -/
theorem wait_abort {signalled : List Receiver} {procs : List Proc} {h : List (Race × RaceEvent)}
    {s : Race} (hr : Lts.Run (Race.step signalName) (.new child stopRx unhealthyRx signalled procs)
      h s) :
    s.panicked = false ∧ (s.outcome = none → s.fut = .new child stopRx unhealthyRx) ∧
      ∀ x ∈ h, x.2 = .poll → ∃ outcome procs,
        x.1.Decides signalName child stopRx unhealthyRx outcome procs ∧
        x.1.step signalName .poll =
          some { x.1 with outcome, procs, fut := x.1.fut.after outcome } := by
  have hstart : (Race.new child stopRx unhealthyRx signalled procs).Armed child stopRx
      unhealthyRx := ⟨rfl, fun _ => rfl⟩
  have hend := hr.invariant hstart fun _ _ _ => armed_step
  refine ⟨hend.panicked, hend.fut, fun x hx hpoll => ?_⟩
  have hbefore := hr.invariant_before hstart (fun _ _ _ => armed_step) x hx
  obtain ⟨s', hs⟩ := hr.enabled x hx
  rw [hpoll] at hs
  exact race_poll signalName hbefore (poll_enabled hs)

/-- Nothing is ready at the first poll; then the process exits and the unhealthy signal comes. -/
def exitAndSignal : List RaceEvent :=
  [.poll, .exit 0 (.exited 1), .signal ⟨.unhealthy 0⟩, .poll]

theorem wait_abort_exitAndSignal :
    ∃ h s, Lts.Run (Race.step fun _ => none)
        (.new ⟨0⟩ ⟨.stop⟩ ⟨.unhealthy 0⟩ [] [.running]) h s ∧
      s.outcome = some (.unhealthySignalReceived ⟨.stop⟩ ⟨0⟩) ∧ s.panicked = false ∧
      ∀ x ∈ h, x.2 = .poll → ∃ outcome procs,
        x.1.Decides (fun _ => none) ⟨0⟩ ⟨.stop⟩ ⟨.unhealthy 0⟩ outcome procs ∧
        x.1.step (fun _ => none) .poll =
          some { x.1 with outcome, procs, fut := x.1.fut.after outcome } := by
  have hex : ∃ s, Lts.exec (Race.step fun _ => none)
      (.new ⟨0⟩ ⟨.stop⟩ ⟨.unhealthy 0⟩ [] [.running]) exitAndSignal = some s ∧
      s.outcome = some (.unhealthySignalReceived ⟨.stop⟩ ⟨0⟩) := ⟨_, rfl, rfl⟩
  obtain ⟨s, hex, hout⟩ := hex
  have hr := Lts.run_history hex
  obtain ⟨hpanicked, -, hpolls⟩ := wait_abort hr
  exact ⟨_, s, hr, hout, hpanicked, hpolls⟩

end Blahaj
