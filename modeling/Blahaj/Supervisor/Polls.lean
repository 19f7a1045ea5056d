/-
  File:      Blahaj/Supervisor/Polls.lean
  Subject:   The moves of the futures, and with them of every step: `shape_step`.

  * `Busy` -- what the stages with a `Run` under way share; `Busy.finish`, `Busy.polled_stop` --
    a `Run` that is done, one poll of `ensure_stop`;
  * `Shape.polled_run`, `Shape.polled_daemon` -- one poll of a `Run`, of the daemon;
  * `shape_step` -- **each step keeps the shape and is one of the moves**;
  * `shape_run`, `shape_before` -- so every state of a run has a shape.
-/
import Blahaj.Supervisor.Moves

namespace Blahaj

variable {S : Setting} {s : Caretaker} {st : Stage}

/-! ## 1. A `Run` under way -/

/-- What the stages with the future of a handled `Run` share. -/
structure Busy (s : Caretaker) (req : Nat) : Prop where
  crashed : s.crashed = none
  daemon : ∃ fut, s.daemon = .running fut ∧ fut.fut = .polling req ∧ fut.state = none
  msgs : s.mailbox.filterMap Msg.asRun = []
  runs : ∃ item, s.runs = [item]
  replies : s.replies = []
  lastRun : s.lastRun = some req
  doors : Doors s false

theorem Shape.busy_up {req : Nat} {child : Child} (h : Shape S s (.up req child)) : Busy s req where
  crashed := h.token.crashed
  daemon := h.token.daemon
  msgs := h.token.msgs
  runs := ⟨_, h.token.runs⟩
  replies := h.token.replies
  lastRun := h.status.1
  doors := h.doors

theorem Shape.busy_spawnFailed {req : Nat} (h : Shape S s (.spawnFailed req)) : Busy s req where
  crashed := h.token.crashed
  daemon := h.token.daemon
  msgs := h.token.msgs
  runs := by
    obtain ⟨e, hruns⟩ := h.token.runs
    exact ⟨_, hruns⟩
  replies := h.token.replies
  lastRun := h.status.1
  doors := h.doors

theorem Shape.busy_stopping {req : Nat} {child : Child} {res : RunResult}
    (h : Shape S s (.stopping req child res)) : Busy s req where
  crashed := h.token.crashed
  daemon := h.token.daemon
  msgs := h.token.msgs
  runs := by
    obtain ⟨killing, hruns⟩ := h.token.runs
    exact ⟨_, hruns⟩
  replies := h.token.replies
  lastRun := h.status.1
  doors := h.doors

/-- A result that carries the stop receiver, or has consumed it. -/
def Carries (s : Caretaker) (res : RunResult) : Prop :=
  res.stopRx = some stopReceiver ∨ (res.stopRx = none ∧ s.stopTx = none)

theorem Carries.rx {st : Stage} {res : RunResult} (h : Carries s res) (hst : st.res = some res)
    (res' : RunResult) (rx : Receiver) (hres : st.res = some res')
    (hrx : res'.stopRx = some rx) : rx = stopReceiver := by
  obtain rfl := Option.some.inj (hst.symm.trans hres)
  rcases h with hsome | ⟨hnone, -⟩
  · rw [hsome] at hrx
    exact (Option.some.inj hrx).symm
  · rw [hnone] at hrx
    cases hrx

theorem Carries.heard {st : Stage} {res : RunResult} (h : Carries s res) (hst : st.res = some res)
    (res' : RunResult) (hres : st.res = some res') (hrx : res'.stopRx = none) :
    s.stopTx = none := by
  obtain rfl := Option.some.inj (hst.symm.trans hres)
  rcases h with hsome | ⟨-, htx⟩
  · rw [hsome] at hrx
    cases hrx
  · exact htx

/-- A caretaker that lives has not panicked. -/
theorem not_crashed {p : Prop} (h : s.crashed = none) (hd : s.crashed.isSome = true) : p := by
  rw [h] at hd
  cases hd

/-- The last closure of a `Run`, once its child is reaped or given up and its health actor told to
    stop. -/
theorem Busy.finish {req : Nat} (h : Busy s req) {res : RunResult} (hres : Carries s res)
    (hp : Procs s none) (hw : Watch S s none) :
    Shape S (Caretaker.finishRun 0 req res s) (.replied req res) where
  token := {
    crashed := h.crashed
    daemon := h.daemon
    dead := not_crashed h.crashed
    msgs := h.msgs
    runs := by
      obtain ⟨item, hruns⟩ := h.runs
      show s.runs.eraseIdx 0 = []
      rw [hruns]
      rfl
    replies := by
      show s.replies ++ _ = _
      rw [h.replies]
      rfl
    rx := hres.rx rfl
    heard := hres.heard rfl }
  status := ⟨h.lastRun, rfl⟩
  procs := { hp with }
  doors := { h.doors with }
  watch := { hw with }

/-- The future of a `Run` in `ensure_stop`. -/
theorem Busy.stopping {req : Nat} (h : Busy s req) (hstatus : s.status = .terminating)
    {child : Child} (hp : Procs s (some child.pid)) (hw : Watch S s none) {res : RunResult}
    (hres : Carries s res) (killing : Bool) (signals : List (Nat × Signal)) :
    Shape S { s with
      runs := s.runs.set 0 ⟨.ensureStop killing child res, req⟩
      signals := signals } (.stopping req child res) where
  token := {
    crashed := h.crashed
    daemon := h.daemon
    dead := not_crashed h.crashed
    msgs := h.msgs
    runs := by
      obtain ⟨item, hruns⟩ := h.runs
      refine ⟨killing, ?_⟩
      show s.runs.set 0 _ = _
      rw [hruns]
      rfl
    replies := h.replies
    rx := hres.rx rfl
    heard := hres.heard rfl }
  status := ⟨h.lastRun, hstatus⟩
  procs := { hp with }
  doors := { h.doors with }
  watch := { hw with }

/-- A resolved wait for the only child that was not reaped or given up leaves none. -/
theorem Procs.reaped {child : Child} (hp : Procs s (some child.pid)) :
    Procs { s with procs := s.procs.set child.pid .reaped } none :=
  procs_none (fun pid hun => by
    obtain ⟨hbefore, hne⟩ := unreaped_set_reaped hun
    exact (hp.owned pid hbefore).resolve_left fun heq => hne (Option.some.inj heq).symm)
    fun pid hpid => by
      rw [List.length_set]
      exact hp.born pid hpid

/-- A kill that is refused leaves the child to nobody. -/
theorem Procs.refused {child : Child} (hp : Procs s (some child.pid)) :
    Procs { s with refused := s.refused ++ [child.pid] } none :=
  procs_none (fun pid hun => by
    rcases hp.owned pid hun with heq | hcrash | hleft
    · rw [Option.some.inj heq]
      exact Or.inr (List.mem_append_right _ (List.mem_singleton.mpr rfl))
    · exact Or.inl hcrash
    · exact Or.inr (List.mem_append_left _ hleft))
    fun pid hpid => by
      rcases List.mem_append.mp hpid with hpid | hpid
      · exact hp.born pid hpid
      · have hlast := hp.last child.pid rfl
        rw [List.mem_singleton.mp hpid]
        show child.pid < s.procs.length
        omega

/-- **One poll of `ensure_stop`**: the child is reaped or given up and the `Run` is done, or it
    still runs. -/
theorem Busy.polled_stop {req : Nat} (h : Busy s req) (hstatus : s.status = .terminating)
    (child : Child) (hp : Procs s (some child.pid)) (hw : Watch S s none) {res : RunResult}
    (hres : Carries s res) (killing : Bool) (grace : Grace) :
    ∃ st', (st' = .stopping req child res ∨ st' = .replied req res) ∧
      Shape S (Caretaker.pollEnsureStop 0 req killing child res grace s) st' ∧
      ((Caretaker.pollEnsureStop 0 req killing child res grace s).status = .terminating ∨
        st' = .replied req res) := by
  have hpoll := stop_polled 0 req killing child res grace s
  generalize Caretaker.pollEnsureStop 0 req killing child res grace s = s' at hpoll ⊢
  cases hpoll with
  | reaped _ =>
      refine ⟨.replied req res, Or.inr rfl, ?_, Or.inr rfl⟩
      have hbusy : Busy { s with procs := s.procs.set child.pid .reaped } req :=
        { h with doors := { h.doors with } }
      have hwatch : Watch S { s with procs := s.procs.set child.pid .reaped } none :=
        { hw with length := fun hlive => by simpa using hw.length hlive }
      exact hbusy.finish hres hp.reaped hwatch
  | waits _ _ =>
      exact ⟨_, Or.inl rfl, h.stopping hstatus hp hw hres killing s.signals, Or.inl hstatus⟩
  | kills _ _ _ =>
      exact ⟨_, Or.inl rfl, h.stopping hstatus hp hw hres true _, Or.inl hstatus⟩
  | refused _ _ _ =>
      refine ⟨.replied req res, Or.inr rfl, ?_, Or.inr rfl⟩
      have hbusy : Busy { s with
          signals := s.signals ++ [(child.pid, .sigkill)]
          refused := s.refused ++ [child.pid] } req :=
        { h with doors := { h.doors with } }
      exact hbusy.finish hres { hp.refused with } { hw with }

/-! ## 2. One poll of a `Run` -/

/-- The configs stay what they are when a health actor is told to stop, or signals. -/
theorem mem_modify_config {health : List HealthHandle} {f : HealthHandle → HealthHandle}
    {k : Nat} {handle : HealthHandle} (h : handle ∈ health.modify k f)
    (hf : ∀ handle, (f handle).config = handle.config) :
    ∃ handle' ∈ health, handle.config = handle'.config := by
  obtain ⟨j, hj⟩ := List.getElem?_of_mem h
  rw [List.getElem?_modify] at hj
  obtain ⟨handle', hget, rfl⟩ := Option.map_eq_some_iff.mp hj
  refine ⟨handle', List.mem_of_getElem? hget, ?_⟩
  split
  · exact hf handle'
  · rfl

/-- `health_addr.stop()` for the one health actor that was not told yet. -/
theorem Watch.told {k : Nat} (h : Watch S s (some k)) : Watch S (s.stopHealth k) none where
  length := fun hlive => by
    show (s.health.modify k _).length = _
    rw [List.length_modify]
    exact h.length hlive
  checks := fun hlive handle hhandle => by
    obtain ⟨handle', hmem, hconfig⟩ := mem_modify_config hhandle fun _ => rfl
    rw [hconfig]
    exact h.checks hlive handle' hmem
  stopped := fun hlive j handle hget hstopped => by
    change (s.health.modify k _)[j]? = some handle at hget
    rw [List.getElem?_modify] at hget
    obtain ⟨handle', hget', hhandle⟩ := Option.map_eq_some_iff.mp hget
    split at hhandle
    · rw [← hhandle] at hstopped
      cases hstopped
    · rename_i hne
      subst hhandle
      exact absurd (Option.some.inj (h.stopped hlive j _ hget' hstopped)) hne
  reports := h.reports

/-- The closures behind a `WaitAbortFut` that resolved by a signal. -/
theorem Busy.aborted {req : Nat} (h : Busy s req) (child : Child)
    (hp : Procs s (some child.pid)) (hw : Watch S s none) (res : RunResult)
    (hres : Carries s res) (grace : Grace) (e : Event) (s₀ : Caretaker) :
    ∃ st', Shape S (Caretaker.ensureStop 0 req child res grace s) st' ∧
      Next S s₀ (Caretaker.ensureStop 0 req child res grace s) e (.up req child) st' := by
  have hbusy : Busy { s with
      status := .terminating
      signals := s.signals ++ [(child.pid, .sigterm)] } req :=
    { h with doors := { h.doors with } }
  obtain ⟨st', hst', hshape, -⟩ :=
    hbusy.polled_stop rfl child { hp with } { hw with } hres false grace
  refine ⟨st', hshape, ?_⟩
  rcases hst' with rfl | rfl
  · exact .stop req child res
  · exact .left req child res

/-- The closures behind a `WaitAbortFut` that resolved by the exit of its child. -/
theorem afterWaitAbort_ofWait (i req : Nat) (grace : Grace) (s : Caretaker)
    (signalName : Nat → Option String) (r : Except Unit ExitStatus) :
    ∃ res, res.stopRx = some stopReceiver ∧
      s.afterWaitAbort i req grace (ofWait signalName stopReceiver r) =
        s.finishRun i req res := by
  unfold ofWait
  split
  · split
    · exact ⟨_, rfl, rfl⟩
    · exact ⟨_, rfl, rfl⟩
  · exact ⟨_, rfl, rfl⟩

/-- **One poll of the `Run` of a child that is waited for.** -/
theorem Shape.polled_up {req : Nat} {child : Child} (h : Shape S s (.up req child))
    (grace : Grace) (e : Event) (he : ∀ clock, e ≠ .pollDaemon clock) :
    ∃ s' st', Caretaker.settle (Caretaker.pollRun S 0 grace s
        ⟨.waitAbort (.new child stopReceiver ⟨.unhealthy child.pid⟩) child.pid, req⟩) = s' ∧
      Shape S s' st' ∧ Next S s s' e (.up req child) st' := by
  obtain ⟨r, fut', procs', hpoll, hpolled⟩ := WaitAbortFut.polled S.signalName s.signalled child
    stopReceiver ⟨.unhealthy child.pid⟩ s.procs
  simp only [Caretaker.pollRun, hpoll]
  have hbusy := h.busy_up
  have htold := h.watch.told
  have hb : Busy (s.stopHealth child.pid) req := { hbusy with doors := { h.doors with } }
  have hp : Procs (s.stopHealth child.pid) (some child.pid) := { h.procs with }
  cases hpolled with
  | stop hs =>
      have htx : s.stopTx = none := by
        simpa [Caretaker.signalled, stopReceiver] using hs
      obtain ⟨st', hshape, hnext⟩ :=
        hb.aborted child hp htold .terminated (Or.inr ⟨rfl, htx⟩) grace e s
      exact ⟨_, st', rfl, hshape, hnext⟩
  | unhealthy hs hu =>
      obtain ⟨st', hshape, hnext⟩ :=
        hb.aborted child hp htold (.unhealthy stopReceiver) (Or.inl rfl) grace e s
      exact ⟨_, st', rfl, hshape, hnext⟩
  | @exited r hs hu hwait =>
      obtain ⟨res, hres, hout⟩ := afterWaitAbort_ofWait 0 req grace
        (Caretaker.stopHealth child.pid { s with procs := s.procs.set child.pid .reaped })
        S.signalName r
      simp only [hout, Caretaker.settle]
      refine ⟨_, .replied req res, rfl, ?_, .left req child res⟩
      have hb' : Busy (Caretaker.stopHealth child.pid
          { s with procs := s.procs.set child.pid .reaped }) req :=
        { hb with doors := { hb.doors with } }
      refine hb'.finish (Or.inl hres) { h.procs.reaped with } { htold with
        length := fun hlive => ?_ }
      show (s.stopHealth child.pid).health.length = (s.procs.set child.pid .reaped).length
      rw [List.length_set]
      exact htold.length hlive
  | pending hs hu hwait =>
      refine ⟨_, .up req child, rfl, ?_, .quiet _ rfl fun _ => he⟩
      exact {
        token := { h.token with
          runs := by
            show s.runs.set 0 _ = _
            rw [show s.runs = [_] from h.token.runs]
            rfl }
        status := h.status
        procs := { h.procs with }
        doors := { h.doors with }
        watch := { h.watch with } }

/-- **One poll of a `Run`.** -/
theorem Shape.polled_run (h : Shape S s st) {i : Nat} {item : RunItem}
    (hitem : s.runs[i]? = some item) (grace : Grace) (e : Event)
    (he : ∀ clock, e ≠ .pollDaemon clock) :
    ∃ s' st', Caretaker.settle (Caretaker.pollRun S i grace s item) = s' ∧
      Shape S s' st' ∧ Next S s s' e st st' := by
  have hsingle : ∀ x, s.runs = [x] → i = 0 ∧ item = x := by
    intro x hruns
    rw [hruns] at hitem
    cases i with
    | zero => exact ⟨rfl, (Option.some.inj hitem).symm⟩
    | succ i => cases hitem
  cases st with
  | up req child =>
      obtain ⟨rfl, rfl⟩ := hsingle _ h.token.runs
      exact h.polled_up grace e he
  | spawnFailed req =>
      obtain ⟨err, hruns⟩ := h.token.runs
      obtain ⟨rfl, rfl⟩ := hsingle _ hruns
      refine ⟨_, .replied req (.error stopReceiver err), rfl, ?_, .failed req _⟩
      exact h.busy_spawnFailed.finish (Or.inl rfl) h.procs h.watch
  | stopping req child res =>
      obtain ⟨killing, hruns⟩ := h.token.runs
      obtain ⟨rfl, rfl⟩ := hsingle _ hruns
      have hcarries : Carries s res := by
        cases hres : res.stopRx with
        | none => exact Or.inr ⟨hres, h.token.heard res rfl hres⟩
        | some rx => exact Or.inl (by rw [hres, h.token.rx res rx rfl hres])
      obtain ⟨st', hst', hshape, hstatus⟩ := h.busy_stopping.polled_stop h.status.2 child h.procs
        h.watch hcarries killing grace
      refine ⟨_, st', rfl, hshape, ?_⟩
      rcases hst' with rfl | rfl
      · refine .quiet _ ?_ fun _ => he
        rcases hstatus with hs | hs
        · exact hs.trans h.status.2.symm
        · cases hs
      · exact .reaped req child res
  | _ =>
      rw [show s.runs = [] from h.token.runs] at hitem
      cases hitem

/-! ## 3. One poll of the daemon -/

/-- The daemon keeps its future: nothing else changes. -/
theorem Shape.with_daemon (h : Shape S s st) {daemon : DaemonItem} (hd : DaemonAt daemon st) :
    Shape S { s with daemon := daemon } st where
  token := { h.token with daemon := hd }
  status := by cases st <;> exact h.status
  procs := { h.procs with }
  doors := { h.doors with }
  watch := { h.watch with }

/-- The daemon has sent its next `Run`. -/
theorem Shape.sent (h : Shape S s .idle) {fut : RepeatedActFut Nat Receiver}
    (hslot : fut.fut = .polling s.nextReq) (hstate : fut.state = none) :
    Shape S { (s.sendRun stopReceiver).2 with daemon := .running fut } (.queued s.nextReq) where
  token := { h.token with
    daemon := ⟨fut, rfl, hslot, hstate⟩
    dead := not_crashed (s := s) h.token.crashed
    msgs := by
      show (s.mailbox ++ [_]).filterMap Msg.asRun = _
      rw [List.filterMap_append, h.token.msgs]
      rfl
    rx := no_rx rfl
    heard := no_heard rfl }
  status := h.status
  procs := { h.procs with }
  doors := { h.doors with
    asked := fun hover wait hwait =>
      (h.doors.asked hover wait hwait).imp_left (List.mem_append_left _) }
  watch := { h.watch with
    reports := fun hl m hm => by
      rcases List.mem_append.mp hm with hm | hm
      · exact h.watch.reports hl m hm
      · rw [List.mem_singleton.mp hm]
        rfl }

/-- The daemon between two rounds: it sleeps, wakes, or sends the next `Run`. -/
theorem Shape.polled_idle (h : Shape S s .idle) {fut : RepeatedActFut Nat Receiver}
    (hd : s.daemon = .running fut) (clock : Clock) :
    ∃ s' st', Caretaker.settle (Caretaker.pollDaemon S clock fut s) = s' ∧
      Shape S s' st' ∧ Next S s s' (.pollDaemon clock) .idle st' := by
  obtain ⟨fut', hd', hround, hstate⟩ := h.token.daemon
  obtain rfl : fut = fut' := by
    rw [hd] at hd'
    exact DaemonItem.running.inj hd'
  have hquiet : ∀ s' : Caretaker, s'.status = s.status →
      Next S s s' (.pollDaemon clock) .idle .idle :=
    fun s' hs => .quiet _ hs fun hne => absurd rfl hne
  have hnot : ∀ req, fut.fut ≠ .polling req := by
    intro req hslot
    rw [hslot] at hround
    cases hround
  unfold Caretaker.pollDaemon
  rw [hround]
  cases hp : fut.poll Caretaker.sendRun (Caretaker.pollRound S) clock s with
  | none =>
      rcases RepeatedActFut.poll_panics hp with ⟨-, hnone⟩ | ⟨req, _, _, _, hslot, -, -⟩
      · rw [hstate] at hnone
        cases hnone
      · exact absurd hslot (hnot req)
  | some polled =>
      obtain ⟨r, fut₁, s₁⟩ := polled
      cases RepeatedActFut.polled hp with
      | busy hslot _ => exact absurd hslot (hnot _)
      | again hslot _ _ => exact absurd hslot (hnot _)
      | giveUp hslot _ _ => exact absurd hslot (hnot _)
      | stopped hslot _ => exact absurd hslot (hnot _)
      | asleep hslot _ =>
          exact ⟨_, .idle, rfl, h.with_daemon ⟨fut, rfl, hround, hstate⟩, hquiet _ rfl⟩
      | woken hslot _ => exact ⟨_, .idle, rfl, h.with_daemon ⟨_, rfl, rfl, hstate⟩, hquiet _ rfl⟩
      | create hslot hstate' =>
          obtain rfl := Option.some.inj (hstate.symm.trans hstate')
          exact ⟨_, .queued s.nextReq, rfl, h.sent rfl rfl, .send s.nextReq rfl⟩

/-- The daemon waits for the result of its `Run`, and there is none yet. -/
theorem Shape.polled_waiting (h : Shape S s st) {fut : RepeatedActFut Nat Receiver} {req : Nat}
    (hd : s.daemon = .running fut) (hslot : fut.fut = .polling req)
    (hanswer : s.answering req = true) (hreplies : st.replies = []) (clock : Clock) :
    ∃ s' st', Caretaker.settle (Caretaker.pollDaemon S clock fut s) = s' ∧
      Shape S s' st' ∧ Next S s s' (.pollDaemon clock) st st' := by
  have hpending : Caretaker.pollRound S req s = (.pending, req, s) := by
    unfold Caretaker.pollRound
    rw [h.token.replies, hreplies]
    rfl
  have hpoll : fut.poll Caretaker.sendRun (Caretaker.pollRound S) clock s =
      some (.pending, { fut with fut := .polling req }, s) := by
    simp only [RepeatedActFut.poll, hslot, hpending]
  have hout : Caretaker.pollDaemon S clock fut s =
      .ok { s with daemon := .running { fut with fut := .polling req } } := by
    unfold Caretaker.pollDaemon
    rw [hpoll, hslot]
    simp only [roundOf, Option.any_some, hanswer, Bool.not_true, Bool.false_eq_true, ↓reduceIte]
  rw [hout]
  have hsame : ({ fut with fut := .polling req } : RepeatedActFut Nat Receiver) = fut := by
    rw [← hslot]
  refine ⟨_, st, rfl, ?_, .quiet st rfl fun hne => absurd hreplies hne⟩
  rw [hsame]
  exact h.with_daemon (by rw [← hd]; exact h.token.daemon)

/-- The state in which the daemon has taken the result of its `Run`. -/
def Caretaker.taken (s : Caretaker) (S : Setting) (res : RunResult) : Caretaker :=
  { s with replies := [], log := s.log ++ [⟨.warn, S.name, res.text⟩] }

/-- The result of the `Run` is what one poll of the round gives. -/
theorem Shape.round_replied {req : Nat} {res : RunResult} (h : Shape S s (.replied req res)) :
    s.pollRound S req = (.ready res.stopRx, req, s.taken S res) := by
  simp [Caretaker.pollRound, Caretaker.taken, show s.replies = [(req, res)] from h.token.replies]

/-- The daemon has taken the result, and goes on with another round. -/
theorem Shape.rested {req : Nat} {res : RunResult} (h : Shape S s (.replied req res))
    {fut : RepeatedActFut Nat Receiver} (hround : roundOf fut.fut = none)
    (hstate : fut.state = some stopReceiver) :
    Shape S { s.taken S res with daemon := .running fut } .idle where
  token := {
    crashed := h.token.crashed
    daemon := ⟨fut, rfl, hround, hstate⟩
    dead := h.token.dead
    msgs := h.token.msgs
    runs := h.token.runs
    replies := rfl
    rx := no_rx rfl
    heard := no_heard rfl }
  status := by
    show s.status = restStatus s.lastRun
    rw [h.status.1, h.status.2]
    rfl
  procs := { h.procs with }
  doors := { h.doors with }
  watch := { h.watch with }

/-- **`broadcast_stopped` behind a daemon that resolved**: every `Wait` handled so far is woken;
    where there is none, the actor panics. -/
theorem Shape.resolved {req : Nat} {res : RunResult} (h : Shape S s (.replied req res))
    (b : Bool) (status : Lifecycle) (hstatus : status = if b then .terminated else .failed)
    (log : List Custom) :
    ∃ s' st', Caretaker.settle (Caretaker.broadcastStopped { s with
        replies := []
        log := log
        daemon := .ended b
        status := status }) = s' ∧
      Shape S s' st' ∧ (st' = .ended b ∨ st' = .dropped) ∧ s'.status = status := by
  have hlive : s.crashed = none := h.token.crashed
  have hleft : ∀ pid, Unreaped s.procs pid → pid ∈ s.refused :=
    fun _ hun => h.procs.given_up hlive hun
  obtain ⟨tx, htx⟩ := Option.isSome_iff_exists.mp h.doors.stoppedTx
  cases hany : s.waits.any (fun fut => fut.stoppedRx.isReceiving) with
  | false =>
      simp only [Caretaker.broadcastStopped, htx, hany, Bool.false_eq_true, ↓reduceIte,
        Caretaker.settle]
      exact ⟨_, .dropped, rfl,
        shape_drop trivial (fun pid hun => Or.inr (hleft pid hun)) h.procs.born, Or.inr rfl, rfl⟩
  | true =>
      simp only [Caretaker.broadcastStopped, htx, hany, ↓reduceIte, Caretaker.settle]
      refine ⟨_, .ended b, rfl, ?_, Or.inl rfl, rfl⟩
      exact {
        token := {
          crashed := hlive
          daemon := rfl
          dead := h.token.dead
          msgs := h.token.msgs
          runs := h.token.runs
          replies := rfl
          rx := no_rx rfl
          heard := no_heard rfl }
        status := ⟨by
          show s.lastRun.isSome = true
          rw [h.status.1]
          rfl, hstatus⟩
        procs := procs_none (fun pid hun => Or.inr (hleft pid hun)) h.procs.born
        doors := doors_closed rfl rfl fun _ fut hfut => by
          obtain ⟨fut', hfut', rfl⟩ := List.mem_map.mp hfut
          show fut'.stoppedRx.deliver ≠ _
          rw [h.doors.waiting rfl fut' hfut']
          simp [StoppedRx.deliver]
        watch := { h.watch with } }

/-- **The daemon takes the result of its `Run`**: it marks the end of the round and goes on or
    gives up, or it has seen the stop signal and is done. -/
theorem Shape.polled_replied {req : Nat} {res : RunResult} (h : Shape S s (.replied req res))
    {fut : RepeatedActFut Nat Receiver} (hd : s.daemon = .running fut)
    (hslot : fut.fut = .polling req) (clock : Clock) :
    ∃ s' st', Caretaker.settle (Caretaker.pollDaemon S clock fut s) = s' ∧
      Shape S s' st' ∧ Next S s s' (.pollDaemon clock) (.replied req res) st' := by
  have hlive : s.crashed = none := h.token.crashed
  have hreplies : s.replies = [(req, res)] := h.token.replies
  have hanswer : s.answering req = true := by
    unfold Caretaker.answering
    simp [hreplies]
  have hready : ∀ {fut₀ fut₁ a s₁}, fut.fut = .polling fut₀ →
      s.pollRound S fut₀ = (.ready a, fut₁, s₁) → res.stopRx = a ∧ s.taken S res = s₁ := by
    intro fut₀ fut₁ a s₁ hf hpf
    rw [← FutureSlot.polling.inj (hslot.symm.trans hf), h.round_replied] at hpf
    obtain ⟨hres, hpair⟩ := Prod.mk.inj hpf
    exact ⟨Poll.ready.inj hres, (Prod.mk.inj hpair).2⟩
  have hmarks : ∀ {answer rx}, res.stopRx = some rx →
      (fut.retryGuard.mark clock.now).map Prod.fst = answer →
      Marks s (.pollDaemon clock) answer := by
    intro answer rx hrx hanswer
    simp [Marks, Caretaker.mark, hd, hslot, roundOf, hreplies, hrx, hanswer]
  unfold Caretaker.pollDaemon
  rw [hslot]
  simp only [roundOf, Option.any_some, hanswer, Bool.not_true, Bool.false_eq_true, ↓reduceIte]
  cases hp : fut.poll Caretaker.sendRun (Caretaker.pollRound S) clock s with
  | none =>
      rcases RepeatedActFut.poll_panics hp with ⟨hempty, -⟩ | ⟨_, _, rx, _, hf, hpf, hmark⟩
      · cases hslot.symm.trans hempty
      · refine ⟨_, .dropped, rfl, ?_,
          .clock req res (hmarks (hready hf hpf).1 (by rw [hmark]; rfl)) rfl⟩
        exact shape_drop (by simp [Panic.Possible])
          (fun pid hun => Or.inr (h.procs.given_up hlive hun)) h.procs.born
  | some polled =>
      obtain ⟨r, fut₁, s₁⟩ := polled
      cases RepeatedActFut.polled hp with
      | busy hf hpf =>
          rw [← FutureSlot.polling.inj (hslot.symm.trans hf), h.round_replied] at hpf
          cases (Prod.mk.inj hpf).1
      | asleep hf _ => cases hslot.symm.trans hf
      | woken hf _ => cases hslot.symm.trans hf
      | create hf _ => cases hslot.symm.trans hf
      | @again _ _ _ rx guard hf hpf hmark =>
          obtain ⟨hres, rfl⟩ := hready hf hpf
          have hrx : rx = stopReceiver := h.token.rx res rx rfl hres
          exact ⟨_, .idle, rfl, h.rested rfl (by rw [hrx]),
            .again _ res (hmarks hres (by rw [hmark]; rfl)) rfl⟩
      | @giveUp _ _ _ rx guard hf hpf hmark =>
          obtain ⟨hres, rfl⟩ := hready hf hpf
          obtain ⟨s', st', hout, hshape, hst', hs'⟩ := h.resolved false .failed rfl
            (s.log ++ [⟨.warn, S.name, res.text⟩] ++
              [⟨.error, S.name, "Retry limits exceeded, giving up"⟩])
          exact ⟨s', st', hout, hshape,
            .giveUp _ res (hmarks hres (by rw [hmark]; rfl)) st' hst' hs'⟩
      | stopped hf hpf =>
          obtain ⟨hres, rfl⟩ := hready hf hpf
          obtain ⟨s', st', hout, hshape, hst', hs'⟩ := h.resolved true s.status h.status.2
            (s.log ++ [⟨.warn, S.name, res.text⟩])
          exact ⟨s', st', hout, hshape, .finish _ res hres st' hst' hs'⟩

/-- **One poll of the daemon.** -/
theorem Shape.polled_daemon (h : Shape S s st) {fut : RepeatedActFut Nat Receiver}
    (hd : s.daemon = .running fut) (clock : Clock) :
    ∃ s' st', Caretaker.settle (Caretaker.pollDaemon S clock fut s) = s' ∧
      Shape S s' st' ∧ Next S s s' (.pollDaemon clock) st st' := by
  have hdaemon := h.token.daemon
  -- the stages in which the daemon waits for a request
  have hslot : ∀ req, (∃ fut', s.daemon = .running fut' ∧ fut'.fut = .polling req ∧
      fut'.state = none) → fut.fut = .polling req := by
    intro req hreq
    obtain ⟨fut', hd', hf, -⟩ := hreq
    rw [hd] at hd'
    rw [DaemonItem.running.inj hd']
    exact hf
  cases st with
  | boot => rw [show s.daemon = .notified stopReceiver from hdaemon] at hd; cases hd
  | idle => exact h.polled_idle hd clock
  | queued req =>
      have hmem : (stopReceiver, req) ∈ s.mailbox.filterMap Msg.asRun := by
        rw [h.token.msgs]
        exact List.mem_singleton.mpr rfl
      obtain ⟨m, hm, hrun⟩ := List.mem_filterMap.mp hmem
      have hanswer : s.answering req = true := by
        have hany : s.mailbox.any (Msg.isRun req) = true := by
          refine List.any_eq_true.mpr ⟨m, hm, ?_⟩
          cases m with
          | run rx req' =>
              obtain ⟨-, rfl⟩ := Prod.mk.inj (Option.some.inj hrun)
              simp [Msg.isRun]
          | _ => cases hrun
        simp [Caretaker.answering, hany]
      exact h.polled_waiting hd (hslot req hdaemon) hanswer rfl clock
  | up req child =>
      have hanswer : s.answering req = true := by
        simp [Caretaker.answering, show s.runs = [_] from h.token.runs]
      exact h.polled_waiting hd (hslot req hdaemon) hanswer rfl clock
  | spawnFailed req =>
      obtain ⟨e, hruns⟩ := h.token.runs
      exact h.polled_waiting hd (hslot req hdaemon) (by simp [Caretaker.answering, hruns]) rfl clock
  | stopping req child res =>
      obtain ⟨killing, hruns⟩ := h.token.runs
      exact h.polled_waiting hd (hslot req hdaemon) (by simp [Caretaker.answering, hruns]) rfl clock
  | replied req res => exact h.polled_replied hd (hslot req hdaemon) clock
  | ended res => rw [show s.daemon = .ended res from hdaemon] at hd; cases hd
  | dropped => rw [show s.daemon = .dropped from hdaemon] at hd; cases hd

/-! ## 4. Every step -/

/-- A message of somebody else joins the mailbox. -/
theorem Shape.arrived (h : Shape S s st) (hlive : s.crashed = none) {m : Incoming} {s' : Caretaker}
    (hs : s.arrive m = some s') : Shape S s' st ∧ s'.status = s.status := by
  obtain ⟨⟨n, rfl⟩, hrun⟩ := Caretaker.arrived hs
  refine ⟨h.enqueue hlive (by cases m <;> rfl) (fun hnone => ?_) n, rfl⟩
  cases m with
  | setHealthState sender health =>
      have hsome := hrun sender health rfl
      rw [hnone] at hsome
      cases hsome
  | _ => rfl

/-- A process that is not reaped exits, or is reaped by somebody else. -/
theorem Shape.with_proc (h : Shape S s st) {pid : Nat} {p : Proc} (hget : s.procs[pid]? = some p)
    (hun : p.unreaped = true) (q : Proc) : Shape S { s with procs := s.procs.set pid q } st where
  token := { h.token with }
  status := by cases st <;> exact h.status
  procs := {
    owned := fun pid' hun' => h.procs.owned pid' (unreaped_set hget hun hun')
    last := fun pid' hpid => by
      rw [h.procs.last pid' hpid]
      exact (List.length_set ..).symm
    given := fun pid' hpid => by
      rw [List.length_set]
      exact h.procs.given pid' hpid }
  doors := { h.doors with }
  watch := { h.watch with
    length := fun hlive => by
      show s.health.length = (s.procs.set pid q).length
      rw [List.length_set]
      exact h.watch.length hlive }

/-- A `Wait` that replies: the daemon is over. -/
theorem Shape.wait_replies (h : Shape S s st) {i : Nat} {fut : WaitFut}
    (hfut : s.waits[i]? = some fut) (hres : fut.stoppedRx.resolves s.stoppedTx = true) :
    st.over = true := by
  cases hover : st.over with
  | true => rfl
  | false =>
      have hwaiting := h.doors.waiting hover fut (List.mem_of_getElem? hfut)
      have htx := h.doors.stoppedTx
      rw [hover] at htx
      rw [hwaiting] at hres
      simp only [StoppedRx.resolves, Bool.false_or] at hres
      cases hs : s.stoppedTx with
      | none =>
          rw [hs] at htx
          cases htx
      | some tx =>
          rw [hs] at hres
          cases hres

/-- A `Terminate` that replies: the daemon is over. -/
theorem Shape.terminate_replies (h : Shape S s st) {i : Nat} {fut : TerminateFut}
    (hfut : s.terminates[i]? = some fut) (hover' : s.waitOver fut.req = true) :
    st.over = true := by
  cases hover : st.over with
  | true => rfl
  | false =>
      simp only [Caretaker.waitOver, Bool.and_eq_true, Bool.not_eq_true',
        List.any_eq_false] at hover'
      rcases h.doors.asked hover fut (List.mem_of_getElem? hfut) with hm | ⟨wait, hwait, hreq⟩
      · have hnot := hover'.1 _ hm
        simp [Msg.isWait] at hnot
      · have hnot := hover'.2 wait hwait
        rw [h.doors.waiting hover wait hwait] at hnot
        simp [hreq] at hnot

/-- The notification of `started` is handled. -/
theorem Shape.daemon_started (h : Shape S s st) {stopRx : Receiver}
    (hd : s.daemon = .notified stopRx) :
    st = .boot ∧ Shape S (s.handleDaemon S stopRx) .idle := by
  have hdaemon := h.token.daemon
  cases st with
  | boot =>
      obtain rfl := DaemonItem.notified.inj (hd.symm.trans hdaemon)
      refine ⟨rfl, ?_⟩
      exact {
        token := { h.token with
          daemon := ⟨_, rfl, rfl, rfl⟩
          rx := no_rx rfl
          heard := no_heard rfl }
        status := by
          show s.status = restStatus s.lastRun
          rw [h.status.1, h.status.2]
          rfl
        procs := { h.procs with }
        doors := { h.doors with }
        watch := { h.watch with } }
  | ended res => cases hd.symm.trans hdaemon
  | dropped => cases hd.symm.trans hdaemon
  | _ =>
      obtain ⟨fut, hd', -⟩ := hdaemon
      cases hd.symm.trans hd'

theorem Shape.with_wait (h : Shape S s st) (hover : st.over = true) (i req : Nat) :
    Shape S { s with waits := s.waits.set i ⟨req, .replied⟩ } st where
  token := { h.token with }
  status := by cases st <;> exact h.status
  procs := { h.procs with }
  doors := { h.doors with
    waiting := fun hno => by rw [hover] at hno; cases hno
    woken := fun _ hlive fut hfut => by
      rcases List.mem_or_eq_of_mem_set hfut with hmem | rfl
      · exact h.doors.woken hover hlive fut hmem
      · simp
    asked := fun hno => by rw [hover] at hno; cases hno }
  watch := { h.watch with }

theorem Shape.with_terminate (h : Shape S s st) (hover : st.over = true) (i : Nat)
    (fut : TerminateFut) : Shape S { s with terminates := s.terminates.set i fut } st where
  token := { h.token with }
  status := by cases st <;> exact h.status
  procs := { h.procs with }
  doors := { h.doors with
    stopTx := by
      have htx := h.doors.stopTx
      rw [hover] at htx ⊢
      simpa using htx
    asked := fun hno => by rw [hover] at hno; cases hno }
  watch := { h.watch with }

/-- A health actor uses or drops its sender. -/
theorem Shape.with_signal (h : Shape S s st) (run : Nat) :
    Shape S { s with
      health := s.health.modify run fun handle => { handle with signalled := true } } st where
  token := { h.token with }
  status := by cases st <;> exact h.status
  procs := { h.procs with }
  doors := { h.doors with }
  watch := { h.watch with
    length := fun hlive => by
      show (s.health.modify run _).length = _
      rw [List.length_modify]
      exact h.watch.length hlive
    checks := fun hlive handle hhandle => by
      obtain ⟨handle', hmem, hconfig⟩ := mem_modify_config hhandle fun _ => rfl
      rw [hconfig]
      exact h.watch.checks hlive handle' hmem
    stopped := fun hlive k handle hget hstopped => by
      change (s.health.modify run _)[k]? = some handle at hget
      rw [List.getElem?_modify] at hget
      obtain ⟨handle', hget', hhandle⟩ := Option.map_eq_some_iff.mp hget
      refine h.watch.stopped hlive k handle' hget' ?_
      split at hhandle <;> subst hhandle <;> exact hstopped }

/-- **Each step of a caretaker of some shape is one of the moves**, and leads to a state of the
    shape of the new stage. -/
theorem shape_step (h : Shape S s st) {e : Event} {s' : Caretaker} (hs : s.step S e = some s') :
    ∃ st', Shape S s' st' ∧ Next S s s' e st st' := by
  cases Caretaker.stepped hs with
  | arrive hlive hs =>
      obtain ⟨hshape, hstatus⟩ := h.arrived hlive hs
      exact ⟨st, hshape, .quiet st hstatus fun _ _ he => by cases he⟩
  | handle hm spawn =>
      obtain ⟨s₁, st', hout, hshape, hnext⟩ := h.handled hm spawn
      rw [hout]
      exact ⟨st', hshape, hnext⟩
  | startDaemon hd =>
      obtain ⟨rfl, hshape⟩ := h.daemon_started hd
      exact ⟨.idle, hshape, .start rfl⟩
  | pollDaemon hd clock =>
      obtain ⟨s₁, st', hout, hshape, hnext⟩ := h.polled_daemon hd clock
      rw [hout]
      exact ⟨st', hshape, hnext⟩
  | @pollRun i _ hitem grace =>
      obtain ⟨s₁, st', hout, hshape, hnext⟩ := h.polled_run hitem grace
        (.pollRun i grace) (by simp)
      rw [hout]
      exact ⟨st', hshape, hnext⟩
  | pollWait hfut hres =>
      refine ⟨st, ?_, .quiet st rfl fun _ _ he => by cases he⟩
      exact h.with_wait (h.wait_replies hfut hres) _ _
  | pollTerminate hfut hover =>
      refine ⟨st, ?_, .quiet st rfl fun _ _ he => by cases he⟩
      exact h.with_terminate (h.terminate_replies hfut hover) _ _
  | exit hget status =>
      refine ⟨st, ?_, .quiet st rfl fun _ _ he => by cases he⟩
      exact h.with_proc hget rfl _
  | reap hget =>
      refine ⟨st, ?_, .quiet st rfl fun _ _ he => by cases he⟩
      exact h.with_proc hget rfl _
  | unhealthy _ =>
      refine ⟨st, ?_, .quiet st rfl fun _ _ he => by cases he⟩
      exact h.with_signal _

/-- A stage that is over is left by no move. -/
theorem over_stays {e : Event} {s' : Caretaker} {st' : Stage} (hn : Next S s s' e st st')
    (hover : st.over = true) : st' = st := by
  cases hn with
  | quiet _ _ _ => rfl
  | report _ _ _ _ _ => rfl
  | _ => cases hover

/-- A panic is for good. -/
theorem crashed_before (h : Shape S s st) {e : Event} {s' : Caretaker}
    (hs : s.step S e = some s') (hlive : s'.crashed = none) : s.crashed = none := by
  refine crashed_of_not_dropped h fun hst => ?_
  subst hst
  obtain ⟨st', h', hn⟩ := shape_step h hs
  obtain rfl := over_stays hn rfl
  obtain ⟨panic, hp, -⟩ := h'.token.crashed
  rw [hp] at hlive
  cases hlive

theorem shaped_step {s' : Caretaker} {e : Event} (h : ∃ st, Shape S s st)
    (hs : s.step S e = some s') : ∃ st, Shape S s' st := by
  obtain ⟨st, h⟩ := h
  obtain ⟨st', h', -⟩ := shape_step h hs
  exact ⟨st', h'⟩

/-- **Every state of a run has a shape.** -/
theorem shape_run {h : List (Caretaker × Event)} {s : Caretaker}
    (hr : Lts.Run (Caretaker.step S) .init h s) : ∃ st, Shape S s st :=
  hr.invariant (P := fun s => ∃ st, Shape S s st) ⟨.boot, shape_init S⟩ fun _ _ _ => shaped_step

theorem shape_reach {s : Caretaker} (hr : Lts.Reach (Caretaker.step S) .init s) :
    ∃ st, Shape S s st := by
  obtain ⟨h, hr⟩ := hr
  exact shape_run hr

theorem shape_before {h : List (Caretaker × Event)} {s : Caretaker}
    (hr : Lts.Run (Caretaker.step S) .init h s) : ∀ x ∈ h, ∃ st, Shape S x.1 st :=
  hr.invariant_before (P := fun s => ∃ st, Shape S s st) ⟨.boot, shape_init S⟩
    fun _ _ _ => shaped_step

end Blahaj
