/-
  File:      Blahaj/Supervisor/Moves.lean
  Subject:   WHAT A STEP OF A CARETAKER DOES: the moves between stages, and those of the handlers.

  * `Next` -- every move there is, with what the results need to know of it;
  * `Shape.handled_run`, `Shape.handled_wait`, `Shape.handled_terminate`, `Shape.handled_report` --
    one lemma for each handler: it keeps the shape and is one of the moves;
  * `Shape.handled` -- the same for whatever message is the oldest.
-/
import Blahaj.Supervisor.Stage
import Blahaj.Lib.Lts

namespace Blahaj

/-! ## 1. The moves -/

/-- The step handles a message of this kind. -/
def Caretaker.handles (s : Caretaker) (kind : Msg → Bool) : Event → Bool
  | .handle _ => match s.mailbox with
    | m :: _ => kind m
    | [] => false
  | _ => false

theorem handles_iff {s : Caretaker} {kind : Msg → Bool} {e : Event} :
    s.handles kind e = true ↔
      ∃ spawn m rest, e = .handle spawn ∧ s.mailbox = m :: rest ∧ kind m = true := by
  constructor
  · intro h
    unfold Caretaker.handles at h
    split at h
    · split at h
      · exact ⟨_, _, _, rfl, ‹_›, h⟩
      · cases h
    · cases h
  · intro h
    obtain ⟨spawn, m, rest, rfl, hm, hk⟩ := h
    simp only [Caretaker.handles, hm, hk]

/-- The step handles a `Run`, and so calls `build_child`. -/
abbrev BuildsChild (s : Caretaker) (e : Event) : Prop :=
  s.handles (fun m => m.asRun.isSome) e = true

/-- The step handles a `Terminate`. -/
abbrev AsksToStop (s : Caretaker) (e : Event) : Prop :=
  s.handles (fun m => m == .terminate) e = true

/-- The step handles a `SetHealthState`. -/
abbrev Reports (s : Caretaker) (e : Event) : Prop :=
  s.handles (fun m => m.asReport.isSome) e = true

/-- The report a step applies to the status, with its sender. -/
def Caretaker.applied (s : Caretaker) : Event → Option (Nat × HealthState)
  | .handle _ => match s.mailbox with
    | m :: _ => if s.status.live then m.asReport else none
    | [] => none
  | _ => none

/-- In a poll in which the daemon takes a result with the stop receiver, and so marks the end of
    the round: what the retry guard answers (`none` where the clock underflows). -/
def Caretaker.mark (s : Caretaker) : Event → Option (Option Bool)
  | .pollDaemon clock => match s.daemon with
    | .running fut => match roundOf fut.fut with
      | some req => (s.replies.lookup req).bind fun res => res.stopRx.map fun _ =>
          (fut.retryGuard.mark clock.now).map Prod.fst
      | none => none
    | _ => none
  | _ => none

/-- The step marks the end of a round, and this is the answer. -/
abbrev Marks (s : Caretaker) (e : Event) (answer : Option Bool) : Prop :=
  s.mark e = some answer

/-- **The moves of a caretaker.** -/
inductive Next (S : Setting) (s s' : Caretaker) (e : Event) : Stage → Stage → Prop where
  /-- nothing that the status or the daemon shows -/
  | quiet (st : Stage) (hs : s'.status = s.status)
      (he : st.replies ≠ [] → ∀ clock, e ≠ .pollDaemon clock) : Next S s s' e st st
  /-- a `SetHealthState` is applied -/
  | report (st : Stage) (health : HealthState) (hb : s.status.live = true)
      (hs : s'.status = .running health) (ha : ∃ sender, s.applied e = some (sender, health)) :
      Next S s s' e st st
  | start (hs : s'.status = s.status) : Next S s s' e .boot .idle
  | send (req : Nat) (hs : s'.status = s.status) : Next S s s' e .idle (.queued req)
  | spawned (req : Nat) (hb : BuildsChild s e)
      (hs : s'.status = if S.program.check.isSome then .running .unknown else .starting) :
      Next S s s' e (.queued req) (.up req ⟨s.procs.length⟩)
  | spawnError (req : Nat) (hb : BuildsChild s e) (hs : s'.status = .starting) :
      Next S s s' e (.queued req) (.spawnFailed req)
  | illegal (req : Nat) (hb : BuildsChild s e) (hs : s'.status = .running .unknown) :
      Next S s s' e (.queued req) .dropped
  /-- the `WaitAbortFut` resolves by a signal, and the child is still there -/
  | stop (req : Nat) (child : Child) (res : RunResult) :
      Next S s s' e (.up req child) (.stopping req child res)
  /-- the `WaitAbortFut` resolves, and the child is gone, or given up at once -/
  | left (req : Nat) (child : Child) (res : RunResult) :
      Next S s s' e (.up req child) (.replied req res)
  | failed (req : Nat) (res : RunResult) : Next S s s' e (.spawnFailed req) (.replied req res)
  /-- `ensure_stop` is done: the child is reaped, or given up -/
  | reaped (req : Nat) (child : Child) (res : RunResult) :
      Next S s s' e (.stopping req child res) (.replied req res)
  | again (req : Nat) (res : RunResult) (hm : Marks s e (some true))
      (hs : s'.status = s.status) : Next S s s' e (.replied req res) .idle
  | giveUp (req : Nat) (res : RunResult) (hm : Marks s e (some false)) (st : Stage)
      (hst : st = .ended false ∨ st = .dropped) (hs : s'.status = .failed) :
      Next S s s' e (.replied req res) st
  | finish (req : Nat) (res : RunResult) (hres : res.stopRx = none) (st : Stage)
      (hst : st = .ended true ∨ st = .dropped) (hs : s'.status = s.status) :
      Next S s s' e (.replied req res) st
  | clock (req : Nat) (res : RunResult) (hm : Marks s e none) (hs : s'.status = s.status) :
      Next S s s' e (.replied req res) .dropped

variable {S : Setting} {s : Caretaker} {st : Stage}

/-! ## 2. Messages -/

theorem crashed_of_not_dropped (h : Shape S s st) (hst : st ≠ .dropped) : s.crashed = none := by
  have hc := h.token.crashed
  cases st <;> first | exact hc | exact absurd rfl hst

/-- Only three of the panics can happen. -/
theorem Shape.panic_possible (h : Shape S s st) {panic : Panic} (hp : s.crashed = some panic) :
    panic.Possible S := by
  have hcrash := h.token.crashed
  cases st with
  | dropped =>
      obtain ⟨panic', hp', hposs⟩ := hcrash
      rw [← Option.some.inj (hp'.symm.trans hp)]
      exact hposs
  | _ => cases hp.symm.trans hcrash

/-- An actor with a message in its mailbox has not panicked. -/
theorem Shape.alive (h : Shape S s st) {m : Msg} {rest : List Msg} (hm : s.mailbox = m :: rest) :
    s.crashed = none := by
  cases hc : s.crashed with
  | none => rfl
  | some panic =>
      have hnil := h.token.dead (by rw [hc]; rfl)
      rw [hm] at hnil
      cases hnil

/-- A message that is no `Run` joins the mailbox. -/
theorem Shape.enqueue (h : Shape S s st) (hlive : s.crashed = none) {m : Msg}
    (hrun : m.asRun = none) (hreport : s.lastRun = none → m.asReport = none) (n : Nat) :
    Shape S { s with mailbox := s.mailbox ++ [m], nextReq := n } st where
  token := { h.token with
    dead := fun hd => by rw [hlive] at hd; cases hd
    msgs := by
      show (s.mailbox ++ [m]).filterMap Msg.asRun = _
      rw [List.filterMap_append, h.token.msgs]
      simp [hrun] }
  status := by cases st <;> exact h.status
  procs := { h.procs with }
  doors := { h.doors with
    asked := fun hover fut hfut =>
      (h.doors.asked hover fut hfut).imp_left (List.mem_append_left _) }
  watch := { h.watch with
    reports := fun hl m' hm' => by
      rcases List.mem_append.mp hm' with hm' | hm'
      · exact h.watch.reports hl m' hm'
      · rw [List.mem_singleton.mp hm']
        exact hreport hl }

/-- A `Terminate` that waits for its `Wait` in the mailbox keeps waiting when
    another message leaves it. -/
theorem Shape.asked_tail (h : Shape S s st) (hover : st.over = false) {m : Msg} {rest : List Msg}
    (hm : s.mailbox = m :: rest) (hwait : ∀ req, m ≠ .wait req) :
    ∀ fut ∈ s.terminates, .wait fut.req ∈ rest ∨ ∃ wait ∈ s.waits, wait.req = fut.req := by
  intro fut hfut
  rcases h.doors.asked hover fut hfut with hmem | hw
  · rw [hm] at hmem
    rcases List.mem_cons.mp hmem with heq | hmem
    · exact absurd heq.symm (hwait _)
    · exact Or.inl hmem
  · exact Or.inr hw

/-- The oldest message, if it is no `Run` and no `Wait`, leaves the mailbox. -/
theorem Shape.dequeue (h : Shape S s st) {m : Msg} {rest : List Msg} (hm : s.mailbox = m :: rest)
    (hrun : m.asRun = none) (hwait : ∀ req, m ≠ .wait req) :
    Shape S { s with mailbox := rest } st where
  token := { h.token with
    dead := fun hd => by
      have hnil := h.token.dead hd
      rw [hm] at hnil
      cases hnil
    msgs := by
      have hmsgs := h.token.msgs
      rw [hm, List.filterMap_cons, hrun] at hmsgs
      exact hmsgs }
  status := by cases st <;> exact h.status
  procs := { h.procs with }
  doors := { h.doors with asked := fun hover => h.asked_tail hover hm hwait }
  watch := { h.watch with
    reports := fun hl m' hm' => h.watch.reports hl m' (by
      rw [hm]
      exact List.mem_cons_of_mem _ hm') }

/-- What a panic leaves is dropped, with no child alive but those given up before, unless it was the
    health-check URI. -/
theorem shape_drop {panic : Panic} (hp : panic.Possible S)
    (hprocs : ∀ pid, Unreaped s.procs pid → panic = .healthUri ∨ pid ∈ s.refused)
    (hgiven : ∀ pid ∈ s.refused, pid < s.procs.length) :
    Shape S (s.drop panic) .dropped where
  token := {
    crashed := ⟨panic, rfl, hp⟩
    daemon := rfl
    dead := fun _ => rfl
    msgs := rfl
    runs := rfl
    replies := rfl
    rx := no_rx rfl
    heard := no_heard rfl }
  status := trivial
  procs := procs_none (fun pid h => (hprocs pid h).imp_left (congrArg some)) hgiven
  doors := doors_closed rfl rfl fun h => nomatch h
  watch := {
    length := fun h => nomatch h
    checks := fun h => nomatch h
    stopped := fun h => nomatch h
    reports := fun _ _ h => nomatch h }

/-! ## 3. `Handler<Run>` -/

/-- A `Run` at the head of the mailbox is the one the daemon waits for. -/
theorem Shape.run_head (h : Shape S s st) {stopRx : Receiver} {req : Nat} {rest : List Msg}
    (hm : s.mailbox = .run stopRx req :: rest) :
    st = .queued req ∧ stopRx = stopReceiver ∧ rest.filterMap Msg.asRun = [] := by
  have hmsgs := h.token.msgs
  rw [hm] at hmsgs
  change (stopRx, req) :: rest.filterMap Msg.asRun = st.msgs at hmsgs
  cases st with
  | queued req' =>
      obtain ⟨hhead, hrest⟩ := List.cons.inj hmsgs
      obtain ⟨rfl, rfl⟩ := Prod.mk.inj hhead
      exact ⟨rfl, rfl, hrest⟩
  | _ => cases hmsgs

theorem healthConfig_none {status : Lifecycle} (h : healthConfig S status = none) : ¬ S.Legal := by
  intro hS
  unfold healthConfig at h
  cases hcheck : S.program.check with
  | none => simp [hcheck] at h
  | some check =>
      obtain ⟨http, check⟩ := check
      have huri := hS http check hcheck
      simp only [hcheck, Option.map_eq_none_iff] at h
      rw [h] at huri
      cases huri

/-- With a health check the health actor is given it, and the status is already
    `Running(Unknown)`. -/
theorem healthConfig_some {status : Lifecycle} {found : Lifecycle × Option HealthConfig}
    (h : healthConfig S status = some found) :
    found.1 = (if S.program.check.isSome then .running .unknown else status) ∧
      found.2.isSome = S.program.check.isSome := by
  unfold healthConfig at h
  cases hcheck : S.program.check with
  | none =>
      simp only [hcheck, Option.some.injEq] at h
      subst h
      exact ⟨rfl, rfl⟩
  | some check =>
      simp only [hcheck, Option.map_eq_some_iff] at h
      obtain ⟨_, _, rfl⟩ := h
      exact ⟨rfl, rfl⟩

/-- The state after a spawn that succeeded. -/
def Caretaker.spawned (s : Caretaker) (rest : List Msg) (status : Lifecycle)
    (config : Option HealthConfig) (req : Nat) : Caretaker :=
  { s with
    mailbox := rest
    status := status
    lastRun := some req
    procs := s.procs ++ [.running]
    health := s.health ++ [⟨config, false, false⟩]
    runs := s.runs ++ [⟨.waitAbort (.new ⟨s.procs.length⟩ stopReceiver
      ⟨.unhealthy s.procs.length⟩) s.procs.length, req⟩] }

theorem Shape.spawned {req : Nat} (h : Shape S s (.queued req)) {rest : List Msg}
    (hm : s.mailbox = .run stopReceiver req :: rest) {status : Lifecycle}
    (hstatus : status.live = true) {config : Option HealthConfig}
    (hconfig : config.isSome = S.program.check.isSome) :
    Shape S (s.spawned rest status config req) (.up req ⟨s.procs.length⟩) := by
  have hlive := crashed_of_not_dropped h (by simp)
  have hlen := h.watch.length hlive
  exact {
    token := { h.token with
      dead := fun hd => by
        rw [show (s.spawned rest status config req).crashed = s.crashed from rfl, hlive] at hd
        cases hd
      msgs := (h.run_head hm).2.2
      runs := by
        show s.runs ++ _ = _
        rw [show s.runs = [] from h.token.runs]
        rfl }
    status := ⟨rfl, hstatus⟩
    procs := {
      owned := fun pid hun => by
        rcases unreaped_snoc hun with hun | hpid
        · rcases h.procs.owned pid hun with hc | hc
          · cases hc
          · exact Or.inr hc
        · exact Or.inl (by rw [hpid]; rfl)
      last := fun pid hpid => by
        cases hpid
        simp [Caretaker.spawned]
      given := fun pid hpid => by
        refine ⟨h.procs.born_snoc .running pid hpid, fun hnew => ?_⟩
        have hlt : pid < s.procs.length := h.procs.born pid hpid
        have heq : s.procs.length = pid := Option.some.inj hnew
        omega }
    doors := { h.doors with
      asked := fun _ => h.asked_tail rfl hm (by simp) }
    watch := {
      length := fun _ => by simp [Caretaker.spawned, hlen]
      checks := fun _ handle hhandle => by
        rcases List.mem_append.mp hhandle with hhandle | hhandle
        · exact h.watch.checks hlive handle hhandle
        · rw [List.mem_singleton.mp hhandle]
          exact hconfig
      stopped := fun _ k handle hget hstopped => by
        rcases getElem?_snoc hget with hget | ⟨hk, -⟩
        · cases h.watch.stopped hlive k handle hget hstopped
        · rw [hk, hlen]
          rfl
      reports := fun hl => nomatch hl } }

theorem Shape.spawn_failed {req : Nat} (h : Shape S s (.queued req)) {rest : List Msg}
    (hm : s.mailbox = .run stopReceiver req :: rest) (e : SupervisorError) :
    Shape S { s with
      mailbox := rest
      status := .starting
      lastRun := some req
      runs := s.runs ++ [⟨.failure stopReceiver e, req⟩] } (.spawnFailed req) where
  token := { h.token with
    dead := fun hd => by
      rw [crashed_of_not_dropped h (by simp)] at hd
      cases hd
    msgs := (h.run_head hm).2.2
    runs := ⟨e, by
      show s.runs ++ _ = _
      rw [show s.runs = [] from h.token.runs]
      rfl⟩ }
  status := ⟨rfl, rfl⟩
  procs := { h.procs with }
  doors := { h.doors with asked := fun _ => h.asked_tail rfl hm (by simp) }
  watch := { h.watch with reports := fun hl => nomatch hl }

/-- **`Handler<Run>`**: a child is spawned and waited for, or is not spawned, or its health-check
    URI is illegal. -/
theorem Shape.handled_run (h : Shape S s st) {stopRx : Receiver} {req : Nat} {rest : List Msg}
    (hm : s.mailbox = .run stopRx req :: rest) (spawn : Except String Unit) :
    ∃ s' st', Caretaker.settle
        (Caretaker.handleRun S spawn stopRx req { s with mailbox := rest }) = s' ∧
      Shape S s' st' ∧ Next S s s' (.handle spawn) st st' := by
  obtain ⟨rfl, rfl, -⟩ := h.run_head hm
  have hb : BuildsChild s (.handle spawn) := handles_iff.mpr ⟨spawn, _, rest, rfl, hm, rfl⟩
  cases spawn with
  | error source => exact ⟨_, _, rfl, h.spawn_failed hm (.spawn source), .spawnError req hb rfl⟩
  | ok _ =>
      cases hc : healthConfig S .starting with
      | none =>
          refine ⟨_, .dropped, rfl, ?_, ?_⟩
          · simp only [Caretaker.handleRun, buildChild, hc, Caretaker.settle]
            exact shape_drop (healthConfig_none hc) (fun _ _ => Or.inl rfl)
              (h.procs.born_snoc .running)
          · simp only [Caretaker.handleRun, buildChild, hc, Caretaker.settle]
            exact .illegal req hb rfl
      | some found =>
          obtain ⟨hstatus, hconfig⟩ := healthConfig_some hc
          have hout : Caretaker.settle
              (Caretaker.handleRun S (.ok ()) stopReceiver req { s with mailbox := rest }) =
              s.spawned rest found.1 found.2 req := by
            simp only [Caretaker.handleRun, buildChild, hc, Caretaker.settle, Caretaker.spawned]
          refine ⟨_, _, hout, h.spawned hm ?_ hconfig, .spawned req hb hstatus⟩
          rw [hstatus]
          split <;> rfl

/-! ## 4. The other handlers -/

/-- `Handler<Wait>`. -/
theorem Shape.handled_wait (h : Shape S s st) (hlive : s.crashed = none) {req : Nat}
    {rest : List Msg} (hm : s.mailbox = .wait req :: rest) :
    Shape S (Caretaker.handleWait req { s with mailbox := rest }) st := by
  have hrun : rest.filterMap Msg.asRun = st.msgs := by
    have hmsgs := h.token.msgs
    rw [hm] at hmsgs
    exact hmsgs
  have hreports := fun hl m' hm' => h.watch.reports hl m' (by
    rw [hm]
    exact List.mem_cons_of_mem _ hm')
  have hdead : s.crashed.isSome → rest = [] := fun hd => by
    rw [hlive] at hd
    cases hd
  have hstop := h.doors.stoppedTx
  cases hover : st.over with
  | true =>
      rw [hover] at hstop
      have hnone : s.stoppedTx = none := by simpa using hstop
      have hout : Caretaker.handleWait req { s with mailbox := rest } =
          { s with mailbox := rest, waits := s.waits ++ [⟨req, .ready⟩] } := by
        simp only [Caretaker.handleWait, hnone]
      rw [hout]
      exact {
        token := { h.token with dead := hdead, msgs := hrun }
        status := by cases st <;> exact h.status
        procs := { h.procs with }
        doors := { h.doors with
          waiting := fun hno => by rw [hover] at hno; cases hno
          woken := fun _ _ fut hfut => by
            rcases List.mem_append.mp hfut with hfut | hfut
            · exact h.doors.woken hover hlive fut hfut
            · rw [List.mem_singleton.mp hfut]
              simp
          asked := fun hno => by rw [hover] at hno; cases hno }
        watch := { h.watch with reports := hreports } }
  | false =>
      rw [hover] at hstop
      obtain ⟨tx, htx⟩ := Option.isSome_iff_exists.mp (by simpa using hstop)
      have hout : Caretaker.handleWait req { s with mailbox := rest } =
          { s with mailbox := rest, waits := s.waits ++ [⟨req, .receiving false⟩] } := by
        simp only [Caretaker.handleWait, htx]
      rw [hout]
      exact {
        token := { h.token with dead := hdead, msgs := hrun }
        status := by cases st <;> exact h.status
        procs := { h.procs with }
        doors := { h.doors with
          waiting := fun _ fut hfut => by
            rcases List.mem_append.mp hfut with hfut | hfut
            · exact h.doors.waiting hover fut hfut
            · rw [List.mem_singleton.mp hfut]
          woken := fun hyes => by rw [hover] at hyes; cases hyes
          -- the `Wait` of a `Terminate` moves from the mailbox to the futures
          asked := fun _ fut hfut => by
            rcases h.doors.asked hover fut hfut with hmem | ⟨wait, hwait, hreq⟩
            · rw [hm] at hmem
              rcases List.mem_cons.mp hmem with heq | hmem
              · cases heq
                exact Or.inr ⟨_, List.mem_append_right _ (List.mem_singleton.mpr rfl), rfl⟩
              · exact Or.inl hmem
            · exact Or.inr ⟨wait, List.mem_append_left _ hwait, hreq⟩ }
        watch := { h.watch with reports := hreports } }

/-- The signal of a `Terminate` finds its receiver: it is consumed by the signal only. -/
theorem Shape.holds_of_stopTx (h : Shape S s st) (htx : s.stopTx.isSome = true) :
    s.stopReceivers = [stopReceiver] := by
  rw [h.token.receivers]
  have hdoor := h.doors.stopTx
  rw [htx] at hdoor
  have hnot : ∀ res, st.res = some res → res.stopRx = some stopReceiver := by
    intro res hres
    cases hrx : res.stopRx with
    | none =>
        rw [h.token.heard res hres hrx] at htx
        cases htx
    | some rx => rw [h.token.rx res rx hres hrx]
  cases st with
  | stopping req child res => simp only [Stage.holds, hnot res rfl, Option.toList_some]
  | replied req res => simp only [Stage.holds, hnot res rfl, Option.toList_some]
  | ended res => simp [Stage.over] at hdoor
  | dropped => simp [Stage.over] at hdoor
  | _ => rfl

/-- The stop signal is sent, and the `Terminate` waits for a `Wait` of the mailbox. -/
theorem Shape.told_to_stop (h : Shape S s st) {req : Nat} (hmem : .wait req ∈ s.mailbox) :
    Shape S { s with stopTx := none, terminates := s.terminates ++ [⟨req, false⟩] } st where
  token := { h.token with heard := fun _ _ _ => rfl }
  status := by cases st <;> exact h.status
  procs := { h.procs with }
  doors := { h.doors with
    stopTx := by simp
    asked := fun hover fut hfut => by
      rcases List.mem_append.mp hfut with hfut | hfut
      · exact h.doors.asked hover fut hfut
      · rw [List.mem_singleton.mp hfut]
        exact Or.inl hmem }
  watch := { h.watch with }

/-- `Handler<Terminate>`. -/
theorem Shape.handled_terminate (h : Shape S s st) (hlive : s.crashed = none) {rest : List Msg}
    (hm : s.mailbox = .terminate :: rest) :
    Caretaker.handleTerminate { s with mailbox := rest } =
      .ok (Caretaker.sendWait { s with mailbox := rest, stopTx := none }) ∧
    Shape S (Caretaker.sendWait { s with mailbox := rest, stopTx := none }) st := by
  constructor
  · cases htx : s.stopTx with
    | none => simp only [Caretaker.handleTerminate]
    | some tx =>
        have hholds := (h.dequeue hm rfl (by simp)).holds_of_stopTx (by
          show s.stopTx.isSome = true
          rw [htx]
          rfl)
        simp only [Caretaker.handleTerminate]
        rw [if_neg]
        change Caretaker.stopReceivers { s with mailbox := rest, stopTx := none } = _ at hholds
        rw [hholds]
        simp
  · have hbox := (h.dequeue hm rfl (by simp)).enqueue hlive (m := .wait s.nextReq) rfl
      (fun _ => rfl) (s.nextReq + 1)
    exact hbox.told_to_stop (List.mem_append_right _ (List.mem_singleton.mpr rfl))

/-- A status that a report may change is that of a child, or of a failed spawn. -/
theorem Shape.live_stage (h : Shape S s st) (hrun : s.lastRun.isSome)
    (hlive : s.status.live = true) :
    (∃ req child, st = .up req child) ∨ (∃ req, st = .spawnFailed req) ∨ st = .dropped := by
  obtain ⟨run, hrun⟩ := Option.isSome_iff_exists.mp hrun
  have hstatus := h.status
  cases st with
  | up req child => exact Or.inl ⟨req, child, rfl⟩
  | spawnFailed req => exact Or.inr (Or.inl ⟨req, rfl⟩)
  | dropped => exact Or.inr (Or.inr rfl)
  | boot => rw [hstatus.1] at hrun; cases hrun
  | idle => rw [show s.status = restStatus s.lastRun from hstatus, hrun] at hlive; cases hlive
  | queued req => rw [show s.status = restStatus s.lastRun from hstatus, hrun] at hlive; cases hlive
  | stopping req child res => rw [hstatus.2] at hlive; cases hlive
  | replied req res => rw [hstatus.2] at hlive; cases hlive
  | ended res => rw [hstatus.2] at hlive; cases res <;> cases hlive

theorem Caretaker.report_applied (health : HealthState) (hlive : s.status.live = true) :
    s.handleSetHealthState health = { s with status := .running health } := by
  unfold Caretaker.handleSetHealthState
  cases hs : s.status <;> simp [hs, Lifecycle.live] at hlive ⊢

theorem Caretaker.report_ignored (health : HealthState) (hlive : s.status.live = false) :
    s.handleSetHealthState health = s := by
  unfold Caretaker.handleSetHealthState
  cases hs : s.status <;> simp [hs, Lifecycle.live] at hlive ⊢

/-- `Handler<SetHealthState>`. -/
theorem Shape.handled_report (h : Shape S s st) {sender : Nat} {health : HealthState}
    {rest : List Msg} (hm : s.mailbox = .setHealthState sender health :: rest)
    (spawn : Except String Unit) :
    Shape S (Caretaker.handleSetHealthState health { s with mailbox := rest }) st ∧
      Next S s (Caretaker.handleSetHealthState health { s with mailbox := rest })
        (.handle spawn) st st := by
  have hdeq := h.dequeue hm rfl (by simp)
  have hquiet : Next S s { s with mailbox := rest } (.handle spawn) st st :=
    .quiet st rfl fun _ _ he => by cases he
  cases hlive : s.status.live with
  | false =>
      have hout : Caretaker.handleSetHealthState health { s with mailbox := rest } =
          { s with mailbox := rest } := Caretaker.report_ignored health hlive
      rw [hout]
      exact ⟨hdeq, hquiet⟩
  | true =>
      have hout : Caretaker.handleSetHealthState health { s with mailbox := rest } =
          { s with mailbox := rest, status := .running health } :=
        Caretaker.report_applied health hlive
      rw [hout]
      have happlied : s.applied (.handle spawn) = some (sender, health) := by
        simp only [Caretaker.applied, hm, hlive, ↓reduceIte]
        rfl
      refine ⟨?_, .report st health hlive rfl ⟨sender, happlied⟩⟩
      have hrun : s.lastRun.isSome := by
        cases hl : s.lastRun with
        | some _ => rfl
        | none =>
            have hno := h.watch.reports hl (.setHealthState sender health) (by rw [hm]; simp)
            cases hno
      have hstatus : StatusAt { s with mailbox := rest, status := .running health } st := by
        rcases h.live_stage hrun hlive with ⟨req, child, rfl⟩ | ⟨req, rfl⟩ | rfl
        · exact ⟨h.status.1, rfl⟩
        · exact ⟨h.status.1, rfl⟩
        · trivial
      exact {
        token := { hdeq.token with }
        status := hstatus
        procs := { h.procs with }
        doors := { hdeq.doors with }
        watch := { hdeq.watch with } }

/-- **The oldest message is handled.** -/
theorem Shape.handled (h : Shape S s st) {m : Msg} {rest : List Msg} (hm : s.mailbox = m :: rest)
    (spawn : Except String Unit) :
    ∃ s' st', Caretaker.settle (Caretaker.handle S spawn { s with mailbox := rest } m) = s' ∧
      Shape S s' st' ∧ Next S s s' (.handle spawn) st st' := by
  have hlive := h.alive hm
  cases m with
  | run stopRx req => exact h.handled_run hm spawn
  | wait req =>
      refine ⟨_, st, rfl, h.handled_wait hlive hm, .quiet st ?_ fun _ _ he => by cases he⟩
      show (Caretaker.handleWait req _).status = s.status
      unfold Caretaker.handleWait
      split <;> rfl
  | terminate =>
      obtain ⟨hout, hshape⟩ := h.handled_terminate hlive hm
      refine ⟨_, st, rfl, ?_, ?_⟩
      · simp only [Caretaker.handle, hout, Caretaker.settle]
        exact hshape
      · simp only [Caretaker.handle, hout, Caretaker.settle]
        exact .quiet st rfl fun _ _ he => by cases he
  | setHealthState sender health => exact ⟨_, st, rfl, h.handled_report hm spawn⟩
  | getStatus =>
      have hdeq := h.dequeue hm rfl (by simp)
      refine ⟨_, st, rfl, ?_, .quiet st rfl fun _ _ he => by cases he⟩
      exact {
        token := { hdeq.token with }
        status := by cases st <;> exact h.status
        procs := { h.procs with }
        doors := { hdeq.doors with }
        watch := { hdeq.watch with } }

end Blahaj
