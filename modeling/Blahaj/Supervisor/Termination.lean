/-
  File:      Blahaj/Supervisor/Termination.lean
  Subject:   A `Terminate` IS HONOURED: what a fair execution of a caretaker comes to.

  The other modules say what a caretaker never does. Here is what it does in the end, in every
  execution that is fair: the executor polls what can go on, a sleep and a grace period elapse, a
  process that was killed exits. Each stage leads to the next one:

  * `stopping_leads`, `replied_leads` -- `ensure_stop` ends, the daemon takes its result;
  * `up_leads`, `queued_leads`, `idle_leads` -- with the stop signal sent, the next poll of the
    `WaitAbortFut` sees it, and its `Run` is the last one;
  * `asked_ends`, `sent_ends` -- so the daemon ends, where the next `Run` is the last one;
  * `terminate_ends` -- the same for a whole execution in which the spawns fail finitely often.
-/
import Blahaj.Lib.Fair
import Blahaj.Supervisor.Answers
import Blahaj.Supervisor.Signals

namespace Blahaj

variable {S : Setting} {s s' s₀ : Caretaker} {st : Stage}

/-! ## 1. Fairness -/

/-- The daemon sleeps until the next round. -/
def Caretaker.sleeping (s : Caretaker) : Bool :=
  match s.daemon with
  | .running fut => match fut.fut with
    | .waiting _ => true
    | _ => false
  | _ => false

/-- A `Run` is in `ensure_stop`. -/
def Caretaker.inGrace (s : Caretaker) (i : Nat) : Bool :=
  match s.runs[i]? with
  | some item => match item.fut with
    | .ensureStop _ _ _ => true
    | _ => false
  | none => false

/-- The process was sent a SIGKILL, and the operating system did not refuse it. -/
def Caretaker.killed (s : Caretaker) (pid : Nat) : Prop :=
  (pid, .sigkill) ∈ s.signals ∧ pid ∉ s.refused

/-- **What the executor, the clock and the operating system owe a caretaker.** -/
structure Fair (x : Lts.Execution (Caretaker.step S) s₀) : Prop where
  /-- the notification of `started` is handled -/
  started : x.WeaklyFair fun _ e => e = .startDaemon
  /-- the oldest message is handled -/
  mailbox : x.WeaklyFair fun _ e => ∃ spawn, e = .handle spawn
  /-- the daemon is polled, and if it sleeps once its sleep has elapsed -/
  daemon : x.WeaklyFair fun s e =>
    ∃ clock, e = .pollDaemon clock ∧ (s.sleeping = true → clock.elapsed = true)
  /-- a `Run` is polled, and if it is in `ensure_stop` once the grace period is over -/
  runs : ∀ i, x.WeaklyFair fun s e =>
    ∃ grace, e = .pollRun i grace ∧ (s.inGrace i = true → grace ≠ .underWay)
  /-- a process that was killed exits -/
  killed : ∀ pid, x.WeaklyFair fun s e => s.killed pid ∧ ∃ status, e = .exit pid status
  waits : ∀ i, x.WeaklyFair fun _ e => e = .pollWait i
  terminates : ∀ i, x.WeaklyFair fun _ e => e = .pollTerminate i

/-- The kinds of steps that a caretaker is owed, one for each field of `Fair`. -/
inductive Owed : (Caretaker → Event → Prop) → Prop where
  | started : Owed fun _ e => e = .startDaemon
  | mailbox : Owed fun _ e => ∃ spawn, e = .handle spawn
  | daemon : Owed fun s e =>
      ∃ clock, e = .pollDaemon clock ∧ (s.sleeping = true → clock.elapsed = true)
  | run (i : Nat) : Owed fun s e =>
      ∃ grace, e = .pollRun i grace ∧ (s.inGrace i = true → grace ≠ .underWay)
  | killed (pid : Nat) : Owed fun s e => s.killed pid ∧ ∃ status, e = .exit pid status
  | wait (i : Nat) : Owed fun _ e => e = .pollWait i
  | terminate (i : Nat) : Owed fun _ e => e = .pollTerminate i

theorem fair_of_owed {x : Lts.Execution (Caretaker.step S) s₀}
    (h : ∀ A, Owed A → x.WeaklyFair A) : Fair x where
  started := h _ .started
  mailbox := h _ .mailbox
  daemon := h _ .daemon
  runs := fun i => h _ (.run i)
  killed := fun pid => h _ (.killed pid)
  waits := fun i => h _ (.wait i)
  terminates := fun i => h _ (.terminate i)

theorem Fair.drop {x : Lts.Execution (Caretaker.step S) s₀} (h : Fair x) (k : Nat) :
    Fair (x.drop k) where
  started := h.started.drop k
  mailbox := h.mailbox.drop k
  daemon := h.daemon.drop k
  runs := fun i => (h.runs i).drop k
  killed := fun pid => (h.killed pid).drop k
  waits := fun i => (h.waits i).drop k
  terminates := fun i => (h.terminates i).drop k

/-- The step handles a `Run`, and no child can be spawned. -/
def FailsToSpawn (s : Caretaker) (e : Event) : Prop :=
  BuildsChild s e ∧ ∃ source, e = .handle (.error source)

/-- What holds at every instant of an execution. -/
structure Regular (S : Setting) (s : Caretaker) : Prop where
  shape : ∃ st, Shape S s st
  signalled : Signalled s

theorem regular_init (S : Setting) : Regular S .init := ⟨⟨.boot, shape_init S⟩, signalled_init⟩

theorem regular_step (h : Regular S s) {e : Event} (hs : s.step S e = some s') :
    Regular S s' := by
  obtain ⟨⟨st, hshape⟩, hsig⟩ := h
  exact ⟨shaped_step ⟨st, hshape⟩ hs, signalled_step hshape hsig hs⟩

theorem regular_reach (hr : Lts.Reach (Caretaker.step S) .init s) : Regular S s :=
  hr.invariant (regular_init S) fun _ _ _ h hs => regular_step h hs

/-- A caretaker that has panicked is over. -/
theorem Regular.over_of_crashed (h : Regular S s) (hdead : s.crashed.isSome) : s.over := by
  obtain ⟨st, hshape⟩ := h.shape
  have hst : st = .dropped := by
    by_contra hne
    rw [crashed_of_not_dropped hshape hne] at hdead
    cases hdead
  subst hst
  exact hshape.over_of_stage rfl

/-! Which steps are possible. -/

theorem pollRun_enabled {item : RunItem} (hruns : s.runs = [item]) (grace : Grace) :
    ∃ s', s.step S (.pollRun 0 grace) = some s' :=
  ⟨_, by simp only [Caretaker.step, hruns, List.getElem?_cons_zero, Option.map_some]; rfl⟩

theorem pollDaemon_enabled {fut : RepeatedActFut Nat Receiver} (hd : s.daemon = .running fut)
    (clock : Clock) : ∃ s', s.step S (.pollDaemon clock) = some s' :=
  ⟨_, by simp only [Caretaker.step, hd]; rfl⟩

theorem handle_enabled (hm : s.mailbox ≠ []) (spawn : Except String Unit) :
    ∃ s', s.step S (.handle spawn) = some s' := by
  cases hbox : s.mailbox with
  | nil => exact absurd hbox hm
  | cons m rest => exact ⟨_, by simp only [Caretaker.step, hbox]; rfl⟩

section Leads

variable {x : Lts.Execution (Caretaker.step S) s₀} (hI : ∀ n, Regular S (x.state n)) (hx : Fair x)

/-! ## 2. `ensure_stop` ends -/

/-- The moves from `ensure_stop`. -/
theorem Next.from_stopping {e : Event} {req : Nat} {child : Child} {res : RunResult}
    {st' : Stage} (hn : Next S s s' e (.stopping req child res) st') :
    st' = .stopping req child res ∨ st' = .replied req res := by
  cases hn with
  | quiet _ _ _ => exact Or.inl rfl
  | report _ _ _ _ _ => exact Or.inl rfl
  | reaped _ _ _ => exact Or.inr rfl

/-- A process that does not run does not run again. -/
theorem gone_step (h : Shape S s st) {pid : Nat} (hlt : pid < s.procs.length)
    (hgone : s.procs[pid]? ≠ some .running) {e : Event} (hs : s.step S e = some s') :
    s'.procs[pid]? ≠ some .running := by
  by_cases he : ∃ i grace, e = .pollRun i grace
  · obtain ⟨i, grace, rfl⟩ := he
    have hset : ∀ pid', (s.procs.set pid' .reaped)[pid]? ≠ some .running := by
      intro pid' hrun
      rw [List.getElem?_set] at hrun
      split at hrun
      · split at hrun <;> cases hrun
      · exact hgone hrun
    have hstop : ∀ {s₁ : Caretaker} {req killing child res},
        StopPolled s₁ 0 req killing child res grace s' → s₁.procs = s.procs →
        s'.procs[pid]? ≠ some .running := by
      intro s₁ req killing child res hp hprocs
      cases hp with
      | reaped _ =>
          show (s₁.procs.set child.pid .reaped)[pid]? ≠ _
          rw [hprocs]
          exact hset _
      | waits _ _ | kills _ _ _ | refused _ _ _ =>
          show s₁.procs[pid]? ≠ _
          rw [hprocs]
          exact hgone
    cases h.polls hs with
    | up hp =>
        cases hp with
        | stop _ hp => exact hstop hp rfl
        | unhealthy _ _ hp => exact hstop hp rfl
        | exited _ _ _ _ _ => exact hset _
        | pending _ _ => exact hgone
    | spawnFailed hs' =>
        subst hs'
        exact hgone
    | stopping _ hp => exact hstop hp rfl
  · have hapart := apart_step h hs fun i g heq => he ⟨i, g, heq⟩
    exact fun hrun => hgone (hapart.gone pid hlt hrun)

include hI hx in
/-- A child that is gone is reaped by the next poll. -/
theorem gone_leads (req : Nat) (child : Child) (res : RunResult) :
    x.LeadsTo
      (fun s => Shape S s (.stopping req child res) ∧ s.procs[child.pid]? ≠ some .running)
      fun s => Shape S s (.replied req res) := by
  refine Lts.Execution.LeadsTo.ensures (C := fun _ _ => True) hI (fun _ _ _ => trivial)
    (hx.runs 0) ?_ ?_
  · intro s e s' _ _ hP hs
    obtain ⟨hshape, hgone⟩ := hP
    obtain ⟨st', hshape', hn⟩ := shape_step hshape hs
    rcases hn.from_stopping with rfl | rfl
    · refine Or.inr ⟨⟨hshape', gone_step hshape (hshape.pid_lt rfl) hgone hs⟩, fun hA => ?_⟩
      obtain ⟨grace, rfl, -⟩ := hA
      -- the poll has reaped the child, and the future is done
      cases hshape.polls hs with
      | stopping hruns hp =>
          cases hp with
          | reaped _ =>
              obtain ⟨killing, hruns'⟩ := hshape'.token.runs
              simp [Caretaker.finishRun, hruns] at hruns'
          | waits hrun _ | kills hrun _ _ | refused hrun _ _ => exact hgone hrun
    · exact Or.inl hshape'
  · intro s _ hP
    obtain ⟨killing, hruns⟩ := hP.1.token.runs
    obtain ⟨s', hs⟩ := pollRun_enabled (S := S) hruns (.elapsed (.ok ()))
    exact ⟨_, s', ⟨_, rfl, fun _ => by simp⟩, hs⟩

/-- The SIGKILL to a child that is still owned was not refused. -/
theorem Shape.killed {req : Nat} {child : Child} {res : RunResult}
    (h : Shape S s (.stopping req child res)) (hkill : (child.pid, .sigkill) ∈ s.signals) :
    s.killed child.pid := ⟨hkill, fun hmem => (h.procs.given child.pid hmem).2 rfl⟩

include hI hx in
/-- A child that was sent a SIGKILL is gone in the end. -/
theorem killed_leads (req : Nat) (child : Child) (res : RunResult) :
    x.LeadsTo
      (fun s => Shape S s (.stopping req child res) ∧ (child.pid, .sigkill) ∈ s.signals)
      fun s => Shape S s (.replied req res) := by
  have hexits : x.LeadsTo (fun s => Shape S s (.stopping req child res) ∧
      (child.pid, .sigkill) ∈ s.signals ∧ s.procs[child.pid]? = some .running)
      fun s => Shape S s (.replied req res) ∨
        Shape S s (.stopping req child res) ∧ s.procs[child.pid]? ≠ some .running := by
    refine Lts.Execution.LeadsTo.ensures (C := fun _ _ => True) hI (fun _ _ _ => trivial)
      (hx.killed child.pid) ?_ ?_
    · intro s e s' _ _ hP hs
      obtain ⟨hshape, hkill, hrun⟩ := hP
      obtain ⟨st', hshape', hn⟩ := shape_step hshape hs
      rcases hn.from_stopping with rfl | rfl
      · by_cases hrun' : s'.procs[child.pid]? = some .running
        · obtain ⟨new, hnew, -⟩ := sends_step hshape hs
          refine Or.inr ⟨⟨hshape', by rw [hnew]; exact List.mem_append_left _ hkill, hrun'⟩, ?_⟩
          rintro ⟨-, status, rfl⟩
          simp only [Caretaker.step, hrun, Option.some.injEq] at hs
          subst hs
          rw [List.getElem?_set_self (hshape.pid_lt rfl)] at hrun'
          cases hrun'
        · exact Or.inl (Or.inr ⟨hshape', hrun'⟩)
      · exact Or.inl (Or.inl hshape')
    · intro s _ hP
      obtain ⟨hshape, hkill, hrun⟩ := hP
      refine ⟨.exit child.pid (.killed 9),
        { s with procs := s.procs.set child.pid (.exited (.killed 9)) },
        ⟨hshape.killed hkill, _, rfl⟩, ?_⟩
      simp only [Caretaker.step, hrun]
  intro n hP
  by_cases hrun : (x.state n).procs[child.pid]? = some .running
  · exact hexits.trans ((Lts.Execution.LeadsTo.of_imp fun _ => id).or
      (gone_leads hI hx req child res)) n ⟨hP.1, hP.2, hrun⟩
  · exact gone_leads hI hx req child res n ⟨hP.1, hrun⟩

include hI hx in
/-- **`ensure_stop` ends**: the child exits, or is killed after the grace period, or its kill is
    refused. -/
theorem stopping_leads (req : Nat) (child : Child) (res : RunResult) :
    x.LeadsTo (fun s => Shape S s (.stopping req child res))
      fun s => Shape S s (.replied req res) := by
  have hpolls : x.LeadsTo (fun s => Shape S s (.stopping req child res))
      fun s => Shape S s (.replied req res) ∨
        Shape S s (.stopping req child res) ∧ (child.pid, .sigkill) ∈ s.signals := by
    refine Lts.Execution.LeadsTo.ensures (C := fun _ _ => True) hI (fun _ _ _ => trivial)
      (hx.runs 0) ?_ ?_
    · intro s e s' hIs _ hshape hs
      obtain ⟨st', hshape', hn⟩ := shape_step hshape hs
      rcases hn.from_stopping with rfl | rfl
      · by_cases hkill : (child.pid, Signal.sigkill) ∈ s'.signals
        · exact Or.inl (Or.inr ⟨hshape', hkill⟩)
        · refine Or.inr ⟨hshape', fun hA => hkill ?_⟩
          obtain ⟨grace, rfl, hgrace⟩ := hA
          cases hshape.polls hs with
          | @stopping _ _ _ killing hruns hp =>
              have helapsed : grace ≠ .underWay := hgrace (by simp [Caretaker.inGrace, hruns])
              cases hp with
              | reaped _ | refused _ _ _ =>
                  obtain ⟨killing', hruns'⟩ := hshape'.token.runs
                  simp [Caretaker.finishRun, hruns] at hruns'
              | kills _ _ _ => exact List.mem_append_right _ (List.mem_singleton.mpr rfl)
              | waits _ hwaits =>
                  -- the kill was sent before
                  obtain rfl := hwaits.resolve_right helapsed
                  have hsent := hIs.signalled.runs _ (hruns ▸ List.mem_singleton.mpr rfl)
                    child rfl
                  show (child.pid, Signal.sigkill) ∈ s.signals
                  rw [← mem_sentTo, hsent]
                  simp [RunFut.sent]
      · exact Or.inl (Or.inl hshape')
    · intro s _ hshape
      obtain ⟨killing, hruns⟩ := hshape.token.runs
      obtain ⟨s', hs⟩ := pollRun_enabled (S := S) hruns (.elapsed (.ok ()))
      exact ⟨_, s', ⟨_, rfl, fun _ => by simp⟩, hs⟩
  exact hpolls.trans
    ((Lts.Execution.LeadsTo.of_imp fun _ => id).or (killed_leads hI hx req child res))

/-! ## 3. The result of a `Run` -/

/-- The moves of a result on its way. -/
theorem Next.from_replied {e : Event} {req : Nat} {res : RunResult} {st' : Stage}
    (h : Shape S s (.replied req res)) (hn : Next S s s' e (.replied req res) st') :
    (st' = .replied req res ∧ ∀ clock, e ≠ .pollDaemon clock) ∨
      (st' = .idle ∧ res.stopRx ≠ none) ∨ st'.over = true := by
  cases hn with
  | quiet _ _ he => exact Or.inl ⟨rfl, he (by simp [Stage.replies])⟩
  | report _ _ hlive _ _ =>
      rw [h.status.2] at hlive
      cases hlive
  | again _ _ hm _ =>
      obtain ⟨-, _, _, hst, hrx⟩ := hm.replied h
      cases hst
      exact Or.inr (Or.inl ⟨rfl, hrx⟩)
  | giveUp _ _ _ _ hst _ => rcases hst with rfl | rfl <;> exact Or.inr (Or.inr rfl)
  | finish _ _ _ _ hst _ => rcases hst with rfl | rfl <;> exact Or.inr (Or.inr rfl)
  | clock _ _ _ _ => exact Or.inr (Or.inr rfl)

include hI hx in
/-- **The daemon takes the result of its `Run`**, and goes on only with the stop receiver. -/
theorem replied_leads (req : Nat) (res : RunResult) :
    x.LeadsTo (fun s => Shape S s (.replied req res))
      fun s => s.over ∨ Shape S s .idle ∧ res.stopRx ≠ none := by
  refine Lts.Execution.LeadsTo.ensures (C := fun _ _ => True) hI (fun _ _ _ => trivial)
    hx.daemon ?_ ?_
  · intro s e s' _ _ hshape hs
    obtain ⟨st', hshape', hn⟩ := shape_step hshape hs
    rcases hn.from_replied hshape with ⟨rfl, he⟩ | ⟨rfl, hrx⟩ | hover
    · refine Or.inr ⟨hshape', fun hA => ?_⟩
      obtain ⟨clock, rfl, -⟩ := hA
      exact he clock rfl
    · exact Or.inl (Or.inr ⟨hshape', hrx⟩)
    · exact Or.inl (Or.inl (hshape'.over_of_stage hover))
  · intro s _ hshape
    obtain ⟨fut, hd, -⟩ := hshape.token.daemon
    obtain ⟨s', hs⟩ := pollDaemon_enabled (S := S) hd ⟨0, 0, true⟩
    exact ⟨_, s', ⟨⟨0, 0, true⟩, rfl, fun _ => rfl⟩, hs⟩

include hI hx in
/-- A failed spawn replies. -/
theorem spawnFailed_leads (req : Nat) :
    x.LeadsTo (fun s => Shape S s (.spawnFailed req))
      fun s => ∃ res, Shape S s (.replied req res) := by
  refine Lts.Execution.LeadsTo.ensures (C := fun _ _ => True) hI (fun _ _ _ => trivial)
    (hx.runs 0) ?_ ?_
  · intro s e s' _ _ hshape hs
    obtain ⟨st', hshape', hn⟩ := shape_step hshape hs
    have hA : st' = .spawnFailed req → ¬ ∃ grace, e = .pollRun 0 grace ∧
        (s.inGrace 0 = true → grace ≠ .underWay) := by
      rintro rfl ⟨grace, rfl, -⟩
      cases hshape.polls hs with
      | spawnFailed hs' =>
          have hreplies : s'.replies = [] := hshape'.token.replies
          rw [hs'] at hreplies
          simp [Caretaker.finishRun] at hreplies
    cases hn with
    | quiet _ _ _ => exact Or.inr ⟨hshape', hA rfl⟩
    | report _ _ _ _ _ => exact Or.inr ⟨hshape', hA rfl⟩
    | failed _ res => exact Or.inl ⟨res, hshape'⟩
  · intro s _ hshape
    obtain ⟨err, hruns⟩ := hshape.token.runs
    obtain ⟨s', hs⟩ := pollRun_enabled (S := S) hruns (.elapsed (.ok ()))
    exact ⟨_, s', ⟨_, rfl, fun _ => by simp⟩, hs⟩

/-! ## 4. The stop signal is seen -/

/-- A `Terminate` that was handled is never forgotten. -/
theorem asked_stays_step (h : Regular S s) (hasked : s.terminates ≠ []) {e : Event}
    (hs : s.step S e = some s') : s'.terminates ≠ [] := by
  obtain ⟨st, hshape⟩ := h.shape
  have hlen := (frame_step hshape hs).terminates
  rw [← List.length_pos_iff] at hasked ⊢
  omega

/-- With the stop signal sent, the child that is waited for is stopped by the next poll, and by
    no other step. -/
theorem Shape.up_step {req : Nat} {child : Child} (h : Shape S s (.up req child))
    (hasked : s.terminates ≠ []) {e : Event} (hs : s.step S e = some s') :
    (∃ i grace, e = .pollRun i grace) ∧
        (Shape S s' (.stopping req child .terminated) ∨ Shape S s' (.replied req .terminated)) ∨
      (∀ i grace, e ≠ .pollRun i grace) ∧ Shape S s' (.up req child) := by
  have htx : s.stopTx = none := by
    have hdoor := h.doors.stopTx
    cases hterm : s.terminates with
    | nil => exact absurd hterm hasked
    | cons _ _ => simpa [hterm] using hdoor
  have hruns : s.runs = [_] := h.token.runs
  obtain ⟨st', h', hn⟩ := shape_step h hs
  by_cases he : ∃ i grace, e = .pollRun i grace
  · refine Or.inl ⟨he, ?_⟩
    obtain ⟨i, grace, rfl⟩ := he
    cases h.polls hs with
    | up hp =>
        cases hp with
        | stop _ hp =>
            cases hp with
            | reaped _ | refused _ _ _ =>
                have hreplies := h'.token.replies
                rw [show Caretaker.replies _ = s.replies ++ [(req, .terminated)] from rfl,
                  show s.replies = [] from h.token.replies] at hreplies
                cases hn with
                | left _ _ res =>
                    cases hreplies
                    exact Or.inr h'
                | quiet _ _ _ => cases hreplies
                | report _ _ _ _ _ => cases hreplies
                | stop _ _ _ => cases hreplies
            | waits _ _ | kills _ _ _ =>
                have hruns' := h'.token.runs
                rw [show Caretaker.runs _ = s.runs.set 0 _ from rfl, hruns] at hruns'
                cases hn with
                | stop _ _ res =>
                    obtain ⟨killing, hr⟩ := hruns'
                    cases hr
                    exact Or.inl h'
                | quiet _ _ _ => cases hruns'
                | report _ _ _ _ _ => cases hruns'
                | left _ _ _ => cases hruns'
        | unhealthy hsome _ _ => rw [htx] at hsome; cases hsome
        | exited hsome _ _ _ => rw [htx] at hsome; cases hsome
        | pending hsome => rw [htx] at hsome; cases hsome
  · refine Or.inr ⟨fun i g heq => he ⟨i, g, heq⟩, ?_⟩
    have hapart := apart_step h hs fun i g heq => he ⟨i, g, heq⟩
    cases hn with
    | quiet _ _ _ => exact h'
    | report _ _ _ _ _ => exact h'
    | stop _ _ res =>
        obtain ⟨killing, hr⟩ := h'.token.runs
        rcases hapart.runs _ (hr ▸ List.mem_singleton.mpr rfl) with hold | ⟨hnew, -⟩ | ⟨hnew, -⟩
        · rw [hruns] at hold
          cases List.mem_singleton.mp hold
        · cases hnew
        · cases hnew
    | left _ _ res =>
        have hsub := hapart.replies
        rw [show s'.replies = [_] from h'.token.replies,
          show s.replies = [] from h.token.replies] at hsub
        cases hsub

include hI hx in
theorem up_leads (req : Nat) (child : Child) :
    x.LeadsTo (fun s => Shape S s (.up req child) ∧ s.terminates ≠ [])
      fun s => Shape S s (.stopping req child .terminated) ∨
        Shape S s (.replied req .terminated) := by
  refine Lts.Execution.LeadsTo.ensures (C := fun _ _ => True) hI (fun _ _ _ => trivial)
    (hx.runs 0) ?_ ?_
  · intro s e s' hIs _ hP hs
    obtain ⟨hshape, hasked⟩ := hP
    rcases hshape.up_step hasked hs with ⟨-, hQ⟩ | ⟨he, hshape'⟩
    · exact Or.inl hQ
    · refine Or.inr ⟨⟨hshape', asked_stays_step hIs hasked hs⟩, fun hA => ?_⟩
      obtain ⟨grace, heq, -⟩ := hA
      exact he 0 grace heq
  · intro s _ hP
    obtain ⟨s', hs⟩ := pollRun_enabled (S := S) (show s.runs = [_] from hP.1.token.runs) .underWay
    have hgrace : s.inGrace 0 = false := by
      simp [Caretaker.inGrace, show s.runs = [_] from hP.1.token.runs]
    exact ⟨_, s', ⟨_, rfl, fun hin => by simp [hgrace] at hin⟩, hs⟩

/-! ## 5. The mailbox -/

include hI hx in
/-- **A message in the mailbox is handled**, or the actor panics. `J` is what lasts until then. -/
theorem message_leads {C : Caretaker → Event → Prop} (hC : x.Meets C) (kind : Msg → Bool)
    {J Q : Caretaker → Prop}
    (hJ : ∀ s e s', Regular S s → J s → s.step S e = some s' → Q s' ∨ J s')
    (hhandled : ∀ s e s', Regular S s → C s e → J s → s.handles kind e = true →
      s.step S e = some s' → Q s')
    (hcrash : ∀ s, Regular S s → J s → s.crashed.isSome → Q s) :
    x.LeadsTo (fun s => J s ∧ s.mailbox.any kind = true) Q := by
  refine Lts.Execution.LeadsTo.queue Caretaker.mailbox kind hI hC hx.mailbox ?_ ?_
  · intro s e s' hIs hCs hJs hs
    obtain ⟨st, hshape⟩ := hIs.shape
    by_cases hkind : s.handles kind e = true
    · exact Or.inl (hhandled s e s' hIs hCs hJs hkind hs)
    rcases hJ s e s' hIs hJs hs with hQ | hJ'
    · exact Or.inl hQ
    rcases (frame_step hshape hs).mailbox with ⟨-, hdead⟩ | ⟨new, hbox, -⟩
    · exact Or.inl (hcrash s' (regular_step hIs hs) hJ' hdead)
    refine Or.inr ⟨hJ', ?_⟩
    by_cases he : ∃ spawn, e = .handle spawn
    · obtain ⟨spawn, rfl⟩ := he
      cases hm : s.mailbox with
      | nil => simp [Caretaker.step, hm] at hs
      | cons m rest =>
          have hno : kind m = false := by
            simpa [Caretaker.handles, hm] using hkind
          rw [show Event.rest (.handle spawn) s.mailbox = rest by rw [hm]; rfl] at hbox
          exact Or.inr ⟨m, rest, new, rfl, hno, hbox⟩
    · have hrest : e.rest s.mailbox = s.mailbox := by
        cases e with
        | handle spawn => exact absurd ⟨spawn, rfl⟩ he
        | _ => rfl
      rw [hrest] at hbox
      exact Or.inl ⟨⟨new, hbox⟩, he⟩
  · intro s _ _ hne
    obtain ⟨s', hs⟩ := handle_enabled (S := S) hne (.ok ())
    exact ⟨_, s', ⟨_, rfl⟩, hs⟩

/-- Where the `Run` is handled and the spawn succeeds, the child is waited for, or the health-check
    URI is illegal. -/
theorem Shape.spawns (h : Shape S s st) {e : Event} (hb : BuildsChild s e)
    (hspawn : ¬ FailsToSpawn s e) (hs : s.step S e = some s') :
    (∃ req child, Shape S s' (.up req child)) ∨ s'.over := by
  obtain ⟨req, rfl⟩ := builds_queued h hb
  obtain ⟨spawn, m, rest, rfl, hm, hrun⟩ := handles_iff.mp hb
  obtain ⟨st', h', hn⟩ := shape_step h hs
  cases spawn with
  | error source => exact absurd ⟨hb, source, rfl⟩ hspawn
  | ok _ =>
      cases hn with
      | spawned _ _ _ => exact Or.inl ⟨_, _, h'⟩
      | illegal _ _ _ => exact Or.inr (h'.over_of_stage rfl)
      | _ =>
          -- the other moves leave no `WaitAbortFut`
          have hruns : s'.runs = [] ∨ ∃ e req, s'.runs = [⟨.failure stopReceiver e, req⟩] := by
            first
              | exact Or.inl h'.token.runs
              | exact h'.token.runs.elim fun e hr => Or.inr ⟨e, _, hr⟩
          cases m with
          | run stopRx req' =>
              simp only [Caretaker.step, hm, Option.some.injEq, Caretaker.handle,
                Caretaker.handleRun, buildChild] at hs
              split at hs
              · subst hs
                exact Or.inr (Or.inr rfl)
              · subst hs
                rcases hruns with hr | ⟨_, _, hr⟩ <;>
                  simp [Caretaker.settle, show s.runs = [] from h.token.runs] at hr
          | _ => cases hrun

theorem Shape.any_run {req : Nat} (h : Shape S s (.queued req)) :
    s.mailbox.any (fun m => m.asRun.isSome) = true := by
  have hmem : (stopReceiver, req) ∈ s.mailbox.filterMap Msg.asRun := by
    rw [h.token.msgs]
    exact List.mem_singleton.mpr rfl
  obtain ⟨m, hm, hrun⟩ := List.mem_filterMap.mp hmem
  exact List.any_eq_true.mpr ⟨m, hm, by rw [hrun]; rfl⟩

include hI hx in
theorem queued_leads (hspawn : x.Meets fun s e => ¬ FailsToSpawn s e) (req : Nat) :
    x.LeadsTo (fun s => Shape S s (.queued req) ∧ s.terminates ≠ [])
      fun s => (∃ req child, Shape S s (.up req child) ∧ s.terminates ≠ []) ∨ s.over := by
  have hmessage := message_leads hI hx hspawn (fun m => m.asRun.isSome)
    (J := fun s => s.terminates ≠ [])
    (Q := fun s => (∃ req child, Shape S s (.up req child) ∧ s.terminates ≠ []) ∨ s.over)
    (fun s e s' hIs hJ hs => Or.inr (asked_stays_step hIs hJ hs))
    (fun s e s' hIs hCs hJ hb hs => by
      obtain ⟨st, hshape⟩ := hIs.shape
      rcases hshape.spawns hb hCs hs with ⟨req, child, hup⟩ | hover
      · exact Or.inl ⟨req, child, hup, asked_stays_step hIs hJ hs⟩
      · exact Or.inr hover)
    (fun s hIs _ hdead => Or.inr (hIs.over_of_crashed hdead))
  intro n hP
  exact hmessage n ⟨hP.2, hP.1.any_run⟩

/-! ## 6. Between two rounds -/

/-- The moves from between two rounds. -/
theorem Next.from_idle {e : Event} {st' : Stage} (hn : Next S s s' e .idle st') :
    st' = .idle ∨ ∃ req, st' = .queued req := by
  cases hn with
  | quiet _ _ _ => exact Or.inl rfl
  | report _ _ _ _ _ => exact Or.inl rfl
  | send req _ => exact Or.inr ⟨req, rfl⟩

/-- Between two rounds only a poll of the daemon changes its future. -/
theorem Shape.idle_daemon (h : Shape S s .idle) {e : Event} (hs : s.step S e = some s')
    (he : ∀ clock, e ≠ .pollDaemon clock) : s'.daemon = s.daemon := by
  obtain ⟨fut, hd, -, -⟩ := h.token.daemon
  have hruns : s.runs = [] := h.token.runs
  cases Caretaker.stepped hs with
  | arrive _ hs =>
      obtain ⟨⟨n, rfl⟩, -⟩ := Caretaker.arrived hs
      rfl
  | @handle m rest hm spawn =>
      cases m with
      | run stopRx req => cases (h.run_head hm).1
      | wait req =>
          show (Caretaker.handleWait req { s with mailbox := rest }).daemon = _
          unfold Caretaker.handleWait
          split <;> rfl
      | terminate =>
          simp only [Caretaker.handle, (h.handled_terminate (h.alive hm) hm).1, Caretaker.settle,
            Caretaker.sendWait]
      | setHealthState sender health =>
          show (Caretaker.handleSetHealthState health { s with mailbox := rest }).daemon = _
          unfold Caretaker.handleSetHealthState
          split <;> rfl
      | getStatus => rfl
  | startDaemon hd' => cases hd.symm.trans hd'
  | pollDaemon _ clock => exact absurd rfl (he clock)
  | pollRun hitem _ =>
      rw [hruns] at hitem
      cases hitem
  | _ => rfl

/-- A poll of the daemon between two rounds: the sleep goes on or is over, or the next `Run` is
    sent. -/
theorem Shape.idle_poll (h : Shape S s .idle) {clock : Clock}
    (hs : s.step S (.pollDaemon clock) = some s') :
    if s.sleeping then clock.elapsed = true → s'.sleeping = false ∧ Shape S s' .idle
    else ∃ req, Shape S s' (.queued req) := by
  obtain ⟨fut, hd, hround, hstate⟩ := h.token.daemon
  obtain ⟨st', h', hn⟩ := shape_step h hs
  simp only [Caretaker.step, hd, Option.some.injEq] at hs
  unfold Caretaker.pollDaemon at hs
  rw [hround] at hs
  cases hslot : fut.fut with
  | polling req => simp [hslot, roundOf] at hround
  | waiting sleep =>
      have hsleep : s.sleeping = true := by simp only [Caretaker.sleeping, hd, hslot]
      rw [if_pos hsleep]
      intro helapsed
      simp only [Option.any_none, Bool.false_eq_true, ↓reduceIte, RepeatedActFut.poll, hslot,
        helapsed, Caretaker.settle] at hs
      subst hs
      refine ⟨rfl, h.with_daemon ⟨_, rfl, rfl, hstate⟩⟩
  | empty =>
      have hsleep : ¬ s.sleeping = true := by simp [Caretaker.sleeping, hd, hslot]
      rw [if_neg hsleep]
      rcases hn.from_idle with rfl | hqueued
      · simp only [Option.any_none, Bool.false_eq_true, ↓reduceIte, RepeatedActFut.poll, hslot,
          hstate, Caretaker.settle] at hs
        obtain ⟨fut', hd', hround', -⟩ := h'.token.daemon
        rw [← hs] at hd'
        cases hd'
        cases hround'
      · obtain ⟨req, rfl⟩ := hqueued
        exact ⟨req, h'⟩

include hI hx in
/-- The sleep elapses. -/
theorem sleeping_leads :
    x.LeadsTo (fun s => Shape S s .idle) fun s =>
      (Shape S s .idle ∧ s.sleeping = false) ∨ ∃ req, Shape S s (.queued req) := by
  refine Lts.Execution.LeadsTo.ensures (C := fun _ _ => True) hI (fun _ _ _ => trivial)
    hx.daemon ?_ ?_
  · intro s e s' _ _ hshape hs
    obtain ⟨st', hshape', hn⟩ := shape_step hshape hs
    rcases hn.from_idle with rfl | ⟨req, rfl⟩
    · by_cases hsleep' : s'.sleeping = false
      · exact Or.inl (Or.inl ⟨hshape', hsleep'⟩)
      · refine Or.inr ⟨hshape', fun hA => hsleep' ?_⟩
        obtain ⟨clock, rfl, helapsed⟩ := hA
        have hpoll := hshape.idle_poll hs
        cases hsleep : s.sleeping with
        | true =>
            rw [hsleep] at hpoll
            exact (hpoll (helapsed hsleep)).1
        | false =>
            rw [hsleep] at hpoll
            obtain ⟨req, hqueued⟩ := hpoll
            obtain ⟨fut, hd, hslot, -⟩ := hqueued.token.daemon
            simp [Caretaker.sleeping, hd, hslot]
    · exact Or.inl (Or.inr ⟨req, hshape'⟩)
  · intro s _ hshape
    obtain ⟨fut, hd, -⟩ := hshape.token.daemon
    obtain ⟨s', hs⟩ := pollDaemon_enabled (S := S) hd ⟨0, 0, true⟩
    exact ⟨_, s', ⟨⟨0, 0, true⟩, rfl, fun _ => rfl⟩, hs⟩

include hI hx in
/-- **The next `Run` is sent.** -/
theorem idle_leads :
    x.LeadsTo (fun s => Shape S s .idle) fun s => ∃ req, Shape S s (.queued req) := by
  have hawake : x.LeadsTo (fun s => Shape S s .idle ∧ s.sleeping = false)
      fun s => ∃ req, Shape S s (.queued req) := by
    refine Lts.Execution.LeadsTo.ensures (C := fun _ _ => True) hI (fun _ _ _ => trivial)
      hx.daemon ?_ ?_
    · intro s e s' _ _ hP hs
      obtain ⟨hshape, hsleep⟩ := hP
      by_cases he : ∃ clock, e = .pollDaemon clock
      · obtain ⟨clock, rfl⟩ := he
        have hpoll := hshape.idle_poll hs
        rw [hsleep] at hpoll
        exact Or.inl hpoll
      · obtain ⟨st', hshape', hn⟩ := shape_step hshape hs
        rcases hn.from_idle with rfl | ⟨req, rfl⟩
        · refine Or.inr ⟨⟨hshape', ?_⟩, fun hA => ?_⟩
          · have hd := hshape.idle_daemon hs fun clock heq => he ⟨clock, heq⟩
            rw [← hsleep]
            simp only [Caretaker.sleeping, hd]
          · obtain ⟨clock, heq, -⟩ := hA
            exact he ⟨clock, heq⟩
        · exact Or.inl ⟨req, hshape'⟩
    · intro s _ hP
      obtain ⟨fut, hd, -⟩ := hP.1.token.daemon
      obtain ⟨s', hs⟩ := pollDaemon_enabled (S := S) hd ⟨0, 0, true⟩
      exact ⟨_, s', ⟨⟨0, 0, true⟩, rfl, fun _ => rfl⟩, hs⟩
  exact (sleeping_leads hI hx).trans (hawake.or (.of_imp fun _ => id))

include hI hx in
theorem boot_leads : x.LeadsTo (fun s => Shape S s .boot) fun s => Shape S s .idle := by
  refine Lts.Execution.LeadsTo.ensures (C := fun _ _ => True) hI (fun _ _ _ => trivial)
    hx.started ?_ ?_
  · intro s e s' _ _ hshape hs
    by_cases he : e = .startDaemon
    · subst he
      cases Caretaker.stepped hs with
      | startDaemon hd => exact Or.inl (hshape.daemon_started hd).2
    · obtain ⟨st', hshape', hn⟩ := shape_step hshape hs
      cases hn with
      | quiet _ _ _ => exact Or.inr ⟨hshape', he⟩
      | report _ _ _ _ _ => exact Or.inr ⟨hshape', he⟩
      | start _ => exact Or.inl hshape'
  · intro s _ hshape
    have hd : s.daemon = .notified stopReceiver := hshape.token.daemon
    refine ⟨.startDaemon, s.handleDaemon S stopReceiver, rfl, ?_⟩
    simp only [Caretaker.step, hd]

/-! ## 7. A `Terminate` ends the daemon -/

include hI hx in
/-- With the stop signal in its result, a `Run` is the last one. -/
theorem stopped_leads (req : Nat) (child : Child) :
    x.LeadsTo (fun s => Shape S s (.stopping req child .terminated) ∨
      Shape S s (.replied req .terminated)) Caretaker.over := by
  have hlast : x.LeadsTo (fun s => Shape S s (.replied req .terminated)) Caretaker.over := by
    intro n hP
    obtain ⟨m, hnm, hover | ⟨-, hrx⟩⟩ := replied_leads hI hx req .terminated n hP
    · exact ⟨m, hnm, hover⟩
    · exact absurd rfl hrx
  exact ((stopping_leads hI hx req child .terminated).trans hlast).or hlast

include hI hx in
/-- With the stop signal sent, the child that is waited for is the last one. -/
theorem asked_up_ends (req : Nat) (child : Child) :
    x.LeadsTo (fun s => Shape S s (.up req child) ∧ s.terminates ≠ []) Caretaker.over :=
  (up_leads hI hx req child).trans (stopped_leads hI hx req child)

include hI hx in
/-- **With the stop signal sent the daemon ends**, from whatever stage, if it does from where a
    `Run` is in the mailbox. -/
theorem asked_ends (hqueued : ∀ req,
    x.LeadsTo (fun s => Shape S s (.queued req) ∧ s.terminates ≠ []) Caretaker.over) :
    x.LeadsTo (fun s => s.terminates ≠ []) Caretaker.over := by
  -- a `Terminate` that was handled is still there where a stage leads
  have hkeep : ∀ {P Q : Caretaker → Prop}, x.LeadsTo P Q →
      x.LeadsTo (fun s => P s ∧ s.terminates ≠ []) fun s => Q s ∧ s.terminates ≠ [] :=
    fun h => h.and_stable hI fun _ _ _ hIs hasked hs => asked_stays_step hIs hasked hs
  have hidle : x.LeadsTo (fun s => Shape S s .idle ∧ s.terminates ≠ []) Caretaker.over := by
    refine (hkeep (idle_leads hI hx)).trans ?_
    rintro n ⟨⟨req, hshape⟩, hasked⟩
    exact hqueued req n ⟨hshape, hasked⟩
  have hreplied : ∀ req res, x.LeadsTo
      (fun s => Shape S s (.replied req res) ∧ s.terminates ≠ []) Caretaker.over := by
    intro req res
    refine (hkeep (replied_leads hI hx req res)).trans ?_
    rintro n ⟨hover | ⟨hshape, -⟩, hasked⟩
    · exact ⟨n, Nat.le_refl n, hover⟩
    · exact hidle n ⟨hshape, hasked⟩
  intro n hasked
  obtain ⟨st, hshape⟩ := (hI n).shape
  cases st with
  | boot => exact (hkeep (boot_leads hI hx)).trans hidle n ⟨hshape, hasked⟩
  | idle => exact hidle n ⟨hshape, hasked⟩
  | queued req => exact hqueued req n ⟨hshape, hasked⟩
  | up req child => exact asked_up_ends hI hx req child n ⟨hshape, hasked⟩
  | spawnFailed req =>
      obtain ⟨m, hnm, ⟨res, hshape'⟩, hasked'⟩ :=
        hkeep (spawnFailed_leads hI hx req) n ⟨hshape, hasked⟩
      obtain ⟨k, hmk, hover⟩ := hreplied req res m ⟨hshape', hasked'⟩
      exact ⟨k, Nat.le_trans hnm hmk, hover⟩
  | stopping req child res =>
      exact (hkeep (stopping_leads hI hx req child res)).trans (hreplied req res) n
        ⟨hshape, hasked⟩
  | replied req res => exact hreplied req res n ⟨hshape, hasked⟩
  | ended res => exact ⟨n, Nat.le_refl n, hshape.over_of_stage rfl⟩
  | dropped => exact ⟨n, Nat.le_refl n, hshape.over_of_stage rfl⟩

include hI hx in
/-- **A `Terminate` in the mailbox ends the daemon**, if one that was handled does. -/
theorem sent_ends (hends : x.LeadsTo (fun s => s.terminates ≠ []) Caretaker.over) :
    x.LeadsTo (fun s => .terminate ∈ s.mailbox ∨ s.terminates ≠ []) Caretaker.over := by
  have hhandled : x.LeadsTo (fun s => True ∧ s.mailbox.any (· == .terminate) = true)
      fun s => s.terminates ≠ [] ∨ s.over := by
    refine message_leads hI hx (C := fun _ _ => True) (fun _ _ _ => trivial) (· == .terminate)
      (fun _ _ _ _ _ _ => Or.inr trivial) (fun s e s' hIs _ _ hasks hs => Or.inl ?_)
      fun s hIs _ hdead => Or.inr (hIs.over_of_crashed hdead)
    obtain ⟨st, hshape⟩ := hIs.shape
    have hlen := (frame_step hshape hs).terminates
    rw [if_pos hasks] at hlen
    rw [← List.length_pos_iff]
    omega
  refine .or (fun n hmem => ?_) hends
  refine hhandled.trans (hends.or (.of_imp fun _ => id)) n ⟨trivial, ?_⟩
  exact List.any_eq_true.mpr ⟨.terminate, hmem, by simp⟩

include hI hx in
/-- Where no spawn fails, the `Run` in the mailbox is the last one. -/
theorem spawns_ends (hspawn : x.Meets fun s e => ¬ FailsToSpawn s e) (req : Nat) :
    x.LeadsTo (fun s => Shape S s (.queued req) ∧ s.terminates ≠ []) Caretaker.over := by
  refine (queued_leads hI hx hspawn req).trans (.or ?_ (.of_imp fun _ => id))
  exact .exists fun req => .exists fun child => asked_up_ends hI hx req child

end Leads

/-! ## 8. Whole executions -/

/-- A `Terminate` was sent to the caretaker, or handled by it. -/
def Caretaker.asked (s : Caretaker) : Prop := .terminate ∈ s.mailbox ∨ s.terminates ≠ []

/-- A `Terminate` is handled, or lost with its actor. -/
theorem asked_or_over_step (h : Regular S s) (hasked : s.asked ∨ s.over) {e : Event}
    (hs : s.step S e = some s') : s'.asked ∨ s'.over := by
  obtain ⟨st, hshape⟩ := h.shape
  rcases hasked with (hmem | hterm) | hover
  · have hframe := frame_step hshape hs
    by_cases hasks : AsksToStop s e
    · have hlen := hframe.terminates
      rw [if_pos hasks] at hlen
      refine Or.inl (Or.inr (List.length_pos_iff.mp ?_))
      omega
    · rcases hframe.mailbox with ⟨-, hdead⟩ | ⟨new, hbox, -⟩
      · exact Or.inr ((regular_step h hs).over_of_crashed hdead)
      · refine Or.inl (Or.inl ?_)
        rw [hbox]
        refine List.mem_append_left _ ?_
        cases e with
        | handle spawn =>
            cases hm : s.mailbox with
            | nil => simp [hm] at hmem
            | cons m rest =>
                rw [hm] at hmem
                rcases List.mem_cons.mp hmem with rfl | hmem
                · exact absurd (handles_iff.mpr ⟨spawn, _, rest, rfl, hm, by simp⟩) hasks
                · exact hmem
        | _ => exact hmem
  · exact Or.inl (Or.inr (asked_stays_step h hterm hs))
  · obtain ⟨st', h', hn⟩ := shape_step hshape hs
    have hst := hshape.stage_over hover
    refine Or.inr (h'.over_of_stage ?_)
    rw [over_stays hn hst]
    exact hst

/-- The spawns of an execution fail finitely often. -/
def SpawnsAtLast (x : Lts.Execution (Caretaker.step S) s₀) : Prop :=
  ∃ k, ∀ n e, k ≤ n → x.label n = some e → ¬ FailsToSpawn (x.state n) e

/-- The spawns that still fail come first. -/
theorem asked_leads {x : Lts.Execution (Caretaker.step S) .init} (hx : Fair x)
    (hspawn : SpawnsAtLast x) : x.LeadsTo (fun s => s.asked ∨ s.over) Caretaker.over := by
  have hI : ∀ n, Regular S (x.state n) := fun n => regular_reach (x.reach n)
  obtain ⟨k, hk⟩ := hspawn
  have hIk : ∀ n, Regular S ((x.drop k).state n) := fun n => hI (k + n)
  have hqueued := spawns_ends hIk (hx.drop k) fun n e hl => hk (k + n) e (by omega) hl
  have hends := asked_ends hIk (hx.drop k) hqueued
  have hdrop : (x.drop k).LeadsTo (fun s => s.asked ∨ s.over) Caretaker.over :=
    (sent_ends hIk (hx.drop k) hends).or (.of_imp fun _ => id)
  exact hdrop.of_drop hI fun _ _ _ hIs hasked hs => asked_or_over_step hIs hasked hs

/-- **A `Terminate` ends the daemon**, in every fair execution in which the spawns fail finitely
    often: wherever one was sent or handled, the daemon ends then or later. -/
theorem terminate_ends {x : Lts.Execution (Caretaker.step S) .init} (hx : Fair x)
    (hspawn : SpawnsAtLast x) : x.LeadsTo Caretaker.asked Caretaker.over := by
  intro n hasked
  exact asked_leads hx hspawn n (Or.inl hasked)

/-! ## 9. A caretaker at rest -/

/-- Nothing is left to do for the executor, the clock or the operating system. -/
structure AtRest (s : Caretaker) : Prop where
  mailbox : s.mailbox = []
  daemon : ∃ res, s.daemon = .ended res
  runs : s.runs = []
  signals : ∀ pid, (pid, .sigkill) ∉ s.signals
  waits : ∀ fut ∈ s.waits, fut.stoppedRx = .replied
  terminates : ∀ fut ∈ s.terminates, fut.replied = true

/-- A caretaker at rest owes nobody a step. -/
theorem AtRest.no_step (h : AtRest s) {A : Caretaker → Event → Prop} (hA : Owed A) {e : Event}
    (he : A s e) : s.step S e = none := by
  obtain ⟨res, hd⟩ := h.daemon
  cases hA with
  | started =>
      rw [show e = .startDaemon from he]
      simp only [Caretaker.step, hd]
  | mailbox =>
      obtain ⟨spawn, rfl⟩ := he
      simp only [Caretaker.step, h.mailbox]
  | daemon =>
      obtain ⟨clock, rfl, -⟩ := he
      simp only [Caretaker.step, hd]
  | run i =>
      obtain ⟨grace, rfl, -⟩ := he
      simp [Caretaker.step, h.runs]
  | killed pid => exact absurd he.1.1 (h.signals pid)
  | wait i =>
      rw [show e = .pollWait i from he]
      cases hfut : s.waits[i]? with
      | none => simp only [Caretaker.step, hfut]
      | some fut =>
          have hrx := h.waits fut (List.mem_of_getElem? hfut)
          simp only [Caretaker.step, hfut, hrx, StoppedRx.resolves, Bool.false_eq_true,
            ↓reduceIte]
  | terminate i =>
      rw [show e = .pollTerminate i from he]
      cases hfut : s.terminates[i]? with
      | none => simp only [Caretaker.step, hfut]
      | some fut =>
          have hreplied := h.terminates fut (List.mem_of_getElem? hfut)
          simp only [Caretaker.step, hfut, hreplied, Bool.not_true, Bool.false_and,
            Bool.false_eq_true, ↓reduceIte]

/-- **A run that comes to rest is fair.** -/
theorem fair_resting {es : List Event} (h : Lts.exec (Caretaker.step S) s₀ es = some s)
    (hrest : AtRest s) : Fair (Lts.Execution.resting h) := by
  refine fair_of_owed fun A hA => .of_rest es.length fun n hn e s' he hs => ?_
  rw [Lts.Execution.resting_end h hn] at he hs
  rw [hrest.no_step hA he] at hs
  cases hs

theorem spawnsAtLast_resting {es : List Event}
    (h : Lts.exec (Caretaker.step S) s₀ es = some s) :
    SpawnsAtLast (Lts.Execution.resting h) := by
  refine ⟨es.length, fun n e hn hl => ?_⟩
  rw [show (Lts.Execution.resting h).label n = es[n]? from rfl,
    List.getElem?_eq_none_iff.mpr hn] at hl
  cases hl

/-- The child is told to stop, and both requests are answered. -/
def stopAnswered : List Event := stopRunning ++ [.pollWait 0, .pollTerminate 0]

theorem stopAnswered_rests :
    ∃ s, Lts.exec (Caretaker.step settingA) .init stopAnswered = some s ∧ AtRest s := by
  have hex : ∃ s, Lts.exec (Caretaker.step settingA) .init stopAnswered = some s ∧
      s.mailbox = [] ∧ s.daemon = .ended true ∧ s.runs = [] ∧ s.signals = [(0, .sigterm)] ∧
      s.waits = [⟨1, .replied⟩] ∧ s.terminates = [⟨1, true⟩] :=
    ⟨_, rfl, rfl, rfl, rfl, rfl, rfl, rfl⟩
  obtain ⟨s, hex, hm, hd, hr, hsig, hw, ht⟩ := hex
  exact ⟨s, hex, {
    mailbox := hm
    daemon := ⟨true, hd⟩
    runs := hr
    signals := by simp [hsig]
    waits := by simp [hw]
    terminates := by simp [ht] }⟩

theorem terminate_ends_stopAnswered :
    ∃ x : Lts.Execution (Caretaker.step settingA) .init, Fair x ∧ (x.state 4).asked ∧
      ¬ (x.state 4).over ∧ ∃ m, 4 ≤ m ∧ (x.state m).over := by
  obtain ⟨s, hex, hrest⟩ := stopAnswered_rests
  have hfair := fair_resting hex hrest
  have hasked : ((Lts.Execution.resting hex).state 4).asked := Or.inl (List.mem_singleton.mpr rfl)
  refine ⟨_, hfair, hasked, ?_, terminate_ends hfair (spawnsAtLast_resting hex) 4 hasked⟩
  rintro (⟨res, hd⟩ | hd) <;> cases hd

end Blahaj
