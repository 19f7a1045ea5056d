/-
  File:      Blahaj/Supervisor/RunPolls.lean
  Subject:   WHO TOUCHES A CHILD: one poll of a `Run`, and what every other step leaves alone.

  A `Run` is the only owner of its child. A poll of it waits for the child, asks it to stop, kills
  it, or gives it up where the kill is refused; the other steps spawn children and reap them for
  somebody else.

  * `RunPolled`, `Shape.polls` -- everything a poll of a `Run` does;
  * `Apart`, `apart_step` -- what a step that polls no `Run` does;
  * `RefusesKill`, `refused_run` -- **the children given up are those whose kill was refused**.
-/
import Blahaj.Supervisor.Frame

namespace Blahaj

variable {S : Setting} {s s' : Caretaker} {st : Stage}

/-! ## 1. One poll of a `Run` -/

/-- The child a future of a handled `Run` owns. -/
def RunFut.child : RunFut → Option Child
  | .waitAbort fut _ => fut.child
  | .failure _ _ => none
  | .ensureStop _ child _ => some child

/-- There is one `Run`, and it is the one that is polled. -/
theorem polled_first {item : RunItem} (hruns : s.runs = [item]) {i : Nat} {grace : Grace}
    (hs : s.step S (.pollRun i grace) = some s') :
    i = 0 ∧ Caretaker.settle (s.pollRun S 0 grace item) = s' := by
  cases i with
  | zero =>
      simp only [Caretaker.step, hruns, List.getElem?_cons_zero, Option.map_some,
        Option.some.injEq] at hs
      exact ⟨rfl, hs⟩
  | succ i => simp [Caretaker.step, hruns] at hs

/-- The state in which `ensure_stop` begins: the health actor is told, and the child asked. -/
def Caretaker.asking (s : Caretaker) (child : Child) : Caretaker :=
  { s.stopHealth child.pid with
    status := .terminating
    signals := s.signals ++ [(child.pid, .sigterm)] }

/-- **Everything a poll of the `Run` of a child that is waited for does.** -/
inductive RunPolled (S : Setting) (s : Caretaker) (req : Nat) (child : Child)
    (grace : Grace) : Caretaker → Prop where
  | stop (hstop : s.stopTx = none) {s' : Caretaker}
      (hp : StopPolled (s.asking child) 0 req false child .terminated grace s') :
      RunPolled S s req child grace s'
  | unhealthy (hstop : s.stopTx.isSome) (hu : s.signalled ⟨.unhealthy child.pid⟩ = true)
      {s' : Caretaker} (hp : StopPolled (s.asking child) 0 req false child
        (.unhealthy stopReceiver) grace s') :
      RunPolled S s req child grace s'
  | exited (hstop : s.stopTx.isSome) (hu : s.signalled ⟨.unhealthy child.pid⟩ = false)
      (hgone : s.procs[child.pid]? ≠ some .running) (res : RunResult)
      (hres : res.stopRx = some stopReceiver) :
      RunPolled S s req child grace (Caretaker.finishRun 0 req res
        (Caretaker.stopHealth child.pid { s with procs := s.procs.set child.pid .reaped }))
  | pending (hstop : s.stopTx.isSome) (hu : s.signalled ⟨.unhealthy child.pid⟩ = false) :
      RunPolled S s req child grace s

theorem Shape.run_polled {req : Nat} {child : Child} (h : Shape S s (.up req child))
    {i : Nat} {grace : Grace} (hs : s.step S (.pollRun i grace) = some s') :
    RunPolled S s req child grace s' := by
  have hruns : s.runs = [_] := h.token.runs
  obtain ⟨rfl, rfl⟩ := polled_first hruns hs
  obtain ⟨r, fut', procs', hpoll, hpolled⟩ := WaitAbortFut.polled S.signalName s.signalled child
    stopReceiver ⟨.unhealthy child.pid⟩ s.procs
  have hopen : s.signalled stopReceiver = false → s.stopTx.isSome := by
    intro hs
    cases htx : s.stopTx with
    | some _ => rfl
    | none => simp [Caretaker.signalled, stopReceiver, htx] at hs
  simp only [Caretaker.pollRun, hpoll]
  cases hpolled with
  | stop hs =>
      have htx : s.stopTx = none := by
        simpa [Caretaker.signalled, stopReceiver] using hs
      exact .stop htx (stop_polled 0 req false child .terminated grace (s.asking child))
  | unhealthy hs hu =>
      exact .unhealthy (hopen hs) hu
        (stop_polled 0 req false child (.unhealthy stopReceiver) grace (s.asking child))
  | @exited r hs hu hwait =>
      obtain ⟨res, hres, hout⟩ := afterWaitAbort_ofWait 0 req grace
        (Caretaker.stopHealth child.pid { s with procs := s.procs.set child.pid .reaped })
        S.signalName r
      simp only [hout, Caretaker.settle]
      exact .exited (hopen hs) hu (Child.wait_gone hwait) res hres
  | pending hs hu hwait =>
      simp only [Caretaker.settle, hruns, List.set_cons_zero]
      have hsame : { s with runs := [⟨.waitAbort (.new child stopReceiver
          ⟨.unhealthy child.pid⟩) child.pid, req⟩] } = s := by
        rw [← hruns]
      exact hsame ▸ .pending (hopen hs) hu

/-- **Everything a poll of a `Run` does**, by stage. -/
inductive Caretaker.PolledRun (S : Setting) (s : Caretaker) (grace : Grace)
    (s' : Caretaker) : Stage → Prop where
  | up {req : Nat} {child : Child} (hp : RunPolled S s req child grace s') :
      PolledRun S s grace s' (.up req child)
  | spawnFailed {req : Nat} {err : SupervisorError}
      (hs : s' = s.finishRun 0 req (.error stopReceiver err)) :
      PolledRun S s grace s' (.spawnFailed req)
  | stopping {req : Nat} {child : Child} {res : RunResult} {killing : Bool}
      (hruns : s.runs = [⟨.ensureStop killing child res, req⟩])
      (hp : StopPolled s 0 req killing child res grace s') :
      PolledRun S s grace s' (.stopping req child res)

theorem Shape.polls (h : Shape S s st) {i : Nat} {grace : Grace}
    (hs : s.step S (.pollRun i grace) = some s') :
    s.PolledRun S grace s' st := by
  cases st with
  | up req child => exact .up (h.run_polled hs)
  | spawnFailed req =>
      obtain ⟨err, hruns⟩ := h.token.runs
      exact .spawnFailed (polled_first hruns hs).2.symm
  | stopping req child res =>
      obtain ⟨killing, hruns⟩ := h.token.runs
      refine .stopping hruns ?_
      rw [← (polled_first hruns hs).2]
      exact stop_polled ..
  | _ =>
      have hruns : s.runs = [] := h.token.runs
      simp [Caretaker.step, hruns] at hs

/-! ## 2. The other steps -/

/-- The child a handled `Run` has just spawned, the number `k`, or a failed spawn. -/
def RunFut.isNew (k : Nat) : RunFut → Prop
  | .waitAbort fut _ => fut.child = some ⟨k⟩
  | .failure _ _ => True
  | .ensureStop _ _ _ => False

/-- **What a step that polls no `Run` does** to the signals, the `Run`s and the processes. -/
structure Apart (s s' : Caretaker) (e : Event) : Prop where
  signals : s'.signals = s.signals
  refused : s'.refused = s.refused
  runs : ∀ item ∈ s'.runs, item ∈ s.runs ∨
    item.fut.isNew s.procs.length ∧ s.procs.length < s'.procs.length ∨
    item.fut.isNew s.procs.length ∧ item.fut.child = none
  procs : ∀ pid, Unreaped s.procs pid → Unreaped s'.procs pid ∨ e = .reap pid
  gone : ∀ pid, pid < s.procs.length → s'.procs[pid]? = some .running →
    s.procs[pid]? = some .running
  born : s'.procs.length = s.procs.length ∨ s'.procs = s.procs ++ [.running]
  replies : s'.replies.Sublist s.replies

theorem Apart.same {e : Event} (hs : s'.signals = s.signals) (hk : s'.refused = s.refused)
    (hr : s'.runs = s.runs) (hp : s'.procs = s.procs) (hreplies : s'.replies.Sublist s.replies) :
    Apart s s' e where
  signals := hs
  refused := hk
  runs := fun _ hitem => Or.inl (hr ▸ hitem)
  procs := fun _ hun => Or.inl (hp ▸ hun)
  gone := fun _ _ hrun => hp ▸ hrun
  born := Or.inl (congrArg List.length hp)
  replies := hreplies

theorem Apart.dropped {e : Event} {panic : Panic} (hs : s'.signals = s.signals)
    (hk : s'.refused = s.refused) (hp : s'.procs = s.procs) : Apart s (s'.drop panic) e where
  signals := hs
  refused := hk
  runs := fun _ hitem => absurd hitem List.not_mem_nil
  procs := fun _ hun => Or.inl (hp ▸ hun)
  gone := fun _ _ hrun => hp ▸ hrun
  born := Or.inl (congrArg List.length hp)
  replies := List.nil_sublist _

/-- A step that spawns a process. -/
theorem Apart.spawned {e : Event} (hs : s'.signals = s.signals) (hk : s'.refused = s.refused)
    (hr : ∀ item ∈ s'.runs, item ∈ s.runs ∨ item.fut.isNew s.procs.length)
    (hp : s'.procs = s.procs ++ [.running]) (hreplies : s'.replies.Sublist s.replies) :
    Apart s s' e where
  signals := hs
  refused := hk
  runs := fun item hitem => (hr item hitem).imp_right fun hnew => Or.inl ⟨hnew, by
    rw [hp]
    simp⟩
  procs := fun pid hun => by
    obtain ⟨q, hget, hq⟩ := hun
    refine Or.inl ⟨q, ?_, hq⟩
    rw [hp, List.getElem?_append_left (List.getElem?_eq_some_iff.mp hget).1, hget]
  gone := fun pid hlt hrun => by
    rw [hp, List.getElem?_append_left hlt] at hrun
    exact hrun
  born := Or.inr hp
  replies := hreplies

theorem handleRun_apart (spawn : Except String Unit) (stopRx : Receiver) (req : Nat)
    (rest : List Msg) (e : Event) (s : Caretaker) :
    Apart s (Caretaker.settle (Caretaker.handleRun S spawn stopRx req { s with mailbox := rest }))
      e := by
  unfold Caretaker.handleRun
  cases spawn with
  | error source =>
      refine ⟨rfl, rfl, fun item hitem => ?_, fun _ => Or.inl, fun _ _ => id, Or.inl rfl,
        List.Sublist.refl _⟩
      rcases List.mem_append.mp hitem with hitem | hitem
      · exact Or.inl hitem
      · rw [List.mem_singleton.mp hitem]
        exact Or.inr (Or.inr ⟨trivial, rfl⟩)
  | ok _ =>
      simp only [buildChild]
      split
      · exact .spawned rfl rfl (fun _ hitem => absurd hitem List.not_mem_nil) rfl
          (List.nil_sublist _)
      · refine .spawned rfl rfl (fun item hitem => ?_) rfl (List.Sublist.refl _)
        rcases List.mem_append.mp hitem with hitem | hitem
        · exact Or.inl hitem
        · rw [List.mem_singleton.mp hitem]
          exact Or.inr rfl

theorem broadcastStopped_apart (e : Event) (s : Caretaker) :
    Apart s (Caretaker.settle s.broadcastStopped) e := by
  cases htx : s.stoppedTx with
  | none =>
      simp only [Caretaker.broadcastStopped, htx]
      exact .dropped rfl rfl rfl
  | some _ =>
      simp only [Caretaker.broadcastStopped, htx]
      split
      · exact .same rfl rfl rfl rfl (List.Sublist.refl _)
      · exact .dropped rfl rfl rfl

/-- One poll of a round takes replies away. -/
theorem pollRound_sublist {req req' : Nat} {r : Poll (Option Receiver)}
    (h : s.pollRound S req = (r, req', s')) :
    ∃ replies log, s' = { s with replies := replies, log := log } ∧
      replies.Sublist s.replies := by
  unfold Caretaker.pollRound at h
  split at h
  · obtain ⟨-, -, rfl⟩ := h
    exact ⟨s.replies, s.log, rfl, List.Sublist.refl _⟩
  · obtain ⟨-, -, rfl⟩ := h
    exact ⟨_, _, rfl, List.filter_sublist⟩

theorem pollDaemon_apart (clock : Clock) (fut : RepeatedActFut Nat Receiver) (e : Event)
    (s : Caretaker) : Apart s (Caretaker.settle (s.pollDaemon S clock fut)) e := by
  unfold Caretaker.pollDaemon
  split
  · exact .dropped rfl rfl rfl
  · cases hp : fut.poll Caretaker.sendRun (Caretaker.pollRound S) clock s with
    | none => exact .dropped rfl rfl rfl
    | some polled =>
        obtain ⟨r, fut₁, s₁⟩ := polled
        cases RepeatedActFut.polled hp with
        | busy _ hpf | again _ hpf _ =>
            obtain ⟨replies, log, rfl, hsub⟩ := pollRound_sublist hpf
            exact .same rfl rfl rfl rfl hsub
        | giveUp _ hpf _ | stopped _ hpf =>
            obtain ⟨replies, log, rfl, hsub⟩ := pollRound_sublist hpf
            obtain ⟨hs, hk, hr, hp, hg, hb, hsub'⟩ := broadcastStopped_apart e _
            exact ⟨hs, hk, hr, hp, hg, hb, hsub'.trans hsub⟩
        | asleep _ _ | woken _ _ | create _ _ => exact .same rfl rfl rfl rfl (List.Sublist.refl _)

theorem handle_apart (h : Shape S s st) {m : Msg} {rest : List Msg} (hm : s.mailbox = m :: rest)
    (spawn : Except String Unit) (e : Event) :
    Apart s (Caretaker.settle (Caretaker.handle S spawn { s with mailbox := rest } m)) e := by
  cases m with
  | run stopRx req => exact handleRun_apart spawn stopRx req rest e s
  | wait req =>
      show Apart s (Caretaker.handleWait req { s with mailbox := rest }) e
      unfold Caretaker.handleWait
      split <;> exact .same rfl rfl rfl rfl (List.Sublist.refl _)
  | terminate =>
      simp only [Caretaker.handle, (h.handled_terminate (h.alive hm) hm).1, Caretaker.settle]
      exact .same rfl rfl rfl rfl (List.Sublist.refl _)
  | setHealthState sender health =>
      show Apart s (Caretaker.handleSetHealthState health { s with mailbox := rest }) e
      unfold Caretaker.handleSetHealthState
      split <;> exact .same rfl rfl rfl rfl (List.Sublist.refl _)
  | getStatus => exact .same rfl rfl rfl rfl (List.Sublist.refl _)

/-- A process that changes while it is not reaped. -/
theorem Apart.with_proc {pid : Nat} {p q : Proc} {e : Event} (hget : s.procs[pid]? = some p)
    (hq : q.unreaped = true ∨ e = .reap pid) (hgone : q ≠ .running) :
    Apart s { s with procs := s.procs.set pid q } e where
  signals := rfl
  refused := rfl
  runs := fun _ => Or.inl
  procs := fun pid' hun => by
    by_cases heq : pid' = pid
    · subst heq
      refine hq.imp_left fun hq => ⟨q, ?_, hq⟩
      exact List.getElem?_set_self (List.getElem?_eq_some_iff.mp hget).1
    · obtain ⟨r, hget', hr⟩ := hun
      exact Or.inl ⟨r, by rw [List.getElem?_set_ne (Ne.symm heq)]; exact hget', hr⟩
  gone := fun pid' _ hrun => by
    by_cases heq : pid = pid'
    · subst heq
      rw [List.getElem?_set_self (List.getElem?_eq_some_iff.mp hget).1] at hrun
      exact absurd (Option.some.inj hrun) hgone
    · rwa [List.getElem?_set_ne heq] at hrun
  born := Or.inl (List.length_set ..)
  replies := List.Sublist.refl _

/-- **Every step that polls no `Run`.** -/
theorem apart_step (h : Shape S s st) {e : Event} (hs : s.step S e = some s')
    (he : ∀ i grace, e ≠ .pollRun i grace) : Apart s s' e := by
  cases Caretaker.stepped hs with
  | arrive _ hs =>
      obtain ⟨⟨n, rfl⟩, -⟩ := Caretaker.arrived hs
      exact .same rfl rfl rfl rfl (List.Sublist.refl _)
  | handle hm spawn => exact handle_apart h hm spawn _
  | startDaemon _ | pollWait _ _ | pollTerminate _ _ | unhealthy _ =>
      exact .same rfl rfl rfl rfl (List.Sublist.refl _)
  | @pollDaemon fut _ clock => exact pollDaemon_apart clock fut _ s
  | pollRun _ grace => exact absurd rfl (he _ grace)
  | exit hget status => exact .with_proc hget (Or.inl rfl) (by simp)
  | reap hget => exact .with_proc hget (Or.inr rfl) (by simp)

/-! ## 3. A kill that is refused -/

/-- The child a poll of a `Run` has in `ensure_stop` and has not killed yet. -/
def RunFut.stopping (s : Caretaker) : RunFut → Option Child
  | .waitAbort ⟨some child, some stopRx, some unhealthyRx⟩ _ =>
    if s.signalled stopRx || s.signalled unhealthyRx then some child else none
  | .ensureStop false child _ => some child
  | _ => none

/-- The number of a child whose grace period is over, which still runs, and whose kill the operating
    system refuses. -/
def Child.refusal (procs : List Proc) (grace : Grace) (child : Child) : Option Nat :=
  match grace, procs[child.pid]? with
  | .elapsed (.error _), some .running => some child.pid
  | _, _ => none

/-- The child whose kill is refused in a step. -/
def Caretaker.refusal (s : Caretaker) : Event → Option Nat
  | .pollRun i grace => (s.runs[i]?).bind fun item =>
      (item.fut.stopping s).bind (Child.refusal s.procs grace)
  | _ => none

/-- The step kills a child, and the operating system refuses it. -/
abbrev RefusesKill (s : Caretaker) (e : Event) : Prop := (s.refusal e).isSome = true

/-- A kill is refused in a poll of a `Run` only, after the grace period. -/
theorem RefusesKill.label {e : Event} (h : RefusesKill s e) :
    ∃ i, e = .pollRun i (.elapsed (.error ())) := by
  cases e with
  | pollRun i grace =>
      refine ⟨i, ?_⟩
      obtain ⟨pid, hsome⟩ := Option.isSome_iff_exists.mp h
      obtain ⟨item, -, hsome⟩ := Option.bind_eq_some_iff.mp hsome
      obtain ⟨child, -, hsome⟩ := Option.bind_eq_some_iff.mp hsome
      unfold Child.refusal at hsome
      split at hsome
      · rfl
      · cases hsome
  | _ => cases h

theorem Child.refusal_gone {procs : List Proc} {child : Child}
    (hgone : procs[child.pid]? ≠ some .running) (grace : Grace) :
    child.refusal procs grace = none := by
  unfold Child.refusal
  split
  · rename_i hrun
    exact absurd hrun hgone
  · rfl

theorem StopPolled.refuses {i req : Nat} {killing : Bool} {child : Child} {res : RunResult}
    {grace : Grace} (hp : StopPolled s i req killing child res grace s') :
    s'.refused = s.refused ++
      ((if killing then none else some child).bind (Child.refusal s.procs grace)).toList := by
  cases hp with
  | reaped hgone => cases killing <;> simp [Caretaker.finishRun, Child.refusal_gone hgone]
  | waits hrun hgrace => rcases hgrace with rfl | rfl <;> simp [Child.refusal]
  | kills hrun hkilling hgrace =>
      subst hkilling hgrace
      simp [Child.refusal]
  | refused hrun hkilling hgrace =>
      subst hkilling hgrace
      simp [Child.refusal, hrun, Caretaker.finishRun]

/-- A poll of a `Run` that is waited for refuses what `ensure_stop` does, if that begins. -/
theorem RunPolled.refuses {req : Nat} {child : Child} {grace : Grace}
    (hp : RunPolled S s req child grace s') :
    s'.refused = s.refused ++ (((RunFut.waitAbort (.new child stopReceiver
      ⟨.unhealthy child.pid⟩) child.pid).stopping s).bind
        (Child.refusal s.procs grace)).toList := by
  simp only [RunFut.stopping, WaitAbortFut.new]
  cases hp with
  | stop hstop hp =>
      rw [hp.refuses]
      simp [Caretaker.asking, Caretaker.stopHealth, Caretaker.signalled, stopReceiver, hstop]
  | unhealthy hstop hu hp =>
      rw [hp.refuses]
      simp [Caretaker.asking, Caretaker.stopHealth, hu]
  | exited hstop hu hgone res hres =>
      have hopen : s.signalled stopReceiver = false := by
        simpa [Caretaker.signalled, stopReceiver, Option.isSome_iff_ne_none] using hstop
      simp [Caretaker.finishRun, Caretaker.stopHealth, hu, hopen]
  | pending hstop hu =>
      have hopen : s.signalled stopReceiver = false := by
        simpa [Caretaker.signalled, stopReceiver, Option.isSome_iff_ne_none] using hstop
      simp [hu, hopen]

/-- **A step gives up the child whose kill it refuses**, and no other. -/
theorem refused_step (h : Shape S s st) {e : Event} (hs : s.step S e = some s') :
    s'.refused = s.refused ++ (s.refusal e).toList := by
  by_cases he : ∃ i grace, e = .pollRun i grace
  · obtain ⟨i, grace, rfl⟩ := he
    have hrefusal : ∀ {item : RunItem}, s.runs = [item] → s.refusal (.pollRun i grace) =
        (item.fut.stopping s).bind (Child.refusal s.procs grace) := by
      intro item hruns
      rw [(polled_first hruns hs).1]
      simp [Caretaker.refusal, hruns]
    cases h.polls hs with
    | up hp =>
        rw [hrefusal h.token.runs]
        exact hp.refuses
    | spawnFailed hs' =>
        obtain ⟨err, hruns⟩ := h.token.runs
        rw [hrefusal hruns, hs']
        simp [RunFut.stopping, Caretaker.finishRun]
    | @stopping _ _ _ killing hruns hp =>
        rw [hrefusal hruns, hp.refuses]
        cases killing <;> rfl
  · have hnone : s.refusal e = none := by
      cases e with
      | pollRun i grace => exact absurd ⟨i, grace, rfl⟩ he
      | _ => rfl
    rw [(apart_step h hs fun i grace heq => he ⟨i, grace, heq⟩).refused, hnone]
    simp

/-- **The children given up are those whose kill was refused**, in their order. -/
theorem refused_run {h : List (Caretaker × Event)} {s : Caretaker}
    (hr : Lts.Run (Caretaker.step S) .init h s) :
    s.refused = h.filterMap fun x => x.1.refusal x.2 := by
  refine hr.logs (f := Caretaker.refused) (g := Caretaker.refusal) rfl fun s e s' hreach hs => ?_
  obtain ⟨st, hshape⟩ := shape_reach hreach
  exact refused_step hshape hs

theorem mem_refused {h : List (Caretaker × Event)} {s : Caretaker}
    (hr : Lts.Run (Caretaker.step S) .init h s) {pid : Nat} :
    pid ∈ s.refused ↔ ∃ x ∈ h, x.1.refusal x.2 = some pid := by
  rw [refused_run hr, List.mem_filterMap]

/-- Where no kill is refused, no child is given up. -/
theorem refused_nil {h : List (Caretaker × Event)} {s : Caretaker}
    (hr : Lts.Run (Caretaker.step S) .init h s) (hC : ∀ x ∈ h, ¬ RefusesKill x.1 x.2) :
    s.refused = [] := by
  rw [refused_run hr, List.filterMap_eq_nil_iff]
  exact fun x hx => Option.not_isSome_iff_eq_none.mp (hC x hx)

theorem StopPolled.gives_up {i req : Nat} {killing : Bool} {child : Child} {res : RunResult}
    {grace : Grace} (hp : StopPolled s i req killing child res grace s') {pid : Nat}
    (hk : s'.refused = s.refused ++ [pid]) :
    s'.status = .terminated ∧ s'.procs[pid]? = some .running := by
  cases hp with
  | reaped _ | waits _ _ | kills _ _ _ => simp [Caretaker.finishRun] at hk
  | refused hrun _ _ =>
      obtain rfl : child.pid = pid := by simpa [Caretaker.finishRun] using hk
      exact ⟨rfl, hrun⟩

/-- **A kill that is refused** leaves a child that runs, and a status that says it is gone. -/
theorem refusal_leaves (h : Shape S s st) {e : Event} (hs : s.step S e = some s') {pid : Nat}
    (hrefused : s.refusal e = some pid) :
    s'.status = .terminated ∧ s'.procs[pid]? = some .running := by
  have hk : s'.refused = s.refused ++ [pid] := by
    rw [refused_step h hs, hrefused]
    rfl
  cases e with
  | pollRun i grace =>
      cases h.polls hs with
      | up hp =>
          cases hp with
          | stop _ hp => exact hp.gives_up hk
          | unhealthy _ _ hp => exact hp.gives_up hk
          | exited _ _ _ _ _ => simp [Caretaker.finishRun, Caretaker.stopHealth] at hk
          | pending _ _ => simp at hk
      | spawnFailed hs' =>
          subst hs'
          simp [Caretaker.finishRun] at hk
      | stopping _ hp => exact hp.gives_up hk
  | _ => cases hrefused

end Blahaj
