/-
  File:      Blahaj/Supervisor/Wakes.lean
  Subject:   NO WAKE-UP IS LOST by the two hand-written futures of supervisor/futs.rs.

  Both are written against the contract of a poll: a poll that stays pending has left the waker
  with everything it waits for, or has woken its own task. Here each poll comes with what it leaves
  behind, and the executor polls a task only where it was woken.

  * `WaitAbortFut.pollWaking`, `RepeatedActFut.pollWaking` -- the polls, with their wakers; without
    them they are the polls of Futs.lean (`pollWaking_forget`);
  * `wait_abort_resolves` -- **a `WaitAbortFut` resolves exactly if one of the three things it
    waits for happens**;
  * `repeated_asleep` -- **a `RepeatedActFut` that is left alone has nothing to do**, whatever the
    future of its rounds;
  * `rounds_go_on` -- after each delay the next round is started.
-/
import Blahaj.Lib.Waker
import Blahaj.Supervisor.WaitAbort

namespace Blahaj

open Waker

/-- What a poll that is a value or nothing comes to. -/
def Poll.ofOption {α : Type} : Option α → Poll α
  | none => .pending
  | some a => .ready a

/-! ## 1. WaitAbortFut -/

/-- What a `WaitAbortFut` leaves its waker with: a receiver, whose sender wakes it, and the child,
    whose exit is seen with a SIGCHLD. -/
inductive RaceSource where
  | sender (rx : Receiver)
  | sigchld
  deriving DecidableEq, Repr

/-- The receivers whose sender is gone, and the processes. -/
structure RaceWorld where
  signalled : List Receiver
  procs : List Proc

/-- The waker of a poll of this receiver. -/
def RaceWorld.leave (w : RaceWorld) (rx : Receiver) : List RaceSource :=
  if w.signalled.contains rx then [] else [.sender rx]

/-- `WaitAbortFut::poll`, with its waker. Both receivers are polled before anything is decided. -/
def WaitAbortFut.pollWaking (signalName : Nat → Option String) (self : WaitAbortFut)
    (w : RaceWorld) : Option (PollOut WaitAbortFut RaceWorld RaceSource WaitAbortResult) :=
  match self.child, self.stopRx, self.unhealthyRx with
  | some child, some stopRx, some unhealthyRx =>
    let taken : WaitAbortFut := ⟨none, none, none⟩
    let sources := w.leave stopRx ++ w.leave unhealthyRx
    match w.signalled.contains stopRx, w.signalled.contains unhealthyRx with
    | true, _ => some ⟨some (.stopSignalReceived child), taken, w, ⟨false, sources⟩⟩
    | _, true => some ⟨some (.unhealthySignalReceived stopRx child), taken, w, ⟨false, sources⟩⟩
    | false, false =>
      match child.wait w.procs with
      | (.ready res, procs) =>
        some ⟨some (ofWait signalName stopRx res), taken, { w with procs }, ⟨false, sources⟩⟩
      | (.pending, procs) =>
        some ⟨none, ⟨some child, some stopRx, some unhealthyRx⟩, { w with procs },
          ⟨false, sources ++ [.sigchld]⟩⟩
  | _, _, _ => none

/-- **Without its waker it is the poll of a `WaitAbortFut`.** -/
theorem WaitAbortFut.pollWaking_forget (signalName : Nat → Option String) (self : WaitAbortFut)
    (w : RaceWorld) :
    (self.pollWaking signalName w).map (fun p => (Poll.ofOption p.out, p.fut, p.world.procs)) =
      self.poll signalName w.signalled.contains w.procs := by
  unfold WaitAbortFut.pollWaking WaitAbortFut.poll
  rcases self with ⟨_ | child, _ | stopRx, _ | unhealthyRx⟩ <;> try rfl
  cases hs : w.signalled.contains stopRx with
  | true => simp only [hs, Option.map_some, Poll.ofOption]
  | false =>
      cases hu : w.signalled.contains unhealthyRx with
      | true => simp only [hs, hu, Option.map_some, Poll.ofOption]
      | false =>
          rcases hw : child.wait w.procs with ⟨_ | res, procs⟩ <;>
            simp only [hs, hu, hw, Option.map_some, Poll.ofOption]

/-- What happens around a `WaitAbortFut`. -/
inductive RaceHappening where
  /-- the sender of this receiver is used or dropped -/
  | signal (rx : Receiver)
  /-- a process exits -/
  | exit (pid : Nat) (status : ExitStatus)
  /-- a process that has exited is reaped by somebody else -/
  | reap (pid : Nat)

/-- A `WaitAbortFut` and what it waits for. -/
def WaitAbortFut.scene (signalName : Nat → Option String) :
    Scene WaitAbortFut RaceWorld Unit RaceHappening RaceSource WaitAbortResult where
  poll _ fut w := fut.pollWaking signalName w
  event w
    | .signal rx => some { w with signalled := rx :: w.signalled }
    | .exit pid status => match w.procs[pid]? with
      | some .running => some { w with procs := w.procs.set pid (.exited status) }
      | _ => none
    | .reap pid => match w.procs[pid]? with
      | some (.exited _) => some { w with procs := w.procs.set pid .reaped }
      | _ => none
  fires _
    | .signal rx, .sender rx' => rx == rx'
    | .exit _ _, .sigchld => true
    | _, _ => false

section Race

variable {signalName : Nat → Option String} {child : Child} {stopRx unhealthyRx : Receiver}
  {w w' : RaceWorld}

/-- One of the three things has happened. -/
def RaceWorld.Decided (child : Child) (stopRx unhealthyRx : Receiver) (w : RaceWorld) : Prop :=
  stopRx ∈ w.signalled ∨ unhealthyRx ∈ w.signalled ∨ w.procs[child.pid]? ≠ some .running

/-- Where nothing has happened a poll leaves its waker with all three. -/
theorem pollWaking_pending (h : ¬ w.Decided child stopRx unhealthyRx) :
    (WaitAbortFut.new child stopRx unhealthyRx).pollWaking signalName w =
      some ⟨none, .new child stopRx unhealthyRx, w,
        ⟨false, [.sender stopRx, .sender unhealthyRx, .sigchld]⟩⟩ := by
  simp only [RaceWorld.Decided, not_or, not_not] at h
  obtain ⟨hs, hu, hp⟩ := h
  have hwait : child.wait w.procs = (.pending, w.procs) := by
    unfold Child.wait
    rw [hp]
  simp [WaitAbortFut.pollWaking, WaitAbortFut.new, RaceWorld.leave, hs, hu, hwait]

/-- Where something has happened a poll resolves. -/
theorem pollWaking_ready (signalName : Nat → Option String)
    (h : w.Decided child stopRx unhealthyRx) :
    ∃ res p, (WaitAbortFut.new child stopRx unhealthyRx).pollWaking signalName w = some p ∧
      p.out = some res := by
  by_cases hs : stopRx ∈ w.signalled
  · exact ⟨_, _, by simp [WaitAbortFut.pollWaking, WaitAbortFut.new, hs]; rfl, rfl⟩
  by_cases hu : unhealthyRx ∈ w.signalled
  · exact ⟨_, _, by simp [WaitAbortFut.pollWaking, WaitAbortFut.new, hs, hu]; rfl, rfl⟩
  rcases hw : child.wait w.procs with ⟨res | _, procs⟩
  · exact ⟨_, _, by simp [WaitAbortFut.pollWaking, WaitAbortFut.new, hs, hu, hw]; rfl, rfl⟩
  · exact absurd (wait_running hw) ((h.resolve_left hs).resolve_left hu)

/-- The future has its handles, nothing has happened, and its waker is where it will. -/
def RaceParked (fut : WaitAbortFut) (w : RaceWorld) (wakers : List RaceSource) : Prop :=
  ∃ child stopRx unhealthyRx, fut = .new child stopRx unhealthyRx ∧
    ¬ w.Decided child stopRx unhealthyRx ∧ .sender stopRx ∈ wakers ∧
    .sender unhealthyRx ∈ wakers ∧ .sigchld ∈ wakers

/-- What has happened stays so, and whatever happens fires its source. -/
theorem decided_event {e : RaceHappening}
    (he : (WaitAbortFut.scene signalName).event w e = some w') :
    (w.Decided child stopRx unhealthyRx → w'.Decided child stopRx unhealthyRx) ∧
      (w'.Decided child stopRx unhealthyRx → w.Decided child stopRx unhealthyRx ∨
        ∃ i ∈ [RaceSource.sender stopRx, .sender unhealthyRx, .sigchld],
          (WaitAbortFut.scene signalName).fires w e i = true) := by
  cases e with
  | signal rx =>
      obtain rfl := Option.some.inj he
      constructor
      · rintro (hs | hu | hp)
        · exact Or.inl (List.mem_cons_of_mem _ hs)
        · exact Or.inr (Or.inl (List.mem_cons_of_mem _ hu))
        · exact Or.inr (Or.inr hp)
      · rintro (hs | hu | hp)
        · rcases List.mem_cons.mp hs with rfl | hs
          · exact Or.inr ⟨.sender stopRx, by simp, by simp [WaitAbortFut.scene]⟩
          · exact Or.inl (Or.inl hs)
        · rcases List.mem_cons.mp hu with rfl | hu
          · exact Or.inr ⟨.sender unhealthyRx, by simp, by simp [WaitAbortFut.scene]⟩
          · exact Or.inl (Or.inr (Or.inl hu))
        · exact Or.inl (Or.inr (Or.inr hp))
  | exit pid status =>
      refine ⟨?_, fun _ => Or.inr ⟨.sigchld, by simp, rfl⟩⟩
      simp only [WaitAbortFut.scene] at he
      split at he
      · rename_i hrun
        obtain rfl := Option.some.inj he
        rintro (hs | hu | hp)
        · exact Or.inl hs
        · exact Or.inr (Or.inl hu)
        · refine Or.inr (Or.inr fun hp' => hp ?_)
          have hne : pid ≠ child.pid := fun heq => hp (heq ▸ hrun)
          rwa [List.getElem?_set_ne hne] at hp'
      · cases he
  | reap pid =>
      simp only [WaitAbortFut.scene] at he
      split at he
      · rename_i status hexited
        obtain rfl := Option.some.inj he
        constructor
        · rintro (hs | hu | hp)
          · exact Or.inl hs
          · exact Or.inr (Or.inl hu)
          · refine Or.inr (Or.inr fun hp' => ?_)
            rw [List.getElem?_set] at hp'
            split at hp'
            · split at hp' <;> cases hp'
            · exact hp hp'
        · rintro (hs | hu | hp)
          · exact Or.inl (Or.inl hs)
          · exact Or.inl (Or.inr (Or.inl hu))
          · refine Or.inl (Or.inr (Or.inr fun hrun => hp ?_))
            have hne : pid ≠ child.pid := by
              intro heq
              rw [heq, hrun] at hexited
              cases hexited
            rwa [List.getElem?_set_ne hne]
      · cases he

/-- **A `WaitAbortFut` leaves its waker with all that it waits for.** -/
theorem race_attentive (signalName : Nat → Option String) :
    Attentive (WaitAbortFut.scene signalName) RaceParked where
  quiet := by
    rintro fut w wakers ⟨child, stopRx, unhealthyRx, rfl, hnot, -⟩ k
    exact ⟨_, pollWaking_pending hnot⟩
  more := by
    rintro fut w wakers wakers' hsub ⟨child, stopRx, unhealthyRx, hfut, hnot, hs, hu, hp⟩
    exact ⟨child, stopRx, unhealthyRx, hfut, hnot, hsub hs, hsub hu, hsub hp⟩
  poll := by
    intro k fut w p hp hout _
    have hpoll : fut.pollWaking signalName w = some p := hp
    rcases fut with ⟨_ | child, _ | stopRx, _ | unhealthyRx⟩
    case some.some.some =>
      by_cases hd : w.Decided child stopRx unhealthyRx
      · obtain ⟨res, p', hp', hres⟩ := pollWaking_ready signalName hd
        obtain rfl := Option.some.inj (hp'.symm.trans hpoll)
        rw [hres] at hout
        cases hout
      · obtain rfl := Option.some.inj ((pollWaking_pending hd).symm.trans hpoll)
        exact ⟨child, stopRx, unhealthyRx, rfl, hd, by simp, by simp, by simp⟩
    all_goals cases hpoll
  event := by
    rintro fut w w' e wakers ⟨child, stopRx, unhealthyRx, hfut, hnot, hs, hu, hp⟩ he hsilent
    refine ⟨child, stopRx, unhealthyRx, hfut, fun hd => ?_, hs, hu, hp⟩
    rcases (decided_event he).2 hd with hd | ⟨i, hi, hfires⟩
    · exact hnot hd
    · have hmem : i ∈ wakers := by
        simp only [List.mem_cons, List.not_mem_nil, or_false] at hi
        rcases hi with rfl | rfl | rfl
        · exact hs
        · exact hu
        · exact hp
      rw [hsilent i hmem] at hfires
      cases hfires

/-- No unwrap has failed, and the future has its handles as long as it has not resolved. -/
structure RaceArmed (child : Child) (stopRx unhealthyRx : Receiver)
    (t : Task WaitAbortFut RaceWorld RaceSource WaitAbortResult) : Prop where
  panicked : t.panicked = false
  fut : t.outcome = none → t.fut = .new child stopRx unhealthyRx

theorem RaceArmed.live {t : Task WaitAbortFut RaceWorld RaceSource WaitAbortResult}
    (h : RaceArmed child stopRx unhealthyRx t) : t.live = true ↔ t.outcome = none := by
  simp [Task.live, h.panicked]

/-- **What a poll of the task does**: it resolves where something has happened, and changes
    nothing else. -/
theorem race_polled {t t' : Task WaitAbortFut RaceWorld RaceSource WaitAbortResult}
    (h : RaceArmed child stopRx unhealthyRx t)
    (hs : (WaitAbortFut.scene signalName).step t (.poll ()) = some t') :
    t'.panicked = false ∧
      (t.world.Decided child stopRx unhealthyRx ∧ t'.outcome.isSome ∨
        ¬ t.world.Decided child stopRx unhealthyRx ∧ t'.outcome = none ∧
          t'.fut = .new child stopRx unhealthyRx) := by
  simp only [Scene.step] at hs
  split at hs
  · rename_i hlive
    have hfut := h.fut (h.live.mp (Bool.and_eq_true_iff.mp hlive).1)
    rw [hfut] at hs
    by_cases hd : t.world.Decided child stopRx unhealthyRx
    · obtain ⟨res, p, hp, hres⟩ := pollWaking_ready signalName hd
      simp only [WaitAbortFut.scene, hp] at hs
      obtain rfl := Option.some.inj hs
      exact ⟨h.panicked, Or.inl ⟨hd, by simp [hres]⟩⟩
    · simp only [WaitAbortFut.scene, pollWaking_pending hd] at hs
      obtain rfl := Option.some.inj hs
      exact ⟨h.panicked, Or.inr ⟨hd, rfl, rfl⟩⟩
  · cases hs

theorem raceArmed_step {t t' : Task WaitAbortFut RaceWorld RaceSource WaitAbortResult}
    {e : TaskEvent Unit RaceHappening} (h : RaceArmed child stopRx unhealthyRx t)
    (hs : (WaitAbortFut.scene signalName).step t e = some t') :
    RaceArmed child stopRx unhealthyRx t' := by
  cases e with
  | poll k =>
      obtain ⟨hpanicked, ⟨-, hout⟩ | ⟨-, -, hfut⟩⟩ := race_polled h hs
      · exact ⟨hpanicked, fun hnone => by simp [hnone] at hout⟩
      · exact ⟨hpanicked, fun _ => hfut⟩
  | world e =>
      obtain ⟨world, -, rfl⟩ := Option.map_eq_some_iff.mp hs
      exact ⟨h.panicked, h.fut⟩
  | wake =>
      obtain rfl := Option.some.inj hs
      exact ⟨h.panicked, h.fut⟩

/-- **A `WaitAbortFut` loses no wake-up**, in each execution that polls its task where it was woken:
    left alone it waits for things none of which has happened, and it resolves exactly if one of
    them happens. -/
theorem wait_abort_resolves
    {x : Lts.Execution (WaitAbortFut.scene signalName).step
      (.spawn (.new child stopRx unhealthyRx) w)}
    (hfair : x.WeaklyFair fun _ e => ∃ k, e = .poll k) :
    (∀ n, (x.state n).outcome = none → (x.state n).woken = false →
      ¬ (x.state n).world.Decided child stopRx unhealthyRx) ∧
    ((∃ n, (x.state n).outcome.isSome) ↔
      ∃ n, (x.state n).world.Decided child stopRx unhealthyRx) := by
  have harmed : ∀ n, RaceArmed child stopRx unhealthyRx (x.state n) := fun n =>
    (x.reach n).invariant (⟨rfl, fun _ => rfl⟩ : RaceArmed child stopRx unhealthyRx
      (.spawn (.new child stopRx unhealthyRx) w)) fun _ _ _ => raceArmed_step
  -- where something has happened a poll is not quiet
  have hbusy : ∀ t, RaceArmed child stopRx unhealthyRx t → t.outcome = none →
      t.world.Decided child stopRx unhealthyRx →
      ¬ (WaitAbortFut.scene signalName).Quiet t.fut t.world := by
    intro t ht hout hd hquiet
    obtain ⟨sources, hpoll⟩ := hquiet ()
    rw [ht.fut hout] at hpoll
    obtain ⟨res, p, hp, hres⟩ := pollWaking_ready signalName hd
    obtain rfl := Option.some.inj (hp.symm.trans hpoll)
    cases hres
  refine ⟨fun n hout hidle hd => ?_, ?_⟩
  · exact hbusy _ (harmed n) hout hd
      ((race_attentive signalName).asleep (x.reach n) ((harmed n).live.mpr hout) hidle)
  constructor
  · rintro ⟨n, hout⟩
    induction n with
    | zero =>
        rw [x.start] at hout
        cases hout
    | succ n ih =>
        by_cases hbefore : (x.state n).outcome.isSome
        · exact ih hbefore
        have hnext := x.next n
        cases hl : x.label n with
        | none =>
            rw [hl] at hnext
            rw [show x.state (n + 1) = x.state n from hnext] at hout
            exact absurd hout hbefore
        | some e =>
            rw [hl] at hnext
            cases e with
            | poll k =>
                obtain ⟨-, ⟨hd, -⟩ | ⟨-, hnone, -⟩⟩ := race_polled (harmed n) hnext
                · exact ⟨n, hd⟩
                · simp [hnone] at hout
            | world e =>
                obtain ⟨world, -, heq⟩ := Option.map_eq_some_iff.mp hnext
                rw [← heq] at hout
                exact absurd hout hbefore
            | wake =>
                rw [← Option.some.inj hnext] at hout
                exact absurd hout hbefore
  · rintro ⟨n, hd⟩
    by_cases hout : (x.state n).outcome = none
    · have hleads := (race_attentive signalName).leads (x := x) hfair
        (P := fun t => (RaceArmed child stopRx unhealthyRx t ∧ t.outcome = none) ∧
          t.world.Decided child stopRx unhealthyRx)
        (Q := fun t => t.outcome.isSome)
        (fun t hP => ⟨hP.1.1.live.mpr hP.1.2, hbusy t hP.1.1 hP.1.2 hP.2⟩)
        (fun t k t' hP hs => by
          obtain ⟨-, ⟨-, hsome⟩ | ⟨hnot, -⟩⟩ := race_polled hP.1.1 hs
          · exact hsome
          · exact absurd hP.2 hnot)
        (fun t e t' hP he hs => by
          have harmed' := raceArmed_step hP.1.1 hs
          cases e with
          | poll k => exact absurd rfl (he k)
          | world e =>
              obtain ⟨world, hevent, rfl⟩ := Option.map_eq_some_iff.mp hs
              exact ⟨⟨harmed', hP.1.2⟩, (decided_event hevent).1 hP.2⟩
          | wake =>
              obtain rfl := Option.some.inj hs
              exact ⟨⟨harmed', hP.1.2⟩, hP.2⟩)
      obtain ⟨m, -, hsome⟩ := hleads n ⟨⟨harmed n, hout⟩, hd⟩
      exact ⟨m, hsome⟩
    · exact ⟨n, Option.isSome_iff_ne_none.mpr hout⟩

end Race

/-- The first poll is pending; then the process exits, and the second poll resolves. -/
def exitsUnpolled : List (TaskEvent Unit RaceHappening) :=
  [.poll (), .world (.exit 0 (.exited 1)), .poll ()]

theorem wait_abort_resolves_exits :
    ∃ x : Lts.Execution (WaitAbortFut.scene fun _ => none).step
        (.spawn (.new ⟨0⟩ ⟨.stop⟩ ⟨.unhealthy 0⟩) ⟨[], [.running]⟩),
      (x.WeaklyFair fun _ e => ∃ k, e = .poll k) ∧ (x.state 1).woken = false ∧
      ¬ (x.state 1).world.Decided ⟨0⟩ ⟨.stop⟩ ⟨.unhealthy 0⟩ ∧
      ∃ n, (x.state n).outcome.isSome := by
  have hex : ∃ t, Lts.exec (WaitAbortFut.scene fun _ => none).step
      (.spawn (.new ⟨0⟩ ⟨.stop⟩ ⟨.unhealthy 0⟩) ⟨[], [.running]⟩) exitsUnpolled = some t ∧
      t.live = false := ⟨_, rfl, rfl⟩
  obtain ⟨t, hex, hdone⟩ := hex
  have hfair := polls_resting hex hdone
  obtain ⟨hasleep, hresolves⟩ := wait_abort_resolves hfair
  refine ⟨_, hfair, rfl, hasleep 1 rfl rfl, hresolves.mpr ⟨2, Or.inr (Or.inr ?_)⟩⟩
  exact fun hrun => by cases hrun

/-! ## 2. RepeatedActFut -/

section Repeated

variable {Fut I A κ ε ι : Type}

/-- `RepeatedActFut::poll`, with its waker. The future of a round leaves its own; a sleep leaves
    it with the timer, and where a slot is filled or emptied the task is woken at once. -/
def RepeatedActFut.pollWaking (factory : I → A → Fut × A)
    (pollFut : Fut → A → PollOut Fut A ι (Option I)) (clock : Clock)
    (self : RepeatedActFut Fut I) (srv : A) :
    Option (PollOut (RepeatedActFut Fut I) A (ι ⊕ Instant) Bool) :=
  match self.fut with
  | .polling fut =>
    match pollFut fut srv with
    | ⟨none, fut, srv, wakes⟩ =>
      some ⟨none, { self with fut := .polling fut }, srv, ⟨wakes.self, wakes.sources.map .inl⟩⟩
    | ⟨some (some res), fut, srv, _⟩ =>
      match self.retryGuard.mark clock.now with
      | none => none
      | some (true, guard) =>
        some ⟨none, { self with
          fut := .waiting ⟨clock.later + self.retryInterval⟩
          state := some res
          retryGuard := guard }, srv, ⟨true, []⟩⟩
      | some (false, guard) =>
        some ⟨some false, { self with fut := .polling fut, retryGuard := guard }, srv, ⟨false, []⟩⟩
    | ⟨some none, fut, srv, _⟩ =>
      some ⟨some true, { self with fut := .polling fut }, srv, ⟨false, []⟩⟩
  | .waiting sleep =>
    if clock.elapsed then some ⟨none, { self with fut := .empty }, srv, ⟨true, []⟩⟩
    else some ⟨none, self, srv, ⟨false, [.inr sleep.deadline]⟩⟩
  | .empty =>
    match self.state with
    | none => none
    | some state =>
      let (fut, srv) := factory state srv
      some ⟨none, { self with fut := .polling fut, state := none }, srv, ⟨true, []⟩⟩

/-- **Without its waker it is the poll of a `RepeatedActFut`.** -/
theorem RepeatedActFut.pollWaking_forget (factory : I → A → Fut × A)
    (pollFut : Fut → A → PollOut Fut A ι (Option I)) (clock : Clock)
    (self : RepeatedActFut Fut I) (srv : A) :
    (self.pollWaking factory pollFut clock srv).map
        (fun p => (Poll.ofOption p.out, p.fut, p.world)) =
      self.poll factory (fun fut srv =>
        (Poll.ofOption (pollFut fut srv).out, (pollFut fut srv).fut, (pollFut fut srv).world))
        clock srv := by
  unfold RepeatedActFut.pollWaking RepeatedActFut.poll
  cases hslot : self.fut with
  | polling fut =>
      rcases hp : pollFut fut srv with ⟨_ | _ | res, fut', srv', wakes⟩
      · simp only [hp, Option.map_some, Poll.ofOption]
      · simp only [hp, Option.map_some, Poll.ofOption]
      · rcases self.retryGuard.mark clock.now with _ | ⟨_ | _, guard⟩ <;>
          simp only [hp, Option.map_some, Option.map_none, Poll.ofOption]
  | waiting sleep =>
      cases clock.elapsed <;> simp [Poll.ofOption]
  | empty =>
      cases self.state <;> simp [Poll.ofOption]

/-- The actor and the clock. -/
structure Timed (A : Type) where
  srv : A
  now : Instant

/-- Whether the sleep in the slot has elapsed. -/
def RepeatedActFut.elapsed (self : RepeatedActFut Fut I) (now : Instant) : Bool :=
  match self.fut with
  | .waiting sleep => sleep.deadline ≤ now
  | _ => false

/-- A `RepeatedActFut` over the futures of its rounds. A poll reads how much later the clock is
    read the second time; time passes, and fires the timers that are due. -/
def RepeatedActFut.scene (factory : I → A → Fut × A)
    (pollFut : Fut → A → PollOut Fut A ι (Option I)) (event : A → ε → Option A)
    (fires : A → ε → ι → Bool) :
    Scene (RepeatedActFut Fut I) (Timed A) Duration (ε ⊕ Duration) (ι ⊕ Instant) Bool where
  poll lapse self w :=
    (self.pollWaking factory pollFut ⟨w.now, w.now + lapse, self.elapsed w.now⟩ w.srv).map
      fun p => ⟨p.out, p.fut, ⟨p.world, w.now⟩, p.wakes⟩
  event w
    | .inl e => (event w.srv e).map fun srv => ⟨srv, w.now⟩
    | .inr d => some ⟨w.srv, w.now + d⟩
  fires w
    | .inl e, .inl i => fires w.srv e i
    | .inr d, .inr deadline => deadline ≤ w.now + d
    | _, _ => false

/-- The future of a round, by itself. -/
def roundScene (pollFut : Fut → A → PollOut Fut A ι (Option I)) (event : A → ε → Option A)
    (fires : A → ε → ι → Bool) : Scene Fut A Unit ε ι (Option I) where
  poll _ fut srv := some (pollFut fut srv)
  event := event
  fires := fires

variable {factory : I → A → Fut × A} {pollFut : Fut → A → PollOut Fut A ι (Option I)}
  {event : A → ε → Option A} {fires : A → ε → ι → Bool} {Parked : Fut → A → List ι → Prop}

/-- The future of the round has the waker where it will, or the timer has it and is not due. -/
def RepeatedParked (Parked : Fut → A → List ι → Prop) (g : RepeatedActFut Fut I) (w : Timed A)
    (wakers : List (ι ⊕ Instant)) : Prop :=
  (∃ fut, g.fut = .polling fut ∧ ∃ sources, Parked fut w.srv sources ∧
    ∀ i ∈ sources, .inl i ∈ wakers) ∨
  ∃ sleep, g.fut = .waiting sleep ∧ w.now < sleep.deadline ∧ .inr sleep.deadline ∈ wakers

/-- **A `RepeatedActFut` leaves its waker with all that it waits for**, if the futures of its
    rounds do. -/
theorem repeated_attentive (h : Attentive (roundScene pollFut event fires) Parked) :
    Attentive (RepeatedActFut.scene factory pollFut event fires) (RepeatedParked Parked) where
  quiet := by
    rintro g w wakers (⟨fut, hslot, sources, hparked, -⟩ | ⟨sleep, hslot, hdue, -⟩) lapse
    · obtain ⟨sources', hpoll⟩ := h.quiet hparked ()
      have hpoll : pollFut fut w.srv = ⟨none, fut, w.srv, ⟨false, sources'⟩⟩ :=
        Option.some.inj hpoll
      refine ⟨sources'.map .inl, ?_⟩
      simp only [RepeatedActFut.scene, RepeatedActFut.pollWaking, hslot, hpoll, Option.map_some]
      rw [← hslot]
    · refine ⟨[.inr sleep.deadline], ?_⟩
      have hasleep : g.elapsed w.now = false := by
        simpa [RepeatedActFut.elapsed, hslot] using hdue
      simp [RepeatedActFut.scene, RepeatedActFut.pollWaking, hslot, hasleep]
  more := by
    rintro g w wakers wakers' hsub
      (⟨fut, hslot, sources, hparked, hall⟩ | ⟨sleep, hslot, hdue, hmem⟩)
    · exact Or.inl ⟨fut, hslot, sources, hparked, fun i hi => hsub (hall i hi)⟩
    · exact Or.inr ⟨sleep, hslot, hdue, hsub hmem⟩
  poll := by
    intro lapse g w p hp hout hself
    obtain ⟨q, hq, rfl⟩ := Option.map_eq_some_iff.mp hp
    unfold RepeatedActFut.pollWaking at hq
    cases hslot : g.fut with
    | polling fut =>
        simp only [hslot] at hq
        rcases hpoll : pollFut fut w.srv with ⟨_ | _ | res, fut', srv', ⟨self, sources⟩⟩
        · simp only [hpoll] at hq
          obtain rfl := Option.some.inj hq
          have hparked := h.poll (show (roundScene pollFut event fires).poll () fut w.srv = some _
            from congrArg some hpoll) rfl hself
          exact Or.inl ⟨fut', rfl, sources, hparked, fun i hi => List.mem_map_of_mem hi⟩
        · simp only [hpoll] at hq
          obtain rfl := Option.some.inj hq
          cases hout
        · simp only [hpoll] at hq
          split at hq
          · cases hq
          · obtain rfl := Option.some.inj hq
            cases hself
          · obtain rfl := Option.some.inj hq
            cases hout
    | waiting sleep =>
        simp only [hslot] at hq
        split at hq
        · obtain rfl := Option.some.inj hq
          cases hself
        · rename_i hasleep
          obtain rfl := Option.some.inj hq
          refine Or.inr ⟨sleep, hslot, ?_, List.mem_singleton.mpr rfl⟩
          simpa [RepeatedActFut.elapsed, hslot] using hasleep
    | empty =>
        simp only [hslot] at hq
        split at hq
        · cases hq
        · obtain rfl := Option.some.inj hq
          cases hself
  event := by
    rintro g w w' (e | d) wakers hparked he hsilent
    · obtain ⟨srv, hsrv, rfl⟩ := Option.map_eq_some_iff.mp he
      rcases hparked with ⟨fut, hslot, sources, hinner, hall⟩ | ⟨sleep, hslot, hdue, hmem⟩
      · refine Or.inl ⟨fut, hslot, sources, ?_, hall⟩
        exact h.event hinner hsrv fun i hi => hsilent (.inl i) (hall i hi)
      · exact Or.inr ⟨sleep, hslot, hdue, hmem⟩
    · obtain rfl := Option.some.inj he
      rcases hparked with ⟨fut, hslot, sources, hinner, hall⟩ | ⟨sleep, hslot, hdue, hmem⟩
      · exact Or.inl ⟨fut, hslot, sources, hinner, hall⟩
      · refine Or.inr ⟨sleep, hslot, ?_, hmem⟩
        have hnot := hsilent (.inr sleep.deadline) hmem
        simpa [RepeatedActFut.scene] using hnot

/-- The future of a round that is over when its reply is there. -/
def pollReply (_ : Unit) (replied : Bool) : PollOut Unit Bool Unit (Option Unit) :=
  if replied then ⟨some (some ()), (), replied, ⟨false, []⟩⟩
  else ⟨none, (), replied, ⟨false, [()]⟩⟩

theorem reply_attentive : Attentive
    (roundScene pollReply (fun _ (_ : Unit) => some true) fun _ _ _ => true)
    fun _ replied sources => replied = false ∧ () ∈ sources where
  quiet := by
    rintro _ replied sources ⟨rfl, -⟩ k
    exact ⟨[()], rfl⟩
  more := by
    rintro _ replied sources sources' hsub ⟨hnot, hmem⟩
    exact ⟨hnot, hsub hmem⟩
  poll := by
    intro k fut replied p hp hout _
    obtain rfl := Option.some.inj hp
    cases replied with
    | false => exact ⟨rfl, List.mem_singleton.mpr rfl⟩
    | true => cases hout
  event := by
    rintro _ replied replied' e sources ⟨-, hmem⟩ _ hsilent
    cases hsilent () hmem

/-- A `RepeatedActFut` whose rounds wait for a reply. -/
def replyScene : Scene (RepeatedActFut Unit Unit) (Timed Bool) Duration (Unit ⊕ Duration)
    (Unit ⊕ Instant) Bool :=
  RepeatedActFut.scene (fun _ _ => ((), false)) pollReply (fun _ _ => some true) fun _ _ _ => true

/-- **A `RepeatedActFut` that is left alone has nothing to do**, whatever the future of its
    rounds, if that loses no wake-up: while it is not resolved, and its task is not woken, its
    round has nothing to do, or its delay is not over. -/
theorem repeated_asleep (h : Attentive (roundScene pollFut event fires) Parked) {state : I}
    {guard : RetryGuard} {delay : Duration} {w : Timed A}
    {t : Task (RepeatedActFut Fut I) (Timed A) (ι ⊕ Instant) Bool}
    (hr : Lts.Reach (RepeatedActFut.scene factory pollFut event fires).step
      (.spawn (.new state guard delay) w) t)
    (hlive : t.live = true) (hidle : t.woken = false) :
    (∃ fut, t.fut.fut = .polling fut ∧ (roundScene pollFut event fires).Quiet fut t.world.srv) ∨
      ∃ sleep, t.fut.fut = .waiting sleep ∧ t.world.now < sleep.deadline := by
  rcases (repeated_attentive h).parked hr hlive hidle with
    ⟨fut, hslot, sources, hparked, -⟩ | ⟨sleep, hslot, hdue, -⟩
  · exact Or.inl ⟨fut, hslot, h.quiet hparked⟩
  · exact Or.inr ⟨sleep, hslot, hdue⟩

/-- The round is started, and the reply comes while its future is left alone; then the delay. -/
def repliesUnpolled : List (TaskEvent Duration (Unit ⊕ Duration)) :=
  [.poll 0, .poll 0, .world (.inl ()), .poll 0, .poll 0]

theorem repeated_asleep_delay :
    ∃ t, Lts.Reach replyScene.step
        (.spawn (.new () ⟨[], 60, 3⟩ 10) ⟨false, 100⟩) t ∧
      t.live = true ∧ t.woken = false ∧
      ∃ sleep, t.fut.fut = .waiting sleep ∧ t.world.now < sleep.deadline := by
  have hr : ∃ t, Lts.exec replyScene.step
      (.spawn (.new () ⟨[], 60, 3⟩ 10) ⟨false, 100⟩) repliesUnpolled = some t ∧
      t.live = true ∧ t.woken = false ∧ t.fut.fut = .waiting ⟨110⟩ := ⟨_, rfl, rfl, rfl, rfl⟩
  obtain ⟨t, hex, hlive, hidle, hslot⟩ := hr
  have hreach := Lts.reach_of_exec hex
  refine ⟨t, hreach, hlive, hidle, ?_⟩
  rcases repeated_asleep reply_attentive hreach hlive hidle with ⟨fut, hpolling, -⟩ | hwaits
  · rw [hslot] at hpolling
    cases hpolling
  · exact hwaits

/-! ### The next round -/

/-- Between two rounds: the next one is to be made from `res`. -/
def RepeatedActFut.Between (res : I) (g : RepeatedActFut Fut I) : Prop :=
  g.state = some res ∧ ∀ fut, g.fut ≠ .polling fut

/-- **What a poll between two rounds does**: it makes the next round, or empties the slot when the
    delay is over, or nothing. It wakes its own task unless it does nothing. -/
theorem between_polled {g : RepeatedActFut Fut I} {res : I} {w : Timed A} {lapse : Duration}
    {p : PollOut (RepeatedActFut Fut I) (Timed A) (ι ⊕ Instant) Bool} (hb : g.Between res)
    (hp : (RepeatedActFut.scene factory pollFut event fires).poll lapse g w = some p) :
    p.out = none ∧
      (g.fut = .empty ∧ p.fut.fut = .polling (factory res w.srv).1 ∧ p.wakes.self = true ∨
        ∃ sleep, g.fut = .waiting sleep ∧
          (sleep.deadline ≤ w.now ∧ p.fut = { g with fut := .empty } ∧ p.wakes.self = true ∨
            w.now < sleep.deadline ∧ p.fut = g)) := by
  obtain ⟨hstate, hslot⟩ := hb
  obtain ⟨q, hq, rfl⟩ := Option.map_eq_some_iff.mp hp
  unfold RepeatedActFut.pollWaking at hq
  cases hg : g.fut with
  | polling fut => exact absurd hg (hslot fut)
  | waiting sleep =>
      simp only [hg, RepeatedActFut.elapsed, decide_eq_true_eq] at hq
      by_cases hdue : sleep.deadline ≤ w.now
      · rw [if_pos hdue] at hq
        obtain rfl := Option.some.inj hq
        exact ⟨rfl, Or.inr ⟨sleep, rfl, Or.inl ⟨hdue, rfl, rfl⟩⟩⟩
      · rw [if_neg hdue] at hq
        obtain rfl := Option.some.inj hq
        exact ⟨rfl, Or.inr ⟨sleep, rfl, Or.inr ⟨Nat.lt_of_not_le hdue, rfl⟩⟩⟩
  | empty =>
      simp only [hg, hstate] at hq
      obtain rfl := Option.some.inj hq
      exact ⟨rfl, Or.inl ⟨rfl, rfl, rfl⟩⟩

/-- A poll of a round leaves the future in the round, or ends it with what the next one is made
    from, or resolves. -/
theorem round_polled {g : RepeatedActFut Fut I} {fut : Fut} {w : Timed A} {lapse : Duration}
    {p : PollOut (RepeatedActFut Fut I) (Timed A) (ι ⊕ Instant) Bool} (hslot : g.fut = .polling fut)
    (hp : (RepeatedActFut.scene factory pollFut event fires).poll lapse g w = some p)
    (hout : p.out = none) :
    (∃ fut', p.fut.fut = .polling fut') ∨ ∃ res, p.fut.Between res := by
  obtain ⟨q, hq, rfl⟩ := Option.map_eq_some_iff.mp hp
  simp only [RepeatedActFut.pollWaking, hslot] at hq
  split at hq
  · obtain rfl := Option.some.inj hq
    exact Or.inl ⟨_, rfl⟩
  · split at hq
    · cases hq
    · obtain rfl := Option.some.inj hq
      exact Or.inr ⟨_, rfl, fun fut hfut => by cases hfut⟩
    · obtain rfl := Option.some.inj hq
      cases hout
  · obtain rfl := Option.some.inj hq
    cases hout

/-- Between two rounds no poll panics. -/
theorem between_polls {g : RepeatedActFut Fut I} {res : I} (hb : g.Between res) (lapse : Duration)
    (w : Timed A) :
    ∃ p, (RepeatedActFut.scene factory pollFut event fires).poll lapse g w = some p := by
  obtain ⟨hstate, hslot⟩ := hb
  simp only [RepeatedActFut.scene, RepeatedActFut.pollWaking]
  cases hg : g.fut with
  | polling fut => exact absurd hg (hslot fut)
  | waiting sleep => by_cases hdue : g.elapsed w.now = true <;> simp [hdue]
  | empty => simp [hstate]

/-- Between two rounds there is something to do, unless the delay is not over. -/
theorem between_busy {g : RepeatedActFut Fut I} {res : I} {w : Timed A} (hb : g.Between res)
    (hdue : ∀ sleep, g.fut = .waiting sleep → sleep.deadline ≤ w.now) :
    ¬ (RepeatedActFut.scene factory pollFut event fires).Quiet g w := by
  intro hquiet
  obtain ⟨sources, hp⟩ := hquiet 0
  obtain ⟨-, ⟨-, -, hself⟩ | ⟨sleep, hslot, ⟨-, -, hself⟩ | ⟨hearly, -⟩⟩⟩ := between_polled hb hp
  · cases hself
  · cases hself
  · exact absurd (hdue sleep hslot) (Nat.not_le_of_lt hearly)

variable {t t' : Task (RepeatedActFut Fut I) (Timed A) (ι ⊕ Instant) Bool}

/-- **What a poll of the task does between two rounds.** -/
theorem between_step {res : I} {lapse : Duration} (hlive : t.live = true) (hb : t.fut.Between res)
    (hs : (RepeatedActFut.scene factory pollFut event fires).step t (.poll lapse) = some t') :
    t'.live = true ∧
      (t.fut.fut = .empty ∧ t'.fut.fut = .polling (factory res t.world.srv).1 ∨
        ∃ sleep, t.fut.fut = .waiting sleep ∧
          (t'.fut.Between res ∧ t'.fut.fut = .empty ∨
            t'.fut = t.fut ∧ t.world.now < sleep.deadline)) := by
  simp only [Scene.step] at hs
  split at hs
  · have hpolls : ∃ p, (RepeatedActFut.scene factory pollFut event fires).poll lapse t.fut
        t.world = some p := between_polls hb lapse t.world
    obtain ⟨p, hp⟩ := hpolls
    simp only [hp] at hs
    obtain rfl := Option.some.inj hs
    have hpanicked : t.panicked = false := by
      simp only [Task.live, Bool.and_eq_true, Bool.not_eq_true'] at hlive
      exact hlive.2
    obtain ⟨hout, hcase⟩ := between_polled hb hp
    refine ⟨by simp [Task.live, hout, hpanicked], ?_⟩
    rcases hcase with ⟨hslot, hround, -⟩ | ⟨sleep, hslot, ⟨-, hempty, -⟩ | ⟨hearly, hsame⟩⟩
    · exact Or.inl ⟨hslot, hround⟩
    · refine Or.inr ⟨sleep, hslot, Or.inl ?_⟩
      show p.fut.Between res ∧ p.fut.fut = .empty
      rw [hempty]
      exact ⟨⟨hb.1, fun fut hfut => by cases hfut⟩, rfl⟩
    · exact Or.inr ⟨sleep, hslot, Or.inr ⟨hsame, hearly⟩⟩
  · cases hs

/-- Only a poll changes the future. -/
theorem unpolled_step {e : TaskEvent Duration (ε ⊕ Duration)} (he : ∀ k, e ≠ .poll k)
    (hs : (RepeatedActFut.scene factory pollFut event fires).step t e = some t') :
    t'.fut = t.fut ∧ t'.live = t.live := by
  cases e with
  | poll k => exact absurd rfl (he k)
  | world e =>
      obtain ⟨world, -, rfl⟩ := Option.map_eq_some_iff.mp hs
      exact ⟨rfl, rfl⟩
  | wake =>
      obtain rfl := Option.some.inj hs
      exact ⟨rfl, rfl⟩

/-- Time does not run back. -/
theorem now_step {e : TaskEvent Duration (ε ⊕ Duration)}
    (hs : (RepeatedActFut.scene factory pollFut event fires).step t e = some t') :
    t.world.now ≤ t'.world.now := by
  cases e with
  | poll lapse =>
      simp only [Scene.step] at hs
      split at hs
      · split at hs
        · obtain rfl := Option.some.inj hs
          exact Nat.le_refl _
        · rename_i p hp
          obtain ⟨q, -, rfl⟩ := Option.map_eq_some_iff.mp hp
          obtain rfl := Option.some.inj hs
          exact Nat.le_refl _
      · cases hs
  | world e =>
      obtain ⟨world, hevent, rfl⟩ := Option.map_eq_some_iff.mp hs
      cases e with
      | inl e =>
          obtain ⟨srv, -, rfl⟩ := Option.map_eq_some_iff.mp hevent
          exact Nat.le_refl _
      | inr d =>
          obtain rfl := Option.some.inj hevent
          exact Nat.le_add_right ..
  | wake =>
      obtain rfl := Option.some.inj hs
      exact Nat.le_refl _

/-- While the future is to be polled it is in a round, or between two. -/
def InRounds (t : Task (RepeatedActFut Fut I) (Timed A) (ι ⊕ Instant) Bool) : Prop :=
  t.live = true → (∃ fut, t.fut.fut = .polling fut) ∨ ∃ res, t.fut.Between res

theorem inRounds_step {e : TaskEvent Duration (ε ⊕ Duration)} (h : InRounds t)
    (hs : (RepeatedActFut.scene factory pollFut event fires).step t e = some t') : InRounds t' := by
  intro hlive'
  by_cases he : ∃ k, e = .poll k
  · obtain ⟨lapse, rfl⟩ := he
    by_cases hlive : t.live = true
    · rcases h hlive with ⟨fut, hslot⟩ | ⟨res, hb⟩
      · simp only [Scene.step] at hs
        split at hs
        · split at hs
          · obtain rfl := Option.some.inj hs
            simp [Task.live] at hlive'
          · rename_i p hp
            obtain rfl := Option.some.inj hs
            simp only [Task.live, Bool.and_eq_true, Option.isNone_iff_eq_none] at hlive'
            exact round_polled hslot hp hlive'.1
        · cases hs
      · obtain ⟨-, ⟨-, hround⟩ | ⟨sleep, -, ⟨hb', -⟩ | ⟨hsame, -⟩⟩⟩ := between_step hlive hb hs
        · exact Or.inl ⟨_, hround⟩
        · exact Or.inr ⟨res, hb'⟩
        · exact Or.inr ⟨res, hsame ▸ hb⟩
    · simp [Scene.step, hlive] at hs
  · obtain ⟨hfut, hsame⟩ := unpolled_step (fun k heq => he ⟨k, heq⟩) hs
    rw [hfut]
    exact h (hsame ▸ hlive')

/-- **The rounds go on**, in each execution that polls the task where it was woken, and in which
    time does not stand still: while the future is not resolved it is in a round or between two,
    and from there the next round is made, of what the last one came to. -/
theorem rounds_go_on (h : Attentive (roundScene pollFut event fires) Parked) {state : I}
    {guard : RetryGuard} {delay : Duration} {w : Timed A}
    {x : Lts.Execution (RepeatedActFut.scene factory pollFut event fires).step
      (.spawn (.new state guard delay) w)}
    (hfair : x.WeaklyFair fun _ e => ∃ k, e = .poll k)
    (htime : ∀ instant, ∃ n, instant ≤ (x.state n).world.now) :
    (∀ n, (x.state n).live = true →
      (∃ fut, (x.state n).fut.fut = .polling fut) ∨ ∃ res, (x.state n).fut.Between res) ∧
    ∀ res, x.LeadsTo (fun t => t.live = true ∧ t.fut.Between res) fun t =>
      t.live = true ∧ ∃ srv, t.fut.fut = .polling (factory res srv).1 := by
  have hattentive : Attentive (RepeatedActFut.scene factory pollFut event fires)
      (RepeatedParked Parked) := repeated_attentive h
  refine ⟨fun n => (x.reach n).invariant (P := InRounds)
    (fun _ => Or.inr ⟨state, rfl, fun fut hfut => by cases hfut⟩) fun _ _ _ => inRounds_step, ?_⟩
  intro res
  -- an empty slot is filled
  have hfilled : x.LeadsTo
      (fun t => t.live = true ∧ t.fut.Between res ∧ t.fut.fut = .empty) fun t =>
      t.live = true ∧ ∃ srv, t.fut.fut = .polling (factory res srv).1 := by
    refine hattentive.leads hfair ?_ ?_ ?_
    · rintro t ⟨hlive, hb, hempty⟩
      refine ⟨hlive, between_busy hb fun sleep hslot => ?_⟩
      rw [hempty] at hslot
      cases hslot
    · rintro t lapse t' ⟨hlive, hb, hempty⟩ hs
      obtain ⟨hlive', ⟨-, hround⟩ | ⟨sleep, hslot, -⟩⟩ := between_step hlive hb hs
      · exact ⟨hlive', _, hround⟩
      · rw [hempty] at hslot
        cases hslot
    · rintro t e t' ⟨hlive, hb, hempty⟩ he hs
      obtain ⟨hfut, hsame⟩ := unpolled_step he hs
      rw [hfut, hsame]
      exact ⟨hlive, hb, hempty⟩
  -- a delay that is over empties it
  have hemptied : ∀ sleep, x.LeadsTo
      (fun t => t.live = true ∧ t.fut.Between res ∧ t.fut.fut = .waiting sleep ∧
        sleep.deadline ≤ t.world.now) fun t =>
      t.live = true ∧ t.fut.Between res ∧ t.fut.fut = .empty := by
    intro sleep
    refine hattentive.leads hfair ?_ ?_ ?_
    · rintro t ⟨hlive, hb, hslot, hdue⟩
      refine ⟨hlive, between_busy hb fun sleep' hslot' => ?_⟩
      obtain rfl := FutureSlot.waiting.inj (hslot.symm.trans hslot')
      exact hdue
    · rintro t lapse t' ⟨hlive, hb, hslot, hdue⟩ hs
      obtain ⟨hlive', ⟨hempty, -⟩ | ⟨sleep', hslot', ⟨hb', hempty⟩ | ⟨-, hearly⟩⟩⟩ :=
        between_step hlive hb hs
      · rw [hslot] at hempty
        cases hempty
      · exact ⟨hlive', hb', hempty⟩
      · obtain rfl := FutureSlot.waiting.inj (hslot.symm.trans hslot')
        exact absurd hdue (Nat.not_le_of_lt hearly)
    · rintro t e t' ⟨hlive, hb, hslot, hdue⟩ he hs
      obtain ⟨hfut, hsame⟩ := unpolled_step he hs
      rw [hfut, hsame]
      exact ⟨hlive, hb, hslot, Nat.le_trans hdue (now_step hs)⟩
  -- and the delay gets over
  have hdue : ∀ sleep, x.LeadsTo
      (fun t => t.live = true ∧ t.fut.Between res ∧ t.fut.fut = .waiting sleep) fun t =>
      t.live = true ∧ t.fut.Between res ∧ t.fut.fut = .empty ∨
        (t.live = true ∧ t.fut.Between res ∧ t.fut.fut = .waiting sleep ∧
          sleep.deadline ≤ t.world.now) := by
    intro sleep n hn
    obtain ⟨m, hm⟩ := htime sleep.deadline
    have hlate : sleep.deadline ≤ (x.state (max n m)).world.now :=
      x.stays (I := fun _ => True) (P := fun t => sleep.deadline ≤ t.world.now)
        (fun _ => trivial) (fun t e t' _ hle hs => Nat.le_trans hle (now_step hs))
        (Nat.le_max_right n m) hm
    have hlasts := x.lasts_until (I := fun _ => True)
      (P := fun t => t.live = true ∧ t.fut.Between res ∧ t.fut.fut = .waiting sleep)
      (Q := fun t => t.live = true ∧ t.fut.Between res ∧ t.fut.fut = .empty)
      (fun _ => trivial) (by
        rintro t e t' - ⟨hlive, hb, hslot⟩ hs
        by_cases he : ∃ k, e = .poll k
        · obtain ⟨lapse, rfl⟩ := he
          obtain ⟨hlive', ⟨hempty, -⟩ | ⟨sleep', -, ⟨hb', hempty⟩ | ⟨hsame, -⟩⟩⟩ :=
            between_step hlive hb hs
          · rw [hslot] at hempty
            cases hempty
          · exact Or.inl ⟨hlive', hb', hempty⟩
          · exact Or.inr ⟨hlive', hsame ▸ hb, hsame ▸ hslot⟩
        · obtain ⟨hfut, hsame⟩ := unpolled_step (fun k heq => he ⟨k, heq⟩) hs
          rw [hfut, hsame]
          exact Or.inr ⟨hlive, hb, hslot⟩)
      (Nat.le_max_left n m) hn
    rcases hlasts with ⟨k, hnk, -, hempty⟩ | ⟨hlive, hb, hslot⟩
    · exact ⟨k, hnk, Or.inl hempty⟩
    · exact ⟨max n m, Nat.le_max_left n m, Or.inr ⟨hlive, hb, hslot, hlate⟩⟩
  intro n hn
  obtain ⟨hlive, hb⟩ := hn
  cases hslot : (x.state n).fut.fut with
  | polling fut => exact absurd hslot (hb.2 fut)
  | waiting sleep =>
      have hempties := ((hdue sleep).trans ((Lts.Execution.LeadsTo.of_imp fun _ h => h).or
        (hemptied sleep)))
      exact (hempties.trans hfilled) n ⟨hlive, hb, hslot⟩
  | empty => exact hfilled n ⟨hlive, hb, hslot⟩

/-- Two rounds whose replies come, with the delay between them; the second is one too many. -/
def repliesTwice : List (TaskEvent Duration (Unit ⊕ Duration)) :=
  [.poll 0, .poll 0, .world (.inl ()), .poll 0, .poll 0, .world (.inr 10), .poll 0, .poll 0,
    .poll 0, .world (.inl ()), .poll 0]

/-- Then nothing happens but that time passes. -/
def repliesThenTime : Lts.Execution replyScene.step
    (.spawn (.new () ⟨[], 60, 2⟩ 10) ⟨false, 100⟩) :=
  .planned _ (fun _ => [.world (.inr 1)]) _ repliesTwice

/-- What holds when both rounds are over. -/
def RepliesOver (_ : List (Task (RepeatedActFut Unit Unit) (Timed Bool) (Unit ⊕ Instant) Bool ×
      TaskEvent Duration (Unit ⊕ Duration)))
    (t : Task (RepeatedActFut Unit Unit) (Timed Bool) (Unit ⊕ Instant) Bool) : Prop :=
  t.live = false

theorem repliesOver_time {h : List (Task (RepeatedActFut Unit Unit) (Timed Bool)
      (Unit ⊕ Instant) Bool × TaskEvent Duration (Unit ⊕ Duration))}
    {t : Task (RepeatedActFut Unit Unit) (Timed Bool) (Unit ⊕ Instant) Bool}
    (hdone : RepliesOver h t) :
    ∃ t', Lts.exec replyScene.step t [.world (.inr 1)] = some t' ∧
      RepliesOver (h ++ Lts.history replyScene.step t [.world (.inr 1)]) t' ∧
      t.world.now < t'.world.now := by
  refine ⟨_, rfl, ?_, ?_⟩
  · exact hdone
  · exact Nat.lt_succ_self _

theorem rounds_go_on_twice :
    ∃ x : Lts.Execution replyScene.step (.spawn (.new () ⟨[], 60, 2⟩ 10) ⟨false, 100⟩),
      (x.WeaklyFair fun _ e => ∃ k, e = .poll k) ∧
      (∀ instant, ∃ n, instant ≤ (x.state n).world.now) ∧
      (x.state 4).fut.Between () ∧
      ∃ n, 4 ≤ n ∧ (x.state n).live = true ∧ (x.state n).fut.fut = .polling () := by
  have hover : ∃ t, Lts.exec replyScene.step (.spawn (.new () ⟨[], 60, 2⟩ 10) ⟨false, 100⟩)
      repliesTwice = some t ∧ RepliesOver (Lts.history replyScene.step
        (.spawn (.new () ⟨[], 60, 2⟩ 10) ⟨false, 100⟩) repliesTwice) t := ⟨_, rfl, rfl⟩
  have hfair : repliesThenTime.WeaklyFair fun _ e => ∃ k, e = .poll k := by
    refine Lts.Execution.planned_fair (J := RepliesOver) hover (fun h t hdone => ?_)
      fun _ t hdone => Or.inr ?_
    · obtain ⟨t', he, hdone', -⟩ := repliesOver_time hdone
      exact ⟨t', he, hdone'⟩
    · rintro e t' ⟨k, rfl⟩ hs
      simp [Scene.step, show t.live = false from hdone] at hs
  have htime : ∀ instant, ∃ n, instant ≤ (repliesThenTime.state n).world.now := by
    intro instant
    obtain ⟨n, -, -, hn⟩ := Lts.Execution.planned_grows (J := RepliesOver)
      (fun t => t.world.now) hover (fun _ _ hdone => repliesOver_time hdone) instant
    exact ⟨n, hn⟩
  have hb : (repliesThenTime.state 4).fut.Between () := ⟨rfl, fun fut hfut => by cases hfut⟩
  refine ⟨repliesThenTime, hfair, htime, hb, ?_⟩
  obtain ⟨-, hnext⟩ := rounds_go_on reply_attentive hfair htime
  obtain ⟨n, hn, hlive, srv, hround⟩ := hnext () 4 ⟨rfl, hb⟩
  exact ⟨n, hn, hlive, hround⟩

end Repeated

end Blahaj
