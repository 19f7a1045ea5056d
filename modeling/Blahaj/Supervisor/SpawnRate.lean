/-
  File:      Blahaj/Supervisor/SpawnRate.lean
  Subject:   HOW OFTEN A CARETAKER SPAWNS: the rate of `RepeatedActFut` seen from the whole actor.

  RestartRate.lean drives a future alone, whose rounds end as its environment says. In a caretaker
  the round is a message to itself, the `Run` behind it, and the reply. Its daemon is such a
  future all the same: between its polls the actor does much, but nothing that the future sees.

  * `RepeatedActFut.poll_forget` -- the slot machine looks at the answer of its round only;
  * `Follows`, `driven_run` -- every run of a caretaker shows what a driven future shows;
  * `sent_spawned` -- each `Run` that is sent is handled once, one at a time;
  * `spawn_rate` -- the give-up rule, the delay and a bound on the children in a stretch of a run.
-/
import Blahaj.Supervisor.RestartRate
import Blahaj.Supervisor.Termination

namespace Blahaj

open SlidingWindow
open RestartRate (Driven drive RoundPoll RoundEvent)

variable {S : Setting} {s s' : Caretaker} {st : Stage}

/-! ## 1. The future without its round -/

section Forget

variable {Fut I A : Type}

def FutureSlot.forget : FutureSlot Fut → FutureSlot Unit
  | .polling _ => .polling ()
  | .waiting sleep => .waiting sleep
  | .empty => .empty

def RepeatedActFut.forget (self : RepeatedActFut Fut I) : RepeatedActFut Unit I where
  fut := self.fut.forget
  state := self.state
  retryGuard := self.retryGuard
  retryInterval := self.retryInterval

/-- What the round's future answers, if it is polled. -/
def RepeatedActFut.answer (pollFut : Fut → A → Poll (Option I) × Fut × A)
    (self : RepeatedActFut Fut I) (srv : A) : Poll (Option I) :=
  match self.fut with
  | .polling fut => (pollFut fut srv).1
  | _ => .pending

/-- **The slot machine looks at the answer of its round only.** -/
theorem RepeatedActFut.poll_forget (factory : I → A → Fut × A)
    (pollFut : Fut → A → Poll (Option I) × Fut × A) (clock : Clock) (g : RepeatedActFut Fut I)
    (srv : A) :
    g.forget.poll (fun _ _ => ((), ())) (fun _ _ => (g.answer pollFut srv, (), ())) clock () =
      (g.poll factory pollFut clock srv).map fun r => (r.1, r.2.1.forget, ()) := by
  obtain ⟨slot, state, guard, interval⟩ := g
  cases slot with
  | empty =>
      cases state with
      | none => rfl
      | some state => rfl
  | waiting sleep =>
      simp only [RepeatedActFut.forget, FutureSlot.forget, RepeatedActFut.poll]
      cases clock.elapsed <;> rfl
  | polling fut =>
      simp only [RepeatedActFut.forget, FutureSlot.forget, RepeatedActFut.poll,
        RepeatedActFut.answer]
      rcases hp : pollFut fut srv with ⟨r, fut', srv'⟩
      cases r with
      | pending => rfl
      | ready res =>
          cases res with
          | none => rfl
          | some res =>
              simp only
              rcases guard.mark clock.now with _ | ⟨_ | _, guard'⟩ <;> rfl

end Forget

/-! ## 2. What a run of a caretaker shows -/

/-- What one step shows of the daemon: a `Run` is sent, its end is marked, or it was the last. A
    poll that panics at the mark shows nothing. -/
def Caretaker.shown (s : Caretaker) : Event → List RoundEvent
  | .pollDaemon clock => match s.daemon with
    | .running fut => match fut.fut with
      | .empty => [.start clock.now]
      | .waiting _ => []
      | .polling req => match s.replies.lookup req with
        | none => []
        | some res =>
          if res.stopRx.isNone then [.stop]
          else if (fut.retryGuard.mark clock.now).isSome then [.mark clock.now]
          else []
    | _ => []
  | _ => []

/-- The rounds of a run, in order. -/
def rounds (h : List (Caretaker × Event)) : List RoundEvent :=
  h.flatMap fun x => x.1.shown x.2

theorem rounds_append (h k : List (Caretaker × Event)) :
    rounds (h ++ k) = rounds h ++ rounds k := List.flatMap_append

theorem rounds_snoc (h : List (Caretaker × Event)) (s : Caretaker) (e : Event) :
    rounds (h ++ [(s, e)]) = rounds h ++ s.shown e := by
  simp [rounds]

/-- The last clock reading after an event, where `t` is the one before it. -/
def Event.readAfter (t : Instant) : Event → Instant
  | .pollDaemon clock => clock.later
  | _ => t

/-- The last clock reading of a run. -/
def lastRead (h : List (Caretaker × Event)) : Instant := h.foldl (fun t x => x.2.readAfter t) 0

/-- The deadline the daemon sleeps until. -/
def Caretaker.deadline (s : Caretaker) : Option Instant :=
  match s.daemon with
  | .running fut => match fut.fut with
    | .waiting sleep => some sleep.deadline
    | _ => none
  | _ => none

/-- What is assumed of a step: a poll of the daemon reads the clock after the instant `t`, and
    finds a sleep elapsed only after its deadline. -/
def Caretaker.Timely (s : Caretaker) (t : Instant) : Event → Prop
  | .pollDaemon clock => t ≤ clock.now ∧ clock.now ≤ clock.later ∧
    (clock.elapsed = true → ∀ deadline, s.deadline = some deadline → deadline ≤ clock.now)
  | _ => True

instance (s : Caretaker) (t : Instant) : (e : Event) → Decidable (s.Timely t e)
  | .pollDaemon clock => inferInstanceAs (Decidable (t ≤ clock.now ∧ clock.now ≤ clock.later ∧
      (clock.elapsed = true → ∀ deadline, s.deadline = some deadline → deadline ≤ clock.now)))
  | .arrive _ | .handle _ | .startDaemon | .pollRun _ _ | .pollWait _ | .pollTerminate _ |
    .exit _ _ | .reap _ | .unhealthy _ => inferInstanceAs (Decidable True)

/-- From the instant `t` on clock readings do not decrease, and a sleep does not elapse before its
    deadline. -/
def OnTimeFrom : Instant → List (Caretaker × Event) → Prop
  | _, [] => True
  | t, (s, e) :: h => s.Timely t e ∧ OnTimeFrom (e.readAfter t) h

def OnTime (h : List (Caretaker × Event)) : Prop := OnTimeFrom 0 h

instance decidableOnTimeFrom :
    (t : Instant) → (h : List (Caretaker × Event)) → Decidable (OnTimeFrom t h)
  | _, [] => inferInstanceAs (Decidable True)
  | t, (s, e) :: h =>
    have := decidableOnTimeFrom (e.readAfter t) h
    inferInstanceAs (Decidable (s.Timely t e ∧ OnTimeFrom (e.readAfter t) h))

instance (h : List (Caretaker × Event)) : Decidable (OnTime h) :=
  inferInstanceAs (Decidable (OnTimeFrom 0 h))

theorem onTimeFrom_append {t : Instant} {h k : List (Caretaker × Event)} :
    OnTimeFrom t (h ++ k) ↔
      OnTimeFrom t h ∧ OnTimeFrom (h.foldl (fun t x => x.2.readAfter t) t) k := by
  induction h generalizing t with
  | nil => simp [OnTimeFrom]
  | cons x h ih => simp [OnTimeFrom, ih, and_assoc]

theorem onTime_append {h k : List (Caretaker × Event)} :
    OnTime (h ++ k) ↔ OnTime h ∧ OnTimeFrom (lastRead h) k := onTimeFrom_append

theorem onTime_snoc {h : List (Caretaker × Event)} {e : Event} :
    OnTime (h ++ [(s, e)]) ↔ OnTime h ∧ s.Timely (lastRead h) e := by
  rw [onTime_append]
  simp [OnTimeFrom]

theorem lastRead_snoc (h : List (Caretaker × Event)) (s : Caretaker) (e : Event) :
    lastRead (h ++ [(s, e)]) = e.readAfter (lastRead h) := by
  simp [lastRead]

/-- The line of a daemon that gives up. -/
def Setting.givesUp (S : Setting) : Custom := ⟨.error, S.name, "Retry limits exceeded, giving up"⟩

/-! ## 3. One step -/

/-- **Everything a poll of the daemon comes to.** -/
inductive Caretaker.DaemonPolled (S : Setting) (s : Caretaker) (clock : Clock)
    (fut : RepeatedActFut Nat Receiver) (s' : Caretaker) : Prop where
  /-- the clock underflows at the mark -/
  | panics (hshown : s.shown (.pollDaemon clock) = []) (hd : s'.daemon = .dropped)
      (hlog : s'.log = s.log) : DaemonPolled S s clock fut s'
  | pending {fut' : RepeatedActFut Nat Receiver} {s₁ : Caretaker}
      (hp : fut.poll Caretaker.sendRun (Caretaker.pollRound S) clock s = some (.pending, fut', s₁))
      (hs : s' = { s₁ with daemon := .running fut' }) : DaemonPolled S s clock fut s'
  /-- the closure behind the future has run, and may have panicked -/
  | resolved {res : Bool} {fut' : RepeatedActFut Nat Receiver} {s₁ : Caretaker}
      (hp : fut.poll Caretaker.sendRun (Caretaker.pollRound S) clock s =
        some (.ready res, fut', s₁))
      (hd : s'.daemon = .ended res ∨ s'.daemon = .dropped)
      (hlog : s'.log = s₁.log ++ if res then [] else [S.givesUp]) : DaemonPolled S s clock fut s'

theorem broadcastStopped_rest (s : Caretaker) :
    ((Caretaker.settle s.broadcastStopped).daemon = s.daemon ∨
      (Caretaker.settle s.broadcastStopped).daemon = .dropped) ∧
    (Caretaker.settle s.broadcastStopped).log = s.log := by
  unfold Caretaker.broadcastStopped
  cases s.stoppedTx with
  | none => exact ⟨Or.inr rfl, rfl⟩
  | some _ =>
      simp only
      split
      · exact ⟨Or.inl rfl, rfl⟩
      · exact ⟨Or.inr rfl, rfl⟩

/-- Of the panics of a poll only that of the clock can happen. -/
theorem Shape.daemon_polled (h : Shape S s st) {fut : RepeatedActFut Nat Receiver}
    (hd : s.daemon = .running fut) {clock : Clock}
    (hs : s.step S (.pollDaemon clock) = some s') : s.DaemonPolled S clock fut s' := by
  obtain ⟨st', h', -⟩ := shape_step h hs
  simp only [Caretaker.step, hd, Option.some.injEq] at hs
  unfold Caretaker.pollDaemon at hs
  split at hs
  · -- nobody would answer the round
    subst hs
    exact absurd (h'.panic_possible rfl) (by simp [Panic.Possible])
  · cases hp : fut.poll Caretaker.sendRun (Caretaker.pollRound S) clock s with
    | none =>
        simp only [hp] at hs
        subst hs
        rcases RepeatedActFut.poll_panics hp with ⟨hslot, -⟩ | ⟨req, req', res, s₁, hslot, hpf, hm⟩
        · have hposs := h'.panic_possible (show _ = some Panic.noState by
            simp [Caretaker.settle, Caretaker.drop, hslot])
          exact absurd hposs (by simp [Panic.Possible])
        · refine .panics ?_ rfl rfl
          unfold Caretaker.pollRound at hpf
          cases hlook : s.replies.lookup req with
          | none => simp [hlook] at hpf
          | some r =>
              simp only [hlook, Prod.mk.injEq, Poll.ready.injEq] at hpf
              simp [Caretaker.shown, hd, hslot, hlook, hpf.1, hm]
    | some polled =>
        obtain ⟨r, fut', s₁⟩ := polled
        simp only [hp] at hs
        subst hs
        cases r with
        | pending => exact .pending hp rfl
        | ready res =>
            cases res with
            | true =>
                obtain ⟨hd', hlog⟩ := broadcastStopped_rest { s₁ with daemon := .ended true }
                exact .resolved hp hd' (hlog.trans (List.append_nil _).symm)
            | false =>
                obtain ⟨hd', hlog⟩ := broadcastStopped_rest { s₁ with
                  daemon := .ended false
                  status := .failed
                  log := s₁.log ++ [⟨.error, S.name, "Retry limits exceeded, giving up"⟩] }
                exact .resolved hp hd' hlog

/-- The driven future shows what the caretaker shows, where the poll does not panic. -/
theorem shown_forget {fut fut' : RepeatedActFut Nat Receiver} (hd : s.daemon = .running fut)
    {clock : Clock} {r : Poll Bool} {s₁ : Caretaker}
    (hp : fut.poll Caretaker.sendRun (Caretaker.pollRound S) clock s = some (r, fut', s₁))
    (t : Instant) :
    RestartRate.shown ⟨fut.forget, t, none⟩ ⟨clock, fut.answer (Caretaker.pollRound S) s⟩ =
      s.shown (.pollDaemon clock) := by
  cases hslot : fut.fut with
  | empty =>
      simp [RestartRate.shown, RepeatedActFut.forget, hslot, FutureSlot.forget, Caretaker.shown, hd]
  | waiting sleep =>
      simp [RestartRate.shown, RepeatedActFut.forget, hslot, FutureSlot.forget, Caretaker.shown, hd]
  | polling req =>
      simp only [RestartRate.shown, RepeatedActFut.forget, hslot, FutureSlot.forget,
        RepeatedActFut.answer, Caretaker.shown, hd, Caretaker.pollRound]
      simp only [RepeatedActFut.poll, hslot, Caretaker.pollRound] at hp
      cases hlook : s.replies.lookup req with
      | none => rfl
      | some res =>
          simp only [hlook] at hp ⊢
          cases hrx : res.stopRx with
          | none => rfl
          | some rx =>
              simp only [hrx] at hp ⊢
              cases hm : fut.retryGuard.mark clock.now with
              | none => simp [hm] at hp
              | some _ => simp

/-- The lines of a round are warnings. -/
theorem pollRound_log {req req' : Nat} {r : Poll (Option Receiver)} {s₁ : Caretaker}
    (h : s.pollRound S req = (r, req', s₁)) : S.givesUp ∈ s₁.log ↔ S.givesUp ∈ s.log := by
  unfold Caretaker.pollRound at h
  split at h
  · obtain ⟨-, -, rfl⟩ := h
    exact Iff.rfl
  · obtain ⟨-, -, rfl⟩ := h
    simp [Setting.givesUp]

theorem poll_log {fut fut' : RepeatedActFut Nat Receiver} {clock : Clock} {r : Poll Bool}
    {s₁ : Caretaker}
    (hp : fut.poll Caretaker.sendRun (Caretaker.pollRound S) clock s = some (r, fut', s₁)) :
    S.givesUp ∈ s₁.log ↔ S.givesUp ∈ s.log := by
  cases RepeatedActFut.polled hp with
  | busy _ hpf | again _ hpf _ | giveUp _ hpf _ | stopped _ hpf => exact pollRound_log hpf
  | asleep _ _ | woken _ _ | create _ _ => exact Iff.rfl

/-! ## 4. The daemon is a driven future -/

/-- The result of a future that has resolved. -/
def Poll.result {α : Type} : Poll α → Option α
  | .pending => none
  | .ready res => some res

/-- The daemon of the caretaker is the driven future, whose last clock reading is `t`; a caretaker
    that has panicked has none any more. -/
inductive Follows (S : Setting) (s : Caretaker) (t : Instant) : Driven Receiver → Prop where
  | notified (hd : s.daemon = .notified stopReceiver) (ht : t = 0) :
      Follows S s t (.new S.program.retry stopReceiver)
  | running {fut : RepeatedActFut Nat Receiver} (hd : s.daemon = .running fut) :
      Follows S s t ⟨fut.forget, t, none⟩
  | ended {fut : RepeatedActFut Unit Receiver} {clock : Instant} {res : Bool}
      (hd : s.daemon = .ended res) : Follows S s t ⟨fut, clock, some res⟩
  | dropped {d : Driven Receiver} (hd : s.daemon = .dropped) : Follows S s t d

/-- The daemon of another state with the same daemon, or none. -/
theorem Follows.same {t : Instant} {d : Driven Receiver} (h : Follows S s t d)
    (hd : s'.daemon = s.daemon ∨ s'.daemon = .dropped) : Follows S s' t d := by
  rcases hd with heq | hdrop
  · cases h with
    | notified hd ht => exact .notified (heq.trans hd) ht
    | running hd => exact .running (heq.trans hd)
    | ended hd => exact .ended (heq.trans hd)
    | dropped hd => exact .dropped (heq.trans hd)
  · exact .dropped hdrop

/-- **One poll of the daemon drives the future**, unless it panics at the mark. -/
theorem Follows.poll {t : Instant} {d : Driven Receiver} (hf : Follows S s t d)
    (hlog : S.givesUp ∈ s.log ↔ d.resolved = some false) {fut : RepeatedActFut Nat Receiver}
    (hd : s.daemon = .running fut) {clock : Clock} (hp : s.DaemonPolled S clock fut s') :
    (s.shown (.pollDaemon clock) = [] ∧ s'.daemon = .dropped ∧ s'.log = s.log) ∨
      ∃ e d', e.clock = clock ∧ d = ⟨fut.forget, t, none⟩ ∧ drive d e = some d' ∧
        RestartRate.shown d e = s.shown (.pollDaemon clock) ∧ Follows S s' clock.later d' ∧
        (S.givesUp ∈ s'.log ↔ d'.resolved = some false) := by
  have hdrive : ∀ {r : Poll Bool} {fut' : RepeatedActFut Nat Receiver} {s₁ : Caretaker},
      fut.poll Caretaker.sendRun (Caretaker.pollRound S) clock s = some (r, fut', s₁) →
      drive ⟨fut.forget, t, none⟩ ⟨clock, fut.answer (Caretaker.pollRound S) s⟩ =
        some ⟨fut'.forget, clock.later, r.result⟩ := by
    intro r fut' s₁ hp
    unfold drive
    simp only
    rw [RepeatedActFut.poll_forget Caretaker.sendRun, hp]
    cases r <;> rfl
  have hd' : d = ⟨fut.forget, t, none⟩ := by
    cases hf with
    | notified hd' _ => cases hd.symm.trans hd'
    | running hd' =>
        cases hd.symm.trans hd'
        rfl
    | ended hd' => cases hd.symm.trans hd'
    | dropped hd' => cases hd.symm.trans hd'
  subst hd'
  cases hp with
  | panics hshown hdrop hlog' => exact Or.inl ⟨hshown, hdrop, hlog'⟩
  | pending hp hs =>
      refine Or.inr ⟨⟨clock, _⟩, _, rfl, rfl, hdrive hp, shown_forget hd hp t, ?_, ?_⟩
      · exact .running (by rw [hs])
      · rw [hs]
        exact (poll_log hp).trans hlog
  | @resolved res _ _ hp hend hlog' =>
      refine Or.inr ⟨⟨clock, _⟩, _, rfl, rfl, hdrive hp, shown_forget hd hp t, ?_, ?_⟩
      · rcases hend with hend | hend
        · exact .ended hend
        · exact .dropped hend
      · rw [hlog', List.mem_append, poll_log hp, hlog]
        cases res <;> simp [Poll.result]

/-- The other steps leave the daemon and the log alone, but for the first and a panic. -/
theorem daemon_apart (h : Shape S s st) {e : Event} (he : ∀ clock, e ≠ .pollDaemon clock)
    (hs : s.step S e = some s') :
    s'.log = s.log ∧ (s'.daemon = s.daemon ∨ s'.daemon = .dropped ∨
      ∃ stopRx, s.daemon = .notified stopRx ∧ s' = s.handleDaemon S stopRx) := by
  have hpolled : ∀ {s₁ : Caretaker} {req killing child res grace},
      StopPolled s₁ 0 req killing child res grace s' → s₁.log = s.log →
      s₁.daemon = s.daemon → s'.log = s.log ∧ s'.daemon = s.daemon := by
    intro s₁ req killing child res grace hp hlog hd
    cases hp <;> exact ⟨hlog, hd⟩
  have hpollRun : ∀ i grace, e = .pollRun i grace →
      s'.log = s.log ∧ s'.daemon = s.daemon := by
    intro i grace heq
    subst heq
    cases h.polls hs with
    | up hp =>
        cases hp with
        | stop _ hp => exact hpolled hp rfl rfl
        | unhealthy _ _ hp => exact hpolled hp rfl rfl
        | exited _ _ _ _ _ => exact ⟨rfl, rfl⟩
        | pending _ _ => exact ⟨rfl, rfl⟩
    | spawnFailed hs' =>
        subst hs'
        exact ⟨rfl, rfl⟩
    | stopping _ hp => exact hpolled hp rfl rfl
  cases Caretaker.stepped hs with
  | arrive _ hs =>
      obtain ⟨⟨n, rfl⟩, -⟩ := Caretaker.arrived hs
      exact ⟨rfl, Or.inl rfl⟩
  | @handle m rest hm spawn =>
      cases m with
      | run stopRx req =>
          simp only [Caretaker.handle, Caretaker.handleRun]
          cases spawn with
          | error source => exact ⟨rfl, Or.inl rfl⟩
          | ok _ =>
              simp only [buildChild]
              split
              · exact ⟨rfl, Or.inr (Or.inl rfl)⟩
              · exact ⟨rfl, Or.inl rfl⟩
      | wait req =>
          simp only [Caretaker.handle, Caretaker.settle, Caretaker.handleWait]
          split <;> exact ⟨rfl, Or.inl rfl⟩
      | terminate =>
          simp only [Caretaker.handle, (h.handled_terminate (h.alive hm) hm).1, Caretaker.settle]
          exact ⟨rfl, Or.inl rfl⟩
      | setHealthState sender health =>
          simp only [Caretaker.handle, Caretaker.settle, Caretaker.handleSetHealthState]
          split <;> exact ⟨rfl, Or.inl rfl⟩
      | getStatus => exact ⟨rfl, Or.inl rfl⟩
  | startDaemon hd => exact ⟨rfl, Or.inr (Or.inr ⟨_, hd, rfl⟩)⟩
  | pollDaemon _ clock => exact absurd rfl (he clock)
  | pollRun _ _ =>
      obtain ⟨hlog, hd⟩ := hpollRun _ _ rfl
      exact ⟨hlog, Or.inl hd⟩
  | pollWait _ _ => exact ⟨rfl, Or.inl rfl⟩
  | pollTerminate _ _ => exact ⟨rfl, Or.inl rfl⟩
  | exit _ _ => exact ⟨rfl, Or.inl rfl⟩
  | reap _ => exact ⟨rfl, Or.inl rfl⟩
  | unhealthy _ => exact ⟨rfl, Or.inl rfl⟩

/-- **Every run of a caretaker shows what a driven future shows**, poll for poll. -/
theorem driven_run {h : List (Caretaker × Event)} {s : Caretaker}
    (hr : Lts.Run (Caretaker.step S) .init h s) (ht : OnTime h) :
    ∃ k d, Lts.Run drive (.new S.program.retry stopReceiver) k d ∧
      (∀ x ∈ k, RestartRate.Timely x.1 x.2) ∧ RestartRate.events k = rounds h ∧
      Follows S s (lastRead h) d ∧ (S.givesUp ∈ s.log ↔ d.resolved = some false) := by
  induction hr with
  | start =>
      exact ⟨[], _, .start, fun _ hx => absurd hx List.not_mem_nil, rfl, .notified rfl rfl,
        by simp [Caretaker.init, Caretaker.new, Caretaker.started, Driven.new]⟩
  | @snoc h s s' e hr hs ih =>
      obtain ⟨hbefore, htimely⟩ := onTime_snoc.mp ht
      obtain ⟨k, d, hk, htk, hev, hf, hlog⟩ := ih hbefore
      obtain ⟨st, hshape⟩ := shape_run hr
      by_cases he : ∃ clock, e = .pollDaemon clock
      · obtain ⟨clock, rfl⟩ := he
        cases Caretaker.stepped hs with
        | @pollDaemon fut hd _ =>
            rw [rounds_snoc, lastRead_snoc]
            rcases hf.poll hlog hd (hshape.daemon_polled hd hs) with ⟨hshown, hdrop, hlog'⟩ |
              ⟨e, d', rfl, rfl, hdrive, hshown, hf', hlog'⟩
            · rw [hshown, List.append_nil, hlog']
              exact ⟨k, d, hk, htk, hev, .dropped hdrop, hlog⟩
            · refine ⟨k ++ [_], d', .snoc e hk hdrive, ?_, ?_, hf', hlog'⟩
              · intro x hx
                rcases List.mem_append.mp hx with hx | hx
                · exact htk x hx
                · rw [List.mem_singleton.mp hx]
                  obtain ⟨hnow, hlater, hsleep⟩ := htimely
                  refine ⟨hnow, hlater, fun sleep hslot helapsed => hsleep helapsed _ ?_⟩
                  cases hfut : fut.fut with
                  | waiting sleep' =>
                      simp only [RepeatedActFut.forget, hfut, FutureSlot.forget,
                        FutureSlot.waiting.injEq] at hslot
                      simp [Caretaker.deadline, hd, hfut, hslot]
                  | _ => simp [RepeatedActFut.forget, hfut, FutureSlot.forget] at hslot
              · rw [RestartRate.events_snoc, hev, hshown]
      · have hne : ∀ clock, e ≠ .pollDaemon clock := fun clock heq => he ⟨clock, heq⟩
        have hshown : s.shown e = [] := by
          cases e with
          | pollDaemon clock => exact absurd rfl (hne clock)
          | _ => rfl
        obtain ⟨hlog', hd⟩ := daemon_apart hshape hne hs
        have hread : e.readAfter (lastRead h) = lastRead h := by
          cases e with
          | pollDaemon clock => exact absurd rfl (hne clock)
          | _ => rfl
        rw [rounds_snoc, lastRead_snoc, hread, hshown, List.append_nil, hlog']
        refine ⟨k, d, hk, htk, hev, ?_, hlog⟩
        rcases hd with hd | hd | ⟨stopRx, hd, rfl⟩
        · exact hf.same (Or.inl hd)
        · exact hf.same (Or.inr hd)
        · cases hf with
          | notified hd' ht' =>
              cases hd.symm.trans hd'
              rw [ht']
              exact @Follows.running S _ 0 (.new stopReceiver
                ⟨[], S.program.retry.window, S.program.retry.count⟩ S.program.retry.delay) rfl
          | running hd' => cases hd.symm.trans hd'
          | ended hd' => cases hd.symm.trans hd'
          | dropped hd' => cases hd.symm.trans hd'

/-! ## 5. Rounds and children -/

/-- A `Run` that was sent is still to be handled. -/
def Stage.sent : Stage → Nat
  | .queued _ => 1
  | _ => 0

/-- Only an empty slot sends a `Run`, and it is empty between two rounds only. -/
theorem Shape.starts_nil (h : Shape S s st) (hst : st ≠ .idle) (e : Event) :
    RestartRate.starts (s.shown e) = [] := by
  cases e with
  | pollDaemon clock =>
      have hpolling : ∀ fut req, s.daemon = .running fut → fut.fut = .polling req →
          RestartRate.starts (s.shown (.pollDaemon clock)) = [] := by
        intro fut req hd hslot
        simp only [Caretaker.shown, hd, hslot]
        cases s.replies.lookup req with
        | none => rfl
        | some res =>
            simp only
            split
            · rfl
            · split <;> rfl
      have hdaemon := h.token.daemon
      cases st with
      | boot => simp [Caretaker.shown, show s.daemon = .notified _ from hdaemon, RestartRate.starts]
      | idle => exact absurd rfl hst
      | ended res =>
          simp [Caretaker.shown, show s.daemon = .ended _ from hdaemon, RestartRate.starts]
      | dropped => simp [Caretaker.shown, show s.daemon = .dropped from hdaemon, RestartRate.starts]
      | _ =>
          obtain ⟨fut, hd, hslot, -⟩ := hdaemon
          exact hpolling fut _ hd hslot
  | _ => rfl

/-- Between two rounds, a step shows a start exactly where it sends the `Run`. -/
theorem Shape.idle_sends (h : Shape S s .idle) {e : Event} (hs : s.step S e = some s') :
    ∃ st', Shape S s' st' ∧ (RestartRate.starts (s.shown e)).length = st'.sent := by
  obtain ⟨st', h', hn⟩ := shape_step h hs
  obtain ⟨fut, hd, hround, -⟩ := h.token.daemon
  by_cases hempty : fut.fut = .empty ∧ ∃ clock, e = .pollDaemon clock
  · obtain ⟨hslot, clock, rfl⟩ := hempty
    have hpoll := h.idle_poll hs
    rw [if_neg (by simp [Caretaker.sleeping, hd, hslot])] at hpoll
    obtain ⟨req, hqueued⟩ := hpoll
    exact ⟨_, hqueued, by simp [Caretaker.shown, hd, hslot, RestartRate.starts, Stage.sent]⟩
  · have hstarts : RestartRate.starts (s.shown e) = [] := by
      cases e with
      | pollDaemon clock =>
          cases hslot : fut.fut with
          | empty => exact absurd ⟨hslot, clock, rfl⟩ hempty
          | waiting sleep => simp [Caretaker.shown, hd, hslot, RestartRate.starts]
          | polling req => simp [hslot, roundOf] at hround
      | _ => rfl
    refine ⟨st', h', ?_⟩
    rw [hstarts]
    rcases hn.from_idle with rfl | ⟨req, rfl⟩
    · rfl
    · -- the slot would hold the round now
      obtain ⟨fut', hd', hslot', -⟩ := h'.token.daemon
      by_cases he : ∃ clock, e = .pollDaemon clock
      · obtain ⟨clock, rfl⟩ := he
        cases hslot : fut.fut with
        | empty => exact absurd ⟨hslot, clock, rfl⟩ hempty
        | polling req => simp [hslot, roundOf] at hround
        | waiting sleep =>
            simp only [Caretaker.step, hd, Option.some.injEq] at hs
            unfold Caretaker.pollDaemon at hs
            rw [hround] at hs
            simp only [Option.any_none, Bool.false_eq_true, ↓reduceIte, RepeatedActFut.poll,
              hslot] at hs
            cases helapsed : clock.elapsed with
            | true =>
                simp only [helapsed, ↓reduceIte] at hs
                subst hs
                cases hd'
                cases hslot'
            | false =>
                simp only [helapsed] at hs
                subst hs
                cases hd'
                cases hslot.symm.trans hslot'
      · rw [h.idle_daemon hs fun clock heq => he ⟨clock, heq⟩, hd] at hd'
        cases hd'
        rw [hslot'] at hround
        cases hround

/-- Handling a `Run` leaves no other one. -/
theorem Shape.builds_last (h : Shape S s st) {e : Event} (hb : BuildsChild s e)
    (hs : s.step S e = some s') : s'.mailbox.filterMap Msg.asRun = [] := by
  obtain ⟨spawn, m, rest, rfl, hm, hrun⟩ := handles_iff.mp hb
  cases m with
  | run stopRx req =>
      obtain ⟨-, -, hrest⟩ := h.run_head hm
      simp only [Caretaker.step, hm, Caretaker.handle, Option.some.injEq] at hs
      rw [← hs]
      rcases (handleRun_spared spawn stopRx req { s with mailbox := rest }).outcome with
        ⟨hbox, -⟩ | ⟨_, -, hbox, -⟩
      · rw [hbox]
        exact hrest
      · rw [hbox]
        rfl
  | _ => cases hrun

/-- **A step that sends a `Run` finds none in the mailbox**, and the step that handles it leaves
    none. -/
theorem sent_spawned (h : Shape S s st) {e : Event} (hs : s.step S e = some s') :
    ∃ st', Shape S s' st' ∧ (RestartRate.starts (s.shown e)).length + st.sent =
      (if BuildsChild s e then 1 else 0) + st'.sent := by
  by_cases hidle : st = .idle
  · subst hidle
    obtain ⟨st', h', hlen⟩ := h.idle_sends hs
    have hno : ¬ BuildsChild s e := fun hb => by
      obtain ⟨req, heq⟩ := builds_queued h hb
      cases heq
    exact ⟨st', h', by rw [if_neg hno, hlen, Nat.zero_add]; rfl⟩
  · rw [h.starts_nil hidle, List.length_nil, Nat.zero_add]
    obtain ⟨st', h', hn⟩ := shape_step h hs
    refine ⟨st', h', ?_⟩
    by_cases hb : BuildsChild s e
    · have hlast := h.builds_last hb hs
      rw [h'.token.msgs] at hlast
      obtain ⟨req, rfl⟩ := builds_queued h hb
      rw [if_pos hb]
      cases hn with
      | quiet _ _ _ => cases hlast
      | report _ _ _ _ _ => cases hlast
      | _ => rfl
    · rw [if_neg hb, Nat.zero_add]
      cases hn with
      | spawned _ hb' _ => exact absurd hb' hb
      | spawnError _ hb' _ => exact absurd hb' hb
      | illegal _ hb' _ => exact absurd hb' hb
      | send _ _ => exact absurd rfl hidle
      | giveUp _ _ _ _ hst _ => rcases hst with rfl | rfl <;> rfl
      | finish _ _ _ _ hst _ => rcases hst with rfl | rfl <;> rfl
      | _ => rfl

/-- The children a run has spawned, or tried to. -/
def spawns (h : List (Caretaker × Event)) : Nat :=
  h.countP fun x => x.1.handles (fun m => m.asRun.isSome) x.2

/-- **Each `Run` that is sent is handled once**, and the next one is sent after that. -/
theorem sent_spawned_run {s₀ : Caretaker} {st₀ : Stage} (h₀ : Shape S s₀ st₀)
    {h : List (Caretaker × Event)} {s : Caretaker} (hr : Lts.Run (Caretaker.step S) s₀ h s) :
    ∃ st, Shape S s st ∧
      (RestartRate.starts (rounds h)).length + st₀.sent = spawns h + st.sent := by
  induction hr with
  | start => exact ⟨st₀, h₀, rfl⟩
  | @snoc h s s' e _ hs ih =>
      obtain ⟨st, hshape, heq⟩ := ih
      obtain ⟨st', hshape', heq'⟩ := sent_spawned hshape hs
      refine ⟨st', hshape', ?_⟩
      have hcount : spawns (h ++ [(s, e)]) = spawns h + if BuildsChild s e then 1 else 0 := by
        unfold spawns
        rw [List.countP_append, List.countP_singleton]
      rw [rounds_snoc, RestartRate.starts_append, List.length_append, hcount]
      omega

theorem sent_le_one (st : Stage) : st.sent ≤ 1 := by
  cases st <;> simp [Stage.sent]

/-! ## 6. The rate -/

/-- The polls of the daemon in a part of a run read the clock between `t` and `t'`. -/
def Within (t t' : Instant) (h : List (Caretaker × Event)) : Prop :=
  ∀ x ∈ h, ∀ clock, x.2 = .pollDaemon clock → t ≤ clock.now ∧ clock.now ≤ t'

theorem Within.starts {t t' : Instant} {h : List (Caretaker × Event)} (hw : Within t t' h) :
    ∀ u ∈ RestartRate.starts (rounds h), t ≤ u ∧ u ≤ t' := by
  intro u hu
  obtain ⟨ev, hev, hstart⟩ := List.mem_filterMap.mp hu
  obtain ⟨x, hx, hshown⟩ := List.mem_flatMap.mp hev
  obtain ⟨s, e⟩ := x
  cases e with
  | pollDaemon clock =>
      have hread := hw _ hx clock rfl
      simp only [Caretaker.shown] at hshown
      split at hshown
      · split at hshown
        · rw [List.mem_singleton.mp hshown] at hstart
          obtain rfl := Option.some.inj hstart
          exact hread
        · cases hshown
        · split at hshown
          · cases hshown
          · split at hshown
            · rw [List.mem_singleton.mp hshown] at hstart
              cases hstart
            · split at hshown
              · rw [List.mem_singleton.mp hshown] at hstart
                cases hstart
              · cases hshown
      · cases hshown
  | _ => cases hshown

/-- **How often a caretaker spawns**, over all its runs whose clock readings are in order. It gives
    up exactly at the first mark whose closed window holds the configured count of marks, which is
    then the last one; a round that follows a mark starts no earlier than the delay after it; and a
    stretch of the run that takes no longer than the window spawns at most one child more than the
    count (at most two where the count is zero). -/
theorem spawn_rate {h : List (Caretaker × Event)} {s : Caretaker}
    (hr : Lts.Run (Caretaker.step S) .init h s) (ht : OnTime h) :
    (∀ pre m post, RestartRate.marks (rounds h) = pre ++ m :: post →
      (S.program.retry.count ≤ (window S.program.retry.window m (pre ++ [m])).length ↔
        post = [] ∧ S.givesUp ∈ s.log)) ∧
    (∀ pre m t post, rounds h = pre ++ .mark m :: .start t :: post →
      m + S.program.retry.delay ≤ t) ∧
    ∀ h₁ seg h₂ t, h = h₁ ++ seg ++ h₂ → Within t (t + S.program.retry.window) seg →
      spawns seg ≤ max 1 S.program.retry.count + 1 := by
  obtain ⟨k, d, hk, htk, hev, -, hlog⟩ := driven_run hr ht
  have hsh := RestartRate.shape_run hk htk
  rw [hev] at hsh
  refine ⟨fun pre m post hsplit => ?_, RestartRate.shape_delayed hsh, ?_⟩
  · rw [hlog]
    exact RestartRate.shape_giveUp hsh hsplit
  · intro h₁ seg h₂ t hsplit hwithin
    have hrate := RestartRate.shape_rate hsh t
    subst hsplit
    rw [rounds_append, rounds_append, RestartRate.starts_append, RestartRate.starts_append,
      startsIn, List.filter_append, List.filter_append, List.length_append,
      List.length_append] at hrate
    have hall : (RestartRate.starts (rounds seg)).filter (fun u => t ≤ u ∧
        u ≤ t + S.program.retry.window) = RestartRate.starts (rounds seg) :=
      List.filter_eq_self.mpr fun u hu => decide_eq_true (hwithin.starts u hu)
    obtain ⟨s₂, hr₂, -⟩ := hr.split
    obtain ⟨s₁, hr₁, hseg⟩ := hr₂.split
    obtain ⟨st₁, hshape₁⟩ := shape_run hr₁
    obtain ⟨st₂, -, hsent⟩ := sent_spawned_run hshape₁ hseg
    have hone := sent_le_one st₁
    rw [hall] at hrate
    omega

/-- Program `a` exits twice, the second time exactly one window after the first. -/
def exitsTwice : List Event :=
  [.startDaemon, .pollDaemon ⟨6000000000, 6000000000, false⟩, .handle (.ok ()),
    .exit 0 (.exited 1), .pollRun 0 .underWay, .pollDaemon ⟨7000000000, 7000000000, false⟩,
    .pollDaemon ⟨12000000000, 12000000000, true⟩, .pollDaemon ⟨12000000000, 12000000000, false⟩,
    .handle (.ok ()), .exit 1 (.exited 1), .pollRun 0 .underWay,
    .pollDaemon ⟨12000000000, 12000000000, false⟩]

theorem spawn_rate_exitsTwice :
    ∃ h s, Lts.Run (Caretaker.step settingA) .init h s ∧ spawns h = 2 ∧
      settingA.givesUp ∈ s.log ∧
      (2 ≤ (window 5000000000 12000000000 [7000000000, 12000000000]).length ↔
        ([] : List Instant) = [] ∧ settingA.givesUp ∈ s.log) := by
  have hex : ∃ s, Lts.exec (Caretaker.step settingA) .init exitsTwice = some s ∧
      settingA.givesUp ∈ s.log := ⟨_, rfl, by decide⟩
  obtain ⟨s, hex, hlog⟩ := hex
  have hr := Lts.run_history hex
  have ht : OnTime (Lts.history (Caretaker.step settingA) .init exitsTwice) := by decide
  exact ⟨_, s, hr, by decide, hlog, (spawn_rate hr ht).1 [7000000000] 12000000000 [] (by decide)⟩

end Blahaj
