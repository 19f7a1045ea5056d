/-
  File:      Blahaj/Supervisor/StopChannel.lean
  Subject:   THE CHANNEL OF THE UNHEALTHY SIGNAL: while a health actor polls its checks, the other
             end is there.

  The receiver lies in the `WaitAbortFut` of the child. It is dropped in the poll in which that
  future resolves, and in the same poll the health actor is told to stop; from then on it polls no
  check. So whatever is still in flight there finds its receiver, or is not polled.

  * `relieved_step` -- a caretaker that panics has told every health actor to stop before;
  * `Shape.receives` -- a health actor that is not told has its receiver;
  * `actors_run` -- what a health actor does beside its caretaker is a run of its own;
  * `stop_channel` -- the two `expect`s are reached at most once, and hold.
-/
import Blahaj.Supervisor.Checks
import Blahaj.Supervisor.CurrentHealth

namespace Blahaj

variable {S : Setting} {s s' : Caretaker} {st : Stage}

/-! ## 1. The receiver -/

/-- Code of the actor that goes on has not panicked, and code that panics leaves the health actors
    as they were. -/
def Caretaker.Calm (s : Caretaker) : Outcome → Prop
  | .ok s' => s'.crashed = s.crashed
  | .error (_, s') => s'.health = s.health

theorem handle_calm (spawn : Except String Unit) (m : Msg) (s : Caretaker) :
    s.Calm (s.handle S spawn m) := by
  cases m with
  | run stopRx req =>
      simp only [Caretaker.handle, Caretaker.handleRun]
      cases spawn with
      | error source => rfl
      | ok _ =>
          simp only [buildChild]
          split <;> rfl
  | wait req =>
      simp only [Caretaker.handle, Caretaker.handleWait]
      split <;> rfl
  | terminate =>
      simp only [Caretaker.handle, Caretaker.handleTerminate]
      split
      · split <;> rfl
      · rfl
  | setHealthState sender health =>
      simp only [Caretaker.handle, Caretaker.handleSetHealthState]
      split <;> rfl
  | getStatus => rfl

theorem StopPolled.crashed {i req : Nat} {killing : Bool} {child : Child} {res : RunResult}
    {grace : Grace} {s s' : Caretaker} (hp : StopPolled s i req killing child res grace s') :
    s'.crashed = s.crashed := by
  cases hp <;> rfl

theorem pollRun_calm (i : Nat) (grace : Grace) (item : RunItem) (s : Caretaker) :
    s.Calm (s.pollRun S i grace item) := by
  unfold Caretaker.pollRun
  split
  · split
    · rfl
    · rfl
    · rename_i res _ _ _
      cases res with
      | stopSignalReceived child => exact (stop_polled ..).crashed
      | unhealthySignalReceived stopRx child => exact (stop_polled ..).crashed
      | exit stopRx => rfl
      | exitWithError stopRx e => rfl
  · rfl
  · exact (stop_polled ..).crashed

theorem broadcastStopped_calm (s : Caretaker) : s.Calm s.broadcastStopped := by
  unfold Caretaker.broadcastStopped
  dsimp only
  split
  · rfl
  · split <;> rfl

theorem pollDaemon_calm (clock : Clock) (fut : RepeatedActFut Nat Receiver) (s : Caretaker) :
    s.Calm (s.pollDaemon S clock fut) := by
  unfold Caretaker.pollDaemon
  split
  · rfl
  · cases hp : fut.poll Caretaker.sendRun (Caretaker.pollRound S) clock s with
    | none => rfl
    | some polled =>
        obtain ⟨r, fut₁, s₁⟩ := polled
        cases RepeatedActFut.polled hp with
        | busy _ hpf =>
            obtain ⟨replies, log, rfl⟩ := pollRound_same hpf
            rfl
        | again _ hpf _ =>
            obtain ⟨replies, log, rfl⟩ := pollRound_same hpf
            rfl
        | giveUp _ hpf _ =>
            obtain ⟨replies, log, rfl⟩ := pollRound_same hpf
            exact broadcastStopped_calm { s with
              replies := replies
              status := .failed
              daemon := .ended false
              log := log ++ [⟨.error, S.name, "Retry limits exceeded, giving up"⟩] }
        | stopped _ hpf =>
            obtain ⟨replies, log, rfl⟩ := pollRound_same hpf
            exact broadcastStopped_calm { s with
              replies := replies
              daemon := .ended true
              log := log }
        | asleep _ _ => rfl
        | woken _ _ => rfl
        | create _ _ => rfl

theorem Caretaker.Calm.settle {out : Outcome} (h : s.Calm out) :
    (Caretaker.settle out).crashed = s.crashed ∨ (Caretaker.settle out).health = s.health := by
  cases out with
  | ok s' => exact Or.inl h
  | error failure => exact Or.inr h

/-- In a panic the health actors are what they were. -/
theorem crash_health {e : Event} (hs : s.step S e = some s') (hlive : s.crashed = none)
    (hcrash : s'.crashed.isSome) : s'.health = s.health := by
  have hcalm : s'.crashed = s.crashed ∨ s'.health = s.health := by
    cases Caretaker.stepped hs with
    | arrive _ hs =>
        obtain ⟨⟨n, rfl⟩, -⟩ := Caretaker.arrived hs
        exact Or.inl rfl
    | @handle m rest _ spawn =>
        exact (handle_calm spawn m { s with mailbox := rest }).settle
    | startDaemon _ => exact Or.inl rfl
    | pollDaemon _ clock => exact (pollDaemon_calm clock _ s).settle
    | @pollRun i item _ grace => exact (pollRun_calm i grace item s).settle
    | pollWait _ _ => exact Or.inl rfl
    | pollTerminate _ _ => exact Or.inl rfl
    | exit _ _ => exact Or.inl rfl
    | reap _ => exact Or.inl rfl
    | unhealthy _ => exact Or.inl rfl
  rcases hcalm with hsame | hsame
  · rw [hsame, hlive] at hcrash
    cases hcrash
  · exact hsame

/-- A caretaker that has panicked has told every health actor to stop. -/
def Caretaker.Relieved (s : Caretaker) : Prop :=
  s.crashed.isSome → ∀ k, s.told k ≠ some false

/-- A step tells no health actor anything, where the caretaker has panicked before. -/
theorem crashed_told (h : Shape S s .dropped) {e : Event} (hs : s.step S e = some s') (k : Nat) :
    s'.told k = s.told k := by
  obtain ⟨panic, hpanic, -⟩ := h.token.crashed
  have hmailbox := h.token.dead (by rw [hpanic]; rfl)
  have hdaemon : s.daemon = .dropped := h.token.daemon
  have hruns : s.runs = [] := h.token.runs
  cases Caretaker.stepped hs with
  | arrive hlive _ =>
      rw [hpanic] at hlive
      cases hlive
  | handle hm _ =>
      rw [hmailbox] at hm
      cases hm
  | startDaemon hd =>
      rw [hdaemon] at hd
      cases hd
  | pollDaemon hd _ =>
      rw [hdaemon] at hd
      cases hd
  | pollRun hitem _ =>
      rw [hruns] at hitem
      cases hitem
  | unhealthy _ => exact told_signalled s _ k
  | pollWait _ _ => rfl
  | pollTerminate _ _ => rfl
  | exit _ _ => rfl
  | reap _ => rfl

/-- No move leads from a child that is waited for to a panic. -/
theorem Next.unwatched {e : Event} {st' : Stage} (hn : Next S s s' e st st')
    (hst : st ≠ .dropped) (hst' : st' = .dropped) : st.watched = none := by
  subst hst'
  cases hn with
  | quiet _ _ _ => exact absurd rfl hst
  | report _ _ _ _ _ => exact absurd rfl hst
  | _ => rfl

/-- **A caretaker that panics has told every health actor to stop before.** -/
theorem relieved_step (h : Shape S s st) (hrelieved : s.Relieved) {e : Event}
    (hs : s.step S e = some s') : s'.Relieved := by
  intro hcrash k
  by_cases hst : st = .dropped
  · subst hst
    obtain ⟨panic, hpanic, -⟩ := h.token.crashed
    rw [crashed_told h hs k]
    exact hrelieved (by rw [hpanic]; rfl) k
  · have hlive := crashed_of_not_dropped h hst
    obtain ⟨st', h', hn⟩ := shape_step h hs
    have hst' : st' = .dropped := by
      by_contra hne
      rw [crashed_of_not_dropped h' hne] at hcrash
      cases hcrash
    unfold Caretaker.told
    rw [crash_health hs hlive hcrash]
    intro htold
    obtain ⟨handle, hhandle, hstopped⟩ := Option.map_eq_some_iff.mp htold
    have hwatched := h.watch.stopped hlive k handle hhandle hstopped
    rw [hn.unwatched hst hst'] at hwatched
    cases hwatched

theorem relieved_reach (hr : Lts.Reach (Caretaker.step S) .init s) : s.Relieved := by
  have hinv : (∃ st, Shape S s st) ∧ s.Relieved := by
    refine hr.invariant (P := fun s => (∃ st, Shape S s st) ∧ s.Relieved)
      ⟨⟨.boot, shape_init S⟩, fun hcrash => nomatch hcrash⟩ fun s e s' hP hs => ?_
    obtain ⟨⟨st, h⟩, hrelieved⟩ := hP
    exact ⟨shaped_step ⟨st, h⟩ hs, relieved_step h hrelieved hs⟩
  exact hinv.2

/-- **A health actor that is not told to stop has its receiver**: in the `WaitAbortFut` of its
    child. -/
theorem Shape.receives (h : Shape S s st) (hrelieved : s.Relieved) {k : Nat}
    (htold : s.told k = some false) : s.receiving k = true := by
  have hlive : s.crashed = none := by
    cases hcrash : s.crashed with
    | none => rfl
    | some _ => exact absurd htold (hrelieved (by rw [hcrash]; rfl) k)
  obtain ⟨handle, hhandle, hstopped⟩ := Option.map_eq_some_iff.mp htold
  have hwatched := h.watch.stopped hlive k handle hhandle hstopped
  cases st with
  | up req child =>
      obtain rfl := Option.some.inj hwatched
      have hruns := h.token.runs
      unfold Caretaker.receiving
      rw [show s.runs = _ from hruns]
      simp [WaitAbortFut.new]
  | _ => cases hwatched

/-! ## 2. The sender -/

/-- A health actor that is live has its sender, and none has panicked on it. -/
structure HealthActor.Supplied (tx : Sender) (s : HealthActor) : Prop where
  sender : s.phase.live = true → s.stopTx = some tx
  taken : s.phase ≠ .panicked .taken
  notified : s.phase ≠ .panicked .notify

theorem supplied_new (name : String) (config : Option HealthConfig) (tx : Sender) :
    (HealthActor.new name config tx).Supplied tx where
  sender _ := rfl
  taken := by simp [HealthActor.new]
  notified := by simp [HealthActor.new]

/-- An actor that has ended in this phase is supplied. -/
theorem supplied_ended {tx : Sender} {a : HealthActor} {phase : HealthPhase}
    (hphase : a.phase = phase) (hlive : phase.live = false)
    (htaken : phase ≠ .panicked .taken) (hnotified : phase ≠ .panicked .notify) :
    a.Supplied tx := by
  subst hphase
  refine ⟨fun hl => ?_, htaken, hnotified⟩
  rw [hlive] at hl
  cases hl

theorem supplied_step {timer : TimerCrate} {tx : Sender} {a a' : HealthActor} {e : HealthEvent}
    (h : a.Supplied tx) (hreceived : e.received) (hs : a.step timer e = some a') :
    a'.Supplied tx := by
  have hturned := HealthActor.turned hs
  have hlive := hturned.live
  generalize HealthActor.does timer (a, e) = actions at hturned
  cases hturned with
  | started _ =>
      cases hconfig : a.config with
      | none =>
          simp only [HealthActor.started, hconfig]
          exact ⟨fun _ => h.sender hlive, by simp, by simp⟩
      | some config =>
          rcases HealthActor.started_cases hconfig timer with ⟨-, hstarted⟩ | ⟨-, hstarted⟩
          · rw [hstarted]
            exact ⟨fun _ => h.sender hlive, by simp, by simp⟩
          · rw [hstarted]
            have hgone : (a.leave (.panicked .timer)).1.phase = .panicked .timer := rfl
            exact supplied_ended hgone rfl (by decide) (by decide)
  | stop _ =>
      have hstopped : (a.leave .stopped).1.phase = .stopped := rfl
      exact supplied_ended hstopped rfl (by decide) (by decide)
  | tick _ _ => exact ⟨fun _ => h.sender hlive, h.taken, h.notified⟩
  | @checked hphase check hmem receiving answer =>
      obtain rfl : receiving = true := hreceived
      cases hconfig : a.config with
      | none =>
          have hsame : (a.checked true check answer).1 = a := by
            simp only [HealthActor.checked, hconfig]
          rw [hsame]
          exact h
      | some config =>
          have hchecked := HealthActor.checked_cases hconfig (h.sender hlive) true check answer
          generalize a.checked true check answer = out at hchecked ⊢
          obtain ⟨a', actions⟩ := out
          cases hchecked with
          | success _ => exact ⟨h.sender, h.taken, h.notified⟩
          | counted _ _ _ => exact ⟨h.sender, h.taken, h.notified⟩
          | gaveUp _ _ hphase' _ => exact supplied_ended hphase' rfl (by decide) (by decide)
          | @overflowed _ panic hex _ hphase' _ =>
              -- it is a panic of the arithmetic
              rcases (HealthConfig.exhausted_error hex).2 with rfl | rfl
              · exact supplied_ended hphase' rfl (by decide) (by decide)
              · exact supplied_ended hphase' rfl (by decide) (by decide)

/-! ## 3. Beside a caretaker -/

/-- What a turn is for the health actor with this number. -/
def Turn.event (k : Nat) (receiving : Bool) : Turn → Option HealthEvent
  | .caretaker _ => none
  | .started j => if j = k then some .started else none
  | .stop j => if j = k then some .stop else none
  | .tick j => if j = k then some .tick else none
  | .checked j check answer => if j = k then some (.checked receiving check answer) else none

/-- A result is that of a check of the health actor with this number. -/
theorem event_checked {k check : Nat} {receiving receiving' : Bool} {t : Turn}
    {answer : Except String StatusCode}
    (h : t.event k receiving = some (.checked receiving' check answer)) :
    t = .checked k check answer ∧ receiving' = receiving := by
  cases t with
  | caretaker _ => cases h
  | checked j check answer =>
      obtain ⟨rfl, he⟩ := Option.ite_none_right_eq_some.mp h
      cases Option.some.inj he
      exact ⟨rfl, rfl⟩
  | _ => cases (Option.ite_none_right_eq_some.mp h).2

/-- The step that a step of the composite is for the health actor with this number. -/
def Monitored.own (k : Nat) (x : Monitored × Turn) : Option (HealthActor × HealthEvent) :=
  match x.1.actors[k]?, x.2.event k (x.1.caretaker.receiving k) with
  | some actor, some e => some (actor, e)
  | _, _ => none

theorem own_some {k : Nat} {s : Monitored} {t : Turn} {actor : HealthActor} {e : HealthEvent}
    (h : Monitored.own k (s, t) = some (actor, e)) :
    s.actors[k]? = some actor ∧ t.event k (s.caretaker.receiving k) = some e := by
  unfold Monitored.own at h
  split at h
  · rename_i hactor hevent
    obtain ⟨rfl, rfl⟩ := Prod.mk.inj (Option.some.inj h)
    exact ⟨hactor, hevent⟩
  · cases h

/-- A turn of a health actor is a step of it. -/
theorem turn_own {k : Nat} {s s' : Monitored} {enabled : HealthActor → Bool → Bool}
    {f : HealthActor → HealthActor × List HealthAction} {e : HealthEvent}
    (hstep : ∀ actor told, enabled actor told = true → actor.step S.timer e = some (f actor).1)
    (hs : s.turn S k enabled f = some s') {actor : HealthActor}
    (hactor : s.actors[k]? = some actor) :
    ∃ actor', actor.step S.timer e = some actor' ∧ s'.actors[k]? = some actor' := by
  obtain ⟨actor₁, told, hactor₁, -, hen, rfl⟩ := turn_some hs
  obtain rfl := Option.some.inj (hactor.symm.trans hactor₁)
  obtain ⟨hlt, -⟩ := List.getElem?_eq_some_iff.mp hactor
  exact ⟨_, hstep actor told hen, List.getElem?_set_self hlt⟩

/-- A turn of one health actor leaves the others alone. -/
theorem turn_others {j k : Nat} (hne : j ≠ k) {s s' : Monitored}
    {enabled : HealthActor → Bool → Bool} {f : HealthActor → HealthActor × List HealthAction}
    (hs : s.turn S j enabled f = some s') : s'.actors[k]? = s.actors[k]? := by
  obtain ⟨actor, told, -, -, -, rfl⟩ := turn_some hs
  exact List.getElem?_set_ne hne

/-- What the composite does for a health actor is a step of it. -/
theorem own_step {k : Nat} {s s' : Monitored} {t : Turn} {actor : HealthActor} {e : HealthEvent}
    (hs : s.step S t = some s') (hown : Monitored.own k (s, t) = some (actor, e)) :
    s.actors[k]? = some actor ∧
      ∃ actor', actor.step S.timer e = some actor' ∧ s'.actors[k]? = some actor' := by
  obtain ⟨hactor, hevent⟩ := own_some hown
  refine ⟨hactor, ?_⟩
  cases t with
  | caretaker _ => cases hevent
  | started j =>
      obtain ⟨rfl, he⟩ := Option.ite_none_right_eq_some.mp hevent
      obtain rfl := Option.some.inj he
      refine turn_own (f := HealthActor.started S.timer) (fun actor told hen => ?_) hs hactor
      simp only [HealthActor.step, HealthActor.turn, hen, ↓reduceIte, Option.map_some]
  | stop j =>
      obtain ⟨rfl, he⟩ := Option.ite_none_right_eq_some.mp hevent
      obtain rfl := Option.some.inj he
      refine turn_own (f := HealthActor.leave .stopped) (fun actor told hen => ?_) hs hactor
      rw [Bool.and_eq_true] at hen
      simp only [HealthActor.step, HealthActor.turn, hen.1, ↓reduceIte, Option.map_some]
  | tick j =>
      obtain ⟨rfl, he⟩ := Option.ite_none_right_eq_some.mp hevent
      obtain rfl := Option.some.inj he
      refine turn_own (f := HealthActor.tick) (fun actor told hen => ?_) hs hactor
      simp only [HealthActor.polls, Bool.and_eq_true] at hen
      simp only [HealthActor.step, HealthActor.turn, hen.1.1, hen.2, Bool.and_self, ↓reduceIte,
        Option.map_some]
  | checked j check answer =>
      obtain ⟨rfl, he⟩ := Option.ite_none_right_eq_some.mp hevent
      obtain rfl := Option.some.inj he
      refine turn_own (f := HealthActor.checked _ check answer) (fun actor told hen => ?_) hs
        hactor
      simp only [HealthActor.polls, Bool.and_eq_true] at hen
      simp only [HealthActor.step, HealthActor.turn, hen.1.1, hen.2, Bool.and_self, ↓reduceIte,
        Option.map_some]

theorem own_none {k : Nat} {s : Monitored} {t : Turn} (h : Monitored.own k (s, t) = none) :
    s.actors[k]? = none ∨ t.event k (s.caretaker.receiving k) = none := by
  cases hactor : s.actors[k]? with
  | none => exact Or.inl rfl
  | some actor =>
      cases hevent : t.event k (s.caretaker.receiving k) with
      | none => exact Or.inr rfl
      | some e => simp [Monitored.own, hactor, hevent] at h

/-- The health actor a caretaker starts has the number of its child. -/
theorem hire_own (s : Monitored) (caretaker : Caretaker) (k : Nat) :
    (s.hire S caretaker).actors[k]? = s.actors[k]? ∨
      s.actors[k]? = none ∧ ∃ actor, (s.hire S caretaker).actors[k]? = some actor ∧
        ∃ name config, actor = .new name config ⟨.unhealthy k⟩ := by
  unfold Monitored.hire
  split
  · rename_i handle _
    rcases Nat.lt_trichotomy k s.actors.length with hlt | rfl | hgt
    · exact Or.inl (List.getElem?_append_left hlt)
    · exact Or.inr ⟨by simp, .new S.name handle.config ⟨.unhealthy s.actors.length⟩, by simp,
        _, _, rfl⟩
    · refine Or.inl ?_
      have hold : s.actors[k]? = none := List.getElem?_eq_none hgt.le
      rw [hold, List.getElem?_eq_none_iff, List.length_append, List.length_singleton]
      exact hgt
  · exact Or.inl rfl

/-- Every other step leaves the health actor alone, or starts it. -/
theorem other_step {k : Nat} {s s' : Monitored} {t : Turn} (hs : s.step S t = some s')
    (hown : Monitored.own k (s, t) = none) :
    s'.actors[k]? = s.actors[k]? ∨ s.actors[k]? = none ∧ ∃ actor, s'.actors[k]? = some actor ∧
      ∃ name config, actor = .new name config ⟨.unhealthy k⟩ := by
  have hturn : ∀ {j enabled f}, s.turn S j enabled f = some s' →
      (t.event k (s.caretaker.receiving k) = none → j ≠ k) →
        s'.actors[k]? = s.actors[k]? := by
    intro j enabled f hs hevent
    refine turn_others (fun heq => ?_) hs
    rcases own_none hown with hnone | hnone
    · -- only a health actor that is there takes a turn
      obtain ⟨actor, -, hactor, -⟩ := turn_some hs
      rw [heq, hnone] at hactor
      cases hactor
    · exact hevent hnone heq
  cases t with
  | caretaker e =>
      simp only [Monitored.step] at hs
      split at hs
      · obtain ⟨s₁, -, rfl⟩ := Option.map_eq_some_iff.mp hs
        exact hire_own s s₁ k
      · cases hs
  | started j =>
      refine Or.inl (hturn (f := HealthActor.started S.timer) hs fun hevent heq => ?_)
      simp [Turn.event, heq] at hevent
  | stop j =>
      refine Or.inl (hturn (f := HealthActor.leave .stopped) hs fun hevent heq => ?_)
      simp [Turn.event, heq] at hevent
  | tick j =>
      refine Or.inl (hturn (f := HealthActor.tick) hs fun hevent heq => ?_)
      simp [Turn.event, heq] at hevent
  | checked j check answer =>
      refine Or.inl (hturn (f := HealthActor.checked _ check answer) hs fun hevent heq => ?_)
      simp [Turn.event, heq] at hevent

/-- **What a health actor does beside its caretaker is a run of its own**, so that every result on
    a health actor alone holds of it there. -/
theorem actors_run {h : List (Monitored × Turn)} {s : Monitored}
    (hr : Lts.Run (Monitored.step S) .init h s) (k : Nat) :
    (∀ actor, s.actors[k]? = some actor → ∃ a₀,
      (∃ name config, a₀ = HealthActor.new name config ⟨.unhealthy k⟩) ∧
        Lts.Run (HealthActor.step S.timer) a₀ (h.filterMap (Monitored.own k)) actor) ∧
      (s.actors[k]? = none → h.filterMap (Monitored.own k) = []) :=
  hr.project rfl (fun _ _ _ _ _ hs hown => own_step hs hown) fun _ _ _ hs hown =>
    other_step hs hown

/-- Each result comes while the receiver is there. -/
theorem own_received {h : List (Monitored × Turn)} {s : Monitored}
    (hr : Lts.Run (Monitored.step S) .init h s) (k : Nat) :
    ∀ x ∈ h.filterMap (Monitored.own k), x.2.received := by
  intro x hx
  obtain ⟨⟨s₁, t⟩, hy, hown⟩ := List.mem_filterMap.mp hx
  obtain ⟨actor, e⟩ := x
  obtain ⟨-, hevent⟩ := own_some hown
  cases e with
  | checked receiving check answer =>
      obtain ⟨rfl, rfl⟩ := event_checked hevent
      obtain ⟨s', hs⟩ := hr.enabled _ hy
      obtain ⟨h₁, h₂, rfl⟩ := List.append_of_mem hy
      have hreach := caretaker_reach hr.before
      obtain ⟨st, hshape⟩ := shape_reach hreach
      -- a health actor polls only while it is not told to stop
      change s₁.turn S k _ (HealthActor.checked _ check answer) = some s' at hs
      obtain ⟨actor₁, told, -, htold, hen, -⟩ := turn_some hs
      simp only [HealthActor.polls, Bool.and_eq_true, Bool.not_eq_true'] at hen
      rw [hen.1.2] at htold
      exact hshape.receives (relieved_reach hreach) htold
  | _ => trivial

/-! ## 4. The two `expect`s -/

/-- The step gets to the sender of the health actor with this number. -/
def Monitored.notifies (k : Nat) (x : Monitored × Turn) : Bool :=
  ((Monitored.own k x).map fun own => own.1.notifies own.2).getD false

/-- It is a result, and comes while the receiver is there. -/
theorem notifies_received {k : Nat} {s : Monitored} {t : Turn} {actor : HealthActor}
    {e : HealthEvent} (hown : Monitored.own k (s, t) = some (actor, e))
    (hsends : actor.notifies e = true) (hreceived : e.received) :
    s.caretaker.receiving k = true := by
  obtain ⟨-, hevent⟩ := own_some hown
  cases e with
  | checked receiving check answer =>
      obtain ⟨-, rfl⟩ := event_checked hevent
      exact hreceived
  | _ => cases hsends

/-- A health actor beside its caretaker is supplied. -/
theorem actors_supplied {h : List (Monitored × Turn)} {s : Monitored}
    (hr : Lts.Run (Monitored.step S) .init h s) {k : Nat} {actor : HealthActor}
    (hactor : s.actors[k]? = some actor) : actor.Supplied ⟨.unhealthy k⟩ := by
  obtain ⟨_, ⟨name, config, rfl⟩, hrun⟩ := (actors_run hr k).1 actor hactor
  exact hrun.invariant_if (C := fun _ e => e.received) (supplied_new name config _)
    (fun _ _ _ hsupplied hreceived hs => supplied_step hsupplied hreceived hs) (own_received hr k)

/-- The sender is got to once, at most. -/
theorem notifies_once {h : List (Monitored × Turn)} {s : Monitored}
    (hr : Lts.Run (Monitored.step S) .init h s) (k : Nat) :
    h.countP (Monitored.notifies k) ≤ 1 := by
  have hcount : h.countP (Monitored.notifies k) =
      (h.filterMap (Monitored.own k)).countP fun own => own.1.notifies own.2 := by
    rw [List.countP_filterMap]
    rfl
  rw [hcount]
  obtain ⟨hrun, hnil⟩ := actors_run hr k
  cases hactor : s.actors[k]? with
  | none =>
      rw [hnil hactor]
      exact Nat.zero_le _
  | some actor =>
      obtain ⟨a₀, -, hrun⟩ := hrun actor hactor
      refine (hrun.once (P := fun a => a.phase.live = true) (c := HealthActor.notifies)
        (fun a e a' _ hs hsends => ⟨(HealthActor.turned hs).live, ?_⟩)
        fun a e a' _ hs _ => (HealthActor.turned hs).live).1
      rw [HealthPhase.notified_ended ((HealthActor.notifies_iff hs).mp hsends).2]
      decide

/-- **Overlapping checks never make a health actor panic on its stop channel.** In every
    interleaving of a caretaker and its health actors no health actor panics because its sender was
    taken before or because the receiver is gone: each step that gets to the sender finds it there,
    and the receiver too; and each health actor gets to it once, at most. -/
theorem stop_channel {h : List (Monitored × Turn)} {s : Monitored}
    (hr : Lts.Run (Monitored.step S) .init h s) :
    (∀ actor ∈ s.actors, actor.phase ≠ .panicked .taken ∧ actor.phase ≠ .panicked .notify) ∧
      ∀ k, (∀ x ∈ h, Monitored.notifies k x = true → x.1.caretaker.receiving k = true ∧
          ∃ actor, x.1.actors[k]? = some actor ∧ actor.stopTx = some ⟨.unhealthy k⟩) ∧
        h.countP (Monitored.notifies k) ≤ 1 := by
  constructor
  · intro actor hactor
    obtain ⟨k, hk⟩ := List.mem_iff_getElem?.mp hactor
    have hsupplied := actors_supplied hr hk
    exact ⟨hsupplied.taken, hsupplied.notified⟩
  · intro k
    refine ⟨fun x hx hsends => ?_, notifies_once hr k⟩
    unfold Monitored.notifies at hsends
    cases hown : Monitored.own k x with
    | none => simp [hown] at hsends
    | some own =>
        obtain ⟨actor, e⟩ := own
        rw [hown] at hsends
        have hreceived := own_received hr k (actor, e) (List.mem_filterMap.mpr ⟨x, hx, hown⟩)
        obtain ⟨s', hs⟩ := hr.enabled x hx
        obtain ⟨hactor, actor', hstep, -⟩ := own_step hs hown
        obtain ⟨h₁, h₂, rfl⟩ := List.append_of_mem hx
        have hsupplied := actors_supplied hr.before hactor
        exact ⟨notifies_received hown hsends hreceived, actor, hactor,
          hsupplied.sender (HealthActor.turned hstep).live⟩

/-- Seven checks of a child are in flight. Six of them fail, in any order, and the sixth failure
    covers the grace period; the seventh is not polled any more, and the child exits. -/
def sevenInFlight : List Turn :=
  [.caretaker .startDaemon, .caretaker (.pollDaemon ⟨1, 1, false⟩), .caretaker (.handle (.ok ())),
    .started 0, .tick 0, .tick 0, .tick 0, .tick 0, .tick 0, .tick 0, .tick 0,
    .checked 0 6 (.error "timeout"), .checked 0 0 (.error "timeout"),
    .checked 0 1 (.error "timeout"), .checked 0 3 (.error "timeout"),
    .checked 0 2 (.error "timeout"), .checked 0 5 (.error "timeout"),
    .caretaker (.exit 0 (.exited 1)), .caretaker (.pollRun 0 .underWay)]

theorem stop_channel_sevenInFlight :
    ∃ h s, Lts.Run (Monitored.step settingA) .init h s ∧
      s.actors.map HealthActor.phase = [.stopped] ∧ h.countP (Monitored.notifies 0) = 1 ∧
      (∀ actor ∈ s.actors, actor.phase ≠ .panicked .taken ∧ actor.phase ≠ .panicked .notify) ∧
      ∀ k, (∀ x ∈ h, Monitored.notifies k x = true → x.1.caretaker.receiving k = true ∧
          ∃ actor, x.1.actors[k]? = some actor ∧ actor.stopTx = some ⟨.unhealthy k⟩) ∧
        h.countP (Monitored.notifies k) ≤ 1 := by
  have hex : ∃ s, Lts.exec (Monitored.step settingA) .init sevenInFlight = some s ∧
      s.actors.map HealthActor.phase = [.stopped] ∧
      (Lts.history (Monitored.step settingA) .init sevenInFlight).countP (Monitored.notifies 0) =
        1 := ⟨_, rfl, rfl, rfl⟩
  obtain ⟨s, hex, hphases, hcount⟩ := hex
  have hr := Lts.run_history hex
  exact ⟨_, s, hr, hphases, hcount, stop_channel hr⟩

end Blahaj
