/-
  File:      Blahaj/Supervisor/Broadcast.lean
  Subject:   THE END OF A DAEMON: `broadcast_stopped`, and who is there to hear it.

  The receiver of the broadcast channel that `started` makes is dropped at once, so the only ones
  there are come from the `Wait`s handled before the daemon resolves (those a `Terminate` sends
  among them). `send` fails where there is none.

  * `Ends` -- what a step does to the futures of handled `Wait`s, and when it panics at the send;
    `ends_step` shows it of every step;
  * `pollDaemon_calls` -- where the daemon resolves, `broadcast_stopped` is called;
  * `resolves_once` -- the daemon resolves at most once;
  * `broadcast_heard` -- the panic is reached exactly in the runs that handle no `Wait` before the
    daemon resolves.
-/
import Blahaj.Supervisor.Frame

namespace Blahaj

variable {S : Setting} {s s' : Caretaker} {st : Stage}

/-! ## 1. The two kinds of steps -/

/-- The poll in which `RepeatedActFut` resolves; the closure behind it calls
    `broadcast_stopped`. -/
def Caretaker.resolves (S : Setting) (s : Caretaker) : Event → Bool
  | .pollDaemon clock => match s.daemon with
    | .running fut =>
      if (roundOf fut.fut).any fun req => !s.answering req then false else
      match fut.poll Caretaker.sendRun (Caretaker.pollRound S) clock s with
      | some (.ready _, _, _) => true
      | _ => false
    | _ => false
  | _ => false

abbrev Resolves (S : Setting) (s : Caretaker) (e : Event) : Prop := s.resolves S e = true

def Msg.asksToWait : Msg → Bool
  | .wait _ => true
  | _ => false

/-- The step handles a `Wait`, somebody's or the one a `Terminate` has sent. -/
abbrev HandlesWait (s : Caretaker) (e : Event) : Prop := s.handles Msg.asksToWait e = true

/-! ## 2. One step -/

/-- What a step does to the futures of handled `Wait`s, and when it panics at the send. -/
structure Ends (S : Setting) (s s' : Caretaker) (e : Event) : Prop where
  waits : s'.waits.length = s.waits.length + if HandlesWait s e then 1 else 0
  lost : s'.crashed = some .sendStopped ↔
    s.crashed = some .sendStopped ∨ (Resolves S s e ∧ s.waits = [])

/-- No `Wait` comes or goes, and if the actor panics then at another place. -/
structure Aside (s s' : Caretaker) : Prop where
  waits : s'.waits.length = s.waits.length
  crashed : s'.crashed = s.crashed ∨ ∃ panic, s'.crashed = some panic ∧ panic ≠ .sendStopped

theorem Aside.lost (h : Aside s s') (hlive : s.crashed = none) :
    s'.crashed ≠ some .sendStopped := by
  intro hc
  rcases h.crashed with hsame | ⟨panic, hp, hne⟩
  · rw [hsame, hlive] at hc
    cases hc
  · exact hne (Option.some.inj (hp.symm.trans hc))

/-- Code of a live actor that leaves the `Wait`s alone. -/
theorem Aside.ends {e : Event} (h : Aside s s') (hlive : s.crashed = none)
    (hw : s.handles Msg.asksToWait e = false) (hr : s.resolves S e = false) : Ends S s s' e where
  waits := by simp [h.waits, hw]
  lost := by simp [h.lost hlive, hlive, hr]

/-- A step that runs no code of the actor which can panic. -/
theorem ends_same {e : Event} (hwaits : s'.waits.length = s.waits.length)
    (hc : s'.crashed = s.crashed) (hw : s.handles Msg.asksToWait e = false)
    (hr : s.resolves S e = false) : Ends S s s' e where
  waits := by simp [hwaits, hw]
  lost := by simp [hc, hr]

theorem Spared.aside (h : Spared s s') : Aside s s' where
  waits := congrArg List.length h.waits
  crashed := by
    rcases h.outcome with ⟨-, hc⟩ | ⟨panic, hne, -, hc⟩
    · exact Or.inl hc
    · exact Or.inr ⟨panic, hc, hne⟩

theorem handleTerminate_aside (s : Caretaker) :
    Aside s (Caretaker.settle s.handleTerminate) := by
  unfold Caretaker.handleTerminate
  split
  · dsimp only
    split
    · exact ⟨rfl, Or.inr ⟨.sendStop, rfl, by simp⟩⟩
    · exact ⟨rfl, Or.inl rfl⟩
  · exact ⟨rfl, Or.inl rfl⟩

theorem handle_ends (hlive : s.crashed = none) {m : Msg} {rest : List Msg}
    (hm : s.mailbox = m :: rest) (spawn : Except String Unit) :
    Ends S s (Caretaker.settle (Caretaker.handle S spawn { s with mailbox := rest } m))
      (.handle spawn) := by
  have hkind : s.handles Msg.asksToWait (.handle spawn) = m.asksToWait := by
    simp only [Caretaker.handles, hm]
  cases m with
  | run stopRx req =>
      obtain ⟨hw, hc⟩ :=
        (handleRun_spared (S := S) spawn stopRx req { s with mailbox := rest }).aside
      exact Aside.ends ⟨hw, hc⟩ hlive hkind rfl
  | wait req =>
      have hw : (Caretaker.handleWait req { s with mailbox := rest }).waits.length =
          s.waits.length + 1 := by
        unfold Caretaker.handleWait
        split <;> exact List.length_append
      have hc : (Caretaker.handleWait req { s with mailbox := rest }).crashed = s.crashed := by
        unfold Caretaker.handleWait
        split <;> rfl
      exact {
        waits := by
          simp only [HandlesWait, hkind]
          exact hw
        lost := by
          show (Caretaker.handleWait req _).crashed = _ ↔ _
          rw [hc]
          simp [Caretaker.resolves] }
  | terminate =>
      obtain ⟨hw, hc⟩ := handleTerminate_aside { s with mailbox := rest }
      exact Aside.ends ⟨hw, hc⟩ hlive hkind rfl
  | setHealthState sender health =>
      obtain ⟨hw, hc⟩ := (handleSetHealthState_spared health { s with mailbox := rest }).aside
      exact Aside.ends ⟨hw, hc⟩ hlive hkind rfl
  | getStatus => exact ends_same rfl rfl hkind rfl

/-- **`broadcast_stopped` before any send**: it panics exactly where there is no `Wait`. -/
theorem broadcastStopped_lost (hlive : s.crashed = none) (htx : s.stoppedTx.isSome = true)
    (hwaiting : ∀ fut ∈ s.waits, fut.stoppedRx = .receiving false) :
    (Caretaker.settle s.broadcastStopped).waits.length = s.waits.length ∧
      ((Caretaker.settle s.broadcastStopped).crashed = some .sendStopped ↔ s.waits = []) := by
  obtain ⟨tx, htx⟩ := Option.isSome_iff_exists.mp htx
  cases hw : s.waits with
  | nil =>
      simp only [Caretaker.broadcastStopped, htx, hw, List.any_nil, Bool.false_eq_true, ↓reduceIte,
        Caretaker.settle]
      exact ⟨rfl, iff_of_true rfl trivial⟩
  | cons fut rest =>
      have hany : (fut :: rest).any (fun fut => fut.stoppedRx.isReceiving) = true := by
        rw [List.any_cons, hwaiting fut (by rw [hw]; exact List.mem_cons_self ..)]
        rfl
      simp only [Caretaker.broadcastStopped, htx, hw, hany, ↓reduceIte, Caretaker.settle]
      exact ⟨List.length_map _, by simp [hlive]⟩

/-- A daemon that is polled is not over. -/
theorem Shape.running_stage (h : Shape S s st) {fut : RepeatedActFut Nat Receiver}
    (hd : s.daemon = .running fut) : st.over = false := by
  have hdaemon := h.token.daemon
  cases st with
  | ended res => cases hd.symm.trans hdaemon
  | dropped => cases hd.symm.trans hdaemon
  | _ => rfl

/-- **A poll that resolves the daemon calls `broadcast_stopped`**, with the channels as they
    were. -/
theorem pollDaemon_calls {fut : RepeatedActFut Nat Receiver} (hd : s.daemon = .running fut)
    {clock : Clock} (hr : Resolves S s (.pollDaemon clock)) :
    ∃ s₁ : Caretaker, Caretaker.pollDaemon S clock fut s = s₁.broadcastStopped ∧
      s₁.waits = s.waits ∧ s₁.crashed = s.crashed ∧ s₁.stoppedTx = s.stoppedTx := by
  simp only [Resolves, Caretaker.resolves, hd] at hr
  split at hr
  · cases hr
  · rename_i hgone
    unfold Caretaker.pollDaemon
    rw [if_neg hgone]
    split at hr
    · rename_i res fut₁ s₁ hp
      rw [hp]
      cases RepeatedActFut.polled hp with
      | giveUp _ hpf _ =>
          obtain ⟨replies, log, rfl⟩ := pollRound_same hpf
          exact ⟨_, rfl, rfl, rfl, rfl⟩
      | stopped _ hpf =>
          obtain ⟨replies, log, rfl⟩ := pollRound_same hpf
          exact ⟨_, rfl, rfl, rfl, rfl⟩
    · cases hr

/-- A poll that does not resolve the daemon. -/
theorem pollDaemon_aside {fut : RepeatedActFut Nat Receiver} (hd : s.daemon = .running fut)
    {clock : Clock} (hr : s.resolves S (.pollDaemon clock) = false) :
    Aside s (Caretaker.settle (Caretaker.pollDaemon S clock fut s)) := by
  simp only [Caretaker.resolves, hd] at hr
  unfold Caretaker.pollDaemon
  split at hr
  · rename_i hgone
    rw [if_pos hgone]
    exact ⟨rfl, Or.inr ⟨.selfAlive, rfl, by simp⟩⟩
  · rename_i hgone
    rw [if_neg hgone]
    cases hp : fut.poll Caretaker.sendRun (Caretaker.pollRound S) clock s with
    | none =>
        refine ⟨rfl, Or.inr ⟨_, rfl, ?_⟩⟩
        split <;> simp
    | some polled =>
        obtain ⟨r, fut₁, s₁⟩ := polled
        rw [hp] at hr
        cases RepeatedActFut.polled hp with
        | busy _ hpf =>
            obtain ⟨replies, log, rfl⟩ := pollRound_same hpf
            exact ⟨rfl, Or.inl rfl⟩
        | again _ hpf _ =>
            obtain ⟨replies, log, rfl⟩ := pollRound_same hpf
            exact ⟨rfl, Or.inl rfl⟩
        | giveUp _ _ _ => cases hr
        | stopped _ _ => cases hr
        | asleep _ _ => exact ⟨rfl, Or.inl rfl⟩
        | woken _ _ => exact ⟨rfl, Or.inl rfl⟩
        | create _ _ => exact ⟨rfl, Or.inl rfl⟩

theorem pollDaemon_ends (h : Shape S s st) {fut : RepeatedActFut Nat Receiver}
    (hd : s.daemon = .running fut) (clock : Clock) :
    Ends S s (Caretaker.settle (Caretaker.pollDaemon S clock fut s)) (.pollDaemon clock) := by
  have hover := h.running_stage hd
  have hlive : s.crashed = none := crashed_of_not_dropped h fun hst => by
    rw [hst] at hover
    cases hover
  cases hr : s.resolves S (.pollDaemon clock) with
  | false => exact (pollDaemon_aside hd hr).ends hlive rfl hr
  | true =>
      have htx := h.doors.stoppedTx
      rw [hover] at htx
      obtain ⟨s₁, hcall, hw, hc, ht⟩ := pollDaemon_calls hd hr
      obtain ⟨hlen, hlost⟩ := broadcastStopped_lost (hc.trans hlive) (by rw [ht]; exact htx)
        (by rw [hw]; exact h.doors.waiting hover)
      rw [hcall]
      exact {
        waits := by rw [hlen, hw]; rfl
        lost := by rw [hlost, hw]; simp [hlive, Resolves, hr] }

/-- **Every step**: the futures of `Wait`s count the `Wait`s handled, and the actor panics at the
    send where the daemon resolves and there is none. -/
theorem ends_step (h : Shape S s st) {e : Event} (hs : s.step S e = some s') : Ends S s s' e := by
  cases Caretaker.stepped hs with
  | arrive _ hs =>
      obtain ⟨⟨n, rfl⟩, -⟩ := Caretaker.arrived hs
      exact ends_same rfl rfl rfl rfl
  | handle hm spawn => exact handle_ends (h.alive hm) hm spawn
  | startDaemon _ => exact ends_same rfl rfl rfl rfl
  | pollDaemon hd clock => exact pollDaemon_ends h hd clock
  | @pollRun i item hitem grace =>
      have hlive : s.crashed = none := crashed_of_not_dropped h fun hst => by
        subst hst
        rw [show s.runs = [] from h.token.runs] at hitem
        cases hitem
      exact (pollRun_spared i grace item s).aside.ends hlive rfl rfl
  | pollWait _ _ => exact ends_same (List.length_set ..) rfl rfl rfl
  | pollTerminate _ _ => exact ends_same rfl rfl rfl rfl
  | exit _ _ => exact ends_same rfl rfl rfl rfl
  | reap _ => exact ends_same rfl rfl rfl rfl
  | unhealthy _ => exact ends_same rfl rfl rfl rfl

/-! ## 3. The end of the daemon -/

/-- After `broadcast_stopped` the sender is gone, whether it panicked or not. -/
theorem broadcastStopped_closes (s : Caretaker) :
    (Caretaker.settle s.broadcastStopped).stoppedTx = none := by
  cases htx : s.stoppedTx with
  | none =>
      simp only [Caretaker.broadcastStopped, htx]
      rfl
  | some _ =>
      simp only [Caretaker.broadcastStopped, htx]
      split <;> rfl

/-- **A step that resolves the daemon finds the sender and takes it.** -/
theorem resolves_closes (h : Shape S s st) {e : Event} (hs : s.step S e = some s')
    (hr : Resolves S s e) : s.stoppedTx.isSome = true ∧ s'.stoppedTx = none := by
  cases Caretaker.stepped hs with
  | pollDaemon hd clock =>
      have htx := h.doors.stoppedTx
      rw [h.running_stage hd] at htx
      obtain ⟨s₁, hcall, -⟩ := pollDaemon_calls hd hr
      rw [hcall]
      exact ⟨htx, broadcastStopped_closes s₁⟩
  | _ => cases hr

/-- The sender is never made again. -/
theorem closed_stays (h : Shape S s st) {e : Event} (hs : s.step S e = some s')
    (hopen : s'.stoppedTx.isSome = true) : s.stoppedTx.isSome = true := by
  obtain ⟨st', h', hn⟩ := shape_step h hs
  rw [h.doors.stoppedTx]
  rw [h'.doors.stoppedTx] at hopen
  cases hover : st.over with
  | false => rfl
  | true =>
      rw [over_stays hn hover, hover] at hopen
      cases hopen

section Runs

variable {h : List (Caretaker × Event)}

/-- **The daemon resolves at most once.** -/
theorem resolves_once (hr : Lts.Run (Caretaker.step S) .init h s) :
    (h.countP fun x => x.1.resolves S x.2) ≤ 1 := by
  refine (hr.once (P := fun s => s.stoppedTx.isSome = true)
    (c := fun s e => s.resolves S e) ?_ ?_).1
  · intro s e s' hreach hs hres
    obtain ⟨st, hshape⟩ := shape_reach hreach
    obtain ⟨hopen, hclosed⟩ := resolves_closes hshape hs hres
    exact ⟨hopen, by rw [hclosed]; simp⟩
  · intro s e s' hreach hs
    obtain ⟨st, hshape⟩ := shape_reach hreach
    exact closed_stays hshape hs

/-- The futures of `Wait`s count the `Wait`s handled so far. -/
theorem waits_run (hr : Lts.Run (Caretaker.step S) .init h s) :
    s.waits.length = h.countP fun x => x.1.handles Msg.asksToWait x.2 := by
  refine hr.counts (f := fun s => s.waits.length)
    (c := fun s e => s.handles Msg.asksToWait e) rfl fun s e s' hreach hs => ?_
  obtain ⟨st, hshape⟩ := shape_reach hreach
  exact (ends_step hshape hs).waits

/-- The actor has panicked at the send exactly where the daemon has resolved with no `Wait`. -/
theorem lost_run (hr : Lts.Run (Caretaker.step S) .init h s) :
    s.crashed = some .sendStopped ↔ ∃ x ∈ h, Resolves S x.1 x.2 ∧ x.1.waits = [] := by
  refine hr.latched (P := fun s => s.crashed = some .sendStopped)
    (C := fun s e => Resolves S s e ∧ s.waits = []) (by simp [Caretaker.init, Caretaker.started,
      Caretaker.new]) fun s e s' hreach hs => ?_
  obtain ⟨st, hshape⟩ := shape_reach hreach
  exact (ends_step hshape hs).lost

/-- A `Wait` was handled before a step exactly where it has a future there. -/
theorem waited_iff {h₁ h₂ : List (Caretaker × Event)} {x : Caretaker × Event}
    (hr : Lts.Run (Caretaker.step S) .init (h₁ ++ x :: h₂) s) :
    (∃ y ∈ h₁, HandlesWait y.1 y.2) ↔ x.1.waits ≠ [] := by
  rw [← List.length_pos_iff, waits_run hr.before, List.countP_pos_iff]

/-- **`broadcast_stopped` is called at most once**, in the poll in which the daemon resolves; its
    `take` never fails, and its `send` is heard exactly in the runs in which some `Wait` is handled
    before that poll. -/
theorem broadcast_heard (hr : Lts.Run (Caretaker.step S) .init h s) :
    (h.countP fun x => x.1.resolves S x.2) ≤ 1 ∧ s.crashed ≠ some .stoppedTaken ∧
    (s.crashed ≠ some .sendStopped ↔ ∀ h₁ x h₂, h = h₁ ++ x :: h₂ → Resolves S x.1 x.2 →
      ∃ y ∈ h₁, HandlesWait y.1 y.2) := by
  refine ⟨resolves_once hr, ?_, ?_⟩
  · obtain ⟨st, hshape⟩ := shape_run hr
    exact fun hc => hshape.panic_possible hc
  · rw [Ne, lost_run hr]
    constructor
    · intro hno h₁ x h₂ hsplit hres
      subst hsplit
      rw [waited_iff hr]
      exact fun hnone => hno ⟨x, by simp, hres, hnone⟩
    · intro hall hlost
      obtain ⟨x, hx, hres, hnone⟩ := hlost
      obtain ⟨h₁, h₂, hsplit⟩ := List.append_of_mem hx
      have hwaited := hall h₁ x h₂ hsplit hres
      rw [hsplit] at hr
      exact (waited_iff hr).mp hwaited hnone

end Runs

/-- Program `a`, given up at its first end. -/
def settingGivenUp : Setting :=
  { settingA with program := { programA with
    retry := { window := 5000000000, count := 0, delay := 5000000000 } } }

/-- The program cannot be spawned and is given up; somebody waits for its end. -/
def failsWaited : List Event :=
  [.startDaemon, .pollDaemon ⟨1, 1, false⟩, .arrive .wait,
    .handle (.error "No such file or directory (os error 2)"), .handle (.ok ()),
    .pollRun 0 .underWay, .pollDaemon ⟨90000000000, 90000000000, false⟩]

theorem broadcast_heard_waited :
    ∃ h s, Lts.Run (Caretaker.step settingGivenUp) .init h s ∧
      (h.countP fun x => x.1.resolves settingGivenUp x.2) = 1 ∧
      s.crashed ≠ some .stoppedTaken ∧
      (s.crashed ≠ some .sendStopped ↔ ∀ h₁ x h₂, h = h₁ ++ x :: h₂ →
        Resolves settingGivenUp x.1 x.2 → ∃ y ∈ h₁, HandlesWait y.1 y.2) := by
  have hex : ∃ s, Lts.exec (Caretaker.step settingGivenUp) .init failsWaited = some s ∧
      ((Lts.history (Caretaker.step settingGivenUp) .init failsWaited).countP
        fun x => x.1.resolves settingGivenUp x.2) = 1 := ⟨_, rfl, rfl⟩
  obtain ⟨s, hex, hcount⟩ := hex
  have hr := Lts.run_history hex
  obtain ⟨-, htaken, hheard⟩ := broadcast_heard hr
  exact ⟨_, s, hr, hcount, htaken, hheard⟩

/-- The same, but nobody waits. -/
def failsAlone : List Event :=
  [.startDaemon, .pollDaemon ⟨1, 1, false⟩,
    .handle (.error "No such file or directory (os error 2)"), .pollRun 0 .underWay,
    .pollDaemon ⟨90000000000, 90000000000, false⟩]

/-- **A program that fails before any `Wait`** takes its caretaker with it. -/
theorem broadcast_unheard :
    ¬ ∀ (S : Setting) (h : List (Caretaker × Event)) (s : Caretaker),
      Lts.Run (Caretaker.step S) .init h s →
      (h.countP fun x => x.1.resolves S x.2) ≤ 1 ∧ s.crashed ≠ some .stoppedTaken ∧
        s.crashed ≠ some .sendStopped := by
  intro hall
  have hex : ∃ s, Lts.exec (Caretaker.step settingGivenUp) .init failsAlone = some s ∧
      s.crashed = some .sendStopped := ⟨_, rfl, rfl⟩
  obtain ⟨s, hex, hcrash⟩ := hex
  exact (hall settingGivenUp _ s (Lts.run_history hex)).2.2 hcrash

end Blahaj
