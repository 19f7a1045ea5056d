/-
  File:      Blahaj/Supervisor/NoRestart.lean
  Subject:   NO START AFTER STOP, and when a caretaker breaks it.

  Only `WaitAbortFut` looks at the stop signal. A `Terminate` that is handled between two rounds
  is answered by a new child, and so is one that a round did not see and whose end the retry
  guard tolerates.

  * `StopHeeded` -- the steps that keep out of this: a `Terminate` that takes the stop handle does
    it while a `Run` is under way, and no mark is tolerated after it;
  * `Stage.committed`, `Settled` -- the invariant: after a `Terminate` there is no `Run` to come;
    `Next.committed`, `settled_step` -- a step that heeds the stop keeps it;
  * `no_start_after_stop` -- where every step heeds the stop, no child is spawned after it;
  * `start_after_stop` -- a `Terminate` in the retry delay.
-/
import Blahaj.Supervisor.StopHandle

namespace Blahaj

variable {S : Setting} {s : Caretaker} {st : Stage}

/-! ## 1. Heeding the stop -/

/-- The step heeds the stop: if it handles the `Terminate` that takes the stop handle, then a
    handled `Run` is under way or its result is; if a `Terminate` was handled before, then no mark
    is tolerated. -/
def StopHeeded (s : Caretaker) (e : Event) : Prop :=
  (AsksToStop s e → s.stopTx.isSome → s.runs ≠ [] ∨ s.replies ≠ []) ∧
    (s.terminates ≠ [] → ¬ Marks s e (some true))

instance (s : Caretaker) (e : Event) : Decidable (StopHeeded s e) := by
  unfold StopHeeded
  infer_instance

/-- No `Run` is in the mailbox, and none will be sent before the next mark. -/
def Stage.committed : Stage → Bool
  | .boot | .idle | .queued _ => false
  | _ => true

/-- A stage at which a `Run` is under way, or its result is, is committed. -/
theorem Shape.committed_of_run (h : Shape S s st) (hrun : s.runs ≠ [] ∨ s.replies ≠ []) :
    st.committed = true := by
  have hruns := h.token.runs
  have hreplies := h.token.replies
  cases st with
  | boot => rcases hrun with hne | hne; exacts [absurd hruns hne, absurd hreplies hne]
  | idle => rcases hrun with hne | hne; exacts [absurd hruns hne, absurd hreplies hne]
  | queued req => rcases hrun with hne | hne; exacts [absurd hruns hne, absurd hreplies hne]
  | _ => rfl

/-- Handling a `Terminate` leaves the daemon where it stands. -/
theorem asks_stays (h : Shape S s st) {e : Event} (ha : AsksToStop s e) {s' : Caretaker}
    (hs : s.step S e = some s') : Shape S s' st := by
  obtain ⟨spawn, m, rest, rfl, hm, hk⟩ := handles_iff.mp ha
  obtain rfl := beq_iff_eq.mp hk
  obtain ⟨hout, hshape⟩ := h.handled_terminate (h.alive hm) hm
  simp only [Caretaker.step, hm, Caretaker.handle, hout, Caretaker.settle, Option.some.injEq] at hs
  rw [← hs]
  exact hshape

/-! ## 2. The invariant -/

/-- After a `Terminate` there is no `Run` to come. -/
def Settled (S : Setting) (s : Caretaker) : Prop :=
  ∃ st, Shape S s st ∧ (s.terminates ≠ [] → st.committed = true)

theorem settled_init : Settled S .init := ⟨.boot, shape_init S, fun h => absurd rfl h⟩

/-- A committed stage is left for another one, unless a mark is tolerated. -/
theorem Next.committed {s' : Caretaker} {e : Event} {st' : Stage} (hn : Next S s s' e st st')
    (hst : st.committed = true) (hm : ¬ Marks s e (some true)) : st'.committed = true := by
  cases hn with
  | quiet _ _ _ => exact hst
  | report _ _ _ _ _ => exact hst
  | again req res hmark _ => exact absurd hmark hm
  | giveUp req res _ _ hst' _ => rcases hst' with rfl | rfl <;> rfl
  | finish req res _ _ hst' _ => rcases hst' with rfl | rfl <;> rfl
  | start _ => cases hst
  | send req _ => cases hst
  | spawned req _ _ => rfl
  | spawnError req _ _ => rfl
  | illegal req _ _ => rfl
  | stop req child res => rfl
  | left req child res => rfl
  | failed req res => rfl
  | reaped req child res => rfl
  | clock req res _ _ => rfl

/-- **A step that heeds the stop keeps it settled.** -/
theorem settled_step {e : Event} {s' : Caretaker} (h : Settled S s) (hC : StopHeeded s e)
    (hs : s.step S e = some s') : Settled S s' := by
  obtain ⟨st, hshape, hcommitted⟩ := h
  by_cases ha : AsksToStop s e
  · refine ⟨st, asks_stays hshape ha hs, fun _ => ?_⟩
    by_cases hprev : s.terminates = []
    · -- the first `Terminate`: it takes the stop handle, or the daemon is over
      cases hover : st.over with
      | true => cases st <;> first | rfl | cases hover
      | false =>
          refine hshape.committed_of_run (hC.1 ha ?_)
          rw [hshape.doors.stopTx, hprev, hover]
          rfl
    · exact hcommitted hprev
  · obtain ⟨st', hshape', hn⟩ := shape_step hshape hs
    refine ⟨st', hshape', fun hne => ?_⟩
    have hlen := (frame_step hshape hs).terminates
    rw [if_neg ha, Nat.add_zero] at hlen
    have hprev : s.terminates ≠ [] := by
      rw [← List.length_pos_iff, ← hlen]
      exact List.length_pos_iff.mpr hne
    exact hn.committed (hcommitted hprev) (hC.2 hprev)

/-- Once a `Terminate` was handled, a settled caretaker spawns no child. -/
theorem Settled.builds_not (h : Settled S s) {e : Event} (hne : s.terminates ≠ []) :
    ¬ BuildsChild s e := by
  intro hb
  obtain ⟨st, hshape, hcommitted⟩ := h
  obtain ⟨req, rfl⟩ := builds_queued hshape hb
  cases hcommitted hne

/-! ## 3. Over a run -/

/-- **No start after stop**, in every run whose steps heed it: after the step that handles a
    `Terminate`, no step calls `build_child`. -/
theorem no_start_after_stop {h h₁ h₂ : List (Caretaker × Event)} {x : Caretaker × Event}
    {s : Caretaker} (hr : Lts.Run (Caretaker.step S) .init h s)
    (hC : ∀ y ∈ h, StopHeeded y.1 y.2) (hsplit : h = h₁ ++ x :: h₂) (hx : AsksToStop x.1 x.2) :
    ∀ y ∈ h₂, ¬ BuildsChild y.1 y.2 := by
  subst hsplit
  intro y hy
  obtain ⟨k₁, k₂, rfl⟩ := List.append_of_mem hy
  -- the run up to the state before `y`
  have hcut : h₁ ++ x :: (k₁ ++ y :: k₂) = (h₁ ++ x :: k₁) ++ y :: k₂ := by simp
  rw [hcut] at hr hC
  have hr₁ := hr.before
  have hsettled : Settled S y.1 :=
    hr₁.invariant_if settled_init (fun _ _ _ => settled_step) fun z hz =>
      hC z (List.mem_append_left _ hz)
  exact hsettled.builds_not ((asked_iff hr₁).mpr ⟨x, by simp, hx⟩)

theorem no_start_after_stop_running :
    ∃ h h₁ h₂ x s, Lts.Run (Caretaker.step settingA) .init h s ∧ h = h₁ ++ x :: h₂ ∧
      AsksToStop x.1 x.2 ∧ h₂.length = 5 ∧ ∀ y ∈ h₂, ¬ BuildsChild y.1 y.2 := by
  have hex : ∃ s, Lts.exec (Caretaker.step settingA) .init stopRunning = some s := ⟨_, rfl⟩
  have hasks : ∃ s₁ s₂, Lts.exec (Caretaker.step settingA) .init (stopRunning.take 4) = some s₁ ∧
      s₁.step settingA (.handle (.ok ())) = some s₂ ∧ AsksToStop s₁ (.handle (.ok ())) ∧
      (Lts.history (Caretaker.step settingA) s₂ (stopRunning.drop 5)).length = 5 :=
    ⟨_, _, rfl, rfl, rfl, rfl⟩
  obtain ⟨s, hex⟩ := hex
  obtain ⟨s₁, s₂, hex₁, hs₁, hx, hlen⟩ := hasks
  have hr := Lts.run_history hex
  have hall : (Lts.history (Caretaker.step settingA) .init stopRunning).all
      (fun y => decide (StopHeeded y.1 y.2)) = true := rfl
  have hC : ∀ y ∈ Lts.history (Caretaker.step settingA) .init stopRunning,
      StopHeeded y.1 y.2 := fun y hy => of_decide_eq_true (List.all_eq_true.mp hall y hy)
  have hcut : Lts.history (Caretaker.step settingA) .init stopRunning = _ ++ (s₁, _) ::
      Lts.history (Caretaker.step settingA) s₂ (stopRunning.drop 5) := Lts.history_cut hex₁ hs₁
  exact ⟨_, _, _, (s₁, _), s, hr, hcut, hx, hlen, no_start_after_stop hr hC hcut hx⟩

/-! ## 4. A stop that is not heeded -/

/-- A `Terminate` in the retry delay of `a`. -/
def stopWaiting : List Event :=
  [.startDaemon, .pollDaemon ⟨1, 1, false⟩, .handle (.ok ()), .exit 0 (.exited 1),
    .pollRun 0 .underWay, .pollDaemon ⟨90000000000, 90000000000, false⟩, .arrive .terminate]

/-- The delay passes, and the slot machine starts the next round. -/
def delayPasses : List Event :=
  [.handle (.ok ()), .pollDaemon ⟨95000000000, 95000000000, true⟩,
    .pollDaemon ⟨95000000000, 95000000000, false⟩]

/-- The `Terminate` is handled in the retry delay, and a child is spawned after it. -/
theorem start_after_stop :
    ∃ h s h₁ x h₂ y, Lts.Run (Caretaker.step settingA) .init h s ∧ h = h₁ ++ x :: h₂ ∧
      AsksToStop x.1 x.2 ∧ y ∈ h₂ ∧ BuildsChild y.1 y.2 := by
  have hex : ∃ s₁ s₂ s₃ s₄, Lts.exec (Caretaker.step settingA) .init stopWaiting = some s₁ ∧
      s₁.step settingA (.handle (.ok ())) = some s₂ ∧ AsksToStop s₁ (.handle (.ok ())) ∧
      Lts.exec (Caretaker.step settingA) s₂ delayPasses = some s₃ ∧
      s₃.step settingA (.handle (.ok ())) = some s₄ ∧ BuildsChild s₃ (.handle (.ok ())) :=
    ⟨_, _, _, _, rfl, rfl, rfl, rfl, rfl, rfl⟩
  obtain ⟨s₁, s₂, s₃, s₄, h₁, hs₁, hx, h₃, hs₃, hy⟩ := hex
  have hr := ((Lts.run_history h₁).snoc _ hs₁).append ((Lts.run_history h₃).snoc _ hs₃)
  exact ⟨_, s₄, _, (s₁, _), _, (s₃, _), hr, by rw [List.append_assoc]; rfl, hx, by simp, hy⟩

end Blahaj
