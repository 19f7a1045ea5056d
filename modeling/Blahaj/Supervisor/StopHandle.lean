/-
  File:      Blahaj/Supervisor/StopHandle.lean
  Subject:   THE STOP HANDLE: it is never lost or duplicated.

  * `Shape.holds_iff`, `Shape.consumed_stage` -- what is held at a stage, and by what it is
    consumed;
  * `stop_handle` -- one stop receiver in one place, over all runs, and the expects that this
    keeps from failing;
  * `stop_receiver_elsewhere` -- two places that are easily forgotten.
-/
import Blahaj.Supervisor.Frame
import Blahaj.Supervisor.Lifecycle

namespace Blahaj

variable {S : Setting} {s : Caretaker} {st : Stage}

/-! ## 1. The stop handle -/

/-- The daemon has resolved. -/
def Caretaker.ended (s : Caretaker) : Prop := ∃ res, s.daemon = .ended res

/-- A `StopSignalReceived` is at work: its `Run` will give, or has given, `Terminated`. -/
def Caretaker.stopConsumed (s : Caretaker) : Bool :=
  s.runs.any (fun item => match item.fut with
    | .ensureStop _ _ res => res == .terminated
    | _ => false) ||
  s.replies.any (fun reply => reply.2 == .terminated)

theorem terminated_iff (res : RunResult) : res == .terminated ↔ res.stopRx = none := by
  cases res <;> simp [RunResult.stopRx]

/-- What is held at a stage is the stop receiver, unless a `StopSignalReceived` has consumed it. -/
theorem Shape.holds_iff (h : Shape S s st) (hover : st.over = false) :
    st.holds = if s.stopConsumed then [] else [stopReceiver] := by
  have hrx : ∀ res, st.res = some res →
      res.stopRx.toList = if res == .terminated then [] else [stopReceiver] := by
    intro res hres
    cases hnone : res.stopRx with
    | none => rw [if_pos ((terminated_iff res).mpr hnone)]; rfl
    | some rx =>
        rw [if_neg (fun ht => by rw [(terminated_iff res).mp ht] at hnone; cases hnone),
          h.token.rx res rx hres hnone]
        rfl
  have hruns := h.token.runs
  have hreplies := h.token.replies
  unfold Caretaker.stopConsumed
  rw [hreplies]
  cases st with
  | up req child => rw [show s.runs = [_] from hruns]; rfl
  | spawnFailed req =>
      obtain ⟨e, hr⟩ := hruns
      rw [hr]
      rfl
  | stopping req child res =>
      obtain ⟨killing, hr⟩ := hruns
      rw [hr]
      simpa [Stage.replies, Stage.holds] using hrx res rfl
  | replied req res =>
      rw [show s.runs = [] from hruns]
      simpa [Stage.replies, Stage.holds] using hrx res rfl
  | ended res => cases hover
  | dropped => cases hover
  | _ => rw [show s.runs = [] from hruns]; rfl

theorem Shape.ended_stage (h : Shape S s st) (hended : s.ended) : ∃ res, st = .ended res := by
  obtain ⟨res, hd⟩ := hended
  have hdaemon := h.token.daemon
  cases st with
  | ended res' => exact ⟨res', rfl⟩
  | dropped => cases hd.symm.trans hdaemon
  | boot => cases hd.symm.trans hdaemon
  | _ =>
      obtain ⟨fut, hd', -⟩ := hdaemon
      cases hd.symm.trans hd'

theorem Shape.over_iff (h : Shape S s st) (hlive : s.crashed = none) :
    st.over = true ↔ s.ended := by
  constructor
  · intro hover
    cases st with
    | ended res => exact ⟨res, h.token.daemon⟩
    | dropped =>
        obtain ⟨panic, hp, -⟩ := h.token.crashed
        rw [hlive] at hp
        cases hp
    | _ => cases hover
  · intro hended
    obtain ⟨res, rfl⟩ := h.ended_stage hended
    rfl

/-- A `StopSignalReceived` has seen the stop signal, and the daemon is not over. -/
theorem Shape.consumed_stage (h : Shape S s st) (hcons : s.stopConsumed = true) :
    s.stopTx = none ∧ st.over = false := by
  have hruns := h.token.runs
  unfold Caretaker.stopConsumed at hcons
  rw [h.token.replies] at hcons
  cases st with
  | stopping req child res =>
      obtain ⟨killing, hr⟩ := hruns
      rw [hr] at hcons
      have hres : res == .terminated := by simpa [Stage.replies] using hcons
      exact ⟨h.token.heard res rfl ((terminated_iff res).mp hres), rfl⟩
  | replied req res =>
      rw [show s.runs = [] from hruns] at hcons
      have hres : res == .terminated := by simpa [Stage.replies] using hcons
      exact ⟨h.token.heard res rfl ((terminated_iff res).mp hres), rfl⟩
  | up req child =>
      rw [show s.runs = [_] from hruns] at hcons
      cases hcons
  | spawnFailed req =>
      obtain ⟨e, hr⟩ := hruns
      rw [hr] at hcons
      cases hcons
  | _ =>
      rw [show s.runs = [] from hruns] at hcons
      cases hcons

/-- **The stop handle is never lost or duplicated.** In every state of a run: until the daemon has
    ended there is one stop receiver, in one of the places that can hold it, unless a
    `StopSignalReceived` has consumed it, and that only after a `Terminate`; the sender is there
    exactly while no `Terminate` was handled and the daemon has not ended. So the expects on the
    handle never fail. -/
theorem stop_handle {h : List (Caretaker × Event)} {s : Caretaker}
    (hr : Lts.Run (Caretaker.step S) .init h s) :
    (s.crashed = none → ¬ s.ended →
      s.stopReceivers = if s.stopConsumed then [] else [stopReceiver]) ∧
    (s.crashed = none →
      (s.stopTx.isSome ↔ (∀ x ∈ h, ¬ AsksToStop x.1 x.2) ∧ ¬ s.ended)) ∧
    (s.stopConsumed → ∃ x ∈ h, AsksToStop x.1 x.2) ∧
    s.crashed ≠ some .sendStop ∧ s.crashed ≠ some .noState ∧ s.crashed ≠ some .handleTaken := by
  obtain ⟨st, hshape⟩ := shape_run hr
  have hasked := asked_iff hr
  refine ⟨fun hlive hend => ?_, fun hlive => ?_, fun hcons => ?_, hshape.panic_possible,
    hshape.panic_possible, hshape.panic_possible⟩
  · have hover : st.over = false := by
      rw [← Bool.not_eq_true, hshape.over_iff hlive]
      exact hend
    rw [hshape.token.receivers]
    exact hshape.holds_iff hover
  · rw [hshape.doors.stopTx, Bool.and_eq_true, ← hshape.over_iff hlive, List.isEmpty_iff]
    refine and_congr ?_ (by simp)
    rw [← not_iff_not, ← ne_eq, hasked]
    simp
  · obtain ⟨htx, hover⟩ := hshape.consumed_stage hcons
    have hdoor := hshape.doors.stopTx
    rw [htx, hover] at hdoor
    refine hasked.mp fun hnil => ?_
    rw [hnil] at hdoor
    cases hdoor

/-- A `Terminate` reaches the running child of `a`, which exits; the daemon ends. -/
def stopRunning : List Event :=
  [.startDaemon, .pollDaemon ⟨1, 1, false⟩, .handle (.ok ()), .arrive .terminate, .handle (.ok ()),
    .handle (.ok ()), .pollRun 0 .underWay, .exit 0 (.killed 15), .pollRun 0 .underWay,
    .pollDaemon ⟨2, 2, false⟩]

theorem stop_handle_stopRunning :
    ∃ h s, Lts.Run (Caretaker.step settingA) .init h s ∧ h.length = 10 ∧
      s.daemon = .ended true ∧ s.crashed = none ∧
      (s.stopTx.isSome ↔ (∀ x ∈ h, ¬ AsksToStop x.1 x.2) ∧ ¬ s.ended) := by
  have hex : ∃ s, Lts.exec (Caretaker.step settingA) .init stopRunning = some s ∧
      s.daemon = .ended true ∧ s.crashed = none ∧
      (Lts.history (Caretaker.step settingA) .init stopRunning).length = 10 :=
    ⟨_, rfl, rfl, rfl, rfl⟩
  obtain ⟨s, hex, hd, hlive, hlen⟩ := hex
  have hr := Lts.run_history hex
  exact ⟨_, s, hr, hlen, hd, hlive, (stop_handle hr).2.1 hlive⟩

/-- The stop receivers in the state of the daemon's future, in `Run` messages, in `WaitAbortFut`s,
    in failed spawns and in results on their way. -/
def Caretaker.passedReceivers (s : Caretaker) : List Receiver :=
  (match s.daemon with
    | .running fut => fut.state.toList
    | _ => []) ++
  s.mailbox.flatMap Msg.receivers ++
  s.runs.flatMap (fun item => match item.fut with
    | .ensureStop _ _ _ => []
    | fut => fut.receivers) ++
  s.replies.flatMap (fun reply => reply.2.stopRx.toList)

/-- The receiver is in none of these places before the notification of `started` is handled, and
    while an unhealthy child is being stopped. -/
theorem stop_receiver_elsewhere :
    (∃ s, Lts.Reach (Caretaker.step settingA) .init s ∧ s.crashed = none ∧ ¬ s.ended ∧
      s.stopConsumed = false ∧ s.daemon = .notified stopReceiver ∧ s.passedReceivers = []) ∧
    ∃ s, Lts.Reach (Caretaker.step settingA) .init s ∧ s.crashed = none ∧ ¬ s.ended ∧
      s.stopConsumed = false ∧ s.passedReceivers = [] ∧
      s.runs = [⟨.ensureStop false ⟨0⟩ (.unhealthy stopReceiver), 0⟩] := by
  refine ⟨⟨.init, .start, rfl, ?_, rfl, rfl, rfl⟩, ?_⟩
  · intro hend
    obtain ⟨res, hd⟩ := hend
    cases hd
  · have hex : ∃ s, Lts.exec (Caretaker.step settingA) .init [.startDaemon,
        .pollDaemon ⟨1, 1, false⟩, .handle (.ok ()), .unhealthy 0, .pollRun 0 .underWay] = some s ∧
        s.crashed = none ∧ (∃ fut, s.daemon = .running fut) ∧ s.stopConsumed = false ∧
        s.passedReceivers = [] ∧
        s.runs = [⟨.ensureStop false ⟨0⟩ (.unhealthy stopReceiver), 0⟩] :=
      ⟨_, rfl, rfl, ⟨_, rfl⟩, rfl, rfl, rfl⟩
    obtain ⟨s, hex, hlive, ⟨fut, hd⟩, hcons, hpassed, hruns⟩ := hex
    refine ⟨s, Lts.reach_of_exec hex, hlive, ?_, hcons, hpassed, hruns⟩
    intro hend
    obtain ⟨res, hd'⟩ := hend
    cases hd.symm.trans hd'

end Blahaj
