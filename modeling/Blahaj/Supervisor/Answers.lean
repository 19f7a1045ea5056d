/-
  File:      Blahaj/Supervisor/Answers.lean
  Subject:   WHEN `Wait` AND `Terminate` ARE ANSWERED.

  A `Wait` is answered by the broadcast of the end, or at once after it; a `Terminate` by the
  `Wait` it sends to its own actor.

  * `replies_over` -- a step that sends a reply is taken at a stage that is over;
  * `builds_not_over` -- no child is spawned at such a stage, and no step leaves it;
  * `Shape.wait_resolves`, `Shape.wait_after_end` -- after the end each `Wait` can reply;
  * `answers_in_time` -- the two halves, over all runs; no child is left where no kill is refused.
-/
import Blahaj.Supervisor.StopHandle

namespace Blahaj

variable {S : Setting} {s : Caretaker} {st : Stage}

/-! ## 1. No reply before the end -/

/-- The step sends the reply to a `Wait` or to a `Terminate`. -/
def Event.replies : Event → Bool
  | .pollWait _ | .pollTerminate _ => true
  | _ => false

/-- The daemon has resolved, or its actor has panicked. The requests outlive the actor: its
    broadcast sender is dropped with it, and the `Wait`s that it has handled reply then. -/
def Caretaker.over (s : Caretaker) : Prop := s.ended ∨ s.daemon = .dropped

theorem Shape.over_of_stage (h : Shape S s st) (hover : st.over = true) : s.over := by
  cases st with
  | ended res => exact Or.inl ⟨res, h.token.daemon⟩
  | dropped => exact Or.inr h.token.daemon
  | _ => cases hover

theorem Shape.stage_over (h : Shape S s st) (hover : s.over) : st.over = true := by
  rcases hover with hend | hdrop
  · obtain ⟨res, rfl⟩ := h.ended_stage hend
    rfl
  · have hdaemon := h.token.daemon
    cases st with
    | dropped => rfl
    | ended res => rfl
    | boot => cases hdrop.symm.trans hdaemon
    | _ =>
        obtain ⟨fut, hd, -⟩ := hdaemon
        cases hdrop.symm.trans hd

/-- **A reply is sent at a stage that is over.** -/
theorem replies_over (h : Shape S s st) {e : Event} (he : e.replies = true) {s' : Caretaker}
    (hs : s.step S e = some s') : st.over = true := by
  cases Caretaker.stepped hs with
  | pollWait hfut hres => exact h.wait_replies hfut hres
  | pollTerminate hfut hover => exact h.terminate_replies hfut hover
  | _ => cases he

/-- A stage that is over is left by no step of a run. -/
theorem over_run (hover : st.over = true) {h : List (Caretaker × Event)} {s₀ s : Caretaker}
    (h₀ : Shape S s₀ st) (hr : Lts.Run (Caretaker.step S) s₀ h s) : ∀ x ∈ h, Shape S x.1 st :=
  hr.invariant_before (P := fun s => Shape S s st) h₀ fun _ _ _ hshape hs => by
    obtain ⟨st', hshape', hn⟩ := shape_step hshape hs
    rw [← over_stays hn hover]
    exact hshape'

/-- At a stage that is over no child is spawned. -/
theorem builds_not_over (h : Shape S s st) (hover : st.over = true) {e : Event} :
    ¬ BuildsChild s e := by
  intro hb
  obtain ⟨req, rfl⟩ := builds_queued h hb
  cases hover

theorem Stage.child_over {st : Stage} (hover : st.over = true) : st.child = none := by
  cases st <;> first | rfl | cases hover

/-! ## 2. A reply after the end -/

/-- After the end each `Wait` that has not replied can. -/
theorem Shape.wait_resolves {res : Bool} (h : Shape S s (.ended res)) {i : Nat} {fut : WaitFut}
    (hfut : s.waits[i]? = some fut) (hopen : fut.stoppedRx ≠ .replied) :
    ∃ s', s.step S (.pollWait i) = some s' ∧ s'.waits = s.waits.set i ⟨fut.req, .replied⟩ := by
  have hres : fut.stoppedRx.resolves s.stoppedTx = true := by
    have hwoken := h.doors.woken rfl h.token.crashed fut (List.mem_of_getElem? hfut)
    cases hrx : fut.stoppedRx with
    | ready => rfl
    | receiving value =>
        cases value with
        | true => rfl
        | false => exact absurd hrx hwoken
    | replied => exact absurd hrx hopen
  refine ⟨{ s with waits := s.waits.set i { fut with stoppedRx := .replied } }, ?_, rfl⟩
  simp only [Caretaker.step, hfut, hres, ↓reduceIte]

/-- After the end a `Wait` is ready when it is handled. -/
theorem Shape.wait_after_end {res : Bool} (h : Shape S s (.ended res)) {req : Nat}
    {rest : List Msg} (hm : s.mailbox = .wait req :: rest) (spawn : Except String Unit) :
    ∃ s', s.step S (.handle spawn) = some s' ∧ s'.waits = s.waits ++ [⟨req, .ready⟩] := by
  have htx : s.stoppedTx = none := by
    have hdoor := h.doors.stoppedTx
    simpa [Stage.over] using hdoor
  refine ⟨{ s with mailbox := rest, waits := s.waits ++ [⟨req, .ready⟩] }, ?_, rfl⟩
  simp only [Caretaker.step, hm, Caretaker.handle, Caretaker.handleWait, htx, Caretaker.settle]

/-! ## 3. Over a run -/

/-- **`Wait` and `Terminate` answer at the right time**, for a caretaker with a legal health-check
    URI. Each reply of a run is sent where the daemon is over, and no child is spawned later; a
    child that is not reaped there is one whose kill was refused before, so where no kill of the
    run is refused, there is none. In each state after a daemon that ended without a panic, every
    `Wait` handled so far has its value and can reply, and one handled now is ready at once. -/
theorem answers_in_time (hS : S.Legal) {h : List (Caretaker × Event)} {s : Caretaker}
    (hr : Lts.Run (Caretaker.step S) .init h s) :
    (∀ h₁ x h₂, h = h₁ ++ x :: h₂ → x.2.replies = true →
      x.1.over ∧ (∀ y ∈ h₂, ¬ BuildsChild y.1 y.2) ∧
      (∀ pid, Unreaped x.1.procs pid → ∃ y ∈ h₁, y.1.refusal y.2 = some pid) ∧
      ((∀ y ∈ h, ¬ RefusesKill y.1 y.2) → x.1.procs.countP Proc.unreaped = 0)) ∧
    (s.ended →
      (∀ fut ∈ s.waits, fut.stoppedRx ≠ .receiving false) ∧
      (∀ i fut, s.waits[i]? = some fut → fut.stoppedRx ≠ .replied →
        ∃ s', s.step S (.pollWait i) = some s' ∧
          s'.waits = s.waits.set i ⟨fut.req, .replied⟩) ∧
      ∀ req rest spawn, s.mailbox = .wait req :: rest →
        ∃ s', s.step S (.handle spawn) = some s' ∧
          s'.waits = s.waits ++ [⟨req, .ready⟩]) := by
  constructor
  · intro h₁ x h₂ hsplit hx
    subst hsplit
    obtain ⟨s₁, e⟩ := x
    obtain ⟨s₀, hr₁, hr₂⟩ := hr.split
    obtain ⟨rfl, s₂, hs, -⟩ := hr₂.head
    obtain ⟨st, hshape⟩ := shape_run hr₁
    have hover := replies_over hshape hx hs
    have hchild := Stage.child_over hover
    refine ⟨hshape.over_of_stage hover, fun y hy => ?_, fun pid hun => ?_, fun hC => ?_⟩
    · exact builds_not_over (over_run hover hshape hr₂ y (List.mem_cons_of_mem _ hy)) hover
    · -- no one owns it, so it was given up
      rcases hshape.owner hS hun with hown | hgiven
      · cases hchild.symm.trans hown
      · exact (mem_refused hr₁).mp hgiven
    · have hk := refused_nil hr₁ fun y hy => hC y (List.mem_append_left _ hy)
      exact no_child hshape hS hk hchild
  · intro hended
    obtain ⟨st, hshape⟩ := shape_run hr
    obtain ⟨res, rfl⟩ := hshape.ended_stage hended
    exact ⟨hshape.doors.woken rfl hshape.token.crashed, fun i fut => hshape.wait_resolves,
      fun req rest spawn hm => hshape.wait_after_end hm spawn⟩

/-- After the stop of the running child the `Wait` of the `Terminate` replies, then the `Terminate`
    itself. -/
theorem answers_in_time_stopRunning :
    ∃ s₁ s, Lts.exec (Caretaker.step settingA) .init stopRunning = some s₁ ∧
      Lts.exec (Caretaker.step settingA) s₁ [.pollWait 0, .pollTerminate 0] = some s ∧
      s.terminates = [⟨1, true⟩] ∧ s₁.over ∧ s₁.procs.countP Proc.unreaped = 0 ∧
      ∀ fut ∈ s.waits, fut.stoppedRx ≠ .receiving false := by
  have hex : ∃ s₁ s₂ s, Lts.exec (Caretaker.step settingA) .init stopRunning = some s₁ ∧
      s₁.step settingA (.pollWait 0) = some s₂ ∧
      s₂.step settingA (.pollTerminate 0) = some s ∧ s.terminates = [⟨1, true⟩] ∧
      s.daemon = .ended true := ⟨_, _, _, rfl, rfl, rfl, rfl, rfl⟩
  obtain ⟨s₁, s₂, s, h₁, hs₁, hs₂, ht, hd⟩ := hex
  have hr := ((Lts.run_history h₁).snoc _ hs₁).snoc _ hs₂
  obtain ⟨hreply, hend⟩ := answers_in_time settingA_legal hr
  obtain ⟨hover, -, -, hcount⟩ := hreply _ (s₁, .pollWait 0) [(s₂, .pollTerminate 0)]
    (List.append_assoc ..) rfl
  refine ⟨s₁, s, h₁, ?_, ht, hover, hcount fun y hy hrefuses => ?_, (hend ⟨true, hd⟩).1⟩
  · simp only [Lts.exec, hs₁, hs₂, Option.bind_some]
  · obtain ⟨i, hlabel⟩ := hrefuses.label
    rw [List.mem_append, List.mem_append] at hy
    rcases hy with (hy | hy) | hy
    · have hmem := Lts.label_mem y hy
      rw [hlabel] at hmem
      simp [stopRunning] at hmem
    · rw [List.mem_singleton.mp hy] at hlabel
      cases hlabel
    · rw [List.mem_singleton.mp hy] at hlabel
      cases hlabel

/-- The child runs with other rights: it ignores the SIGTERM of a `Terminate`, and its kill is
    refused. -/
def stopRefused : List Event :=
  [.startDaemon, .pollDaemon ⟨1, 1, false⟩, .handle (.ok ()), .arrive .terminate, .handle (.ok ()),
    .handle (.ok ()), .pollRun 0 .underWay, .pollRun 0 (.elapsed (.error ())),
    .pollDaemon ⟨2, 2, false⟩]

/-- **An answer over a child that runs**: the daemon ends after the kill that was refused, and the
    `Wait` of the `Terminate` replies. -/
theorem answered_over_child :
    (∃ s s', Lts.exec (Caretaker.step settingA) .init stopRefused = some s ∧
      s.daemon = .ended true ∧ s.procs = [.running] ∧
      s.step settingA (.pollWait 0) = some s') ∧
    ¬ ∀ (S : Setting) (h : List (Caretaker × Event)) (s : Caretaker), S.Legal →
      Lts.Run (Caretaker.step S) .init h s →
      ∀ x ∈ h, x.2.replies = true → x.1.procs.countP Proc.unreaped = 0 := by
  have hex : ∃ s s', Lts.exec (Caretaker.step settingA) .init stopRefused = some s ∧
      s.daemon = .ended true ∧ s.procs = [.running] ∧
      s.step settingA (.pollWait 0) = some s' := ⟨_, _, rfl, rfl, rfl, rfl⟩
  refine ⟨hex, fun hall => ?_⟩
  obtain ⟨s, s', hex, -, hprocs, hs⟩ := hex
  have hnone := hall settingA _ s' settingA_legal ((Lts.run_history hex).snoc _ hs)
    (s, .pollWait 0) (List.mem_append_right _ (List.mem_singleton_self _)) rfl
  rw [hprocs] at hnone
  cases hnone

end Blahaj
