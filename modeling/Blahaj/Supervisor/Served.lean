/-
  File:      Blahaj/Supervisor/Served.lean
  Subject:   EVERY REQUEST IS ANSWERED once the daemon is over.

  * `after_end` -- what a step does then: only requests are served;
  * `AfterEnd.openWaits` -- the open `Wait`s of a number become fewer;
  * `requests_answered` -- in every fair execution each handled `Wait` and `Terminate` is answered.
-/
import Blahaj.Supervisor.Termination

namespace Blahaj

variable {S : Setting} {s s' s₀ : Caretaker} {st : Stage}

/-! ## 1. After the end -/

/-- What a step does to the mailbox and to the requests once the daemon is over. -/
inductive AfterEnd (s s' : Caretaker) : Event → Prop where
  | arrive (m : Incoming) (hm : s'.mailbox = s.mailbox ++ [m.msg s.nextReq])
      (hw : s'.waits = s.waits) (ht : s'.terminates = s.terminates) :
      AfterEnd s s' (.arrive m)
  | wait (spawn : Except String Unit) {req : Nat} {rest : List Msg}
      (hbox : s.mailbox = .wait req :: rest) (hm : s'.mailbox = rest)
      (hw : s'.waits = s.waits ++ [⟨req, .ready⟩]) (ht : s'.terminates = s.terminates) :
      AfterEnd s s' (.handle spawn)
  | terminate (spawn : Except String Unit) {rest : List Msg} (hbox : s.mailbox = .terminate :: rest)
      (hm : s'.mailbox = rest ++ [.wait s.nextReq]) (hw : s'.waits = s.waits)
      (ht : s'.terminates = s.terminates ++ [⟨s.nextReq, false⟩]) :
      AfterEnd s s' (.handle spawn)
  | other (spawn : Except String Unit) {m : Msg} {rest : List Msg} (hbox : s.mailbox = m :: rest)
      (hother : ∀ req, m.isWait req = false) (hm : s'.mailbox = rest) (hw : s'.waits = s.waits)
      (ht : s'.terminates = s.terminates) : AfterEnd s s' (.handle spawn)
  | pollWait {i : Nat} {fut : WaitFut} (hfut : s.waits[i]? = some fut)
      (hm : s'.mailbox = s.mailbox) (hw : s'.waits = s.waits.set i ⟨fut.req, .replied⟩)
      (ht : s'.terminates = s.terminates) : AfterEnd s s' (.pollWait i)
  | pollTerminate {i : Nat} {fut : TerminateFut} (hfut : s.terminates[i]? = some fut)
      (hm : s'.mailbox = s.mailbox) (hw : s'.waits = s.waits)
      (ht : s'.terminates = s.terminates.set i { fut with replied := true }) :
      AfterEnd s s' (.pollTerminate i)
  | world {e : Event} (he : ∀ spawn i, e ≠ .handle spawn ∧ e ≠ .pollWait i ∧ e ≠ .pollTerminate i)
      (hm : s'.mailbox = s.mailbox) (hw : s'.waits = s.waits) (ht : s'.terminates = s.terminates) :
      AfterEnd s s' e

/-- **Once the daemon is over** only requests are served. -/
theorem after_end (h : Shape S s st) (hover : st.over = true) {e : Event}
    (hs : s.step S e = some s') : AfterEnd s s' e := by
  have htx : s.stoppedTx = none := by
    have hdoor := h.doors.stoppedTx
    rw [hover] at hdoor
    simpa using hdoor
  have hdaemon : ∀ fut, s.daemon ≠ .running fut := by
    intro fut hd
    have hdaemon := h.token.daemon
    cases st with
    | ended res => cases hd.symm.trans hdaemon
    | dropped => cases hd.symm.trans hdaemon
    | _ => cases hover
  cases Caretaker.stepped hs with
  | @arrive m _ _ hs =>
      obtain ⟨⟨n, rfl⟩, -⟩ := Caretaker.arrived hs
      exact .arrive m rfl rfl rfl
  | @handle m rest hm spawn =>
      cases m with
      | run stopRx req =>
          rw [(h.run_head hm).1] at hover
          cases hover
      | wait req =>
          refine .wait spawn hm ?_ ?_ ?_ <;>
            simp [Caretaker.handle, Caretaker.handleWait, htx, Caretaker.settle]
      | terminate =>
          have hout := (h.handled_terminate (h.alive hm) hm).1
          refine .terminate spawn hm ?_ ?_ ?_ <;>
            simp [Caretaker.handle, hout, Caretaker.settle, Caretaker.sendWait]
      | setHealthState sender health =>
          obtain ⟨ht, hw, ho, -⟩ :=
            handleSetHealthState_spared health { s with mailbox := rest }
          refine .other spawn hm (fun _ => rfl) ?_ hw ht
          show (Caretaker.handleSetHealthState health { s with mailbox := rest }).mailbox = rest
          unfold Caretaker.handleSetHealthState
          split <;> rfl
      | getStatus => exact .other spawn hm (fun _ => rfl) rfl rfl rfl
  | startDaemon hd =>
      rw [(h.daemon_started hd).1] at hover
      cases hover
  | pollDaemon hd _ => exact absurd hd (hdaemon _)
  | pollRun hitem _ =>
      have hruns : s.runs = [] := by
        cases st with
        | ended res => exact h.token.runs
        | dropped => exact h.token.runs
        | _ => cases hover
      rw [hruns] at hitem
      cases hitem
  | pollWait hfut _ => exact .pollWait hfut rfl rfl rfl
  | pollTerminate hfut _ => exact .pollTerminate hfut rfl rfl rfl
  | exit _ _ => exact .world (by simp) rfl rfl rfl
  | reap _ => exact .world (by simp) rfl rfl rfl
  | unhealthy _ => exact .world (by simp) rfl rfl rfl

/-- What is left of the `Wait`s with this number; one in the mailbox still has two steps to go. -/
def Caretaker.openWaits (s : Caretaker) (req : Nat) : Nat :=
  2 * s.mailbox.countP (Msg.isWait req) +
    s.waits.countP fun fut => fut.req == req && fut.stoppedRx != .replied

theorem waitOver_iff (s : Caretaker) (req : Nat) :
    s.waitOver req = true ↔ s.openWaits req = 0 := by
  unfold Caretaker.waitOver Caretaker.openWaits
  rw [Bool.and_eq_true, Bool.not_eq_true', Bool.not_eq_true', List.any_eq_false,
    List.any_eq_false, Nat.add_eq_zero_iff, Nat.mul_eq_zero, List.countP_eq_zero,
    List.countP_eq_zero]
  simp

/-- **The open `Wait`s become fewer**: no new one with an old number is sent. -/
theorem AfterEnd.openWaits {e : Event} (h : AfterEnd s s' e) {req : Nat} (hreq : req < s.nextReq) :
    s'.openWaits req ≤ s.openWaits req ∧
      (s.handles (Msg.isWait req) e = true → s'.openWaits req < s.openWaits req) ∧
      ∀ i fut, e = .pollWait i → s.waits[i]? = some fut → fut.req = req →
        fut.stoppedRx ≠ .replied → s'.openWaits req < s.openWaits req := by
  unfold Caretaker.openWaits
  cases h with
  | arrive m hm hw ht =>
      have hno : (m.msg s.nextReq).isWait req = false := by
        cases m with
        | wait => simpa [Incoming.msg, Msg.isWait] using Nat.ne_of_gt hreq
        | _ => rfl
      rw [hm, hw, List.countP_append, List.countP_singleton, hno]
      exact ⟨Nat.le_refl _, fun hk => by simp [Caretaker.handles] at hk, by simp⟩
  | @wait spawn req' rest hbox hm hw ht =>
      rw [hm, hw, hbox, List.countP_cons, List.countP_append, List.countP_singleton]
      have heq : (Msg.wait req').isWait req = (req' == req) := rfl
      rw [heq]
      simp only [Caretaker.handles, hbox, heq]
      cases hreq' : req' == req with
      | true => simp; omega
      | false => simp
  | @terminate spawn rest hbox hm hw ht =>
      have hno : (Msg.wait s.nextReq).isWait req = false := by
        simpa [Msg.isWait] using Nat.ne_of_gt hreq
      rw [hm, hw, hbox, List.countP_cons, List.countP_append, List.countP_singleton, hno]
      exact ⟨by simp [Msg.isWait], fun hk => by simp [Caretaker.handles, hbox, Msg.isWait] at hk,
        by simp⟩
  | @other spawn m rest hbox hother hm hw ht =>
      rw [hm, hw, hbox, List.countP_cons, hother req]
      exact ⟨by simp, fun hk => by simp [Caretaker.handles, hbox, hother] at hk, by simp⟩
  | @pollWait i fut hfut hm hw ht =>
      obtain ⟨hlt, hget⟩ := List.getElem?_eq_some_iff.mp hfut
      have hdone : ¬ ((WaitFut.mk fut.req .replied).req == req &&
          (WaitFut.mk fut.req .replied).stoppedRx != .replied) = true := by simp
      rw [hm, hw, List.countP_set hlt, hget, if_neg hdone, Nat.add_zero]
      refine ⟨Nat.add_le_add_left (Nat.sub_le _ _) _,
        fun hk => by simp [Caretaker.handles] at hk, ?_⟩
      intro i' fut' heq hfut' hreq' hopen
      cases heq
      obtain rfl := Option.some.inj (hfut.symm.trans hfut')
      have hcounted : (fut.req == req && fut.stoppedRx != .replied) = true := by
        simp [hreq', hopen]
      have hcount : 0 < s.waits.countP fun fut => fut.req == req && fut.stoppedRx != .replied :=
        List.countP_pos_iff.mpr ⟨fut, List.mem_of_getElem? hfut, hcounted⟩
      rw [if_pos hcounted]
      omega
  | pollTerminate hfut hm hw ht =>
      rw [hm, hw]
      exact ⟨Nat.le_refl _, fun hk => by simp [Caretaker.handles] at hk, by simp⟩
  | world he hm hw ht =>
      rw [hm, hw]
      refine ⟨Nat.le_refl _, fun hk => ?_, fun i _ heq => absurd heq (he (.ok ()) i).2.1⟩
      obtain ⟨spawn, _, _, heq, -⟩ := handles_iff.mp hk
      exact absurd heq (he spawn 0).1

/-! ## 2. The numbers of the requests -/

theorem broadcastStopped_nextReq {n : Nat} (hn : s.nextReq = n) :
    (Caretaker.settle s.broadcastStopped).nextReq = n := by
  cases htx : s.stoppedTx with
  | none =>
      simp only [Caretaker.broadcastStopped, htx]
      exact hn
  | some _ =>
      simp only [Caretaker.broadcastStopped, htx]
      split <;> exact hn

theorem pollDaemon_nextReq (clock : Clock) (fut : RepeatedActFut Nat Receiver) (s : Caretaker) :
    s.nextReq ≤ (Caretaker.settle (s.pollDaemon S clock fut)).nextReq := by
  unfold Caretaker.pollDaemon
  split
  · exact Nat.le_refl _
  · cases hp : fut.poll Caretaker.sendRun (Caretaker.pollRound S) clock s with
    | none => exact Nat.le_refl _
    | some polled =>
        obtain ⟨r, fut₁, s₁⟩ := polled
        cases RepeatedActFut.polled hp with
        | busy _ hpf | again _ hpf _ =>
            obtain ⟨replies, log, rfl⟩ := pollRound_same hpf
            exact Nat.le_refl _
        | giveUp _ hpf _ | stopped _ hpf =>
            obtain ⟨replies, log, rfl⟩ := pollRound_same hpf
            exact Nat.le_of_eq (broadcastStopped_nextReq (by rfl)).symm
        | asleep _ _ | woken _ _ => exact Nat.le_refl _
        | create _ _ => exact Nat.le_succ _

theorem handleRun_nextReq (spawn : Except String Unit) (stopRx : Receiver) (req : Nat)
    (s : Caretaker) : (Caretaker.settle (s.handleRun S spawn stopRx req)).nextReq = s.nextReq := by
  unfold Caretaker.handleRun
  cases spawn with
  | error source => rfl
  | ok _ =>
      simp only [buildChild]
      split <;> rfl

theorem StopPolled.nextReq {i req : Nat} {killing : Bool} {grace : Grace} {child : Child}
    {res : RunResult} (h : StopPolled s i req killing child res grace s') :
    s'.nextReq = s.nextReq := by
  cases h <;> rfl

theorem Shape.pollRun_nextReq (h : Shape S s st) {i : Nat} {grace : Grace}
    (hs : s.step S (.pollRun i grace) = some s') : s'.nextReq = s.nextReq := by
  cases h.polls hs with
  | up hp =>
      cases hp with
      | stop _ hp => exact hp.nextReq
      | unhealthy _ _ hp => exact hp.nextReq
      | exited _ _ _ _ _ => rfl
      | pending _ _ => rfl
  | spawnFailed hs' => rw [hs', Caretaker.finishRun]
  | stopping _ hp => exact hp.nextReq

/-- Each `Terminate` waits for a `Wait` whose number was given out. -/
def Issued (s : Caretaker) : Prop := ∀ fut ∈ s.terminates, fut.req < s.nextReq

/-- **Numbers are given out once.** -/
theorem issued_step (h : Shape S s st) {e : Event} (hs : s.step S e = some s') :
    s.nextReq ≤ s'.nextReq ∧ (Issued s → Issued s') := by
  have hsame : ∀ {s₁ : Caretaker}, s.nextReq ≤ s₁.nextReq → s₁.terminates = s.terminates →
      s.nextReq ≤ s₁.nextReq ∧ (Issued s → Issued s₁) := fun hle ht =>
    ⟨hle, fun hissued fut hfut => Nat.lt_of_lt_of_le (hissued fut (ht ▸ hfut)) hle⟩
  have hpoll : ∀ i grace, e = .pollRun i grace → s'.nextReq = s.nextReq := by
    intro i grace heq
    subst heq
    exact h.pollRun_nextReq hs
  cases Caretaker.stepped hs with
  | @arrive m _ _ hs =>
      cases m with
      | setHealthState sender health =>
          simp only [Caretaker.arrive] at hs
          split at hs
          · obtain rfl := Option.some.inj hs
            exact hsame (Nat.le_refl _) rfl
          · cases hs
      | wait =>
          obtain rfl := Option.some.inj hs
          exact hsame (Nat.le_succ _) rfl
      | _ =>
          obtain rfl := Option.some.inj hs
          exact hsame (Nat.le_refl _) rfl
  | @handle m rest hm spawn =>
      cases m with
      | run stopRx req =>
          exact hsame (Nat.le_of_eq
            (handleRun_nextReq spawn stopRx req { s with mailbox := rest }).symm)
            (handleRun_spared spawn stopRx req { s with mailbox := rest }).terminates
      | wait req =>
          refine hsame ?_ ?_
          · show s.nextReq ≤ (Caretaker.handleWait req { s with mailbox := rest }).nextReq
            unfold Caretaker.handleWait
            split <;> exact Nat.le_refl _
          · show (Caretaker.handleWait req { s with mailbox := rest }).terminates = s.terminates
            unfold Caretaker.handleWait
            split <;> rfl
      | terminate =>
          simp only [Caretaker.handle, (h.handled_terminate (h.alive hm) hm).1, Caretaker.settle,
            Caretaker.sendWait]
          refine ⟨Nat.le_succ _, fun hissued fut hfut => ?_⟩
          rcases List.mem_append.mp hfut with hfut | hfut
          · exact Nat.lt_succ_of_lt (hissued fut hfut)
          · rw [List.mem_singleton.mp hfut]
            exact Nat.lt_succ_self _
      | setHealthState sender health =>
          have hspared := handleSetHealthState_spared health { s with mailbox := rest }
          refine hsame ?_ hspared.terminates
          show s.nextReq ≤
            (Caretaker.handleSetHealthState health { s with mailbox := rest }).nextReq
          unfold Caretaker.handleSetHealthState
          split <;> exact Nat.le_refl _
      | getStatus => exact hsame (Nat.le_refl _) rfl
  | @pollDaemon fut _ clock =>
      refine hsame (pollDaemon_nextReq clock fut s) ?_
      rcases pollDaemon_kept (S := S) clock fut s with hkept | ⟨_, _, hkept⟩
      · exact hkept.terminates
      · exact hkept.terminates
  | @pollRun i item hitem grace =>
      exact hsame (Nat.le_of_eq (hpoll i grace rfl).symm)
        (pollRun_spared i grace item s).terminates
  | @pollTerminate i fut hfut _ =>
      refine ⟨Nat.le_refl _, fun hissued fut' hfut' => ?_⟩
      rcases List.mem_or_eq_of_mem_set hfut' with hmem | heq
      · exact hissued fut' hmem
      · rw [heq]
        exact hissued fut (List.mem_of_getElem? hfut)
  | _ => exact hsame (Nat.le_refl _) rfl

theorem issued_reach (hr : Lts.Reach (Caretaker.step S) .init s) : Issued s := by
  have hboth := hr.invariant (P := fun s => (∃ st, Shape S s st) ∧ Issued s)
    ⟨⟨.boot, shape_init S⟩, fun _ h => absurd h List.not_mem_nil⟩ fun _ _ _ hP hs => by
      obtain ⟨⟨st, hshape⟩, hissued⟩ := hP
      exact ⟨shaped_step ⟨st, hshape⟩ hs, (issued_step hshape hs).2 hissued⟩
  exact hboth.2

/-! ## 3. Each request -/

/-- After the end a `Wait` keeps its place, and changes where it replies. -/
theorem AfterEnd.wait_at {e : Event} (h : AfterEnd s s' e) {i : Nat} {fut : WaitFut}
    (hfut : s.waits[i]? = some fut) :
    s'.waits[i]? = some fut ∧ e ≠ .pollWait i ∨
      e = .pollWait i ∧ s'.waits[i]? = some ⟨fut.req, .replied⟩ := by
  have hlt := (List.getElem?_eq_some_iff.mp hfut).1
  cases h with
  | wait _ _ _ hw _ => exact Or.inl ⟨by rw [hw, List.getElem?_append_left hlt, hfut], by simp⟩
  | @pollWait j fut' hfut' _ hw _ =>
      by_cases hij : j = i
      · subst hij
        obtain rfl := Option.some.inj (hfut'.symm.trans hfut)
        exact Or.inr ⟨rfl, by rw [hw, List.getElem?_set_self hlt]⟩
      · refine Or.inl ⟨by rw [hw, List.getElem?_set_ne hij, hfut], fun heq => hij ?_⟩
        cases heq
        rfl
  | arrive _ _ hw _ => exact Or.inl ⟨hw ▸ hfut, by simp⟩
  | terminate _ _ _ hw _ => exact Or.inl ⟨hw ▸ hfut, by simp⟩
  | other _ _ _ _ hw _ => exact Or.inl ⟨hw ▸ hfut, by simp⟩
  | pollTerminate _ _ hw _ => exact Or.inl ⟨hw ▸ hfut, by simp⟩
  | world he _ hw _ => exact Or.inl ⟨hw ▸ hfut, (he (.ok ()) i).2.1⟩

/-- After the end a `Terminate` keeps its place, and changes where it replies. -/
theorem AfterEnd.terminate_at {e : Event} (h : AfterEnd s s' e) {i : Nat} {fut : TerminateFut}
    (hfut : s.terminates[i]? = some fut) :
    s'.terminates[i]? = some fut ∧ e ≠ .pollTerminate i ∨
      e = .pollTerminate i ∧ s'.terminates[i]? = some { fut with replied := true } := by
  have hlt := (List.getElem?_eq_some_iff.mp hfut).1
  cases h with
  | terminate _ _ _ _ ht => exact Or.inl ⟨by rw [ht, List.getElem?_append_left hlt, hfut], by simp⟩
  | @pollTerminate j fut' hfut' _ _ ht =>
      by_cases hij : j = i
      · subst hij
        obtain rfl := Option.some.inj (hfut'.symm.trans hfut)
        exact Or.inr ⟨rfl, by rw [ht, List.getElem?_set_self hlt]⟩
      · refine Or.inl ⟨by rw [ht, List.getElem?_set_ne hij, hfut], fun heq => hij ?_⟩
        cases heq
        rfl
  | arrive _ _ _ ht => exact Or.inl ⟨ht ▸ hfut, by simp⟩
  | wait _ _ _ _ ht => exact Or.inl ⟨ht ▸ hfut, by simp⟩
  | other _ _ _ _ _ ht => exact Or.inl ⟨ht ▸ hfut, by simp⟩
  | pollWait _ _ _ ht => exact Or.inl ⟨ht ▸ hfut, by simp⟩
  | world he _ _ ht => exact Or.inl ⟨ht ▸ hfut, (he (.ok ()) i).2.2⟩

/-- Over for good. -/
theorem over_step (h : Regular S s) (hover : s.over) {e : Event} (hs : s.step S e = some s') :
    s'.over ∧ AfterEnd s s' e ∧ s.nextReq ≤ s'.nextReq ∧
      (s.crashed = none → s'.crashed = none) := by
  obtain ⟨st, hshape⟩ := h.shape
  have hst := hshape.stage_over hover
  obtain ⟨st', h', hn⟩ := shape_step hshape hs
  obtain rfl := over_stays hn hst
  refine ⟨h'.over_of_stage hst, after_end hshape hst hs, (issued_step hshape hs).1,
    fun hlive => ?_⟩
  refine crashed_of_not_dropped h' fun hdrop => ?_
  subst hdrop
  obtain ⟨panic, hp, -⟩ := hshape.token.crashed
  rw [hlive] at hp
  cases hp

/-- After the end each `Wait` that has not replied can. -/
theorem pollWait_enabled (h : Regular S s) (hover : s.over) {i : Nat} {fut : WaitFut}
    (hfut : s.waits[i]? = some fut) (hopen : fut.stoppedRx ≠ .replied) :
    ∃ s', s.step S (.pollWait i) = some s' := by
  obtain ⟨st, hshape⟩ := h.shape
  have htx : s.stoppedTx = none := by
    have hdoor := hshape.doors.stoppedTx
    rw [hshape.stage_over hover] at hdoor
    simpa using hdoor
  have hres : fut.stoppedRx.resolves s.stoppedTx = true := by
    rw [htx]
    cases hrx : fut.stoppedRx with
    | replied => exact absurd hrx hopen
    | _ => simp [StoppedRx.resolves]
  exact ⟨_, by simp only [Caretaker.step, hfut, hres, ↓reduceIte]; rfl⟩

section Requests

variable {x : Lts.Execution (Caretaker.step S) s₀} (hI : ∀ n, Regular S (x.state n)) (hx : Fair x)

include hI hx in
/-- **After the end each `Wait` replies.** -/
theorem wait_leads (i : Nat) :
    x.LeadsTo (fun s => s.over ∧ i < s.waits.length)
      fun s => ∃ fut, s.waits[i]? = some fut ∧ fut.stoppedRx = .replied := by
  have hreplies : ∀ fut : WaitFut, fut.stoppedRx ≠ .replied →
      x.LeadsTo (fun s => s.over ∧ s.waits[i]? = some fut)
        fun s => ∃ fut, s.waits[i]? = some fut ∧ fut.stoppedRx = .replied := by
    intro fut hopen
    refine Lts.Execution.LeadsTo.ensures (C := fun _ _ => True) hI (fun _ _ _ => trivial)
      (hx.waits i) ?_ ?_
    · intro s e s' hIs _ hP hs
      obtain ⟨hover', hend, -⟩ := over_step hIs hP.1 hs
      rcases hend.wait_at hP.2 with ⟨hfut, he⟩ | ⟨-, hfut⟩
      · exact Or.inr ⟨⟨hover', hfut⟩, he⟩
      · exact Or.inl ⟨_, hfut, rfl⟩
    · intro s hIs hP
      obtain ⟨s', hs⟩ := pollWait_enabled hIs hP.1 hP.2 hopen
      exact ⟨_, s', rfl, hs⟩
  intro n hP
  have hget := List.getElem?_eq_getElem hP.2
  by_cases hopen : (x.state n).waits[i].stoppedRx = .replied
  · exact ⟨n, Nat.le_refl n, _, hget, hopen⟩
  · exact hreplies _ hopen n ⟨hP.1, hget⟩

/-- The daemon is over, and the `Wait`s with a number that was given out have so many steps to
    go. -/
def Closing (req k : Nat) (s : Caretaker) : Prop :=
  s.over ∧ req < s.nextReq ∧ s.openWaits req ≤ k

theorem Closing.step {req k : Nat} (h : Regular S s) (hP : Closing req k s) {e : Event}
    (hs : s.step S e = some s') : Closing req k s' ∧ AfterEnd s s' e := by
  obtain ⟨hover, hreq, hopen⟩ := hP
  obtain ⟨hover', hend, hle, -⟩ := over_step h hover hs
  exact ⟨⟨hover', Nat.lt_of_lt_of_le hreq hle, Nat.le_trans (hend.openWaits hreq).1 hopen⟩, hend⟩

include hI hx in
/-- A `Wait` of the mailbox is handled. -/
theorem boxed_leads (req k : Nat) :
    x.LeadsTo (fun s => Closing req k s ∧ s.mailbox.any (Msg.isWait req) = true)
      fun s => ∃ j < k, Closing req j s := by
  have hmessage := message_leads hI hx (C := fun _ _ => True) (fun _ _ _ => trivial)
    (Msg.isWait req) (J := fun s => Closing req k s ∧ s.crashed = none)
    (Q := fun s => ∃ j < k, Closing req j s)
    (fun s e s' hIs hJ hs =>
      Or.inr ⟨(hJ.1.step hIs hs).1, (over_step hIs hJ.1.1 hs).2.2.2 hJ.2⟩)
    (fun s e s' hIs _ hJ hhandles hs => by
      obtain ⟨⟨hover, hreq, hopen⟩, -⟩ := hJ
      obtain ⟨⟨hover', hreq', -⟩, hend⟩ := Closing.step hIs ⟨hover, hreq, hopen⟩ hs
      exact ⟨_, Nat.lt_of_lt_of_le ((hend.openWaits hreq).2.1 hhandles) hopen, hover', hreq',
        Nat.le_refl _⟩)
    (fun s _ hJ hdead => not_crashed hJ.2 hdead)
  intro n hP
  have hlive : (x.state n).crashed = none := by
    obtain ⟨st, hshape⟩ := (hI n).shape
    cases hm : (x.state n).mailbox with
    | nil => simp [hm] at hP
    | cons m rest => exact hshape.alive hm
  exact hmessage n ⟨⟨hP.1, hlive⟩, hP.2⟩

include hI hx in
/-- A `Wait` that was handled replies. -/
theorem open_leads (k i : Nat) {fut : WaitFut} (hopen : fut.stoppedRx ≠ .replied) :
    x.LeadsTo (fun s => Closing fut.req k s ∧ s.waits[i]? = some fut)
      fun s => ∃ j < k, Closing fut.req j s := by
  refine Lts.Execution.LeadsTo.ensures (C := fun _ _ => True) hI (fun _ _ _ => trivial)
    (hx.waits i) ?_ ?_
  · intro s e s' hIs _ hP hs
    obtain ⟨hclosing, hend⟩ := hP.1.step hIs hs
    rcases hend.wait_at hP.2 with ⟨hfut, he⟩ | ⟨he, -⟩
    · exact Or.inr ⟨⟨hclosing, hfut⟩, he⟩
    · have hlt := (hend.openWaits hP.1.2.1).2.2 i fut he hP.2 rfl hopen
      exact Or.inl ⟨_, Nat.lt_of_lt_of_le hlt hP.1.2.2, hclosing.1, hclosing.2.1, Nat.le_refl _⟩
  · intro s hIs hP
    obtain ⟨s', hs⟩ := pollWait_enabled hIs hP.1.1 hP.2 hopen
    exact ⟨_, s', rfl, hs⟩

include hI hx in
/-- **After the end no `Wait` with a given number stays open.** -/
theorem waits_leads (req : Nat) :
    x.LeadsTo (fun s => s.over ∧ req < s.nextReq) (Closing req 0) := by
  have hdescend := Lts.Execution.LeadsTo.descend (x := x) (Q := Closing req 0)
    (P := Closing req) fun k n hP => by
      by_cases hbox : (x.state n).mailbox.any (Msg.isWait req) = true
      · obtain ⟨m, hnm, hlower⟩ := boxed_leads hI hx req k n ⟨hP, hbox⟩
        exact ⟨m, hnm, Or.inr hlower⟩
      by_cases hopen : ∃ (i : Nat) (fut : WaitFut), (x.state n).waits[i]? = some fut ∧
          fut.req = req ∧ fut.stoppedRx ≠ .replied
      · obtain ⟨i, fut, hfut, rfl, hopen⟩ := hopen
        obtain ⟨m, hnm, hlower⟩ := open_leads hI hx k i hopen n ⟨hP, hfut⟩
        exact ⟨m, hnm, Or.inr hlower⟩
      · refine ⟨n, Nat.le_refl n, Or.inl ⟨hP.1, hP.2.1, Nat.le_of_eq ?_⟩⟩
        rw [← waitOver_iff]
        unfold Caretaker.waitOver
        simp only [Bool.and_eq_true, Bool.not_eq_true', List.any_eq_false]
        refine ⟨by simpa using hbox, fun fut hfut hno => ?_⟩
        obtain ⟨i, hget⟩ := List.getElem?_of_mem hfut
        exact hopen ⟨i, fut, hget, by simpa using hno⟩
  exact fun n hP => hdescend _ n ⟨hP.1, hP.2, Nat.le_refl _⟩

include hI hx in
/-- **After the end each `Terminate` replies.** -/
theorem terminate_leads (i : Nat) :
    x.LeadsTo (fun s => s.over ∧ i < s.terminates.length ∧ Issued s)
      fun s => ∃ fut, s.terminates[i]? = some fut ∧ fut.replied = true := by
  have hreplies : ∀ fut : TerminateFut, ¬ fut.replied = true →
      x.LeadsTo (fun s => Closing fut.req 0 s ∧ s.terminates[i]? = some fut)
        fun s => ∃ fut, s.terminates[i]? = some fut ∧ fut.replied = true := by
    intro fut hopen
    refine Lts.Execution.LeadsTo.ensures (C := fun _ _ => True) hI (fun _ _ _ => trivial)
      (hx.terminates i) ?_ ?_
    · intro s e s' hIs _ hP hs
      obtain ⟨hclosing, hend⟩ := hP.1.step hIs hs
      rcases hend.terminate_at hP.2 with ⟨hfut', he⟩ | ⟨-, hfut'⟩
      · exact Or.inr ⟨⟨hclosing, hfut'⟩, he⟩
      · exact Or.inl ⟨_, hfut', rfl⟩
    · intro s _ hP
      have hwait : s.waitOver fut.req = true := by
        rw [waitOver_iff]
        exact Nat.le_zero.mp hP.1.2.2
      refine ⟨.pollTerminate i,
        { s with terminates := s.terminates.set i { fut with replied := true } }, rfl, ?_⟩
      simp [Caretaker.step, hP.2, hopen, hwait]
  intro n hP
  obtain ⟨hover, hlt, hissued⟩ := hP
  have hget := List.getElem?_eq_getElem hlt
  -- the `Terminate` keeps its place while its `Wait` is served
  have hplace : ∀ m, n ≤ m → ∃ fut, (x.state m).terminates[i]? = some fut ∧
      (fut.req = ((x.state n).terminates[i]).req) := fun m hnm =>
    (x.stays hI (P := fun s => s.over ∧ ∃ fut, s.terminates[i]? = some fut ∧
        fut.req = ((x.state n).terminates[i]).req)
      (fun s e s' hIs hP hs => by
        obtain ⟨hover', hend, -⟩ := over_step hIs hP.1 hs
        obtain ⟨-, fut, hfut, hreq⟩ := hP
        rcases hend.terminate_at hfut with ⟨hfut', -⟩ | ⟨-, hfut'⟩
        · exact ⟨hover', fut, hfut', hreq⟩
        · exact ⟨hover', _, hfut', hreq⟩)
      hnm ⟨hover, _, hget, rfl⟩).2
  obtain ⟨m, hnm, hclosing⟩ := waits_leads hI hx ((x.state n).terminates[i]).req n
    ⟨hover, hissued _ (List.getElem_mem hlt)⟩
  obtain ⟨fut, hfut, hreq⟩ := hplace m hnm
  by_cases hopen : fut.replied = true
  · exact ⟨m, hnm, fut, hfut, hopen⟩
  · obtain ⟨k, hmk, hQ⟩ := hreplies fut hopen m ⟨hreq ▸ hclosing, hfut⟩
    exact ⟨k, Nat.le_trans hnm hmk, hQ⟩

end Requests

/-! ## 4. Every request -/

/-- No `Wait` is forgotten. -/
theorem waits_length_step (h : Shape S s st) {e : Event} (hs : s.step S e = some s') :
    s.waits.length ≤ s'.waits.length := by
  cases Caretaker.stepped hs with
  | arrive _ hs =>
      obtain ⟨⟨n, rfl⟩, -⟩ := Caretaker.arrived hs
      exact Nat.le_refl _
  | @handle m rest hm spawn =>
      cases m with
      | run stopRx req =>
          exact Nat.le_of_eq (congrArg List.length
            (handleRun_spared spawn stopRx req { s with mailbox := rest }).waits.symm)
      | wait req =>
          show _ ≤ (Caretaker.handleWait req { s with mailbox := rest }).waits.length
          unfold Caretaker.handleWait
          split <;> simp
      | terminate =>
          simp only [Caretaker.handle, (h.handled_terminate (h.alive hm) hm).1, Caretaker.settle]
          exact Nat.le_refl _
      | setHealthState sender health =>
          exact Nat.le_of_eq (congrArg List.length
            (handleSetHealthState_spared health { s with mailbox := rest }).waits.symm)
      | getStatus => exact Nat.le_refl _
  | @pollDaemon fut _ clock =>
      rcases pollDaemon_kept (S := S) clock fut s with hkept | ⟨_, _, hkept⟩
      · simpa using hkept.waits.length_le
      · simpa using hkept.waits.length_le
  | @pollRun i item _ grace =>
      exact Nat.le_of_eq (congrArg List.length (pollRun_spared i grace item s).waits.symm)
  | pollWait _ _ => exact Nat.le_of_eq (List.length_set ..).symm
  | _ => exact Nat.le_refl _

/-- **Every request is answered**, in every fair execution in which the spawns fail finitely often:
    each `Terminate` that is handled gets its reply, and so does each `Wait` that is handled, once
    the caretaker was asked to stop or its daemon is over. -/
theorem requests_answered {x : Lts.Execution (Caretaker.step S) .init} (hx : Fair x)
    (hspawn : SpawnsAtLast x) (i : Nat) :
    (x.LeadsTo (fun s => i < s.terminates.length)
      fun s => ∃ fut, s.terminates[i]? = some fut ∧ fut.replied = true) ∧
    x.LeadsTo (fun s => (s.asked ∨ s.over) ∧ i < s.waits.length)
      fun s => ∃ fut, s.waits[i]? = some fut ∧ fut.stoppedRx = .replied := by
  have hI : ∀ n, Regular S (x.state n) := fun n => regular_reach (x.reach n)
  have hends := asked_leads hx hspawn
  constructor
  · have hover : x.LeadsTo (fun s => i < s.terminates.length)
        fun s => s.over ∧ i < s.terminates.length ∧ Issued s := by
      intro n hlt
      have hasked : (x.state n).asked :=
        Or.inr (List.length_pos_iff.mp (Nat.lt_of_le_of_lt (Nat.zero_le i) hlt))
      obtain ⟨m, hnm, hover⟩ := hends n (Or.inl hasked)
      have hlt' := x.stays hI (P := fun s => i < s.terminates.length) (fun s e s' hIs hP hs => by
        obtain ⟨st, hshape⟩ := hIs.shape
        have hlen := (frame_step hshape hs).terminates
        omega) hnm hlt
      exact ⟨m, hnm, hover, hlt', issued_reach (x.reach m)⟩
    exact hover.trans (terminate_leads hI hx i)
  · have hover : x.LeadsTo (fun s => (s.asked ∨ s.over) ∧ i < s.waits.length)
        fun s => s.over ∧ i < s.waits.length :=
      hends.and_stable hI fun s e s' hIs hP hs => by
        obtain ⟨st, hshape⟩ := hIs.shape
        exact Nat.lt_of_lt_of_le hP (waits_length_step hshape hs)
    exact hover.trans (wait_leads hI hx i)

theorem requests_answered_stopAnswered :
    ∃ x : Lts.Execution (Caretaker.step settingA) .init, 0 < (x.state 5).terminates.length ∧
      (∀ fut ∈ (x.state 5).terminates, fut.replied = false) ∧
      ∃ m, 5 ≤ m ∧ ∃ fut, (x.state m).terminates[0]? = some fut ∧ fut.replied = true := by
  obtain ⟨s, hex, hrest⟩ := stopAnswered_rests
  refine ⟨Lts.Execution.resting hex, Nat.succ_pos 0, fun fut hfut => ?_,
    (requests_answered (fair_resting hex hrest) (spawnsAtLast_resting hex) 0).1 5 (Nat.succ_pos 0)⟩
  rw [List.mem_singleton.mp hfut]

end Blahaj
