/-
  File:      Blahaj/Supervisor/Lifecycle.lean
  Subject:   THE LIFECYCLE of a caretaker: its status, and the child the status speaks of.

  * `Lifecycle.Change` -- the changes of status there are;
  * `Shape.accounted` -- the child, where no kill was refused;
  * `status_change`, `failed_iff`, `lifecycle_step` -- the status, for every step;
  * `lifecycle` -- **the invariant, over all runs: it holds exactly where no kill is refused**.
-/
import Blahaj.Supervisor.RunPolls

namespace Blahaj

variable {S : Setting} {s : Caretaker} {st : Stage}

/-! ## 1. Changes of status -/

/-- **The changes of status.** `building` where a `Run` is handled. -/
inductive Lifecycle.Change (building : Prop) : Lifecycle → Lifecycle → Prop where
  | up (h : HealthState) : Change building .starting (.running h)
  | stopStarting : Change building .starting .terminating
  | diedStarting : Change building .starting .terminated
  | report (h h' : HealthState) : Change building (.running h) (.running h')
  | stopRunning (h : HealthState) : Change building (.running h) .terminating
  | diedRunning (h : HealthState) : Change building (.running h) .terminated
  | stopped : Change building .terminating .terminated
  | restart : Change building .terminated .starting
  | restartChecked (hb : building) : Change building .terminated (.running .unknown)
  | giveUp : Change building .terminated .failed

/-! ## 2. The child -/

theorem countP_unreaped_zero {procs : List Proc} (h : ∀ pid, ¬ Unreaped procs pid) :
    procs.countP Proc.unreaped = 0 := by
  rw [List.countP_eq_zero]
  intro p hp hun
  obtain ⟨pid, hget⟩ := List.getElem?_of_mem hp
  exact h pid ⟨p, hget, hun⟩

/-- Where all unreaped processes are one, at most one is unreaped. -/
theorem countP_unreaped_le_one {procs : List Proc}
    (h : ∀ i j, Unreaped procs i → Unreaped procs j → i = j) :
    procs.countP Proc.unreaped ≤ 1 := by
  induction procs with
  | nil => simp
  | cons p procs ih =>
      rw [List.countP_cons]
      by_cases hp : p.unreaped = true
      · have hrest : procs.countP Proc.unreaped = 0 := by
          refine countP_unreaped_zero fun pid hun => ?_
          obtain ⟨q, hget, hq⟩ := hun
          have heq := h 0 (pid + 1) ⟨p, rfl, hp⟩ ⟨q, hget, hq⟩
          omega
        rw [hrest, if_pos hp]
      · rw [if_neg hp]
        refine ih fun _ _ hi hj => ?_
        obtain ⟨q, hget, hq⟩ := hi
        obtain ⟨r, hget', hr⟩ := hj
        exact Nat.succ.inj (h _ _ ⟨q, hget, hq⟩ ⟨r, hget', hr⟩)

theorem Shape.not_illegal (h : Shape S s st) (hS : S.Legal) : s.crashed ≠ some .healthUri :=
  fun hc => h.panic_possible hc hS

/-- With a legal health-check URI a child without an owner is one whose kill was refused. -/
theorem Shape.owner (h : Shape S s st) (hS : S.Legal) {pid : Nat} (hun : Unreaped s.procs pid) :
    st.child = some pid ∨ pid ∈ s.refused :=
  (h.procs.owned pid hun).imp_right fun hleft => hleft.resolve_left (h.not_illegal hS)

/-- Where no kill was refused, every child that is not reaped has its owner. -/
theorem Shape.kept (h : Shape S s st) (hS : S.Legal) (hk : s.refused = []) {pid : Nat}
    (hun : Unreaped s.procs pid) : st.child = some pid :=
  (h.owner hS hun).resolve_right (by simp [hk])

/-- **At most one child is not reaped.** -/
theorem one_child (h : Shape S s st) (hS : S.Legal) (hk : s.refused = []) :
    s.procs.countP Proc.unreaped ≤ 1 :=
  countP_unreaped_le_one fun _ _ hi hj =>
    Option.some.inj ((h.kept hS hk hi).symm.trans (h.kept hS hk hj))

theorem no_child (h : Shape S s st) (hS : S.Legal) (hk : s.refused = [])
    (hchild : st.child = none) :
    s.procs.countP Proc.unreaped = 0 :=
  countP_unreaped_zero fun _ hun => by
    have hown := h.kept hS hk hun
    rw [hchild] at hown
    cases hown

/-- A child is spawned where the daemon waits for its `Run`, and all children are reaped. -/
theorem builds_queued (h : Shape S s st) {e : Event} (hb : BuildsChild s e) :
    ∃ req, st = .queued req := by
  obtain ⟨_, m, rest, -, hm, hrun⟩ := handles_iff.mp hb
  cases m with
  | run stopRx req => exact ⟨req, (h.run_head hm).1⟩
  | _ => cases hrun

/-- The stages of a status that says the child is gone. -/
theorem Shape.gone (h : Shape S s st) (hs : s.status = .terminated ∨ s.status = .failed) :
    st.child = none := by
  have hstatus := h.status
  cases st with
  | up req child =>
      have hlive := hstatus.2
      rcases hs with hs | hs <;> rw [hs] at hlive <;> cases hlive
  | stopping req child res =>
      rcases hs with hs | hs <;> rw [hstatus.2] at hs <;> cases hs
  | _ => rfl

/-- At most one child is not reaped, and none where the status says that the child is gone. -/
def Caretaker.Accounted (s : Caretaker) : Prop :=
  s.procs.countP Proc.unreaped ≤ 1 ∧
    (s.status = .terminated ∨ s.status = .failed → s.procs.countP Proc.unreaped = 0)

theorem Shape.accounted (h : Shape S s st) (hS : S.Legal) (hk : s.refused = []) : s.Accounted :=
  ⟨one_child h hS hk, fun hs => no_child h hS hk (h.gone hs)⟩

/-- A kill that is refused breaks the account. -/
theorem Shape.not_accounted (h : Shape S s st) {e : Event} {s' : Caretaker}
    (hs : s.step S e = some s') (hrefuses : RefusesKill s e) : ¬ s'.Accounted := by
  intro hacc
  obtain ⟨pid, hpid⟩ := Option.isSome_iff_exists.mp hrefuses
  obtain ⟨hstatus, hrun⟩ := refusal_leaves h hs hpid
  have hnone := List.countP_eq_zero.mp (hacc.2 (Or.inl hstatus))
  exact hnone _ (List.mem_of_getElem? hrun) rfl

/-! ## 3. The status -/

theorem live_change {b : Prop} {before : Lifecycle} (hlive : before.live = true)
    {after : Lifecycle} (h : after = .terminating ∨ after = .terminated) :
    Lifecycle.Change b before after := by
  cases before with
  | starting => rcases h with rfl | rfl <;> constructor
  | running health => rcases h with rfl | rfl <;> constructor
  | _ => cases hlive

/-- **A step changes the status along `Lifecycle.Change`, or not at all.** -/
theorem status_change (h : Shape S s st) {e : Event} {s' : Caretaker} {st' : Stage}
    (h' : Shape S s' st') (hn : Next S s s' e st st') :
    s'.status = s.status ∨ Lifecycle.Change (BuildsChild s e) s.status s'.status := by
  have hstatus := h.status
  have hstatus' := h'.status
  cases hn with
  | quiet _ hs _ => exact Or.inl hs
  | report _ health hlive hs _ =>
      rw [hs]
      refine Or.inr ?_
      cases hbefore : s.status with
      | starting => exact .up health
      | running health' => exact .report health' health
      | _ =>
          rw [hbefore] at hlive
          cases hlive
  | start hs => exact Or.inl hs
  | send req hs => exact Or.inl hs
  | spawned req hb hs =>
      rw [show s.status = restStatus s.lastRun from hstatus, hs]
      rcases restStatus_cases s.lastRun with hrest | hrest <;> rw [hrest]
      · split
        · exact Or.inr (.up .unknown)
        · exact Or.inl rfl
      · split
        · exact Or.inr (.restartChecked hb)
        · exact Or.inr .restart
  | spawnError req _ hs =>
      rw [show s.status = restStatus s.lastRun from hstatus, hs]
      rcases restStatus_cases s.lastRun with hrest | hrest <;> rw [hrest]
      · exact Or.inl rfl
      · exact Or.inr .restart
  | illegal req hb hs =>
      rw [show s.status = restStatus s.lastRun from hstatus, hs]
      rcases restStatus_cases s.lastRun with hrest | hrest <;> rw [hrest]
      · exact Or.inr (.up .unknown)
      · exact Or.inr (.restartChecked hb)
  | stop req child res => exact Or.inr (live_change hstatus.2 (Or.inl hstatus'.2))
  | left req child res => exact Or.inr (live_change hstatus.2 (Or.inr hstatus'.2))
  | failed req res => exact Or.inr (live_change hstatus.2 (Or.inr hstatus'.2))
  | reaped req child res =>
      rw [hstatus.2, hstatus'.2]
      exact Or.inr .stopped
  | again req res _ hs => exact Or.inl hs
  | giveUp req res hm _ hst hs =>
      rw [hstatus.2, hs]
      exact Or.inr .giveUp
  | finish req res hres _ hst hs => exact Or.inl hs
  | clock req res hm hs => exact Or.inl hs

/-- `Failed` is where the daemon gave up. -/
theorem Shape.failed_stage (h : Shape S s st) (hs : s.status = .failed) :
    st = .ended false ∨ st = .dropped := by
  have hstatus := h.status
  cases st with
  | ended res =>
      cases res with
      | true => cases hs.symm.trans hstatus.2
      | false => exact Or.inl rfl
  | dropped => exact Or.inr rfl
  | boot => cases hs.symm.trans hstatus.2
  | idle =>
      rw [show s.status = restStatus s.lastRun from hstatus] at hs
      rcases restStatus_cases s.lastRun with hrest | hrest <;> rw [hrest] at hs <;> cases hs
  | queued req =>
      rw [show s.status = restStatus s.lastRun from hstatus] at hs
      rcases restStatus_cases s.lastRun with hrest | hrest <;> rw [hrest] at hs <;> cases hs
  | up req child =>
      have hlive := hstatus.2
      rw [hs] at hlive
      cases hlive
  | spawnFailed req =>
      have hlive := hstatus.2
      rw [hs] at hlive
      cases hlive
  | stopping req child res => cases hs.symm.trans hstatus.2
  | replied req res => cases hs.symm.trans hstatus.2

/-- A mark is made where a result with the stop receiver has come back. -/
theorem Marks.replied (h : Shape S s st) {e : Event} {answer : Option Bool}
    (hm : Marks s e answer) :
    (∃ clock, e = .pollDaemon clock) ∧ ∃ req res, st = .replied req res ∧ res.stopRx ≠ none := by
  cases e with
  | pollDaemon clock =>
      refine ⟨⟨clock, rfl⟩, ?_⟩
      simp only [Marks, Caretaker.mark] at hm
      split at hm
      · split at hm
        · obtain ⟨res, hlookup, hres⟩ := Option.bind_eq_some_iff.mp hm
          obtain ⟨rx, hrx, -⟩ := Option.map_eq_some_iff.mp hres
          rw [h.token.replies] at hlookup
          cases st with
          | replied req' res' =>
              refine ⟨req', res', rfl, ?_⟩
              simp only [Stage.replies, List.lookup_cons, List.lookup_nil] at hlookup
              split at hlookup
              · rw [Option.some.inj hlookup, hrx]
                simp
              · cases hlookup
          | _ => cases hlookup
        · cases hm
      · cases hm
  | _ => cases hm

/-- **`Failed` is entered exactly where a mark is refused.** -/
theorem failed_iff (h : Shape S s st) {e : Event} {s' : Caretaker} {st' : Stage}
    (h' : Shape S s' st') (hn : Next S s s' e st st') (hne : s.status ≠ .failed) :
    s'.status = .failed ↔ Marks s e (some false) := by
  constructor
  · intro hs'
    have hstatus' := h'.status
    have hsame : s'.status ≠ s.status := fun hs => hne (hs.symm.trans hs')
    cases hn with
    | quiet _ hs _ => exact absurd hs hsame
    | report _ health _ hs _ => cases hs'.symm.trans hs
    | start hs => exact absurd hs hsame
    | send req hs => exact absurd hs hsame
    | spawned req hb hs =>
        rw [hs'] at hs
        split at hs <;> cases hs
    | spawnError req _ hs => cases hs'.symm.trans hs
    | illegal req hb hs => cases hs'.symm.trans hs
    | stop req child res => cases hs'.symm.trans hstatus'.2
    | left req child res => cases hs'.symm.trans hstatus'.2
    | failed req res => cases hs'.symm.trans hstatus'.2
    | reaped req child res => cases hs'.symm.trans hstatus'.2
    | again req res hm hs => exact absurd hs hsame
    | giveUp req res hm _ hst hs => exact hm
    | finish req res hres _ hst hs => exact absurd hs hsame
    | clock req res hm hs => exact absurd hs hsame
  · intro hm
    obtain ⟨⟨clock, hpoll⟩, req, res, rfl, hrx⟩ := hm.replied h
    cases hn with
    | quiet _ hs he => exact absurd hpoll (he (by simp [Stage.replies]) clock)
    | report _ health hlive hs _ =>
        rw [h.status.2] at hlive
        cases hlive
    | again _ _ hm' hs => cases hm.symm.trans hm'
    | giveUp _ _ _ _ hst hs => exact hs
    | finish _ _ hres _ hst hs => exact absurd hres hrx
    | clock _ _ hm' hs => cases hm.symm.trans hm'

/-- **`Failed` is left by no step.** -/
theorem failed_stays (h : Shape S s st) {e : Event} {s' : Caretaker} {st' : Stage}
    (hn : Next S s s' e st st') (hs : s.status = .failed) : s'.status = .failed := by
  cases hn with
  | quiet _ hsame _ => exact hsame.trans hs
  | report _ health hlive _ _ =>
      rw [hs] at hlive
      cases hlive
  | _ => rcases h.failed_stage hs with hst | hst <;> cases hst

/-- A report is ignored while the child is being stopped, and once it is gone. -/
theorem dead_report {e : Event} {s' : Caretaker} (hs : s.step S e = some s')
    (hr : Reports s e) (hlive : s.status.live = false) : s'.status = s.status := by
  obtain ⟨spawn, m, rest, rfl, hm, hkind⟩ := handles_iff.mp hr
  obtain ⟨sender, health, rfl⟩ : ∃ sender health, m = .setHealthState sender health := by
    cases m with
    | setHealthState sender health => exact ⟨sender, health, rfl⟩
    | _ => cases hkind
  simp only [Caretaker.step, hm, Option.some.injEq] at hs
  subst hs
  have hout : Caretaker.handleSetHealthState health { s with mailbox := rest } =
      { s with mailbox := rest } := Caretaker.report_ignored health hlive
  have hsame := congrArg Caretaker.status hout
  exact hsame

/-! ## 4. The invariant -/

/-- **What a step owes the status**: it changes it along `Lifecycle.Change` only; `Failed` is final,
    and is entered exactly where the retry guard refuses a mark; a report never changes a status
    that says the child is being stopped or is gone. -/
structure Lifecycle.Kept (s : Caretaker) (e : Event) (s' : Caretaker) : Prop where
  change : s'.status = s.status ∨ Lifecycle.Change (BuildsChild s e) s.status s'.status
  final : s.status = .failed → s'.status = .failed
  entered : s.status ≠ .failed → (s'.status = .failed ↔ Marks s e (some false))
  ignored : Reports s e →
    s.status = .terminating ∨ s.status = .terminated ∨ s.status = .failed → s'.status = s.status

/-- **Every step does**, whether a kill is refused or not. -/
theorem lifecycle_step (h : Shape S s st) {e : Event} {s' : Caretaker} (hs : s.step S e = some s') :
    Lifecycle.Kept s e s' := by
  obtain ⟨st', h', hn⟩ := shape_step h hs
  refine ⟨status_change h h' hn, failed_stays h hn, failed_iff h h' hn, fun hrep hstatus => ?_⟩
  refine dead_report hs hrep ?_
  rcases hstatus with hstatus | hstatus | hstatus <;> rw [hstatus] <;> rfl

/-- **The lifecycle of a caretaker** with a legal health-check URI, over all its runs. At most one
    child is not reaped, and one is spawned only when none is; a status that says the child is
    gone is right; and every step keeps what it owes the status. All this holds of a run exactly
    if no kill is refused in it. -/
theorem lifecycle (hS : S.Legal) {h : List (Caretaker × Event)} {s : Caretaker}
    (hr : Lts.Run (Caretaker.step S) .init h s) :
    ((∀ t ∈ h.map Prod.fst ++ [s], t.Accounted) ∧
      ∀ x ∈ h, ∀ s', x.1.step S x.2 = some s' →
        (BuildsChild x.1 x.2 → x.1.procs.countP Proc.unreaped = 0) ∧
        Lifecycle.Kept x.1 x.2 s') ↔
    ∀ x ∈ h, ¬ RefusesKill x.1 x.2 := by
  constructor
  · intro hall x hx hrefuses
    obtain ⟨s', hs⟩ := hr.enabled x hx
    obtain ⟨st, hshape⟩ := shape_before hr x hx
    exact hshape.not_accounted hs hrefuses (hall.1 s' (hr.next_mem x hx s' hs))
  · intro hC
    -- no child was given up before any of the steps
    have hbefore : ∀ x ∈ h, x.1.refused = [] := by
      intro x hx
      obtain ⟨h₁, h₂, rfl⟩ := List.append_of_mem hx
      exact refused_nil hr.before fun y hy => hC y (List.mem_append_left _ hy)
    refine ⟨fun t ht => ?_, fun x hx s' hs => ?_⟩
    · rcases List.mem_append.mp ht with ht | ht
      · obtain ⟨x, hx, rfl⟩ := List.mem_map.mp ht
        obtain ⟨st, hshape⟩ := shape_before hr x hx
        exact hshape.accounted hS (hbefore x hx)
      · obtain ⟨st, hshape⟩ := shape_run hr
        rw [List.mem_singleton.mp ht]
        exact hshape.accounted hS (refused_nil hr hC)
    · obtain ⟨st, hshape⟩ := shape_before hr x hx
      refine ⟨fun hb => ?_, lifecycle_step hshape hs⟩
      obtain ⟨req, rfl⟩ := builds_queued hshape hb
      exact no_child hshape hS (hbefore x hx) rfl

theorem settingA_legal : settingA.Legal := by
  intro http check hcheck
  obtain ⟨rfl, rfl⟩ := Prod.mk.inj (Option.some.inj hcheck)
  decide

/-- The child of `a` is spawned, found healthy and exits; its end is marked. -/
def oneRound : List Event :=
  [.startDaemon, .pollDaemon ⟨1, 1, false⟩, .handle (.ok ()), .arrive (.setHealthState 0 .healthy),
    .handle (.ok ()), .exit 0 (.exited 0), .pollRun 0 .underWay,
    .pollDaemon ⟨90000000000, 90000000000, false⟩]

theorem lifecycle_one_round :
    ∃ h s, Lts.Run (Caretaker.step settingA) .init h s ∧ h.length = 8 ∧ s.status = .terminated ∧
      (∀ t ∈ h.map Prod.fst ++ [s], t.Accounted) ∧
      ∀ x ∈ h, ∀ s', x.1.step settingA x.2 = some s' →
        (BuildsChild x.1 x.2 → x.1.procs.countP Proc.unreaped = 0) ∧
        Lifecycle.Kept x.1 x.2 s' := by
  have hex : ∃ s, Lts.exec (Caretaker.step settingA) .init oneRound = some s ∧
      s.status = .terminated ∧
      (Lts.history (Caretaker.step settingA) .init oneRound).length = 8 := ⟨_, rfl, rfl, rfl⟩
  obtain ⟨s, hex, hstatus, hlen⟩ := hex
  have hr := Lts.run_history hex
  refine ⟨_, s, hr, hlen, hstatus, (lifecycle settingA_legal hr).mpr fun x hx hrefuses => ?_⟩
  obtain ⟨i, hlabel⟩ := hrefuses.label
  have hmem := Lts.label_mem x hx
  rw [hlabel] at hmem
  simp [oneRound] at hmem

/-- The child of `a` is found unhealthy and runs with other rights: it ignores the SIGTERM, and its
    kill is refused. -/
def killRefused : List Event :=
  [.startDaemon, .pollDaemon ⟨1, 1, false⟩, .handle (.ok ()), .unhealthy 0, .pollRun 0 .underWay,
    .pollRun 0 (.elapsed (.error ()))]

/-- The daemon goes on to its next round. -/
def secondChild : List Event :=
  [.pollDaemon ⟨90000000000, 90000000000, false⟩, .pollDaemon ⟨95000000000, 95000000000, true⟩,
    .pollDaemon ⟨95000000001, 95000000001, false⟩, .handle (.ok ())]

/-- **A kill that is refused**: the status is `Terminated` over a child that runs, and the next
    `Run` spawns a second one beside it. -/
theorem child_survives :
    (∃ s s', Lts.exec (Caretaker.step settingA) .init killRefused = some s ∧
      s.status = .terminated ∧ s.procs.countP Proc.unreaped = 1 ∧
      Lts.exec (Caretaker.step settingA) s secondChild = some s' ∧
      s'.procs.countP Proc.unreaped = 2) ∧
    ¬ ∀ (S : Setting) (h : List (Caretaker × Event)) (s : Caretaker), S.Legal →
      Lts.Run (Caretaker.step S) .init h s → s.Accounted := by
  have hex : ∃ s s', Lts.exec (Caretaker.step settingA) .init killRefused = some s ∧
      s.status = .terminated ∧ s.procs.countP Proc.unreaped = 1 ∧
      Lts.exec (Caretaker.step settingA) s secondChild = some s' ∧
      s'.procs.countP Proc.unreaped = 2 := ⟨_, _, rfl, rfl, rfl, rfl, rfl⟩
  refine ⟨hex, fun hall => ?_⟩
  obtain ⟨s, -, hex, hstatus, hone, -, -⟩ := hex
  have hnone := (hall settingA _ s settingA_legal (Lts.run_history hex)).2 (Or.inl hstatus)
  rw [hone] at hnone
  cases hnone

end Blahaj
