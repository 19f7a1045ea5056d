/-
  File:      Blahaj/Supervisor/CurrentHealth.lean
  Subject:   REPORTED HEALTH BELONGS TO THE CURRENT CHILD, for a program with a health check.

  * `Current.receive` -- what a health actor does reaches its caretaker by honest steps;
  * `Monitors`, `monitors_step` -- the invariant of a caretaker with its health actors;
  * `caretaker_reach` -- what a caretaker does among its health actors is a run of it alone: the
    composite simulates the caretaker;
  * `current_health` -- the statement, over all interleavings.
-/
import Blahaj.Supervisor.Health
import Blahaj.Supervisor.Reports

namespace Blahaj

variable {S : Setting} {rs : List (Nat × HealthState)}

/-! ## 1. What a health actor does -/

/-- A turn of a health actor, spelled out. -/
theorem turn_some {k : Nat} {enabled : HealthActor → Bool → Bool}
    {f : HealthActor → HealthActor × List HealthAction} {s s' : Monitored}
    (h : s.turn S k enabled f = some s') :
    ∃ actor told, s.actors[k]? = some actor ∧ s.caretaker.told k = some told ∧
      enabled actor told = true ∧
      s' = ⟨(f actor).2.foldl (Caretaker.receive S k) s.caretaker, s.actors.set k (f actor).1⟩ := by
  unfold Monitored.turn at h
  split at h
  · rename_i actor told hactor htold
    split at h
    · exact ⟨actor, told, hactor, htold, ‹_›, (Option.some.inj h).symm⟩
    · cases h
  · cases h

/-- A report, or a signal, is a step of the caretaker or nothing. -/
theorem receive_cases (s : Caretaker) (k : Nat) (a : HealthAction) :
    s.receive S k a = s ∨ ∃ e, s.step S e = some (s.receive S k a) ∧
      ((∃ health, a = .report health ∧ e = .arrive (.setHealthState k health)) ∨
        e = .unhealthy k) := by
  cases a with
  | report health =>
      simp only [Caretaker.receive]
      cases hs : s.step S (.arrive (.setHealthState k health)) with
      | none => exact Or.inl rfl
      | some s' => exact Or.inr ⟨_, hs, Or.inl ⟨health, rfl, rfl⟩⟩
  | signal =>
      simp only [Caretaker.receive]
      cases hs : s.step S (.unhealthy k) with
      | none => exact Or.inl rfl
      | some s' => exact Or.inr ⟨_, hs, Or.inr rfl⟩

/-- A signal tells no health actor to stop. -/
theorem told_signalled (s : Caretaker) (k j : Nat) :
    Caretaker.told { s with
      health := s.health.modify k fun handle => { handle with signalled := true } } j =
      s.told j := by
  simp only [Caretaker.told, List.getElem?_modify]
  cases s.health[j]? with
  | none => rfl
  | some handle =>
      show some (HealthHandle.stopped (if k = j then _ else _)) = _
      split <;> rfl

/-- What the caretaker is behind it: there are more messages, or a health actor has signalled. -/
theorem received (s : Caretaker) (k : Nat) (a : HealthAction) :
    (∃ mailbox n, s.receive S k a = { s with mailbox := mailbox, nextReq := n }) ∨
      s.receive S k a = { s with
        health := s.health.modify k fun handle => { handle with signalled := true } } := by
  rcases receive_cases (S := S) s k a with hsame | ⟨e, hs, ⟨health, -, rfl⟩ | rfl⟩
  · exact Or.inl ⟨_, _, hsame⟩
  · cases Caretaker.stepped hs with
    | arrive _ hs =>
        obtain ⟨⟨n, hout⟩, -⟩ := Caretaker.arrived hs
        exact Or.inl ⟨_, _, hout⟩
  · generalize s.receive S k a = s₁ at hs ⊢
    cases Caretaker.stepped hs with
    | unhealthy _ => exact Or.inr rfl

/-- What a health actor does tells no health actor to stop. -/
theorem receive_told (s : Caretaker) (k j : Nat) (a : HealthAction) :
    (s.receive S k a).told j = s.told j := by
  rcases received (S := S) s k a with ⟨mailbox, n, hout⟩ | hout
  · rw [hout]
    rfl
  · rw [hout]
    exact told_signalled s k j

theorem receive_crashed (s : Caretaker) (k : Nat) (a : HealthAction) :
    (s.receive S k a).crashed = s.crashed := by
  rcases received (S := S) s k a with ⟨mailbox, n, hout⟩ | hout
  · rw [hout]
  · rw [hout]

/-- **What a health actor does keeps the invariant**, if it reports only before it was told to
    stop. -/
theorem Current.receive (hcheck : S.program.check.isSome) {s : Caretaker} {st : Stage}
    (h : Current S rs s st) {k : Nat} {a : HealthAction}
    (ha : s.crashed = none → ∀ health, a = .report health → s.told k = some false) :
    ∃ st', Current S rs (s.receive S k a) st' := by
  rcases receive_cases (S := S) s k a with hsame | ⟨e, hs, ⟨health, ha', rfl⟩ | rfl⟩
  · rw [hsame]
    exact ⟨st, h⟩
  · refine h.other hcheck rfl (fun sender health' he => ?_) hs
    cases he
    refine ha ?_ health ha'
    cases Caretaker.stepped hs with
    | arrive hlive _ => exact hlive
  · refine h.other hcheck rfl (fun _ _ he => ?_) hs
    cases he

theorem Current.receives (hcheck : S.program.check.isSome) {k : Nat} :
    ∀ (actions : List HealthAction) {s : Caretaker} {st : Stage}, Current S rs s st →
      (s.crashed = none → ∀ health, .report health ∈ actions → s.told k = some false) →
      ∃ st', Current S rs (actions.foldl (Caretaker.receive S k) s) st'
  | [], _, st, h, _ => ⟨st, h⟩
  | a :: actions, s, _, h, ha => by
      obtain ⟨st₁, h₁⟩ := h.receive hcheck (k := k) (a := a)
        fun hlive health heq => ha hlive health (by rw [heq]; simp)
      refine h₁.receives hcheck actions fun hlive health hmem => ?_
      rw [receive_told]
      rw [receive_crashed] at hlive
      exact ha hlive health (List.mem_cons_of_mem _ hmem)

theorem receives_crashed {k : Nat} (actions : List HealthAction) (s : Caretaker) :
    (actions.foldl (Caretaker.receive S k) s).crashed = s.crashed := by
  induction actions generalizing s with
  | nil => rfl
  | cons a actions ih =>
      rw [List.foldl_cons, ih]
      exact receive_crashed s k a

/-! ## 2. The invariant -/

/-- **A caretaker with its health actors**, when `rs` are the reports applied so far. -/
structure Monitors (S : Setting) (rs : List (Nat × HealthState)) (s : Monitored) : Prop where
  current : ∃ st, Current S rs s.caretaker st
  configs : s.caretaker.crashed = none → ∀ actor ∈ s.actors, actor.config.isSome

theorem monitors_init (S : Setting) : Monitors S [] .init where
  current := ⟨.boot, current_init S⟩
  configs := fun _ _ hactor => nomatch hactor

theorem started_config (timer : TimerCrate) (actor : HealthActor) :
    (actor.started timer).1.config = actor.config := by
  unfold HealthActor.started
  split
  · split <;> rfl
  · rfl

theorem leave_config (phase : HealthPhase) (actor : HealthActor) :
    (actor.leave phase).1.config = actor.config := rfl

theorem checked_config (receiving : Bool) (check : Nat) (answer : Except String StatusCode)
    (actor : HealthActor) : (actor.checked receiving check answer).1.config = actor.config := by
  unfold HealthActor.checked
  split
  · rfl
  · split
    · dsimp only
      split
      · rfl
      · rfl
      · split <;> rfl
    · rfl

/-- A turn of a health actor keeps the invariant, if it reports only before it was told to stop. -/
theorem Monitors.turn (hcheck : S.program.check.isSome) {s s' : Monitored} (h : Monitors S rs s)
    {k : Nat} {enabled : HealthActor → Bool → Bool}
    {f : HealthActor → HealthActor × List HealthAction}
    (hconfig : ∀ actor, (f actor).1.config = actor.config)
    (hreport : ∀ actor told health, actor.config.isSome → enabled actor told = true →
      .report health ∈ (f actor).2 → told = false)
    (hs : s.turn S k enabled f = some s') : Monitors S rs s' := by
  obtain ⟨actor, told, hactor, htold, hen, rfl⟩ := turn_some hs
  obtain ⟨st, hcurrent⟩ := h.current
  have hmem := List.mem_of_getElem? hactor
  constructor
  · refine hcurrent.receives hcheck _ fun hlive health hrep => ?_
    rw [htold, hreport actor told health (h.configs hlive actor hmem) hen hrep]
  · intro hlive other hother
    have hlive : s.caretaker.crashed = none := (receives_crashed ..).symm.trans hlive
    rcases List.mem_or_eq_of_mem_set hother with hother | rfl
    · exact h.configs hlive other hother
    · rw [hconfig]
      exact h.configs hlive actor hmem

/-- The health actor that is started with a child has its check. -/
theorem Monitors.hire (hcheck : S.program.check.isSome) {s : Monitored} (h : Monitors S rs s)
    {e : Event} {s' : Caretaker} {st' : Stage} {rs' : List (Nat × HealthState)}
    (hs : s.caretaker.step S e = some s') (h' : Current S rs' s' st') :
    Monitors S rs' (s.hire S s') := by
  obtain ⟨st, hcurrent⟩ := h.current
  have hold : s'.crashed = none → ∀ actor ∈ s.actors, actor.config.isSome := fun hlive =>
    h.configs (crashed_before hcurrent.shape hs hlive)
  unfold Monitored.hire
  split
  · rename_i handle hhandle
    refine ⟨⟨st', h'⟩, fun hlive actor hactor => ?_⟩
    rcases List.mem_append.mp hactor with hactor | hactor
    · exact hold hlive actor hactor
    · rw [List.mem_singleton.mp hactor]
      show handle.config.isSome = true
      rw [h'.shape.watch.checks hlive handle (List.mem_of_getElem? hhandle)]
      exact hcheck
  · exact ⟨⟨st', h'⟩, hold⟩

/-- The report a step applies to the status, with its sender. -/
def Monitored.applied : Monitored × Turn → Option (Nat × HealthState)
  | (s, .caretaker e) => s.caretaker.applied e
  | _ => none

/-- The `Run` handled last has spawned this child, and its `WaitAbortFut` has not resolved. -/
def Caretaker.WaitsFor (s : Caretaker) (req : Nat) (child : Child) : Prop :=
  s.lastRun = some req ∧ child.pid + 1 = s.procs.length ∧
    s.runs = [⟨.waitAbort (.new child stopReceiver ⟨.unhealthy child.pid⟩) child.pid, req⟩]

theorem Shape.waitsFor {s : Caretaker} {req : Nat} {child : Child}
    (h : Shape S s (.up req child)) : s.WaitsFor req child :=
  ⟨h.status.1, h.procs.last child.pid rfl, h.token.runs⟩

theorem own_honest {e : Event} (he : e.own = true) (s : Caretaker) : Honest s e := by
  intro sender health heq
  rw [heq] at he
  cases he

/-- **Each step keeps the invariant**, and a report it applies is one of the current child. -/
theorem monitors_step (hcheck : S.program.check.isSome) {s s' : Monitored} (h : Monitors S rs s)
    {t : Turn} (hs : s.step S t = some s') :
    Monitors S (rs ++ (Monitored.applied (s, t)).toList) s' ∧
      ∀ r, Monitored.applied (s, t) = some r →
        ∃ req child, s.caretaker.WaitsFor req child ∧ r.1 = child.pid := by
  have hquiet : ∀ {s'}, Monitors S rs s' → Monitored.applied (s, t) = none →
      Monitors S (rs ++ (Monitored.applied (s, t)).toList) s' ∧
        ∀ r, Monitored.applied (s, t) = some r →
          ∃ req child, s.caretaker.WaitsFor req child ∧ r.1 = child.pid := by
    intro s' h' hnone
    rw [hnone, Option.toList_none, List.append_nil]
    exact ⟨h', fun _ hr => nomatch hr⟩
  cases t with
  | caretaker e =>
      simp only [Monitored.step] at hs
      split at hs
      · rename_i hown
        obtain ⟨s₁, hs₁, rfl⟩ := Option.map_eq_some_iff.mp hs
        obtain ⟨st, hcurrent⟩ := h.current
        cases ha : s.caretaker.applied e with
        | none =>
            obtain ⟨st', h'⟩ := hcurrent.other hcheck ha (own_honest hown _) hs₁
            exact hquiet (h.hire hcheck hs₁ h') ha
        | some r =>
            obtain ⟨h', req, child, rfl, hpid⟩ := hcurrent.report ha hs₁
            simp only [Monitored.applied, ha]
            refine ⟨h.hire hcheck hs₁ h', fun r' hr => ?_⟩
            rw [← Option.some.inj hr]
            exact ⟨req, child, hcurrent.shape.waitsFor, hpid.symm⟩
      · cases hs
  | started k =>
      change s.turn S k _ (HealthActor.started S.timer) = some s' at hs
      refine hquiet (h.turn hcheck (started_config S.timer) (fun actor _ _ hconfig _ hmem => ?_)
        hs) rfl
      -- with a check `started` reports nothing
      obtain ⟨config, hconfig⟩ := Option.isSome_iff_exists.mp hconfig
      simp only [HealthActor.started, hconfig, HealthActor.leave] at hmem
      split at hmem
      · cases hmem
      · split at hmem <;> simp at hmem
  | stop k =>
      change s.turn S k _ (HealthActor.leave .stopped) = some s' at hs
      refine hquiet (h.turn hcheck (leave_config _) (fun actor _ _ _ _ hmem => ?_) hs) rfl
      simp only [HealthActor.leave] at hmem
      split at hmem <;> simp at hmem
  | tick k =>
      change s.turn S k _ HealthActor.tick = some s' at hs
      refine hquiet (h.turn hcheck (fun _ => rfl) (fun _ _ _ _ _ hmem => ?_) hs) rfl
      cases hmem
  | checked k check answer =>
      change s.turn S k _ (HealthActor.checked _ check answer) = some s' at hs
      refine hquiet (h.turn hcheck (checked_config _ check answer) (fun actor told _ _ hen _ => ?_)
        hs) rfl
      simp only [HealthActor.polls, Bool.and_eq_true, Bool.not_eq_true'] at hen
      exact hen.1.2

/-! ## 3. Over a run -/

/-- What a health actor does is a path of steps of its caretaker. -/
theorem receives_path (k : Nat) (actions : List HealthAction) (s : Caretaker) :
    Relation.ReflTransGen (fun s s' => ∃ e, s.step S e = some s') s
      (actions.foldl (Caretaker.receive S k) s) := by
  induction actions generalizing s with
  | nil => exact .refl
  | cons a actions ih =>
      rcases receive_cases (S := S) s k a with hsame | ⟨e, hs, -⟩
      · rw [List.foldl_cons, hsame]
        exact ih s
      · exact .head ⟨e, hs⟩ (ih _)

/-- **What a caretaker does among its health actors, it can do alone**, so that every result on
    the caretaker holds of it there. -/
theorem caretaker_reach {h : List (Monitored × Turn)} {s : Monitored}
    (hr : Lts.Run (Monitored.step S) .init h s) :
    Lts.Reach (Caretaker.step S) .init s.caretaker := by
  have hsim : ∃ c, s.caretaker = c ∧
      Relation.ReflTransGen (fun s s' => ∃ e, s.step S e = some s') .init c := by
    refine hr.simulate (R := fun s c => s.caretaker = c) rfl fun s _ t s' hc hs => ?_
    cases hc
    have hturn : ∀ {k enabled f}, s.turn S k enabled f = some s' → ∃ c, s'.caretaker = c ∧
        Relation.ReflTransGen (fun s s' => ∃ e, s.step S e = some s') s.caretaker c := by
      intro k enabled f hs
      obtain ⟨actor, told, -, -, -, rfl⟩ := turn_some hs
      exact ⟨_, rfl, receives_path k _ _⟩
    cases t with
    | caretaker e =>
        simp only [Monitored.step] at hs
        split at hs
        · obtain ⟨s₁, hs₁, rfl⟩ := Option.map_eq_some_iff.mp hs
          refine ⟨s₁, ?_, .single ⟨e, hs₁⟩⟩
          unfold Monitored.hire
          split <;> rfl
        · cases hs
    | started k => exact hturn (f := HealthActor.started S.timer) hs
    | stop k => exact hturn (f := HealthActor.leave .stopped) hs
    | tick k => exact hturn (f := HealthActor.tick) hs
    | checked k check answer => exact hturn (f := HealthActor.checked _ check answer) hs
  obtain ⟨c, rfl, hpath⟩ := hsim
  exact Lts.reach_of_path hpath

theorem monitors_run (hcheck : S.program.check.isSome) {h : List (Monitored × Turn)}
    {s : Monitored} (hr : Lts.Run (Monitored.step S) .init h s) :
    Monitors S (h.filterMap Monitored.applied) s ∧
      ∀ x ∈ h, ∀ r, Monitored.applied x = some r →
        ∃ req child, x.1.caretaker.WaitsFor req child ∧ r.1 = child.pid := by
  induction hr with
  | start => exact ⟨monitors_init S, by simp⟩
  | @snoc h s s' t hr hs ih =>
      obtain ⟨hbefore, happlied⟩ := ih
      obtain ⟨hafter, hnow⟩ := monitors_step hcheck hbefore hs
      constructor
      · rw [List.filterMap_append]
        have hone : [(s, t)].filterMap Monitored.applied = (Monitored.applied (s, t)).toList := by
          cases ha : Monitored.applied (s, t) <;> simp [ha]
        rw [hone]
        exact hafter
      · intro x hx
        rcases List.mem_append.mp hx with hx | hx
        · exact happlied x hx
        · rw [List.mem_singleton.mp hx]
          exact hnow

/-- `Running` is the status of a child that is waited for. -/
theorem Current.running {s : Caretaker} {st : Stage} (h : Current S rs s st)
    (hlive : s.crashed = none) {health : HealthState} (hs : s.status = .running health) :
    ∃ req child, st = .up req child ∧ health = (lastReport child.pid rs).getD .unknown := by
  have hstatus := h.shape.status
  have hrest : ∀ run, restStatus run ≠ .running health := by
    intro run hrun
    rcases restStatus_cases run with hc | hc <;> rw [hc] at hrun <;> cases hrun
  cases st with
  | up req child =>
      refine ⟨req, child, rfl, ?_⟩
      exact Lifecycle.running.inj (hs.symm.trans h.health)
  | boot => cases hs.symm.trans hstatus.2
  | idle => exact absurd (hstatus.symm.trans hs) (hrest _)
  | queued req => exact absurd (hstatus.symm.trans hs) (hrest _)
  | spawnFailed req => cases hs.symm.trans h.health
  | stopping req child res => cases hs.symm.trans hstatus.2
  | replied req res => cases hs.symm.trans hstatus.2
  | ended res =>
      have hend := hs.symm.trans hstatus.2
      cases res <;> cases hend
  | dropped =>
      obtain ⟨panic, hp, -⟩ := h.shape.token.crashed
      rw [hlive] at hp
      cases hp

/-- **Reported health belongs to the current child.** For a program with a health check, in every
    state of every interleaving of its caretaker and its health actors: with the status
    `Running(h)` the `Run` handled last has a child that is waited for, and `h` is the last report
    of its health actor that was applied, `Unknown` if none was; and each report that was applied
    came from the health actor of the child waited for at that time. -/
theorem current_health (hcheck : S.program.check.isSome) {h : List (Monitored × Turn)}
    {s : Monitored} (hr : Lts.Run (Monitored.step S) .init h s) :
    (s.caretaker.crashed = none → ∀ health, s.caretaker.status = .running health →
      ∃ req child, s.caretaker.WaitsFor req child ∧
        health = (lastReport child.pid (h.filterMap Monitored.applied)).getD .unknown) ∧
    ∀ x ∈ h, ∀ sender health, Monitored.applied x = some (sender, health) →
      ∃ req child, x.1.caretaker.WaitsFor req child ∧ sender = child.pid := by
  obtain ⟨hmon, happlied⟩ := monitors_run hcheck hr
  refine ⟨fun hlive health hs => ?_, fun x hx sender health ha => happlied x hx _ ha⟩
  obtain ⟨st, hcurrent⟩ := hmon.current
  obtain ⟨req, child, rfl, hhealth⟩ := hcurrent.running hlive hs
  exact ⟨req, child, hcurrent.shape.waitsFor, hhealth⟩

/-- The child of `a` exits while a report of its health actor is in the mailbox, and the next one
    is spawned. -/
def staleReport : List Turn :=
  [.caretaker .startDaemon, .caretaker (.pollDaemon ⟨1, 1, false⟩), .caretaker (.handle (.ok ())),
    .started 0, .tick 0, .tick 0, .checked 0 1 (.ok ⟨200, "200 OK"⟩), .caretaker (.handle (.ok ())),
    .checked 0 0 (.error "timeout"), .caretaker (.exit 0 (.exited 1)),
    .caretaker (.pollRun 0 .underWay), .caretaker (.pollDaemon ⟨90000000000, 90000000000, false⟩),
    .caretaker (.pollDaemon ⟨95000000000, 95000000000, true⟩),
    .caretaker (.pollDaemon ⟨95000000000, 95000000000, false⟩), .stop 0,
    .caretaker (.handle (.ok ())), .caretaker (.handle (.ok ()))]

theorem current_health_staleReport :
    ∃ h s, Lts.Run (Monitored.step settingA) .init h s ∧
      h.filterMap Monitored.applied = [(0, .healthy)] ∧
      ∃ req child, s.caretaker.WaitsFor req child ∧
        HealthState.unknown =
          (lastReport child.pid (h.filterMap Monitored.applied)).getD .unknown := by
  have hex : ∃ s, Lts.exec (Monitored.step settingA) .init staleReport = some s ∧
      s.caretaker.status = .running .unknown ∧ s.caretaker.crashed = none ∧
      (Lts.history (Monitored.step settingA) .init staleReport).filterMap Monitored.applied =
        [(0, .healthy)] := ⟨_, rfl, rfl, rfl, rfl⟩
  obtain ⟨s, hex, hstatus, hlive, happlied⟩ := hex
  have hr := Lts.run_history hex
  exact ⟨_, s, hr, happlied, (current_health rfl hr).1 hlive _ hstatus⟩

end Blahaj
