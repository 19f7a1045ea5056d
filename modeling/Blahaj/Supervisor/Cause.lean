/-
  File:      Blahaj/Supervisor/Cause.lean
  Subject:   WHY A CHILD IS KILLED: a caretaker with its health actors, over all interleavings.

  A poll of the `Run` of a child sends it a SIGTERM for two reasons: the caretaker was asked to
  stop, or the sender of the unhealthy signal is gone. That sender goes with the health actor, and
  a health actor leaves when it is told to stop, when its failures cover the grace period, or in a
  panic: of its arithmetic, or in `started`, whose timer does not take every interval. The stop
  comes only behind the poll itself, so what is left are the failures and the timer.

  * `gone_run` -- a health actor that was not told to stop is gone exactly if it gave up: its last
    failures in a row cover the grace period, or its timer has panicked;
  * `heeded_run` -- the sender is gone exactly with the health actor;
  * `killed_for_cause` -- **a SIGTERM is sent exactly for cause**.
-/
import Blahaj.Supervisor.Parties
import Blahaj.Supervisor.Signals

namespace Blahaj

open Streak

variable {S : Setting} {s s' : Caretaker} {st : Stage} {timer : TimerCrate}

/-! ## 1. A health actor alone -/

/-- That many failures in a row cover the grace period, or counting them overflows. -/
def HealthConfig.Covered (self : HealthConfig) (failures : Nat) : Prop :=
  ∃ m, 1 ≤ m ∧ m ≤ failures ∧ (self.gracePeriod ≤ self.interval * m ∨ ¬ self.fits m)

/-- What a health actor has done in this run is to give up: its last failures in a row cover the
    grace period, or it was started with an interval that the timer does not take. -/
def HealthConfig.GivesUp (timer : TimerCrate) (self : HealthConfig)
    (h : List (HealthActor × HealthEvent)) : Prop :=
  self.Covered (streak Prod.snd (results h)) ∨
    timer.takes self.interval = false ∧ ∃ x ∈ h, x.2 = .started

theorem HealthConfig.not_covered_zero (config : HealthConfig) : ¬ config.Covered 0 := by
  rintro ⟨m, hone, hle, -⟩
  omega

theorem HealthConfig.not_givesUp_nil (timer : TimerCrate) (config : HealthConfig) :
    ¬ config.GivesUp timer [] := by
  rintro (hcovered | ⟨-, x, hx, -⟩)
  · exact config.not_covered_zero hcovered
  · cases hx

theorem exhausted_false {config : HealthConfig} {m : Nat} :
    config.exhausted m = .ok false ↔ ¬ (config.gracePeriod ≤ config.interval * m ∨
      ¬ config.fits m) := by
  cases hex : config.exhausted m with
  | error panic =>
      have hfits := (HealthConfig.exhausted_error hex).1
      simp [hfits]
  | ok exceeded =>
      obtain ⟨hfits, hover⟩ := HealthConfig.exhausted_ok hex
      cases exceeded with
      | true => simp [hover.mp rfl]
      | false =>
          have hnot : ¬ config.gracePeriod ≤ config.interval * m := fun h => nomatch hover.mpr h
          simp only [hfits, hnot, not_true_eq_false, or_self, not_false_eq_true]

/-- A count that exhausts the grace period, or that does not fit, covers it. -/
theorem HealthConfig.covered_succ {config : HealthConfig} {n : Nat}
    (h : config.exhausted (n + 1) ≠ .ok false) : config.Covered (n + 1) :=
  ⟨n + 1, Nat.le_add_left 1 n, Nat.le_refl _, not_not.mp (mt exhausted_false.mpr h)⟩

/-- An actor that is live has not covered the grace period. -/
theorem Tally.uncovered {config : HealthConfig} {rs : List (Nat × Bool)} {a : HealthActor}
    (h : Tally config rs a) (hlive : a.phase.live = true) :
    ¬ config.Covered (streak Prod.snd rs) := by
  rintro ⟨m, hone, hle, hover⟩
  rw [← h.count hlive] at hle
  exact exhausted_false.mp (h.below hlive m hone hle) hover

/-- **The step in which an actor leaves**, if it is not told to stop, covers the grace period, or
    is a `started` whose timer panics; and it uses or drops the sender. -/
theorem Tally.leaves {config : HealthConfig} {rs : List (Nat × Bool)} {a a' : HealthActor}
    {e : HealthEvent} (h : Tally config rs a) (hs : a.step timer e = some a') (hstop : e ≠ .stop) :
    (a'.phase.live = false ↔
      config.Covered (streak Prod.snd (rs ++ (HealthActor.processed (a, e)).toList)) ∨
        timer.takes config.interval = false ∧ e = .started) ∧
    ((HealthActor.does timer (a, e)).contains .signal = true ↔ a'.phase.live = false) := by
  have hturned := HealthActor.turned hs
  have hlive := hturned.live
  have hbefore := h.uncovered hlive
  generalize HealthActor.does timer (a, e) = actions at hturned
  cases hturned with
  | started _ =>
      obtain ⟨tx, htx⟩ := h.sender hlive
      rcases HealthActor.started_cases h.checked timer with
        ⟨htakes, hstarted⟩ | ⟨hrefused, hstarted⟩
      · rw [hstarted]
        simpa [HealthActor.processed, HealthPhase.live, htakes] using hbefore
      · rw [hstarted]
        simp [HealthActor.leave, HealthPhase.live, hrefused, htx]
  | stop _ => exact absurd rfl hstop
  | tick hphase _ =>
      have hrunning : a.tick.1.phase.live = true := hlive
      rw [hrunning]
      simpa [HealthActor.processed, HealthActor.tick] using hbefore
  | @checked hphase check hmem receiving answer =>
      obtain ⟨tx, htx⟩ := h.sender hlive
      have hchecked := HealthActor.checked_cases h.checked htx receiving check answer
      have hcount := h.count hlive
      show (_ ↔ config.Covered (streak Prod.snd (rs ++ [(check, failed answer)])) ∨ _) ∧ _
      rw [streak_snoc]
      generalize a.checked receiving check answer = out at hchecked
      obtain ⟨a', actions⟩ := out
      cases hchecked with
      | success hf =>
          have hrunning : a.phase.live = true := hlive
          simp [hf, hrunning, config.not_covered_zero]
      | counted hf hex log =>
          have hnot : ¬ config.Covered (streak Prod.snd rs + 1) := by
            rintro ⟨m, hone, hle, hover⟩
            rw [← hcount] at hle
            rcases Nat.lt_or_eq_of_le hle with hlt | rfl
            · exact exhausted_false.mp (h.below hlive m hone (Nat.le_of_lt_succ hlt)) hover
            · exact exhausted_false.mp hex hover
          simp [hf, hlive, hnot]
      | gaveUp hf hex hphase' _ =>
          have hgone : a'.phase.live = false := by
            rw [hphase']
            cases receiving <;> rfl
          have hcovered : config.Covered (streak Prod.snd rs + 1) := by
            rw [← hcount]
            exact HealthConfig.covered_succ (by simp [hex])
          simp [hf, hgone, hcovered]
      | overflowed hf hex hphase' _ =>
          have hgone : a'.phase.live = false := by
            rw [hphase']
            rfl
          have hcovered : config.Covered (streak Prod.snd rs + 1) := by
            rw [← hcount]
            exact HealthConfig.covered_succ (by simp [hex])
          simp [hf, hgone, hcovered]

/-- **A health actor that was not told to stop is gone exactly if it gave up.** -/
theorem gone_run {name : String} {config : HealthConfig} {tx : Sender}
    {h : List (HealthActor × HealthEvent)} {a : HealthActor}
    (hr : Lts.Run (HealthActor.step timer) (.new name (some config) tx) h a)
    (hstop : ∀ x ∈ h, x.2 ≠ .stop) : a.phase.live = false ↔ config.GivesUp timer h := by
  induction hr with
  | start =>
      exact iff_of_false (fun hgone => nomatch hgone) (config.not_givesUp_nil timer)
  | @snoc h a a' e hr hs ih =>
      have hlast := hstop _ (List.mem_append_right _ (List.mem_singleton.mpr rfl))
      rw [((tally_run hr).leaves hs hlast).1, HealthConfig.GivesUp, results_snoc]
      refine or_congr_right (and_congr_right fun hrefused => ?_)
      constructor
      · exact fun he => ⟨(a, e), List.mem_append_right _ (List.mem_singleton.mpr rfl), he⟩
      · rintro ⟨x, hx, hstarted⟩
        rcases List.mem_append.mp hx with hx | hx
        · -- an actor that was started before is gone, and takes no step
          have hgone := (ih fun y hy => hstop y (List.mem_append_left _ hy)).mpr
            (Or.inr ⟨hrefused, x, hx, hstarted⟩)
          rw [(HealthActor.turned hs).live] at hgone
          cases hgone
        · rw [List.mem_singleton.mp hx] at hstarted
          exact hstarted

/-- What an actor without a check does, unless it is told to stop. -/
theorem unchecked_leaves {a a' : HealthActor} {e : HealthEvent} (hconfig : a.config = none)
    (hs : a.step timer e = some a') (hstop : e ≠ .stop) :
    a'.phase.live = true ∧ (HealthActor.does timer (a, e)).contains .signal = false := by
  have hturned := HealthActor.turned hs
  have hlive := hturned.live
  generalize HealthActor.does timer (a, e) = actions at hturned
  cases hturned with
  | started _ =>
      simp only [HealthActor.started, hconfig]
      exact ⟨rfl, rfl⟩
  | stop _ => exact absurd rfl hstop
  | tick _ hc =>
      rw [hconfig] at hc
      cases hc
  | checked _ _ _ _ =>
      simp only [HealthActor.checked, hconfig]
      exact ⟨hlive, rfl⟩

theorem step_config {a a' : HealthActor} {e : HealthEvent} (hs : a.step timer e = some a') :
    a'.config = a.config := by
  have hturned := HealthActor.turned hs
  generalize HealthActor.does timer (a, e) = actions at hturned
  cases hturned with
  | started _ => exact started_config timer a
  | stop _ => rfl
  | tick _ _ => rfl
  | checked _ _ receiving answer => exact checked_config receiving _ answer a

/-! ## 2. The sender and the actor -/

/-- As long as health actor `k` is not told to stop, it has handled no stop message, and its sender
    is gone exactly if the actor is. -/
def Heeded (h : List (Monitored × Turn)) (s : Monitored) (k : Nat) : Prop :=
  s.caretaker.told k = some false →
    (∀ x ∈ h.filterMap (Monitored.own k), x.2 ≠ .stop) ∧
    (s.caretaker.signalled ⟨.unhealthy k⟩ = true ↔
      ∃ actor, s.actors[k]? = some actor ∧ actor.phase.live = false)

theorem run_config {a₀ a : HealthActor} {h : List (HealthActor × HealthEvent)}
    (hr : Lts.Run (HealthActor.step timer) a₀ h a) : a.config = a₀.config :=
  hr.invariant (P := fun a => a.config = a₀.config) rfl fun _ _ _ h hs => (step_config hs).trans h

/-- The step of a health actor that uses its sender is the one in which the actor leaves. -/
theorem own_leaves {h : List (Monitored × Turn)} {s : Monitored}
    (hr : Lts.Run (Monitored.step S) .init h s) {k : Nat} {actor actor' : HealthActor}
    {e : HealthEvent} (hactor : s.actors[k]? = some actor) (hs : actor.step S.timer e = some actor')
    (hstop : e ≠ .stop) :
    (HealthActor.does S.timer (actor, e)).contains .signal = true ↔ actor'.phase.live = false := by
  obtain ⟨_, ⟨name, config, rfl⟩, hrun⟩ := (actors_run hr k).1 actor hactor
  cases config with
  | none =>
      obtain ⟨hlive, hdoes⟩ := unchecked_leaves (run_config hrun) hs hstop
      rw [hlive, hdoes]
      decide
  | some config => exact ((tally_run hrun).leaves hs hstop).2

/-- An event of the caretaker. -/
theorem Heeded.caretaker {h : List (Monitored × Turn)} {s : Monitored} {k : Nat}
    (hh : Heeded h s k) (hr : Lts.Run (Monitored.step S) .init h s) {e : Event}
    (hown : e.own = true) {s₁ : Caretaker} (hs : s.caretaker.step S e = some s₁) :
    Heeded (h ++ [(s, .caretaker e)]) (s.hire S s₁) k := by
  intro htold
  rw [hire_caretaker] at htold ⊢
  have hquiet : Monitored.own k (s, .caretaker e) = none := by
    unfold Monitored.own
    cases s.actors[k]? <;> rfl
  have hactors : (∃ actor, (s.hire S s₁).actors[k]? = some actor ∧ actor.phase.live = false) ↔
      ∃ actor, s.actors[k]? = some actor ∧ actor.phase.live = false := by
    rcases hire_own (S := S) s s₁ k with hsame | ⟨hnone, actor, hnew, name, config, rfl⟩
    · rw [hsame]
    · -- an actor that was just started is live
      rw [hnone, hnew]
      constructor
      · rintro ⟨actor, hactor, hgone⟩
        cases hactor
        cases hgone
      · rintro ⟨actor, hactor, -⟩
        cases hactor
  rw [hactors, List.filterMap_append]
  have hone : [(s, Turn.caretaker e)].filterMap (Monitored.own k) = [] := by simp [hquiet]
  rw [hone, List.append_nil]
  rcases (recorded_step hs).health.untold hown htold with ⟨hbefore, hsame⟩ | ⟨hk, hnew⟩
  · rw [hsame]
    exact hh hbefore
  · have hno : s.actors[k]? = none := by
      cases hactor : s.actors[k]? with
      | none => rfl
      | some actor =>
          obtain ⟨told, hbefore⟩ := known_run hr k actor hactor
          obtain ⟨handle, hhandle, -⟩ := Option.map_eq_some_iff.mp hbefore
          have hlt := (List.getElem?_eq_some_iff.mp hhandle).1
          omega
    rw [(actors_run hr k).2 hno, hno, hnew]
    exact ⟨fun x hx => absurd hx List.not_mem_nil, fun hc => (nomatch hc), fun hex => by
      obtain ⟨actor, hactor, -⟩ := hex
      cases hactor⟩

/-- A turn of health actor `j`. -/
theorem Heeded.actor {h : List (Monitored × Turn)} {s : Monitored} {k : Nat} (hh : Heeded h s k)
    (hr : Lts.Run (Monitored.step S) .init h s) {t : Turn} {j : Nat} {actor actor' : HealthActor}
    {e : HealthEvent} (hown : Monitored.own j (s, t) = some (actor, e))
    (hothers : ∀ i, i ≠ j → Monitored.own i (s, t) = none)
    (hstep : actor.step S.timer e = some actor') {told : Bool}
    (htold : s.caretaker.told j = some told) (hstop : e = .stop → told = true) :
    Heeded (h ++ [(s, t)])
      ⟨(HealthActor.does S.timer (actor, e)).foldl (Caretaker.receive S j) s.caretaker,
        s.actors.set j actor'⟩ k := by
  intro hbehind
  have hbefore : s.caretaker.told k = some false := (receives_told ..).symm.trans hbehind
  obtain ⟨hnostop, hiff⟩ := hh hbefore
  have hactor := (own_some hown).1
  rw [receives_signalled htold, List.filterMap_append]
  by_cases hk : k = j
  · subst hk
    have hne : e ≠ .stop := fun heq => by
      rw [hbefore] at htold
      rw [hstop heq] at htold
      cases htold
    have hlt := (List.getElem?_eq_some_iff.mp hactor).1
    -- the actor was live, so its sender was there
    have hthere : s.caretaker.signalled ⟨.unhealthy k⟩ = false := by
      rw [Bool.eq_false_iff]
      intro hsig
      obtain ⟨actor₁, hactor₁, hgone⟩ := hiff.mp hsig
      cases hactor.symm.trans hactor₁
      rw [(HealthActor.turned hstep).live] at hgone
      cases hgone
    have hone : [(s, t)].filterMap (Monitored.own k) = [(actor, e)] := by simp [hown]
    rw [hone, hthere, Bool.false_or, beq_self_eq_true, Bool.and_true,
      own_leaves hr hactor hstep hne, List.getElem?_set_self hlt]
    refine ⟨fun x hx => ?_, fun hgone => ⟨actor', rfl, hgone⟩, fun hex => ?_⟩
    · rcases List.mem_append.mp hx with hx | hx
      · exact hnostop x hx
      · rw [List.mem_singleton.mp hx]
        exact hne
    · obtain ⟨actor₁, hactor₁, hgone⟩ := hex
      cases hactor₁
      exact hgone
  · have hone : [(s, t)].filterMap (Monitored.own k) = [] := by simp [hothers k hk]
    have hkj : (k == j) = false := by simpa using hk
    rw [hone, List.append_nil, hkj, Bool.and_false, Bool.or_false,
      List.getElem?_set_ne (Ne.symm hk)]
    exact ⟨hnostop, hiff⟩

/-- **The sender is gone exactly with the health actor**, in every interleaving. -/
theorem heeded_run {h : List (Monitored × Turn)} {s : Monitored}
    (hr : Lts.Run (Monitored.step S) .init h s) (k : Nat) : Heeded h s k := by
  induction hr with
  | start => exact fun htold => nomatch htold
  | snoc t hr hs ih =>
      cases Monitored.stepped hs with
      | caretaker hown hs₁ => exact ih.caretaker hr hown hs₁
      | actor hown hothers hstep htold hstop => exact ih.actor hr hown hothers hstep htold hstop

/-! ## 3. The child that is waited for -/

theorem Shape.up_of_waitsFor (h : Shape S s st) {req : Nat} {child : Child}
    (hw : s.WaitsFor req child) : st = .up req child := by
  have hruns := h.token.runs
  rw [hw.2.2] at hruns
  cases st with
  | up req' child' =>
      cases hruns
      rfl
  | spawnFailed req' =>
      obtain ⟨e, hruns⟩ := hruns
      cases hruns
  | stopping req' child' res =>
      obtain ⟨killing, hruns⟩ := hruns
      cases hruns
  | _ => cases hruns

/-- What no poll of a `Run` does: it tells a health actor to stop. -/
theorem Watching.keeps {e : Event} (h : Watching S e s.health s'.health)
    (he : ¬ ∃ i grace, e = .pollRun i grace) {k : Nat} {told : Bool}
    (htold : s.told k = some told) : s'.told k = some told := by
  obtain ⟨handle, hhandle, hstopped⟩ := Option.map_eq_some_iff.mp htold
  have hlt := (List.getElem?_eq_some_iff.mp hhandle).1
  unfold Caretaker.told
  generalize s'.health = health' at h ⊢
  cases h with
  | same => exact htold
  | start => rw [List.getElem?_append_left hlt, hhandle, ← hstopped]; rfl
  | stop j hpoll => exact absurd hpoll he
  | signal j _ =>
      rw [List.getElem?_modify, hhandle, ← hstopped]
      by_cases hj : j = k <;> simp [hj]

theorem Shape.waitsFor_mem (h : Shape S s st) {req : Nat} {child : Child}
    (hmem : (⟨.waitAbort (.new child stopReceiver ⟨.unhealthy child.pid⟩) child.pid, req⟩ :
      RunItem) ∈ s.runs) : s.WaitsFor req child := by
  have hruns := h.token.runs
  cases st with
  | up req₀ child₀ =>
      rw [show s.runs = [_] from hruns] at hmem
      cases List.mem_singleton.mp hmem
      exact h.waitsFor
  | spawnFailed req₀ =>
      obtain ⟨e, hruns⟩ := hruns
      rw [hruns] at hmem
      cases List.mem_singleton.mp hmem
  | stopping req₀ child₀ res =>
      obtain ⟨killing, hruns⟩ := hruns
      rw [hruns] at hmem
      cases List.mem_singleton.mp hmem
  | _ =>
      rw [show s.runs = [] from hruns] at hmem
      cases hmem

/-- Behind a poll of `ensure_stop` no child is waited for. -/
theorem StopPolled.not_waitsFor {req : Nat} {killing : Bool} {grace : Grace} {child : Child}
    {res : RunResult} (hp : StopPolled s 0 req killing child res grace s') {item : RunItem}
    (hruns : s.runs = [item]) {req' : Nat} {child' : Child} : ¬ s'.WaitsFor req' child' := by
  intro hw
  have hw := hw.2.2
  cases hp with
  | reaped _ => simp [Caretaker.finishRun, hruns] at hw
  | waits _ _ => simp [hruns] at hw
  | kills _ _ _ => simp [hruns] at hw
  | refused _ _ _ => simp [Caretaker.finishRun, hruns] at hw

/-- A poll of a `Run` that leaves a child waited for has changed nothing. -/
theorem Shape.waitsFor_polled (h : Shape S s st) {i : Nat} {grace : Grace}
    (hs : s.step S (.pollRun i grace) = some s') {req : Nat} {child : Child}
    (hw : s'.WaitsFor req child) : s' = s := by
  cases h.polls hs with
  | up hp =>
      have hruns : s.runs = [_] := h.token.runs
      cases hp with
      | stop _ hp => exact absurd hw (hp.not_waitsFor (s := s.asking _) hruns)
      | unhealthy _ _ hp => exact absurd hw (hp.not_waitsFor (s := s.asking _) hruns)
      | exited _ _ _ res _ =>
          have hw := hw.2.2
          simp [Caretaker.finishRun, Caretaker.stopHealth, hruns] at hw
      | pending _ _ => rfl
  | spawnFailed hs' =>
      obtain ⟨_, hruns⟩ := h.token.runs
      have hw := hw.2.2
      simp [hs', Caretaker.finishRun, hruns] at hw
  | stopping hruns hp => exact absurd hw (hp.not_waitsFor hruns)

/-- **The health actor of a child that is waited for is not told to stop.** -/
theorem untold_step (h : Shape S s st)
    (hbefore : ∀ req child, s.WaitsFor req child → s.told child.pid = some false) {e : Event}
    (hs : s.step S e = some s') (req : Nat) (child : Child) (hw : s'.WaitsFor req child) :
    s'.told child.pid = some false := by
  by_cases hpoll : ∃ i grace, e = .pollRun i grace
  · obtain ⟨i, grace, rfl⟩ := hpoll
    obtain rfl := h.waitsFor_polled hs hw
    exact hbefore req child hw
  · have hshape' : ∃ st', Shape S s' st' := shaped_step ⟨st, h⟩ hs
    obtain ⟨st', h'⟩ := hshape'
    obtain rfl := h'.up_of_waitsFor hw
    have hhealth := (recorded_step hs).health
    have hapart := apart_step h hs fun i g heq => hpoll ⟨i, g, heq⟩
    have hlive' := crashed_of_not_dropped h' (by simp)
    have hlive := crashed_before h hs hlive'
    rcases hapart.runs _ (hw.2.2 ▸ List.mem_singleton.mpr rfl) with
      hold | ⟨hnew, hlt⟩ | ⟨-, hnone⟩
    · exact hhealth.keeps hpoll (hbefore req child (h.waitsFor_mem hold))
    · -- the child was just spawned, with its health actor
      have hpid : child.pid = s.health.length := by
        rw [h.watch.length hlive]
        exact hnew.child rfl
      have hlen := h'.watch.length hlive'
      have hlen₀ := h.watch.length hlive
      unfold Caretaker.told
      rw [hpid]
      generalize s'.health = health' at hhealth hlen ⊢
      cases hhealth with
      | same => omega
      | start => simp
      | stop _ _ => simp at hlen; omega
      | signal _ _ => simp at hlen; omega
    · cases hnone

theorem untold_reach (hr : Lts.Reach (Caretaker.step S) .init s) {req : Nat} {child : Child}
    (hw : s.WaitsFor req child) : s.told child.pid = some false := by
  have hinv : (∃ st, Shape S s st) ∧
      ∀ req child, s.WaitsFor req child → s.told child.pid = some false := by
    refine hr.invariant (P := fun s => (∃ st, Shape S s st) ∧
      ∀ req child, s.WaitsFor req child → s.told child.pid = some false)
      ⟨⟨.boot, shape_init S⟩, fun req child hw => ?_⟩ fun s e s' hP hs => ?_
    · cases hw.1
    · obtain ⟨⟨st, h⟩, hbefore⟩ := hP
      exact ⟨shaped_step ⟨st, h⟩ hs, untold_step h hbefore hs⟩
  exact hinv.2 req child hw

/-! ## 4. The SIGTERM -/

/-- What `ensure_stop` sends behind its SIGTERM is no other. -/
theorem StopPolled.no_sigterm {req : Nat} {killing : Bool} {grace : Grace} {child : Child}
    {res : RunResult} (hp : StopPolled s 0 req killing child res grace s') :
    ∃ new, s'.signals = s.signals ++ new ∧ ∀ pid, (pid, Signal.sigterm) ∉ new := by
  obtain ⟨new, hnew, hall⟩ := hp.sends
  refine ⟨new, hnew, fun pid hmem => ?_⟩
  have heq := (hall _ hmem).1
  cases heq

/-- A poll of the `Run` of a child that is waited for sends the SIGTERM if there is a cause. -/
theorem RunPolled.sigterm {req : Nat} {child : Child} (h : Shape S s (.up req child))
    {grace : Grace} (hp : RunPolled S s req child grace s') :
    ∃ new, s'.signals = s.signals ++ new ∧ ∀ pid, (pid, Signal.sigterm) ∈ new ↔
      pid = child.pid ∧ (s.terminates ≠ [] ∨ s.signalled ⟨.unhealthy pid⟩ = true) := by
  have hdoor : s.stopTx.isSome = s.terminates.isEmpty := by
    simpa [Stage.over] using h.doors.stopTx
  have hstart : ∀ {res : RunResult},
      StopPolled (s.asking child) 0 req false child res grace s' →
      (s.terminates ≠ [] ∨ s.signalled ⟨.unhealthy child.pid⟩ = true) →
      ∃ new, s'.signals = s.signals ++ new ∧ ∀ pid, (pid, Signal.sigterm) ∈ new ↔
        pid = child.pid ∧ (s.terminates ≠ [] ∨ s.signalled ⟨.unhealthy pid⟩ = true) := by
    intro res hp hcause
    obtain ⟨new, hnew, hno⟩ := hp.no_sigterm
    refine ⟨(child.pid, .sigterm) :: new, by rw [hnew]; simp [Caretaker.asking], fun pid => ?_⟩
    constructor
    · intro hmem
      rcases List.mem_cons.mp hmem with heq | hmem
      · cases heq
        exact ⟨rfl, hcause⟩
      · exact absurd hmem (hno pid)
    · rintro ⟨rfl, -⟩
      exact List.mem_cons_self ..
  have hquiet : s.stopTx.isSome → s.signalled ⟨.unhealthy child.pid⟩ = false →
      ∀ pid, (pid, Signal.sigterm) ∈ ([] : List (Nat × Signal)) ↔
        pid = child.pid ∧ (s.terminates ≠ [] ∨ s.signalled ⟨.unhealthy pid⟩ = true) := by
    intro htx hu pid
    refine ⟨fun hmem => absurd hmem List.not_mem_nil, fun hcause => ?_⟩
    obtain ⟨rfl, hasked | hgone⟩ := hcause
    · rw [hdoor, List.isEmpty_iff] at htx
      exact absurd htx hasked
    · rw [hu] at hgone
      cases hgone
  cases hp with
  | stop htx hp =>
      refine hstart hp (Or.inl fun hnil => ?_)
      rw [htx, hnil] at hdoor
      cases hdoor
  | unhealthy _ hu hp => exact hstart hp (Or.inr hu)
  | exited htx hu _ res _ =>
      exact ⟨[], by simp [Caretaker.finishRun, Caretaker.stopHealth], hquiet htx hu⟩
  | pending htx hu => exact ⟨[], by simp, hquiet htx hu⟩

/-- **A step sends a SIGTERM exactly where it polls the `Run` of a child that is waited for**, and
    the caretaker was asked to stop or the sender of the unhealthy signal is gone. -/
theorem sigterm_step (h : Shape S s st) {e : Event} (hs : s.step S e = some s') :
    ∃ new, s'.signals = s.signals ++ new ∧ ∀ pid, (pid, Signal.sigterm) ∈ new ↔
      ((∃ i grace, e = .pollRun i grace) ∧ ∃ req, s.WaitsFor req ⟨pid⟩) ∧
        (s.terminates ≠ [] ∨ s.signalled ⟨.unhealthy pid⟩ = true) := by
  by_cases hpoll : ∃ i grace, e = .pollRun i grace
  · have hself := hpoll
    obtain ⟨i, grace, rfl⟩ := hself
    cases h.polls hs with
    | @up req child hp =>
        obtain ⟨new, hnew, hiff⟩ := hp.sigterm h
        refine ⟨new, hnew, fun pid => (hiff pid).trans (and_congr_left fun _ => ?_)⟩
        constructor
        · rintro rfl
          exact ⟨hpoll, req, h.waitsFor⟩
        · rintro ⟨-, req', hw⟩
          cases h.up_of_waitsFor hw
          rfl
    | spawnFailed hs' =>
        refine ⟨[], by simp [hs', Caretaker.finishRun], fun pid => ?_⟩
        refine ⟨fun hmem => absurd hmem List.not_mem_nil, fun hc => ?_⟩
        obtain ⟨req', hw⟩ := hc.1.2
        cases h.up_of_waitsFor hw
    | stopping _ hp =>
        obtain ⟨new, hnew, hno⟩ := hp.no_sigterm
        refine ⟨new, hnew, fun pid => ⟨fun hmem => absurd hmem (hno pid), fun hc => ?_⟩⟩
        obtain ⟨req', hw⟩ := hc.1.2
        cases h.up_of_waitsFor hw
  · have hapart := apart_step h hs fun i g heq => hpoll ⟨i, g, heq⟩
    exact ⟨[], by rw [hapart.signals, List.append_nil], fun pid =>
      ⟨fun hmem => absurd hmem List.not_mem_nil, fun hc => absurd hc.1.1 hpoll⟩⟩

/-! ## 5. Over a run -/

/-- A `Terminate` is handled in the step. -/
def Monitored.asksToStop : Monitored × Turn → Prop
  | (s, .caretaker e) => AsksToStop s.caretaker e
  | _ => False

/-- Every health actor has its check from the program. -/
structure Configured (S : Setting) (s : Monitored) : Prop where
  handles : ∀ config ∈ s.caretaker.health.map HealthHandle.config, config = S.config
  actors : ∀ actor ∈ s.actors, actor.config = S.config

theorem modify_config {f : HealthHandle → HealthHandle} (hf : ∀ handle, (f handle).config =
    handle.config) (health : List HealthHandle) (k : Nat) :
    (health.modify k f).map HealthHandle.config = health.map HealthHandle.config := by
  refine List.ext_getElem? fun j => ?_
  rw [List.getElem?_map, List.getElem?_map, List.getElem?_modify]
  cases health[j]? with
  | none => rfl
  | some handle =>
      simp only [Option.map_eq_map, Option.map_some]
      split
      · rw [hf]
      · rfl

theorem receives_configs (s : Caretaker) (k : Nat) (actions : List HealthAction) :
    (actions.foldl (Caretaker.receive S k) s).health.map HealthHandle.config =
      s.health.map HealthHandle.config := by
  induction actions generalizing s with
  | nil => rfl
  | cons a actions ih =>
      rw [List.foldl_cons, ih]
      rcases received (S := S) s k a with ⟨_, _, hone⟩ | hone
      · rw [hone]
      · rw [hone]
        exact modify_config (f := fun handle => { handle with signalled := true })
          (fun _ => rfl) _ _

theorem configured_step {s s' : Monitored} (h : Configured S s) {t : Turn}
    (hs : s.step S t = some s') : Configured S s' := by
  cases Monitored.stepped hs with
  | @caretaker e _ s₁ hs₁ =>
      have hhandles : ∀ config ∈ s₁.health.map HealthHandle.config, config = S.config := by
        have hw := (recorded_step hs₁).health
        generalize s₁.health = health₁ at hw ⊢
        cases hw with
        | same => exact h.handles
        | start =>
            intro config hconfig
            rw [List.map_append] at hconfig
            rcases List.mem_append.mp hconfig with hold | hnew
            · exact h.handles config hold
            · exact List.mem_singleton.mp hnew
        | stop j _ =>
            rw [modify_config (f := fun handle => { handle with stopped := true }) fun _ => rfl]
            exact h.handles
        | signal j _ =>
            rw [modify_config (f := fun handle => { handle with signalled := true }) fun _ => rfl]
            exact h.handles
      refine ⟨by rw [hire_caretaker]; exact hhandles, ?_⟩
      unfold Monitored.hire
      split
      · rename_i handle hhandle
        intro actor hactor
        rcases List.mem_append.mp hactor with hold | hnew
        · exact h.actors actor hold
        · rw [List.mem_singleton.mp hnew]
          exact hhandles _ (List.mem_map_of_mem (List.mem_of_getElem? hhandle))
      · exact h.actors
  | actor hown _ hstep _ _ =>
      refine ⟨by rw [receives_configs]; exact h.handles, fun actor hactor => ?_⟩
      rcases List.mem_or_eq_of_mem_set hactor with hactor | rfl
      · exact h.actors actor hactor
      · rw [step_config hstep]
        exact h.actors _ (List.mem_of_getElem? (own_some hown).1)

theorem configured_run {h : List (Monitored × Turn)} {s : Monitored}
    (hr : Lts.Run (Monitored.step S) .init h s) : Configured S s :=
  hr.invariant ⟨fun _ hconfig => absurd hconfig List.not_mem_nil,
    fun _ hactor => absurd hactor List.not_mem_nil⟩ fun _ _ _ h hs => configured_step h hs

/-- The caretaker was asked to stop exactly if it has handled a `Terminate`. -/
theorem asked_run {h : List (Monitored × Turn)} {s : Monitored}
    (hr : Lts.Run (Monitored.step S) .init h s) :
    s.caretaker.terminates ≠ [] ↔ ∃ x ∈ h, Monitored.asksToStop (x.1, x.2) := by
  refine hr.latched (P := fun s => s.caretaker.terminates ≠ [])
    (C := fun s t => Monitored.asksToStop (s, t)) (fun hne => hne rfl) fun s t s' hreach hs => ?_
  obtain ⟨h, hr⟩ := hreach
  cases Monitored.stepped hs with
  | @caretaker e _ s₁ hs₁ =>
      obtain ⟨st, hshape⟩ := shape_reach (caretaker_reach hr)
      have hlen := (frame_step hshape hs₁).terminates
      rw [hire_caretaker, ← List.length_pos_iff, ← List.length_pos_iff, hlen]
      show _ ↔ _ ∨ AsksToStop s.caretaker e
      split
      · rename_i hasks
        exact ⟨fun _ => Or.inr hasks, fun _ => Nat.succ_pos _⟩
      · rename_i hasks
        exact ⟨Or.inl, fun h => h.resolve_right hasks⟩
  | @actor _ k actor e hown _ _ _ _ _ _ =>
      obtain ⟨mailbox, n, health, hframe⟩ :=
        receives_frame (S := S) s.caretaker k (HealthActor.does S.timer (actor, e))
      have hno : ¬ Monitored.asksToStop (s, t) := by
        intro hasks
        cases t with
        | caretaker e => cases (own_some hown).2
        | _ => exact hasks
      simp [hframe, hno]

/-- **The sender of a health actor that was not told to stop is gone exactly if the actor gave
    up.** -/
theorem signalled_gone {h : List (Monitored × Turn)} {s : Monitored}
    (hr : Lts.Run (Monitored.step S) .init h s) {k : Nat}
    (htold : s.caretaker.told k = some false) :
    s.caretaker.signalled ⟨.unhealthy k⟩ = true ↔ ∃ config, S.config = some config ∧
      config.GivesUp S.timer (h.filterMap (Monitored.own k)) := by
  obtain ⟨hnostop, hiff⟩ := heeded_run hr k htold
  obtain ⟨hrun, hnil⟩ := actors_run hr k
  rw [hiff]
  cases hactor : s.actors[k]? with
  | none =>
      rw [hnil hactor]
      constructor
      · rintro ⟨actor, hc, -⟩
        cases hc
      · rintro ⟨config, -, hup⟩
        exact absurd hup (config.not_givesUp_nil S.timer)
  | some actor =>
      obtain ⟨_, ⟨name, config, rfl⟩, hrun⟩ := hrun actor hactor
      have hconfig : config = S.config := by
        rw [← (configured_run hr).actors actor (List.mem_of_getElem? hactor)]
        exact (run_config hrun).symm
      subst hconfig
      cases hS : S.config with
      | none =>
          rw [hS] at hrun
          have hlive : actor.phase.live = true := by
            generalize h.filterMap (Monitored.own k) = own at hrun hnostop
            cases hrun with
            | start => rfl
            | snoc e hrun hs =>
                have hlast := hnostop _ (List.mem_append_right _ (List.mem_singleton.mpr rfl))
                exact (unchecked_leaves (run_config hrun) hs hlast).1
          simp [hlive]
      | some config =>
          rw [hS] at hrun
          have hgone := gone_run hrun hnostop
          simp only [Option.some.injEq, exists_eq_left']
          exact hgone

/-- **A child is killed for cause**, in every interleaving of a caretaker with its health actors. A
    step sends a child a SIGTERM exactly where it polls the `Run` of the child that is waited for,
    and a `Terminate` was handled before, or the program has a health check and the health actor of
    that child gave up: its last results are failures in a row that cover the grace period (or
    overflow their count), or it was started with an interval that the timer does not take. -/
theorem killed_for_cause {h : List (Monitored × Turn)} {s : Monitored}
    (hr : Lts.Run (Monitored.step S) .init h s) :
    ∀ h₁ m t h₂ m', h = h₁ ++ (m, t) :: h₂ → m.step S t = some m' →
      ∃ new, m'.caretaker.signals = m.caretaker.signals ++ new ∧
        ∀ pid, (pid, Signal.sigterm) ∈ new ↔
          ((∃ i grace, t = .caretaker (.pollRun i grace)) ∧
            ∃ req, m.caretaker.WaitsFor req ⟨pid⟩) ∧
          ((∃ x ∈ h₁, Monitored.asksToStop x) ∨ ∃ config, S.config = some config ∧
            config.GivesUp S.timer (h₁.filterMap (Monitored.own pid))) := by
  intro h₁ m t h₂ m' hsplit hs
  subst hsplit
  have hr₁ := hr.before
  have hreach := caretaker_reach hr₁
  obtain ⟨st, hshape⟩ := shape_reach hreach
  cases Monitored.stepped hs with
  | @caretaker e _ s₁ hs₁ =>
      obtain ⟨new, hnew, hiff⟩ := sigterm_step hshape hs₁
      refine ⟨new, by rw [hire_caretaker]; exact hnew, fun pid => ?_⟩
      have hpoll : (∃ i grace, e = .pollRun i grace) ↔
          ∃ i grace, Turn.caretaker e = .caretaker (.pollRun i grace) := by simp
      rw [hiff, asked_run hr₁, hpoll]
      refine and_congr_right fun hwaits => or_congr_right ?_
      obtain ⟨-, req, hw⟩ := hwaits
      exact signalled_gone hr₁ (untold_reach hreach hw)
  | @actor _ k actor e hown _ _ _ _ _ _ =>
      obtain ⟨mailbox, n, health, hframe⟩ :=
        receives_frame (S := S) m.caretaker k (HealthActor.does S.timer (actor, e))
      refine ⟨[], by simp [hframe], fun pid => ?_⟩
      refine ⟨fun hmem => absurd hmem List.not_mem_nil, fun hc => ?_⟩
      obtain ⟨i, grace, rfl⟩ := hc.1.1
      cases (own_some hown).2

/-- Six checks of a child in a row fail: ten seconds each, and a grace period of sixty. -/
def sixFailures : List Turn :=
  [.caretaker .startDaemon, .caretaker (.pollDaemon ⟨1, 1, false⟩), .caretaker (.handle (.ok ())),
    .started 0, .tick 0, .tick 0, .tick 0, .tick 0, .tick 0, .tick 0,
    .checked 0 0 (.error "timeout"), .checked 0 1 (.error "timeout"),
    .checked 0 2 (.ok ⟨503, "503 Service Unavailable"⟩), .checked 0 3 (.error "timeout"),
    .checked 0 4 (.error "timeout"), .checked 0 5 (.error "timeout")]

/-- Program `a`, its health checked at an interval of zero. -/
def settingZero : Setting :=
  { settingA with program := { programA with
    http := some
      { port := 8081
        path := ['/', 's', 'o', 'm', 'e', '_', 'p', 'a', 't', 'h']
        https := true
        stripPath := true
        healthCheck := some { path := ['/'], interval := 0, grace := 60000000000 } } } }

/-- The timer panics, and the sender goes with the health actor. -/
def timerPanics : List Turn :=
  [.caretaker .startDaemon, .caretaker (.pollDaemon ⟨1, 1, false⟩), .caretaker (.handle (.ok ())),
    .started 0]

theorem killed_for_cause_sixFailures :
    (∃ h₁ m m', Lts.Run (Monitored.step settingA) .init
        (h₁ ++ [(m, .caretaker (.pollRun 0 .underWay))]) m' ∧
      m'.caretaker.signals = [(0, .sigterm)] ∧
      ((∃ x ∈ h₁, Monitored.asksToStop x) ∨ ∃ config, settingA.config = some config ∧
        config.GivesUp settingA.timer (h₁.filterMap (Monitored.own 0)))) ∧
    ∃ h₁ m m', Lts.Run (Monitored.step settingZero) .init
        (h₁ ++ [(m, .caretaker (.pollRun 0 .underWay))]) m' ∧
      m'.caretaker.signals = [(0, .sigterm)] ∧
      ((∃ x ∈ h₁, Monitored.asksToStop x) ∨ ∃ config, settingZero.config = some config ∧
        config.GivesUp settingZero.timer (h₁.filterMap (Monitored.own 0))) := by
  constructor
  · have hex : ∃ m m', Lts.exec (Monitored.step settingA) .init sixFailures = some m ∧
        m.step settingA (.caretaker (.pollRun 0 .underWay)) = some m' ∧
        m.caretaker.signals = [] ∧ m'.caretaker.signals = [(0, .sigterm)] :=
      ⟨_, _, rfl, rfl, rfl, rfl⟩
    obtain ⟨m, m', hex, hs, hbefore, hsent⟩ := hex
    have hr := (Lts.run_history hex).snoc _ hs
    obtain ⟨new, hnew, hiff⟩ := killed_for_cause hr _ m _ [] m' rfl hs
    rw [hbefore, hsent, List.nil_append] at hnew
    have hmem : (0, Signal.sigterm) ∈ new := hnew ▸ List.mem_singleton.mpr rfl
    exact ⟨_, m, m', hr, hsent, ((hiff 0).mp hmem).2⟩
  · have hex : ∃ m m', Lts.exec (Monitored.step settingZero) .init timerPanics = some m ∧
        m.step settingZero (.caretaker (.pollRun 0 .underWay)) = some m' ∧
        m.caretaker.signals = [] ∧ m'.caretaker.signals = [(0, .sigterm)] :=
      ⟨_, _, rfl, rfl, rfl, rfl⟩
    obtain ⟨m, m', hex, hs, hbefore, hsent⟩ := hex
    have hr := (Lts.run_history hex).snoc _ hs
    obtain ⟨new, hnew, hiff⟩ := killed_for_cause hr _ m _ [] m' rfl hs
    rw [hbefore, hsent, List.nil_append] at hnew
    have hmem : (0, Signal.sigterm) ∈ new := hnew ▸ List.mem_singleton.mpr rfl
    exact ⟨_, m, m', hr, hsent, ((hiff 0).mp hmem).2⟩

end Blahaj
