/-
  File:      Blahaj/Supervisor/LateChecks.lean
  Subject:   CHECKS THAT ARE ANSWERED LATE, after checks that were started behind them.

  A health actor takes no note of when a check was started. Its streak of failures is one in the
  order of processing; in the order in which the checks were started it is one only where no
  failure in it is that of a check started before a check that has succeeded.

  * `Numbered` -- each check is answered once, so that the order of the starts is one of the
    results;
  * `late_failures` -- what the results are, in both orders, when the signal is sent;
  * `late_failures_kill` -- two late failures behind a success.
-/
import Blahaj.Supervisor.Checks

namespace Blahaj

open Streak

variable {timer : TimerCrate}

/-! ## 1. Each check is answered once -/

/-- The checks answered and the checks in flight are numbered apart, in the order in which they
    were started. -/
structure Numbered (rs : List (Nat × Bool)) (s : HealthActor) : Prop where
  once : (rs.map Prod.fst).Nodup
  apart : s.phase.live = true → (rs.map Prod.fst ++ s.checks).Nodup
  fresh : s.phase.live = true → ∀ check ∈ rs.map Prod.fst ++ s.checks, check < s.nextCheck

theorem numbered_new (name : String) (config : Option HealthConfig) (tx : Sender) :
    Numbered [] (.new name config tx) where
  once := .nil
  apart _ := .nil
  fresh _ _ hmem := nomatch hmem

/-- An actor that is not live any more starts and awaits no check. -/
theorem numbered_ended {rs : List (Nat × Bool)} {s : HealthActor}
    (honce : (rs.map Prod.fst).Nodup) (hphase : s.phase.live = false) : Numbered rs s where
  once := honce
  apart h := by rw [hphase] at h; cases h
  fresh h := by rw [hphase] at h; cases h

/-- A check that is answered is in flight no longer. -/
theorem perm_answered (answered : List Nat) {checks : List Nat} {check : Nat}
    (hmem : check ∈ checks) :
    ((answered ++ [check]) ++ checks.erase check).Perm (answered ++ checks) := by
  rw [List.append_assoc]
  exact (List.perm_cons_erase hmem).symm.append_left answered

/-- A result of a check in flight, at an actor that goes on with the others. -/
theorem Numbered.answered {rs : List (Nat × Bool)} {s s' : HealthActor} {check : Nat} {bad : Bool}
    (h : Numbered rs s) (hlive : s.phase.live = true) (hmem : check ∈ s.checks)
    (hothers : s'.phase.live = true →
      s'.checks = s.checks.erase check ∧ s'.nextCheck = s.nextCheck) :
    Numbered (rs ++ [(check, bad)]) s' := by
  have hperm := perm_answered (rs.map Prod.fst) hmem
  have hmap : (rs ++ [(check, bad)]).map Prod.fst = rs.map Prod.fst ++ [check] := by simp
  have hapart := hperm.nodup_iff.mpr (h.apart hlive)
  constructor
  · rw [hmap]
    exact (List.nodup_append.mp hapart).1
  · intro hlive'
    rw [hmap, (hothers hlive').1]
    exact hapart
  · intro hlive' c hc
    rw [hmap, (hothers hlive').1] at hc
    rw [(hothers hlive').2]
    exact h.fresh hlive c (hperm.mem_iff.mp hc)

/-- The new check is numbered behind all the others. -/
theorem Numbered.tick {rs : List (Nat × Bool)} {s : HealthActor} (h : Numbered rs s)
    (hlive : s.phase.live = true) : Numbered rs s.tick.1 := by
  have hassoc : rs.map Prod.fst ++ s.tick.1.checks =
      (rs.map Prod.fst ++ s.checks) ++ [s.nextCheck] := by
    rw [List.append_assoc]
    rfl
  refine ⟨h.once, fun _ => ?_, fun _ check hc => ?_⟩
  · rw [hassoc]
    refine List.nodup_append.mpr ⟨h.apart hlive, by simp, fun c hc c' hc' => ?_⟩
    have hlt := h.fresh hlive c hc
    rw [List.mem_singleton.mp hc']
    omega
  · rw [hassoc] at hc
    show check < s.nextCheck + 1
    rcases List.mem_append.mp hc with hc | hc
    · have hlt := h.fresh hlive check hc
      omega
    · rw [List.mem_singleton.mp hc]
      omega

theorem Numbered.step {config : HealthConfig} {rs : List (Nat × Bool)} {s s' : HealthActor}
    {e : HealthEvent} (htally : Tally config rs s) (h : Numbered rs s)
    (hs : s.step timer e = some s') :
    Numbered (rs ++ (HealthActor.processed (s, e)).toList) s' := by
  have hquiet : ∀ {s'}, Numbered rs s' → HealthActor.processed (s, e) = none →
      Numbered (rs ++ (HealthActor.processed (s, e)).toList) s' := by
    intro s' h' hnone
    rw [hnone, Option.toList_none, List.append_nil]
    exact h'
  have hturned := HealthActor.turned hs
  have hlive := hturned.live
  generalize HealthActor.does timer (s, e) = actions at hturned
  cases hturned with
  | started _ =>
      rcases HealthActor.started_cases htally.checked timer with ⟨-, hstarted⟩ | ⟨-, hstarted⟩
      · rw [hstarted]
        exact hquiet ⟨h.once, fun _ => h.apart hlive, fun _ => h.fresh hlive⟩ rfl
      · rw [hstarted]
        exact hquiet (numbered_ended h.once rfl) rfl
  | stop _ => exact hquiet (numbered_ended h.once rfl) rfl
  | tick _ _ => exact hquiet (h.tick hlive) rfl
  | @checked hphase check hmem receiving answer =>
      obtain ⟨tx, htx⟩ := htally.sender hlive
      have hchecked := HealthActor.checked_cases htally.checked htx receiving check answer
      generalize s.checked receiving check answer = out at hchecked ⊢
      obtain ⟨s', actions⟩ := out
      refine h.answered hlive hmem fun hlive' => ?_
      cases hchecked with
      | success _ => exact ⟨rfl, rfl⟩
      | counted _ _ _ => exact ⟨rfl, rfl⟩
      | gaveUp _ _ hphase' _ =>
          rw [hphase'] at hlive'
          cases receiving <;> cases hlive'
      | overflowed _ _ hphase' _ =>
          rw [hphase'] at hlive'
          cases hlive'

theorem numbered_run {name : String} {config : HealthConfig} {tx : Sender}
    {h : List (HealthActor × HealthEvent)} {s : HealthActor}
    (hr : Lts.Run (HealthActor.step timer) (.new name (some config) tx) h s) :
    Numbered (results h) s := by
  induction hr with
  | start => exact numbered_new name (some config) tx
  | snoc e hr hs ih =>
      rw [results_snoc]
      exact ih.step (tally_run hr) hs

/-! ## 2. The results when the signal is sent -/

/-- The step that gets to the sender completes a streak that covers the grace period. -/
theorem Tally.notifies_covers {config : HealthConfig} {rs : List (Nat × Bool)}
    {s s' : HealthActor} {e : HealthEvent} (h : Tally config rs s) (hs : s.step timer e = some s')
    (hsends : s.notifies e = true) :
    ∃ r, HealthActor.processed (s, e) = some r ∧ 1 ≤ streak Prod.snd (rs ++ [r]) ∧
      config.gracePeriod ≤ config.interval * streak Prod.snd (rs ++ [r]) := by
  have hlive := (HealthActor.turned hs).live
  cases e with
  | checked receiving check answer =>
      simp only [HealthActor.notifies, h.checked] at hsends
      split at hsends
      · rename_i exceeded hex
        rw [Bool.and_eq_true] at hsends
        obtain ⟨hf, rfl⟩ := hsends
        have hgrace := (HealthConfig.exhausted_ok hex).2.mp rfl
        have hstreak : streak Prod.snd (rs ++ [(check, failed answer)]) =
            s.unhealthyCount + 1 := by
          rw [streak_snoc, hf, h.count hlive]
          rfl
        refine ⟨_, rfl, ?_⟩
        rw [hstreak]
        exact ⟨by omega, hgrace⟩
      · cases hsends
  | _ => cases hsends

/-- **The results when the signal is sent.** Let `n` be the least number of intervals, one at
    least, that covers the grace period. Of the checks completed so far, each of them once, the
    last `n` in the order of processing have failed; and so have the last `n` in the order in which
    they were started, if none of the former was started before a check that had succeeded. -/
theorem late_failures {config : HealthConfig} {n : Nat}
    (hn : IsLeast {m : Nat | 1 ≤ m ∧ config.gracePeriod ≤ config.interval * m} n) {name : String}
    {tx : Sender} {h₁ h₂ : List (HealthActor × HealthEvent)} {x : HealthActor × HealthEvent}
    {s : HealthActor}
    (hr : Lts.Run (HealthActor.step timer) (.new name (some config) tx) (h₁ ++ x :: h₂) s)
    (hsends : x.1.notifies x.2 = true) :
    ((results (h₁ ++ [x])).map Prod.fst).Nodup ∧
      ∃ pre last, results (h₁ ++ [x]) = pre ++ last ∧ last.length = n ∧
        (∀ r ∈ last, r.2 = true) ∧
        ((∀ r ∈ last, ∀ r' ∈ pre, r'.2 = false → r'.1 < r.1) →
          ∀ r ∈ latest Prod.fst n (results (h₁ ++ [x])), r.2 = true) := by
  obtain ⟨s', hs⟩ := hr.enabled x (by simp)
  have hrun := hr.before
  have hnumbered := numbered_run (Lts.Run.snoc x.2 hrun hs)
  obtain ⟨r, hprocessed, hone, hgrace⟩ := (tally_run hrun).notifies_covers hs hsends
  have hresults : results (h₁ ++ [x]) = results h₁ ++ [r] := by
    rw [results_snoc, hprocessed]
    rfl
  refine ⟨hnumbered.once, ?_⟩
  rw [hresults]
  obtain ⟨pre, last, hsplit, hlength, hlast⟩ := le_streak.mp (hn.2 ⟨hone, hgrace⟩)
  refine ⟨pre, last, hsplit, hlength, hlast, fun hbelow => ?_⟩
  rw [hsplit, ← hlength]
  exact latest_of_last hlast hbelow

/-- Four checks are started; the last one succeeds, and then the other three are answered. -/
def recovered : List HealthEvent :=
  [.started, .tick, .tick, .tick, .tick, .checked true 3 (.ok ⟨200, "200 OK"⟩),
    .checked true 0 (.ok ⟨503, "503 Service Unavailable"⟩),
    .checked true 1 (.ok ⟨503, "503 Service Unavailable"⟩)]

/-- The third of them. -/
def lastAnswer : HealthEvent := .checked true 2 (.ok ⟨503, "503 Service Unavailable"⟩)

/-- The run of a health actor that sends the signal at the last answer. -/
theorem recovered_run : ∃ h₁ x s,
    Lts.Run (HealthActor.step .nonZero) (.new "a" (some everySecond) ⟨.unhealthy 0⟩)
        (h₁ ++ x :: []) s ∧
      x.1.notifies x.2 = true ∧ s.phase = .stopped ∧
      results (h₁ ++ [x]) = [(3, false), (0, true), (1, true), (2, true)] := by
  have hex : ∃ s₁ s₂, Lts.exec (HealthActor.step .nonZero)
      (.new "a" (some everySecond) ⟨.unhealthy 0⟩) recovered = some s₁ ∧
      s₁.step .nonZero lastAnswer = some s₂ ∧ s₁.notifies lastAnswer = true ∧
      s₂.phase = .stopped ∧
      results (Lts.history (HealthActor.step .nonZero) (.new "a" (some everySecond) ⟨.unhealthy 0⟩)
        recovered ++ [(s₁, lastAnswer)]) = [(3, false), (0, true), (1, true), (2, true)] :=
    ⟨_, _, rfl, rfl, rfl, rfl, rfl⟩
  obtain ⟨s₁, s₂, hex, hs, hsends, hphase, hresults⟩ := hex
  exact ⟨_, (s₁, lastAnswer), s₂, .snoc _ (Lts.run_history hex) hs, hsends, hphase, hresults⟩

theorem late_failures_recovered :
    ∃ h₁ x, ((results (h₁ ++ [x])).map Prod.fst).Nodup ∧
      results (h₁ ++ [x]) = [(3, false), (0, true), (1, true), (2, true)] ∧
      ∃ pre last, results (h₁ ++ [x]) = pre ++ last ∧ last.length = 3 ∧
        (∀ r ∈ last, r.2 = true) ∧
        ((∀ r ∈ last, ∀ r' ∈ pre, r'.2 = false → r'.1 < r.1) →
          ∀ r ∈ latest Prod.fst 3 (results (h₁ ++ [x])), r.2 = true) := by
  obtain ⟨h₁, x, s, hr, hsends, -, hresults⟩ := recovered_run
  obtain ⟨hnodup, hlast⟩ := late_failures everySecond_least hr hsends
  exact ⟨h₁, x, hnodup, hresults, hlast⟩

/-- **Late failures kill a program that has recovered**: three failures cover the grace period, and
    one of the three checks that were started last has succeeded. -/
theorem late_failures_kill :
    IsLeast {m : Nat | 1 ≤ m ∧ everySecond.gracePeriod ≤ everySecond.interval * m} 3 ∧
      ∃ h₁ x s,
        Lts.Run (HealthActor.step .nonZero) (.new "a" (some everySecond) ⟨.unhealthy 0⟩)
          (h₁ ++ x :: []) s ∧
        x.1.notifies x.2 = true ∧ s.phase = .stopped ∧
        ¬ ∀ r ∈ latest Prod.fst 3 (results (h₁ ++ [x])), r.2 = true := by
  obtain ⟨h₁, x, s, hr, hsends, hphase, hresults⟩ := recovered_run
  refine ⟨everySecond_least, h₁, x, s, hr, hsends, hphase, ?_⟩
  rw [hresults]
  decide

end Blahaj
