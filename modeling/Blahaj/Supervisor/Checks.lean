/-
  File:      Blahaj/Supervisor/Checks.lean
  Subject:   THE FAILURES A HEALTH ACTOR COUNTS, over every sequence of results.

  A health actor on its own, its checks started and answered in any order. It counts failures in
  the order in which it processes them; a success sets the count to zero, and the count times the
  interval is compared with the grace period.

  * `HealthActor.step`, `HealthActor.does` -- one event, and what it does to the caretaker;
  * `HealthActor.checked_cases` -- everything a result does;
  * `Tally`, `tally_run` -- the count is the streak of failures among the results so far, and no
    shorter streak has exhausted the grace period;
  * `kill_threshold` -- the failure that completes the least number of intervals covering the
    grace period is the one for which the actor sends its signal and stops;
  * `count_fits` -- when the arithmetic of the count never overflows: no check is made at all, or
    the grace period is over before.
-/
import Blahaj.Lib.Lts
import Blahaj.Lib.Streak
import Blahaj.Supervisor.Health
import Mathlib.Order.Bounds.Defs

namespace Blahaj

open Streak

variable {timer : TimerCrate}

/-! ## 1. A health actor alone -/

/-- What happens to a health actor. -/
inductive HealthEvent where
  | started
  /-- the stop message is handled -/
  | stop
  | tick
  /-- a check is answered; `receiving` while the `WaitAbortFut` holds the receiver -/
  | checked (receiving : Bool) (check : Nat) (answer : Except String StatusCode)

def HealthActor.turn (timer : TimerCrate) (self : HealthActor) :
    HealthEvent → Option (HealthActor × List HealthAction)
  | .started => if self.phase == .created then some (self.started timer) else none
  | .stop => if self.phase == .running then some (self.leave .stopped) else none
  | .tick => if self.phase == .running && self.config.isSome then some self.tick else none
  | .checked receiving check answer =>
    if self.phase == .running && self.checks.contains check then
      some (self.checked receiving check answer)
    else none

/-- One step of a health actor. -/
def HealthActor.step (timer : TimerCrate) (self : HealthActor) (e : HealthEvent) :
    Option HealthActor :=
  (self.turn timer e).map Prod.fst

/-- What a step does to the caretaker, in order. -/
def HealthActor.does (timer : TimerCrate) : HealthActor × HealthEvent → List HealthAction
  | (self, e) => ((self.turn timer e).map Prod.snd).getD []

/-- The check has failed: it could not be sent or was not answered in time, or the status is not
    one of success. -/
def failed : Except String StatusCode → Bool
  | .error _ => true
  | .ok status => !status.isSuccess

/-- The result a step processes: the check, by its number, and whether it has failed. -/
def HealthActor.processed : HealthActor × HealthEvent → Option (Nat × Bool)
  | (_, .checked _ check answer) => some (check, failed answer)
  | _ => none

/-- The results processed in a run, in order. -/
def results (h : List (HealthActor × HealthEvent)) : List (Nat × Bool) :=
  h.filterMap HealthActor.processed

theorem results_snoc (h : List (HealthActor × HealthEvent)) (x : HealthActor × HealthEvent) :
    results (h ++ [x]) = results h ++ (HealthActor.processed x).toList := by
  unfold results
  rw [List.filterMap_append]
  cases hx : HealthActor.processed x with
  | none => simp [hx]
  | some r => simp [hx]

/-- A result comes while the receiver is there. -/
def HealthEvent.received : HealthEvent → Prop
  | .checked receiving _ _ => receiving = true
  | _ => True

/-- The step processes a result, and with it the sender of the unhealthy signal is used (or lost
    in a panic). -/
def HealthActor.sends (timer : TimerCrate) (x : HealthActor × HealthEvent) : Bool :=
  (HealthActor.processed x).isSome && (HealthActor.does timer x).contains .signal

/-- The step gets to the sender: a failure has exhausted the grace period, and
    `stop_tx.take().expect(..).send(()).expect(..)` is reached. -/
def HealthActor.notifies (self : HealthActor) : HealthEvent → Bool
  | .checked _ _ answer => match self.config with
    | some config => match config.exhausted (self.unhealthyCount + 1) with
      | .ok exceeded => failed answer && exceeded
      | .error _ => false
    | none => false
  | _ => false

/-- An actor that has not stopped, one way or the other. -/
def HealthPhase.live : HealthPhase → Bool
  | .created | .running => true
  | _ => false

/-! ## 2. What a result does -/

theorem checkResult_failed {answer : Except String StatusCode} (h : failed answer = true) :
    ∃ e, checkResult answer = .error e := by
  cases answer with
  | error source => exact ⟨_, rfl⟩
  | ok status =>
      have hs : status.isSuccess = false := by simpa [failed] using h
      exact ⟨.status status, by simp [checkResult, hs]⟩

theorem checkResult_passed {answer : Except String StatusCode} (h : failed answer = false) :
    checkResult answer = .ok () := by
  cases answer with
  | error source => cases h
  | ok status =>
      have hs : status.isSuccess = true := by simpa [failed] using h
      simp [checkResult, hs]

/-- **Everything a result does** to an actor that has its sender: it ends the streak of failures,
    is counted, exhausts the grace period, or overflows. -/
inductive HealthActor.Checked (config : HealthConfig) (s : HealthActor) (receiving : Bool)
    (check : Nat) (answer : Except String StatusCode) : HealthActor → List HealthAction → Prop where
  | success (hf : failed answer = false) :
      Checked config s receiving check answer
        { s with checks := s.checks.erase check, unhealthyCount := 0 } [.report .healthy]
  | counted (hf : failed answer = true)
      (hex : config.exhausted (s.unhealthyCount + 1) = .ok false) (log : List Custom) :
      Checked config s receiving check answer
        { s with
          checks := s.checks.erase check
          unhealthyCount := s.unhealthyCount + 1
          log := log }
        [.report .unhealthy]
  | gaveUp (hf : failed answer = true)
      (hex : config.exhausted (s.unhealthyCount + 1) = .ok true) {s' : HealthActor}
      (hphase : s'.phase = if receiving then .stopped else .panicked .notify)
      (hconfig : s'.config = s.config) :
      Checked config s receiving check answer s' [.report .unhealthy, .signal]
  | overflowed (hf : failed answer = true) {panic : HealthPanic}
      (hex : config.exhausted (s.unhealthyCount + 1) = .error panic) {s' : HealthActor}
      (hphase : s'.phase = .panicked panic) (hconfig : s'.config = s.config) :
      Checked config s receiving check answer s' [.report .unhealthy, .signal]

theorem HealthActor.checked_cases {config : HealthConfig} {s : HealthActor} {tx : Sender}
    (hconfig : s.config = some config) (htx : s.stopTx = some tx) (receiving : Bool) (check : Nat)
    (answer : Except String StatusCode) :
    s.Checked config receiving check answer (s.checked receiving check answer).1
      (s.checked receiving check answer).2 := by
  obtain ⟨name, config', stopTx, count, phase, checks, nextCheck, log⟩ := s
  obtain rfl : config' = some config := hconfig
  obtain rfl : stopTx = some tx := htx
  unfold HealthActor.checked
  cases hf : failed answer with
  | false =>
      simp only [checkResult_passed hf]
      exact .success hf
  | true =>
      obtain ⟨e, he⟩ := checkResult_failed hf
      cases hex : config.exhausted (count + 1) with
      | error panic =>
          simp only [he, hex]
          exact .overflowed hf hex rfl rfl
      | ok exceeded =>
          cases exceeded with
          | false =>
              simp only [he, hex]
              exact .counted hf hex _
          | true =>
              simp only [he, hex]
              exact .gaveUp hf hex rfl rfl

/-- What `started` makes of an actor with a check. -/
theorem HealthActor.started_cases {config : HealthConfig} {s : HealthActor}
    (hconfig : s.config = some config) (timer : TimerCrate) :
    (timer.takes config.interval = true ∧
        s.started timer = ({ s with phase := .running }, [])) ∨
      (timer.takes config.interval = false ∧ s.started timer = s.leave (.panicked .timer)) := by
  simp only [HealthActor.started, hconfig]
  cases timer.takes config.interval with
  | true => exact Or.inl ⟨rfl, rfl⟩
  | false => exact Or.inr ⟨rfl, rfl⟩

/-- `started` gets to no sender. -/
theorem HealthActor.started_phase (timer : TimerCrate) (s : HealthActor) :
    (s.started timer).1.phase = .running ∨ (s.started timer).1.phase = .panicked .timer := by
  unfold HealthActor.started
  split
  · split
    · exact Or.inl rfl
    · exact Or.inr rfl
  · exact Or.inl rfl

/-- **Everything a step of a health actor is.** -/
inductive HealthActor.Turned (timer : TimerCrate) (s : HealthActor) :
    HealthEvent → HealthActor → List HealthAction → Prop where
  | started (h : s.phase = .created) :
      Turned timer s .started (s.started timer).1 (s.started timer).2
  | stop (h : s.phase = .running) : Turned timer s .stop (s.leave .stopped).1 (s.leave .stopped).2
  | tick (h : s.phase = .running) (hc : s.config.isSome) :
      Turned timer s .tick s.tick.1 s.tick.2
  | checked (h : s.phase = .running) {check : Nat} (hmem : check ∈ s.checks) (receiving : Bool)
      (answer : Except String StatusCode) :
      Turned timer s (.checked receiving check answer) (s.checked receiving check answer).1
        (s.checked receiving check answer).2

theorem HealthActor.turned {s s' : HealthActor} {e : HealthEvent}
    (hs : s.step timer e = some s') : s.Turned timer e s' (HealthActor.does timer (s, e)) := by
  obtain ⟨⟨s₁, actions⟩, hturn, rfl⟩ := Option.map_eq_some_iff.mp hs
  have hdoes : HealthActor.does timer (s, e) = actions := by simp [HealthActor.does, hturn]
  rw [hdoes]
  cases e with
  | started =>
      obtain ⟨hphase, hout⟩ := Option.ite_none_right_eq_some.mp hturn
      obtain ⟨rfl, rfl⟩ := Prod.ext_iff.mp (Option.some.inj hout)
      exact .started (eq_of_beq hphase)
  | stop =>
      obtain ⟨hphase, hout⟩ := Option.ite_none_right_eq_some.mp hturn
      obtain ⟨rfl, rfl⟩ := Prod.ext_iff.mp (Option.some.inj hout)
      exact .stop (eq_of_beq hphase)
  | tick =>
      obtain ⟨hen, hout⟩ := Option.ite_none_right_eq_some.mp hturn
      obtain ⟨rfl, rfl⟩ := Prod.ext_iff.mp (Option.some.inj hout)
      obtain ⟨hphase, hconfig⟩ := Bool.and_eq_true_iff.mp hen
      exact .tick (eq_of_beq hphase) hconfig
  | checked receiving check answer =>
      obtain ⟨hen, hout⟩ := Option.ite_none_right_eq_some.mp hturn
      obtain ⟨rfl, rfl⟩ := Prod.ext_iff.mp (Option.some.inj hout)
      obtain ⟨hphase, hmem⟩ := Bool.and_eq_true_iff.mp hen
      exact .checked (eq_of_beq hphase) (List.contains_iff_mem.mp hmem) receiving answer

/-- A step is taken by an actor that is live. -/
theorem HealthActor.Turned.live {s s' : HealthActor} {e : HealthEvent}
    {actions : List HealthAction} (h : s.Turned timer e s' actions) : s.phase.live = true := by
  cases h with
  | started hphase => rw [hphase]; rfl
  | stop hphase => rw [hphase]; rfl
  | tick hphase _ => rw [hphase]; rfl
  | checked hphase _ _ _ => rw [hphase]; rfl

/-! ## 3. The count -/

/-- The arithmetic of a count fits its types. -/
def HealthConfig.fits (self : HealthConfig) (count : Nat) : Prop :=
  count < countEnd ∧ self.interval * count < durationEnd

theorem HealthConfig.exhausted_ok {config : HealthConfig} {count : Nat} {exceeded : Bool}
    (h : config.exhausted count = .ok exceeded) :
    config.fits count ∧ (exceeded = true ↔ config.gracePeriod ≤ config.interval * count) := by
  unfold HealthConfig.exhausted at h
  split at h
  · cases h
  · split at h
    · cases h
    · rename_i hcount hinterval
      obtain rfl := Except.ok.inj h
      exact ⟨⟨Nat.lt_of_not_le hcount, Nat.lt_of_not_le hinterval⟩, decide_eq_true_iff⟩

theorem HealthConfig.exhausted_error {config : HealthConfig} {count : Nat} {panic : HealthPanic}
    (h : config.exhausted count = .error panic) :
    ¬ config.fits count ∧ (panic = .count ∨ panic = .interval) := by
  unfold HealthConfig.exhausted at h
  split at h
  · rename_i hcount
    obtain rfl := Except.error.inj h
    exact ⟨fun hfits => absurd hfits.1 (Nat.not_lt.mpr hcount), Or.inl rfl⟩
  · split at h
    · rename_i hinterval
      obtain rfl := Except.error.inj h
      exact ⟨fun hfits => absurd hfits.2 (Nat.not_lt.mpr hinterval), Or.inr rfl⟩
    · cases h

/-- What fits does so for every smaller count. -/
theorem HealthConfig.fits_mono {config : HealthConfig} {m n : Nat} (hmn : m ≤ n)
    (h : config.fits n) : config.fits m :=
  ⟨Nat.lt_of_le_of_lt hmn h.1, Nat.lt_of_le_of_lt (Nat.mul_le_mul_left _ hmn) h.2⟩

/-- The phases behind the sender: stopped, or panicked in one of its two `expect`s. -/
def HealthPhase.notified : HealthPhase → Bool
  | .stopped | .panicked .taken | .panicked .notify => true
  | _ => false

theorem HealthPhase.notified_ended {phase : HealthPhase} (h : phase.notified = true) :
    phase.live = false := by
  cases phase with
  | created => cases h
  | running => cases h
  | _ => rfl

/-- **The step that gets to the sender**, by what becomes of the actor in it. -/
theorem HealthActor.notifies_iff {s s' : HealthActor} {e : HealthEvent}
    (hs : s.step timer e = some s') :
    s.notifies e = true ↔ e ≠ .stop ∧ s'.phase.notified = true := by
  have hturned := HealthActor.turned hs
  generalize HealthActor.does timer (s, e) = actions at hturned
  cases hturned with
  | started _ =>
      rcases s.started_phase timer with hphase | hphase
      · simp [HealthActor.notifies, hphase, HealthPhase.notified]
      · simp [HealthActor.notifies, hphase, HealthPhase.notified]
  | stop _ => simp [HealthActor.notifies]
  | tick hphase _ => simp [HealthActor.notifies, HealthActor.tick, hphase, HealthPhase.notified]
  | @checked hphase check hmem receiving answer =>
      obtain ⟨name, config, stopTx, count, phase, checks, nextCheck, log⟩ := s
      obtain rfl : phase = .running := hphase
      cases config with
      | none => simp [HealthActor.notifies, HealthActor.checked, HealthPhase.notified]
      | some config =>
          cases hf : failed answer with
          | false =>
              have hpassed := checkResult_passed hf
              simp only [HealthActor.notifies, HealthActor.checked, hf, hpassed]
              cases config.exhausted (count + 1) <;> simp [HealthPhase.notified]
          | true =>
              obtain ⟨err, herr⟩ := checkResult_failed hf
              simp only [HealthActor.notifies, HealthActor.checked, hf, herr]
              cases hex : config.exhausted (count + 1) with
              | error panic =>
                  -- the arithmetic overflows before the sender is taken
                  rcases (HealthConfig.exhausted_error hex).2 with rfl | rfl
                  · simp [HealthActor.leave, HealthPhase.notified]
                  · simp [HealthActor.leave, HealthPhase.notified]
              | ok exceeded =>
                  cases exceeded with
                  | false => simp [HealthPhase.notified]
                  | true =>
                      cases stopTx with
                      | none => simp [HealthActor.leave, HealthPhase.notified]
                      | some _ => cases receiving <;> simp [HealthActor.leave, HealthPhase.notified]

/-- **The count of a health actor**, after these results: the streak of failures among them, none
    of which has exhausted the grace period so far. -/
structure Tally (config : HealthConfig) (rs : List (Nat × Bool)) (s : HealthActor) : Prop where
  checked : s.config = some config
  sender : s.phase.live = true → ∃ tx, s.stopTx = some tx
  count : s.phase.live = true → s.unhealthyCount = streak Prod.snd rs
  below : s.phase.live = true → ∀ m, 1 ≤ m → m ≤ s.unhealthyCount →
    config.exhausted m = .ok false

theorem tally_new (name : String) (config : HealthConfig) (tx : Sender) :
    Tally config [] (.new name (some config) tx) where
  checked := rfl
  sender _ := ⟨tx, rfl⟩
  count _ := rfl
  below _ m hm hle := by
    have hnone : m ≤ 0 := hle
    omega

/-- An actor that is not live any more has nothing left to count. -/
theorem tally_ended {config : HealthConfig} {rs : List (Nat × Bool)} {s : HealthActor}
    (hconfig : s.config = some config) (hphase : s.phase.live = false) : Tally config rs s where
  checked := hconfig
  sender h := by rw [hphase] at h; cases h
  count h := by rw [hphase] at h; cases h
  below h := by rw [hphase] at h; cases h

/-- One more result. -/
theorem Tally.answered {config : HealthConfig} {rs : List (Nat × Bool)} {s : HealthActor}
    (h : Tally config rs s) (hlive : s.phase.live = true) (receiving : Bool) (check : Nat)
    (answer : Except String StatusCode) :
    Tally config (rs ++ [(check, failed answer)]) (s.checked receiving check answer).1 := by
  obtain ⟨tx, htx⟩ := h.sender hlive
  have hchecked := HealthActor.checked_cases h.checked htx receiving check answer
  generalize s.checked receiving check answer = out at hchecked ⊢
  obtain ⟨s', actions⟩ := out
  cases hchecked with
  | success hf =>
      refine ⟨h.checked, h.sender, fun _ => ?_, fun _ m hm hle => ?_⟩
      · rw [streak_snoc, hf]
        rfl
      · have hnone : m ≤ 0 := hle
        omega
  | counted hf hex log =>
      refine ⟨h.checked, h.sender, fun _ => ?_, fun _ m hm hle => ?_⟩
      · rw [streak_snoc, hf, ← h.count hlive]
        rfl
      · rcases Nat.lt_or_eq_of_le hle with hlt | heq
        · exact h.below hlive m hm (Nat.le_of_lt_succ hlt)
        · rw [heq]
          exact hex
  | gaveUp _ _ hphase' hconfig' =>
      refine tally_ended (hconfig'.trans h.checked) ?_
      rw [hphase']
      cases receiving <;> rfl
  | overflowed _ _ hphase' hconfig' =>
      refine tally_ended (hconfig'.trans h.checked) ?_
      rw [hphase']
      rfl

theorem Tally.step {config : HealthConfig} {rs : List (Nat × Bool)} {s s' : HealthActor}
    {e : HealthEvent} (h : Tally config rs s) (hs : s.step timer e = some s') :
    Tally config (rs ++ (HealthActor.processed (s, e)).toList) s' := by
  have hquiet : ∀ {s'}, Tally config rs s' → HealthActor.processed (s, e) = none →
      Tally config (rs ++ (HealthActor.processed (s, e)).toList) s' := by
    intro s' h' hnone
    rw [hnone, Option.toList_none, List.append_nil]
    exact h'
  have hturned := HealthActor.turned hs
  have hlive := hturned.live
  generalize HealthActor.does timer (s, e) = actions at hturned
  cases hturned with
  | started _ =>
      refine hquiet ?_ rfl
      rcases HealthActor.started_cases h.checked timer with ⟨-, hstarted⟩ | ⟨-, hstarted⟩
      · rw [hstarted]
        exact ⟨h.checked, fun _ => h.sender hlive, fun _ => h.count hlive, fun _ => h.below hlive⟩
      · rw [hstarted]
        exact tally_ended h.checked rfl
  | stop _ => exact hquiet (tally_ended h.checked rfl) rfl
  | tick _ _ => exact hquiet ⟨h.checked, h.sender, h.count, h.below⟩ rfl
  | checked _ _ receiving answer => exact h.answered hlive receiving _ answer

theorem tally_run {name : String} {config : HealthConfig} {tx : Sender}
    {h : List (HealthActor × HealthEvent)} {s : HealthActor}
    (hr : Lts.Run (HealthActor.step timer) (.new name (some config) tx) h s) :
    Tally config (results h) s := by
  induction hr with
  | start => exact tally_new name config tx
  | snoc e _ hs ih =>
      rw [results_snoc]
      exact ih.step hs

/-! ## 4. The threshold -/

/-- Up to the threshold nothing overflows, and a count is over exactly from the threshold on. -/
theorem exhausted_threshold {config : HealthConfig} {n count : Nat}
    (hn : IsLeast {m : Nat | 1 ≤ m ∧ config.gracePeriod ≤ config.interval * m} n)
    (hfits : config.fits n)
    (hbelow : ∀ m, 1 ≤ m → m ≤ count → config.exhausted m = .ok false) :
    config.exhausted (count + 1) = .ok (decide (n ≤ count + 1)) := by
  obtain ⟨⟨hone, hgrace⟩, hleast⟩ := hn
  have hlt : count < n := by
    by_contra hle
    have hover := (HealthConfig.exhausted_ok (hbelow n hone (by omega))).2
    cases hover.mpr hgrace
  cases hex : config.exhausted (count + 1) with
  | error panic =>
      exact absurd (HealthConfig.fits_mono hlt hfits) (HealthConfig.exhausted_error hex).1
  | ok exceeded =>
      have hover := (HealthConfig.exhausted_ok hex).2
      have hiff : exceeded = true ↔ n ≤ count + 1 := by
        rw [hover]
        constructor
        · exact fun hle => hleast ⟨by omega, hle⟩
        · exact fun hle => hgrace.trans (Nat.mul_le_mul_left _ hle)
      cases exceeded with
      | true => simp [hiff.mp rfl]
      | false =>
          have hnot : ¬ n ≤ count + 1 := fun hle => nomatch hiff.mpr hle
          simp [hnot]

/-- **What a result does, by the streak of failures it completes**: what the caretaker is told, and
    what becomes of the actor. -/
theorem Tally.does_checked {config : HealthConfig} {rs : List (Nat × Bool)} {s s' : HealthActor}
    {e : HealthEvent} {r : Nat × Bool} {n : Nat} (h : Tally config rs s)
    (hn : IsLeast {m : Nat | 1 ≤ m ∧ config.gracePeriod ≤ config.interval * m} n)
    (hfits : config.fits n) (hs : s.step timer e = some s')
    (hr : HealthActor.processed (s, e) = some r) :
    HealthActor.does timer (s, e) = (.report (if r.2 then .unhealthy else .healthy) ::
      if n ≤ streak Prod.snd (rs ++ [r]) then [.signal] else []) ∧
    (s'.phase.notified = true ↔ n ≤ streak Prod.snd (rs ++ [r])) ∧
    (e.received → s'.phase =
      if n ≤ streak Prod.snd (rs ++ [r]) then .stopped else .running) := by
  have hturned := HealthActor.turned hs
  have hlive := hturned.live
  generalize HealthActor.does timer (s, e) = actions at hturned
  cases hturned with
  | started _ => cases hr
  | stop _ => cases hr
  | tick _ _ => cases hr
  | @checked hphase check hmem receiving answer =>
      obtain rfl := Option.some.inj hr
      obtain ⟨tx, htx⟩ := h.sender hlive
      have hex := exhausted_threshold hn hfits (h.below hlive)
      rw [h.count hlive] at hex
      have hchecked := HealthActor.checked_cases h.checked htx receiving check answer
      generalize s.checked receiving check answer = out at hchecked
      obtain ⟨s', actions⟩ := out
      rw [streak_snoc]
      cases hchecked with
      | success hf =>
          have hpos : ¬ n ≤ 0 := by
            have hone := hn.1.1
            omega
          simp [hf, hpos, hphase, HealthPhase.notified]
      | counted hf hex' _ =>
          rw [h.count hlive, hex] at hex'
          have hnot := of_decide_eq_false (Except.ok.inj hex')
          simp [hf, hnot, hphase, HealthPhase.notified]
      | gaveUp hf hex' hphase' _ =>
          rw [h.count hlive, hex] at hex'
          have hle := of_decide_eq_true (Except.ok.inj hex')
          have hphase' : s'.phase = if receiving then .stopped else .panicked .notify := hphase'
          refine ⟨by simp [hf, hle], ?_, fun hreceived => ?_⟩
          · cases receiving <;> simp [hf, hle, hphase', HealthPhase.notified]
          · obtain rfl : receiving = true := hreceived
            simp [hf, hle, hphase']
      | overflowed hf hex' _ _ =>
          rw [h.count hlive, hex] at hex'
          cases hex'

/-- A step that processes no result does nothing to the caretaker, but the stop drops the sender,
    and so does a `started` with an interval that the timer does not take. -/
theorem Tally.does_nothing {config : HealthConfig} {rs : List (Nat × Bool)} {s s' : HealthActor}
    {e : HealthEvent} (h : Tally config rs s) (hs : s.step timer e = some s')
    (hr : HealthActor.processed (s, e) = none) :
    HealthActor.does timer (s, e) = [] ∨ HealthActor.does timer (s, e) = [.signal] ∧
      (e = .stop ∨ e = .started ∧ timer.takes config.interval = false) := by
  have hturned := HealthActor.turned hs
  obtain ⟨tx, htx⟩ := h.sender hturned.live
  have hleaves : ∀ phase, (s.leave phase).2 = [.signal] := fun phase => by
    simp [HealthActor.leave, htx]
  generalize HealthActor.does timer (s, e) = actions at hturned
  cases hturned with
  | started _ =>
      rcases HealthActor.started_cases h.checked timer with ⟨-, hstarted⟩ | ⟨hrefused, hstarted⟩
      · exact Or.inl (by rw [hstarted])
      · exact Or.inr ⟨by rw [hstarted, hleaves], Or.inr ⟨rfl, hrefused⟩⟩
  | stop _ => exact Or.inr ⟨hleaves _, Or.inl rfl⟩
  | tick _ _ => exact Or.inl rfl
  | checked _ _ _ _ => cases hr

/-- The actor that has used its sender is not live any more. -/
theorem Tally.sends_ends {config : HealthConfig} {rs : List (Nat × Bool)} {s s' : HealthActor}
    {e : HealthEvent} (h : Tally config rs s) (hs : s.step timer e = some s')
    (hsends : HealthActor.sends timer (s, e) = true) : s'.phase.live = false := by
  unfold HealthActor.sends at hsends
  rw [Bool.and_eq_true] at hsends
  obtain ⟨hprocessed, hsignal⟩ := hsends
  have hturned := HealthActor.turned hs
  have hlive := hturned.live
  generalize HealthActor.does timer (s, e) = actions at hturned hsignal
  cases hturned with
  | started _ => cases hprocessed
  | stop _ => cases hprocessed
  | tick _ _ => cases hprocessed
  | @checked hphase check hmem receiving answer =>
      obtain ⟨tx, htx⟩ := h.sender hlive
      have hchecked := HealthActor.checked_cases h.checked htx receiving check answer
      generalize s.checked receiving check answer = out at hchecked hsignal ⊢
      obtain ⟨s', actions⟩ := out
      cases hchecked with
      | success _ => simp at hsignal
      | counted _ _ _ => simp at hsignal
      | gaveUp _ _ hphase' _ =>
          rw [hphase']
          cases receiving <;> rfl
      | overflowed _ _ hphase' _ =>
          rw [hphase']
          rfl

/-- The sender is used at most once in a run. -/
theorem sends_once {name : String} {config : HealthConfig} {tx : Sender}
    {h : List (HealthActor × HealthEvent)} {s : HealthActor}
    (hr : Lts.Run (HealthActor.step timer) (.new name (some config) tx) h s) :
    h.countP (HealthActor.sends timer) ≤ 1 := by
  refine (hr.once (P := fun s => s.phase.live = true)
    (c := fun s e => HealthActor.sends timer (s, e))
    (fun s e s' hreach hs hsends => ?_) fun s e s' _ hs _ => (HealthActor.turned hs).live).1
  obtain ⟨_, hrun⟩ := hreach
  refine ⟨(HealthActor.turned hs).live, ?_⟩
  rw [(tally_run hrun).sends_ends hs hsends]
  decide

/-- **The kill threshold is exact.** Let `n` be the least number of intervals, one at least, that
    covers the grace period. In every run each result reports the health it found, once; it gets to
    the sender of the unhealthy signal exactly if it completes `n` failures in a row, in the order
    in which they are processed, and while the receiver is there the signal is sent then and the
    actor stops, and goes on after every other result. No other step reports, and none drops the
    sender but the stop, or a `started` whose interval the timer does not take; and the sender is
    used at most once. -/
theorem kill_threshold {config : HealthConfig} {n : Nat}
    (hn : IsLeast {m : Nat | 1 ≤ m ∧ config.gracePeriod ≤ config.interval * m} n)
    (hfits : config.fits n) {name : String} {tx : Sender} {h : List (HealthActor × HealthEvent)}
    {s : HealthActor} (hr : Lts.Run (HealthActor.step timer) (.new name (some config) tx) h s) :
    (∀ h₁ x h₂ r, h = h₁ ++ x :: h₂ → HealthActor.processed x = some r →
      HealthActor.does timer x = (.report (if r.2 then .unhealthy else .healthy) ::
        if n ≤ streak Prod.snd (results h₁ ++ [r]) then [.signal] else []) ∧
      (x.1.notifies x.2 = true ↔ n ≤ streak Prod.snd (results h₁ ++ [r])) ∧
      (x.2.received → ∀ s', x.1.step timer x.2 = some s' →
        s'.phase = if n ≤ streak Prod.snd (results h₁ ++ [r]) then .stopped else .running)) ∧
    (∀ x ∈ h, HealthActor.processed x = none →
      HealthActor.does timer x = [] ∨ HealthActor.does timer x = [.signal] ∧
        (x.2 = .stop ∨ x.2 = .started ∧ timer.takes config.interval = false)) ∧
    h.countP (HealthActor.sends timer) ≤ 1 := by
  refine ⟨fun h₁ x h₂ r hh hprocessed => ?_, fun x hx hprocessed => ?_, sends_once hr⟩
  · subst hh
    obtain ⟨s₁, e⟩ := x
    obtain ⟨s', hs⟩ := hr.enabled (s₁, e) (by simp)
    obtain ⟨hdoes, hnotified, hphase⟩ :=
      (tally_run hr.before).does_checked hn hfits hs hprocessed
    refine ⟨hdoes, ?_, fun hreceived s'' hs'' => ?_⟩
    · have hstop : e ≠ .stop := by
        rintro rfl
        cases hprocessed
      rw [HealthActor.notifies_iff hs, ← hnotified]
      exact and_iff_right hstop
    · obtain rfl := Option.some.inj (hs.symm.trans hs'')
      exact hphase hreceived
  · obtain ⟨h₁, h₂, rfl⟩ := List.append_of_mem hx
    obtain ⟨s', hs⟩ := hr.enabled x hx
    exact (tally_run hr.before).does_nothing hs hprocessed

/-- A check every second, and a grace period of two and a half: three failures. -/
def everySecond : HealthConfig := ⟨⟨.http, [], ⟨['/'], none⟩⟩, 1000000000, 2500000000⟩

theorem everySecond_least :
    IsLeast {m : Nat | 1 ≤ m ∧ everySecond.gracePeriod ≤ everySecond.interval * m} 3 := by
  refine ⟨⟨by decide, by decide⟩, fun m hm => ?_⟩
  have hgrace : 2500000000 ≤ 1000000000 * m := hm.2
  omega

/-- A failure, a success, and three failures, of checks that overlap. -/
def threeFailures : List HealthEvent :=
  [.started, .tick, .tick, .checked true 0 (.error "timeout"), .checked true 1 (.ok ⟨200, "OK"⟩),
    .tick, .tick, .tick, .checked true 3 (.error "timeout"),
    .checked true 2 (.ok ⟨503, "Service Unavailable"⟩), .checked true 4 (.error "timeout")]

theorem kill_threshold_threeFailures :
    ∃ h s, Lts.Run (HealthActor.step .nonZero) (.new "a" (some everySecond) ⟨.unhealthy 0⟩) h s ∧
      s.phase = .stopped ∧ (results h).map Prod.snd = [true, false, true, true, true] ∧
      (∀ h₁ x h₂ r, h = h₁ ++ x :: h₂ → HealthActor.processed x = some r →
        HealthActor.does .nonZero x = (.report (if r.2 then .unhealthy else .healthy) ::
          if 3 ≤ streak Prod.snd (results h₁ ++ [r]) then [.signal] else []) ∧
        (x.1.notifies x.2 = true ↔ 3 ≤ streak Prod.snd (results h₁ ++ [r])) ∧
        (x.2.received → ∀ s', x.1.step .nonZero x.2 = some s' →
          s'.phase = if 3 ≤ streak Prod.snd (results h₁ ++ [r]) then .stopped else .running)) ∧
      h.countP (HealthActor.sends .nonZero) ≤ 1 := by
  have hex : ∃ s, Lts.exec (HealthActor.step .nonZero)
      (.new "a" (some everySecond) ⟨.unhealthy 0⟩) threeFailures = some s ∧ s.phase = .stopped ∧
      (results (Lts.history (HealthActor.step .nonZero)
        (.new "a" (some everySecond) ⟨.unhealthy 0⟩) threeFailures)).map Prod.snd =
          [true, false, true, true, true] := ⟨_, rfl, rfl, rfl⟩
  obtain ⟨s, hex, hphase, hresults⟩ := hex
  have hr := Lts.run_history hex
  obtain ⟨hall, -, honce⟩ := kill_threshold everySecond_least ⟨by decide, by decide⟩ hr
  exact ⟨_, s, hr, hphase, hresults, hall, honce⟩

/-! ## 5. Overflow -/

/-- A run of failures from the start: of any length, unless the arithmetic overflows before. -/
theorem failures_run (name : String) (tx : Sender) {config : HealthConfig}
    (htakes : timer.takes config.interval = true)
    (hnever : ∀ n, 1 ≤ n → config.fits n → ¬ config.gracePeriod ≤ config.interval * n) (m : Nat) :
    ∃ h s, Lts.Run (HealthActor.step timer) (.new name (some config) tx) h s ∧
      ((s.phase = .running ∧ s.unhealthyCount = m) ∨
        s.phase = .panicked .count ∨ s.phase = .panicked .interval) := by
  induction m with
  | zero =>
      have hconfig : (HealthActor.new name (some config) tx).config = some config := rfl
      rcases HealthActor.started_cases hconfig timer with ⟨-, hstarted⟩ | ⟨hrefused, -⟩
      · have hs : (HealthActor.new name (some config) tx).step timer .started =
            some { HealthActor.new name (some config) tx with phase := .running } :=
          congrArg (some ∘ Prod.fst) hstarted
        exact ⟨_, _, .snoc _ .start hs, Or.inl ⟨rfl, rfl⟩⟩
      · cases htakes.symm.trans hrefused
  | succ m ih =>
      obtain ⟨h, s, hr, ⟨hphase, hcount⟩ | hover⟩ := ih
      · have htally := tally_run hr
        obtain ⟨tx', htx⟩ := htally.sender (by rw [hphase]; rfl)
        -- one more check is started, and fails
        have htick : s.step timer .tick = some s.tick.1 := by
          simp [HealthActor.step, HealthActor.turn, hphase, htally.checked]
        have hfail : s.tick.1.step timer (.checked true s.nextCheck (.error "")) =
            some (s.tick.1.checked true s.nextCheck (.error "")).1 := by
          simp [HealthActor.step, HealthActor.turn, HealthActor.tick, hphase]
        refine ⟨_, _, .snoc _ (.snoc _ hr htick) hfail, ?_⟩
        have hchecked := HealthActor.checked_cases (s := s.tick.1) htally.checked htx true
          s.nextCheck (.error "")
        generalize s.tick.1.checked true s.nextCheck (.error "") = out at hchecked ⊢
        obtain ⟨s', actions⟩ := out
        cases hchecked with
        | success hf => cases hf
        | counted _ _ _ => exact Or.inl ⟨hphase, by rw [← hcount]; rfl⟩
        | gaveUp _ hex _ _ =>
            obtain ⟨hfits, hover⟩ := HealthConfig.exhausted_ok hex
            exact absurd (hover.mp rfl) (hnever _ (by omega) hfits)
        | overflowed _ hex hphase' _ =>
            refine Or.inr ?_
            rw [hphase']
            rcases (HealthConfig.exhausted_error hex).2 with rfl | rfl
            · exact Or.inl rfl
            · exact Or.inr rfl
      · exact ⟨h, s, hr, Or.inr hover⟩

/-- Where no count that fits covers the grace period, some run overflows. -/
theorem overflow_reached (name : String) (tx : Sender) {config : HealthConfig}
    (htakes : timer.takes config.interval = true)
    (hnever : ∀ n, 1 ≤ n → config.fits n → ¬ config.gracePeriod ≤ config.interval * n) :
    ∃ h s, Lts.Run (HealthActor.step timer) (.new name (some config) tx) h s ∧
      (s.phase = .panicked .count ∨ s.phase = .panicked .interval) := by
  obtain ⟨h, s, hr, ⟨hphase, hcount⟩ | hover⟩ := failures_run name tx htakes hnever countEnd
  · -- so many failures cannot be counted
    have hex := (tally_run hr).below (by rw [hphase]; rfl) countEnd (by decide) hcount.ge
    exact absurd (HealthConfig.exhausted_ok hex).1.1 (Nat.lt_irrefl _)
  · exact ⟨h, s, hr, hover⟩

/-- A step overflows only at a count that does not fit, and that none before it has covered. -/
theorem Tally.overflow_step {config : HealthConfig} {rs : List (Nat × Bool)} {s s' : HealthActor}
    {e : HealthEvent} (h : Tally config rs s) (hs : s.step timer e = some s')
    (hover : s'.phase = .panicked .count ∨ s'.phase = .panicked .interval) :
    ¬ config.fits (s.unhealthyCount + 1) := by
  have hturned := HealthActor.turned hs
  have hlive := hturned.live
  generalize HealthActor.does timer (s, e) = actions at hturned
  cases hturned with
  | started _ =>
      rcases s.started_phase timer with hphase | hphase <;> rw [hphase] at hover <;>
        rcases hover with hover | hover <;> cases hover
  | stop _ => rcases hover with hover | hover <;> cases hover
  | tick hphase _ =>
      simp only [HealthActor.tick, hphase] at hover
      rcases hover with hover | hover <;> cases hover
  | @checked hphase check hmem receiving answer =>
      obtain ⟨tx, htx⟩ := h.sender hlive
      have hchecked := HealthActor.checked_cases h.checked htx receiving check answer
      generalize s.checked receiving check answer = out at hchecked hover
      obtain ⟨s', actions⟩ := out
      cases hchecked with
      | success _ =>
          simp only [hphase] at hover
          rcases hover with hover | hover <;> cases hover
      | counted _ _ _ =>
          simp only [hphase] at hover
          rcases hover with hover | hover <;> cases hover
      | gaveUp _ _ hphase' _ =>
          rw [hphase'] at hover
          cases receiving <;> rcases hover with hover | hover <;> cases hover
      | overflowed _ hex _ _ => exact (HealthConfig.exhausted_error hex).1

/-- An actor whose interval the timer does not take processes no result. -/
theorem refused_phase {name : String} {config : HealthConfig} {tx : Sender}
    (hrefused : timer.takes config.interval = false) {h : List (HealthActor × HealthEvent)}
    {s : HealthActor} (hr : Lts.Run (HealthActor.step timer) (.new name (some config) tx) h s) :
    s.phase = .created ∨ s.phase = .panicked .timer := by
  induction hr with
  | start => exact Or.inl rfl
  | snoc e hr hs ih =>
      have hturned := HealthActor.turned hs
      have hlive := hturned.live
      have hcreated := ih.resolve_right fun hphase => by rw [hphase] at hlive; cases hlive
      generalize HealthActor.does timer _ = actions at hturned
      cases hturned with
      | started _ =>
          rcases HealthActor.started_cases (tally_run hr).checked timer with ⟨htakes, -⟩ | ⟨-, hs⟩
          · cases htakes.symm.trans hrefused
          · exact Or.inr (by rw [hs]; rfl)
      | stop hphase => cases hcreated.symm.trans hphase
      | tick hphase _ => cases hcreated.symm.trans hphase
      | checked hphase _ _ _ => cases hcreated.symm.trans hphase

/-- A check at an interval of zero ends the actor before it starts one. -/
theorem zero_phase {name : String} {config : HealthConfig} {tx : Sender}
    (hzero : config.interval = 0) {h : List (HealthActor × HealthEvent)} {s : HealthActor}
    (hr : Lts.Run (HealthActor.step timer) (.new name (some config) tx) h s) :
    s.phase = .created ∨ s.phase = .panicked .timer :=
  refused_phase (hzero ▸ timer.zero) hr

/-- **When the arithmetic of the count never overflows**: exactly if the timer does not take the
    interval (it takes none of zero), or some number of intervals, one at least, covers the grace
    period and can be represented together with its count. -/
theorem count_fits (timer : TimerCrate) (name : String) (config : HealthConfig) (tx : Sender) :
    (∀ h s, Lts.Run (HealthActor.step timer) (.new name (some config) tx) h s →
      s.phase ≠ .panicked .count ∧ s.phase ≠ .panicked .interval) ↔
      timer.takes config.interval = false ∨
        ∃ n, 1 ≤ n ∧ n < countEnd ∧ config.interval * n < durationEnd ∧
          config.gracePeriod ≤ config.interval * n := by
  constructor
  · intro hall
    cases htakes : timer.takes config.interval with
    | false => exact Or.inl rfl
    | true =>
        refine Or.inr ?_
        by_contra hnever
        obtain ⟨h, s, hr, hover⟩ := overflow_reached name tx htakes fun n hone hfits hgrace =>
          hnever ⟨n, hone, hfits.1, hfits.2, hgrace⟩
        obtain ⟨hcount, hinterval⟩ := hall h s hr
        exact hover.elim hcount hinterval
  · rintro (hrefused | ⟨n, hone, hcount, hinterval, hgrace⟩) h s hr
    · rcases refused_phase hrefused hr with hphase | hphase <;> simp [hphase]
    · have hnot : ¬ (s.phase = .panicked .count ∨ s.phase = .panicked .interval) := by
        intro hover
        cases hr with
        | start => rcases hover with hover | hover <;> cases hover
        | @snoc h s' _ e hr hs =>
            have htally := tally_run hr
            have hfits := htally.overflow_step hs hover
            -- `n` has been counted, and the actor has gone on
            have hle : n ≤ s'.unhealthyCount := by
              by_contra hlt
              exact hfits (HealthConfig.fits_mono (by omega) ⟨hcount, hinterval⟩)
            have hex := htally.below (HealthActor.turned hs).live n hone hle
            cases (HealthConfig.exhausted_ok hex).2.mpr hgrace
      exact ⟨fun h => hnot (Or.inl h), fun h => hnot (Or.inr h)⟩

/-- A check every millisecond, and a grace period of 50 days. -/
def fiftyDays : HealthConfig := ⟨⟨.http, [], ⟨['/'], none⟩⟩, 1000000, 4320000000000000⟩

/-- After 2^32 failures the grace period is not over, and the count does not fit. -/
theorem count_overflows :
    ∃ h s, Lts.Run (HealthActor.step .nonZero) (.new "a" (some fiftyDays) ⟨.unhealthy 0⟩) h s ∧
      (s.phase = .panicked .count ∨ s.phase = .panicked .interval) := by
  refine overflow_reached "a" ⟨.unhealthy 0⟩ rfl fun n _ hfits hgrace => ?_
  have hcount : n < 4294967296 := hfits.1
  have hgrace : 4320000000000000 ≤ 1000000 * n := hgrace
  omega

end Blahaj
