/-
  File:      Blahaj/Supervisor/Records.lean
  Subject:   WHAT A CARETAKER KEEPS ON RECORD: its answers to `GetStatus`, and its health actors.

  * `Caretaker.reads` -- the answer a step gives;
  * `Setting.config` -- what every health actor is started with;
  * `Recorded` -- what a step writes to the records; `recorded_step` -- one lemma for every step.
-/
import Blahaj.Supervisor.Frame

namespace Blahaj

variable {S : Setting} {s s' : Caretaker}

/-! ## 1. What is written -/

/-- The answer a step gives to a `GetStatus`. -/
def Caretaker.reads (self : Caretaker) : Event → Option Lifecycle
  | .handle _ => match self.mailbox with
    | .getStatus :: _ => some self.status
    | _ => none
  | _ => none

/-- The check a health actor of this program is started with. -/
def Setting.config (S : Setting) : Option HealthConfig :=
  (healthConfig S .starting).bind Prod.snd

theorem healthConfig_config {status : Lifecycle} {found : Lifecycle × Option HealthConfig}
    (h : healthConfig S status = some found) : found.2 = S.config := by
  unfold Setting.config
  unfold healthConfig at h ⊢
  cases hcheck : S.program.check with
  | none =>
      simp only [hcheck, Option.some.injEq] at h
      subst h
      rfl
  | some check =>
      obtain ⟨http, check⟩ := check
      simp only [hcheck, Option.map_eq_some_iff] at h
      obtain ⟨uri, huri, rfl⟩ := h
      simp [huri]

/-- What an event makes of the health actors: nothing, one more is started, one is told to stop
    where a `Run` is polled, or one has given up its sender. -/
inductive Watching (S : Setting) (e : Event) (health : List HealthHandle) :
    List HealthHandle → Prop where
  | same : Watching S e health health
  | start : Watching S e health (health ++ [⟨S.config, false, false⟩])
  | stop (k : Nat) (he : ∃ i grace, e = .pollRun i grace) :
      Watching S e health (health.modify k fun handle => { handle with stopped := true })
  | signal (k : Nat) (he : e = .unhealthy k) :
      Watching S e health (health.modify k fun handle => { handle with signalled := true })

/-- What an event that answers `read` writes. -/
structure Recorded (S : Setting) (e : Event) (s s' : Caretaker) (read : List Lifecycle) :
    Prop where
  answers : s'.answers = s.answers ++ read
  health : Watching S e s.health s'.health

theorem Recorded.same {e : Event} (ha : s'.answers = s.answers) (hh : s'.health = s.health) :
    Recorded S e s s' [] :=
  ⟨by rw [ha, List.append_nil], by rw [hh]; exact .same⟩

/-! ## 2. The futures -/

theorem StopPolled.recorded {i req : Nat} {killing : Bool} {child : Child} {res : RunResult}
    {grace : Grace} (hp : StopPolled s i req killing child res grace s') :
    s'.answers = s.answers ∧ s'.health = s.health := by
  cases hp <;> exact ⟨rfl, rfl⟩

theorem pollRun_recorded (i : Nat) (grace : Grace) (item : RunItem) (s : Caretaker) :
    Recorded S (.pollRun i grace) s
      (Caretaker.settle (s.pollRun S i grace item)) [] := by
  unfold Caretaker.pollRun
  split
  · split
    · exact .same rfl rfl
    · exact .same rfl rfl
    · rename_i healthAddr _ _ res _ procs _
      -- the health actor is told, whatever the `WaitAbortFut` has resolved to
      have hafter : ∀ s₁ : Caretaker,
          (s₁.afterWaitAbort i item.req grace res).answers = s₁.answers ∧
            (s₁.afterWaitAbort i item.req grace res).health = s₁.health := by
        intro s₁
        cases res with
        | exit stopRx => exact ⟨rfl, rfl⟩
        | exitWithError stopRx e => exact ⟨rfl, rfl⟩
        | stopSignalReceived child => exact (stop_polled ..).recorded
        | unhealthySignalReceived stopRx child => exact (stop_polled ..).recorded
      obtain ⟨ha, hh⟩ := hafter (Caretaker.stopHealth healthAddr { s with procs := procs })
      refine ⟨?_, ?_⟩
      · simp only [Caretaker.settle, ha, List.append_nil]
        rfl
      · simp only [Caretaker.settle, hh]
        exact .stop healthAddr ⟨i, grace, rfl⟩
  · exact .same rfl rfl
  · obtain ⟨ha, hh⟩ := (stop_polled i item.req _ _ _ grace s).recorded
    exact .same ha hh

theorem broadcastStopped_recorded (s : Caretaker) :
    (Caretaker.settle s.broadcastStopped).answers = s.answers ∧
      (Caretaker.settle s.broadcastStopped).health = s.health := by
  cases htx : s.stoppedTx with
  | none =>
      simp only [Caretaker.broadcastStopped, htx]
      exact ⟨rfl, rfl⟩
  | some _ =>
      simp only [Caretaker.broadcastStopped, htx]
      split <;> exact ⟨rfl, rfl⟩

theorem pollDaemon_recorded (clock : Clock) (fut : RepeatedActFut Nat Receiver) (s : Caretaker) :
    Recorded S (.pollDaemon clock) s (Caretaker.settle (s.pollDaemon S clock fut)) [] := by
  unfold Caretaker.pollDaemon
  split
  · exact .same rfl rfl
  · cases hp : fut.poll Caretaker.sendRun (Caretaker.pollRound S) clock s with
    | none => exact .same rfl rfl
    | some polled =>
        obtain ⟨r, fut₁, s₁⟩ := polled
        cases RepeatedActFut.polled hp with
        | busy _ hpf =>
            obtain ⟨replies, log, rfl⟩ := pollRound_same hpf
            exact .same rfl rfl
        | again _ hpf _ =>
            obtain ⟨replies, log, rfl⟩ := pollRound_same hpf
            exact .same rfl rfl
        | giveUp _ hpf _ =>
            obtain ⟨replies, log, rfl⟩ := pollRound_same hpf
            obtain ⟨ha, hh⟩ := broadcastStopped_recorded { s with
              replies := replies
              status := .failed
              daemon := .ended false
              log := log ++ [⟨.error, S.name, "Retry limits exceeded, giving up"⟩] }
            exact .same ha hh
        | stopped _ hpf =>
            obtain ⟨replies, log, rfl⟩ := pollRound_same hpf
            obtain ⟨ha, hh⟩ := broadcastStopped_recorded { s with
              replies := replies
              daemon := .ended true
              log := log }
            exact .same ha hh
        | asleep _ _ => exact .same rfl rfl
        | woken _ _ => exact .same rfl rfl
        | create _ _ => exact .same rfl rfl

/-! ## 3. The handlers -/

theorem handleRun_recorded (spawn : Except String Unit) (stopRx : Receiver) (req : Nat)
    (s : Caretaker) :
    Recorded S (.handle spawn) s (Caretaker.settle (s.handleRun S spawn stopRx req)) [] := by
  unfold Caretaker.handleRun
  cases spawn with
  | error source => exact .same rfl rfl
  | ok _ =>
      simp only [buildChild]
      split
      · exact .same rfl rfl
      · rename_i hfound
        refine ⟨(List.append_nil _).symm, ?_⟩
        have hconfig := healthConfig_config hfound
        dsimp only at hconfig
        subst hconfig
        exact .start

theorem handle_recorded {m : Msg} {rest : List Msg} (hm : s.mailbox = m :: rest)
    (spawn : Except String Unit) :
    Recorded S (.handle spawn) s
      (Caretaker.settle (Caretaker.handle S spawn { s with mailbox := rest } m))
      (s.reads (.handle spawn)).toList := by
  cases m with
  | run stopRx req =>
      obtain ⟨ha, hh⟩ := handleRun_recorded (S := S) spawn stopRx req { s with mailbox := rest }
      simp only [Caretaker.reads, hm]
      exact ⟨ha, hh⟩
  | wait req =>
      simp only [Caretaker.reads, hm, Caretaker.handle, Caretaker.handleWait]
      split <;> exact .same rfl rfl
  | terminate =>
      simp only [Caretaker.reads, hm, Caretaker.handle, Caretaker.handleTerminate]
      split
      · split <;> exact .same rfl rfl
      · exact .same rfl rfl
  | setHealthState sender health =>
      simp only [Caretaker.reads, hm, Caretaker.handle, Caretaker.handleSetHealthState]
      split <;> exact .same rfl rfl
  | getStatus =>
      simp only [Caretaker.reads, hm]
      exact ⟨rfl, .same⟩

/-- **What a step writes**: it answers the `GetStatus` it handles with the status at that time, and
    no other. -/
theorem recorded_step {e : Event} (hs : s.step S e = some s') :
    Recorded S e s s' (s.reads e).toList := by
  cases Caretaker.stepped hs with
  | arrive _ hs =>
      obtain ⟨⟨n, rfl⟩, -⟩ := Caretaker.arrived hs
      exact .same rfl rfl
  | handle hm spawn => exact handle_recorded hm spawn
  | startDaemon _ => exact .same rfl rfl
  | pollDaemon _ clock => exact pollDaemon_recorded ..
  | pollRun _ grace => exact pollRun_recorded ..
  | pollWait _ _ => exact .same rfl rfl
  | pollTerminate _ _ => exact .same rfl rfl
  | exit _ _ => exact .same rfl rfl
  | reap _ => exact .same rfl rfl
  | @unhealthy k _ => exact ⟨(List.append_nil _).symm, .signal k rfl⟩

end Blahaj
