/-
  File:      Blahaj/Supervisor/Unheard.lean
  Subject:   WHEN A `Terminate` IS NEVER HEARD, and the retry counts with which it always is.

  Only a `WaitAbortFut` looks at the stop signal. A program that cannot be spawned has none: its
  rounds fail, are marked, and are tolerated as long as they lie far enough apart. The mark is
  not asked whether somebody wants to stop.

  * `no_again`, `struck_ends` -- with a count of at most one no mark is tolerated, so that each
    fair execution honours a `Terminate`;
  * `unheardRound` -- with a greater count a round that fails leads where it began;
  * `terminate_honoured` -- so a count of at most one is all that makes the difference.
-/
import Blahaj.Supervisor.Served
import Blahaj.Supervisor.SpawnRate

namespace Blahaj

variable {S : Setting} {s s' s₀ : Caretaker} {st : Stage}

/-! ## 1. One strike -/

/-- The guard of the daemon was made with the count of the program. -/
def Counted (S : Setting) (s : Caretaker) : Prop :=
  ∀ fut, s.daemon = .running fut → fut.retryGuard.toleranceCount = S.program.retry.count

theorem RetryGuard.mark_count {g g' : RetryGuard} {now : Instant} {ok : Bool}
    (h : g.mark now = some (ok, g')) : g'.toleranceCount = g.toleranceCount := by
  unfold RetryGuard.mark at h
  split at h
  · cases h
    rfl
  · cases h

theorem counted_step (h : Shape S s st) (hc : Counted S s) {e : Event}
    (hs : s.step S e = some s') : Counted S s' := by
  intro fut' hd'
  by_cases he : ∃ clock, e = .pollDaemon clock
  · obtain ⟨clock, rfl⟩ := he
    cases Caretaker.stepped hs with
    | @pollDaemon fut hd _ =>
        have hcount := hc fut hd
        cases h.daemon_polled hd hs with
        | panics _ hdrop _ => cases hd'.symm.trans hdrop
        | resolved _ hend _ => rcases hend with hend | hend <;> cases hd'.symm.trans hend
        | pending hp hs' =>
            rw [hs'] at hd'
            cases hd'
            cases RepeatedActFut.polled hp with
            | again _ _ hm => exact (RetryGuard.mark_count hm).trans hcount
            | _ => exact hcount
  · rcases (daemon_apart h (fun clock heq => he ⟨clock, heq⟩) hs).2 with
      hd | hd | ⟨stopRx, hd, rfl⟩
    · exact hc fut' (hd ▸ hd')
    · cases hd'.symm.trans hd
    · cases hd'
      rfl

theorem counted_reach (hr : Lts.Reach (Caretaker.step S) .init s) : Counted S s := by
  have hboth := hr.invariant (P := fun s => (∃ st, Shape S s st) ∧ Counted S s)
    ⟨⟨.boot, shape_init S⟩, fun _ hd => by cases hd⟩ fun _ _ _ hP hs => by
      obtain ⟨⟨st, hshape⟩, hc⟩ := hP
      exact ⟨shaped_step ⟨st, hshape⟩ hs, counted_step hshape hc hs⟩
  exact hboth.2

/-- The mark that was just made lies in its own window. -/
theorem RetryGuard.mark_strikes {g g' : RetryGuard} {now : Instant} {ok : Bool}
    (h : g.mark now = some (ok, g')) (hcount : g.toleranceCount ≤ 1) : ok = false := by
  unfold RetryGuard.mark at h
  split at h
  · cases h
    have hlast : (g.retries ++ [now]).countP (· < now - g.toleranceInterval) ≤
        g.retries.length := by
      rw [List.countP_append, List.countP_singleton, if_neg (by simp)]
      exact List.countP_le_length
    simp only [RetryGuard.evict, List.length_drop, List.length_append, List.length_singleton,
      decide_eq_false_iff_not, not_lt]
    omega
  · cases h

/-- **With a count of at most one no mark is tolerated.** -/
theorem no_again (hc : Counted S s) (hone : S.program.retry.count ≤ 1) (e : Event) :
    ¬ Marks s e (some true) := by
  intro hm
  cases e with
  | pollDaemon clock =>
      simp only [Marks, Caretaker.mark] at hm
      cases hd : s.daemon with
      | running fut =>
          simp only [hd] at hm
          cases hround : roundOf fut.fut with
          | none => simp [hround] at hm
          | some req =>
              simp only [hround] at hm
              obtain ⟨res, -, hm⟩ := Option.bind_eq_some_iff.mp hm
              obtain ⟨rx, -, hm⟩ := Option.map_eq_some_iff.mp hm
              obtain ⟨⟨ok, g'⟩, hmark, heq⟩ := Option.map_eq_some_iff.mp hm
              obtain rfl := RetryGuard.mark_strikes hmark (by rw [hc fut hd]; exact hone)
              cases heq
      | _ => simp [hd] at hm
  | _ => cases hm

section Strikes

variable {x : Lts.Execution (Caretaker.step S) s₀} (hI : ∀ n, Regular S (x.state n)) (hx : Fair x)
  (hone : x.Meets fun s e => ¬ Marks s e (some true))

include hI hx hone in
/-- Where no mark is tolerated, the result of a `Run` is the last one. -/
theorem struck_leads (req : Nat) (res : RunResult) :
    x.LeadsTo (fun s => Shape S s (.replied req res)) Caretaker.over := by
  refine Lts.Execution.LeadsTo.ensures hI hone hx.daemon ?_ ?_
  · intro s e s' _ hno hshape hs
    obtain ⟨st', hshape', hn⟩ := shape_step hshape hs
    cases hn with
    | quiet _ _ he =>
        refine Or.inr ⟨hshape', fun hA => ?_⟩
        obtain ⟨clock, rfl, -⟩ := hA
        exact he (by simp [Stage.replies]) clock rfl
    | report _ _ hlive _ _ =>
        rw [hshape.status.2] at hlive
        cases hlive
    | again _ _ hm _ => exact absurd hm hno
    | giveUp _ _ _ _ hst _ =>
        exact Or.inl (hshape'.over_of_stage (by rcases hst with rfl | rfl <;> rfl))
    | finish _ _ _ _ hst _ =>
        exact Or.inl (hshape'.over_of_stage (by rcases hst with rfl | rfl <;> rfl))
    | clock _ _ _ _ => exact Or.inl (hshape'.over_of_stage rfl)
  · intro s _ hshape
    obtain ⟨fut, hd, -⟩ := hshape.token.daemon
    obtain ⟨s', hs⟩ := pollDaemon_enabled (S := S) hd ⟨0, 0, true⟩
    exact ⟨_, s', ⟨⟨0, 0, true⟩, rfl, fun _ => rfl⟩, hs⟩

include hI hx in
/-- The `Run` in the mailbox is handled: a child is up, or could not be spawned. -/
theorem handled_leads (req : Nat) :
    x.LeadsTo (fun s => Shape S s (.queued req) ∧ s.terminates ≠ []) fun s =>
      ((∃ req child, Shape S s (.up req child) ∧ s.terminates ≠ []) ∨
        ∃ req, Shape S s (.spawnFailed req)) ∨ s.over := by
  have hmessage := message_leads hI hx (C := fun _ _ => True) (fun _ _ _ => trivial)
    (fun m => m.asRun.isSome) (J := fun s => s.terminates ≠ [])
    (Q := fun s => ((∃ req child, Shape S s (.up req child) ∧ s.terminates ≠ []) ∨
      ∃ req, Shape S s (.spawnFailed req)) ∨ s.over)
    (fun s e s' hIs hJ hs => Or.inr (asked_stays_step hIs hJ hs))
    (fun s e s' hIs _ hJ hb hs => by
      obtain ⟨st, hshape⟩ := hIs.shape
      obtain ⟨req, rfl⟩ := builds_queued hshape hb
      have hlast := hshape.builds_last hb hs
      obtain ⟨st', hshape', hn⟩ := shape_step hshape hs
      rw [hshape'.token.msgs] at hlast
      cases hn with
      | quiet _ _ _ => cases hlast
      | report _ _ _ _ _ => cases hlast
      | spawned _ _ _ => exact Or.inl (Or.inl ⟨_, _, hshape', asked_stays_step hIs hJ hs⟩)
      | spawnError _ _ _ => exact Or.inl (Or.inr ⟨_, hshape'⟩)
      | illegal _ _ _ => exact Or.inr (hshape'.over_of_stage rfl))
    (fun s hIs _ hdead => Or.inr (hIs.over_of_crashed hdead))
  intro n hP
  exact hmessage n ⟨hP.2, hP.1.any_run⟩

include hI hx hone in
/-- Where no mark is tolerated, the `Run` in the mailbox is the last one. -/
theorem struck_ends (req : Nat) :
    x.LeadsTo (fun s => Shape S s (.queued req) ∧ s.terminates ≠ []) Caretaker.over := by
  have hfailed : x.LeadsTo (fun s => ∃ req, Shape S s (.spawnFailed req)) Caretaker.over := by
    refine .exists fun req => (spawnFailed_leads hI hx req).trans ?_
    exact .exists fun res => struck_leads hI hx hone req res
  refine (handled_leads hI hx req).trans (.or (.or ?_ hfailed) (.of_imp fun _ => id))
  exact .exists fun req => .exists fun child => asked_up_ends hI hx req child

end Strikes

/-! ## 2. A round that fails -/

/-- The marks the guard of the daemon keeps. -/
def Caretaker.kept (s : Caretaker) : List Instant :=
  match s.daemon with
  | .running fut => fut.retryGuard.retries
  | _ => []

/-- When the next round of a program that fails takes place: far enough from the last one. -/
def Setting.next (S : Setting) : List Instant → Instant
  | [] => S.program.retry.window
  | t :: _ => t + S.program.retry.window + S.program.retry.delay + 1

/-- **A round in which the program cannot be spawned**, from one empty slot to the next. -/
def unheardRound (S : Setting) (s : Caretaker) : List Event :=
  let now := S.next s.kept
  [.pollDaemon ⟨now, now, false⟩, .handle (.error "No such file or directory (os error 2)"),
    .pollRun 0 .underWay, .pollDaemon ⟨now, now, false⟩,
    .pollDaemon ⟨now + S.program.retry.delay, now + S.program.retry.delay, true⟩]

/-- A `Terminate` is handled before the daemon starts. -/
def unheardStart : List Event :=
  [.arrive .terminate, .handle (.ok ()), .handle (.ok ()), .startDaemon]

/-- Between two rounds of a program that fails, with a `Terminate` handled: nothing is on its way,
    and the guard keeps the last mark at most. -/
structure Unheard (S : Setting) (kept : List Instant) (s : Caretaker) : Prop where
  daemon : s.daemon = .running ⟨.empty, some stopReceiver,
    ⟨kept, S.program.retry.window, S.program.retry.count⟩, S.program.retry.delay⟩
  last : kept.length ≤ 1
  mailbox : s.mailbox = []
  runs : s.runs = []
  replies : s.replies = []
  stoppedTx : s.stoppedTx = some ()
  waits : s.waits = [⟨0, .receiving false⟩]
  terminates : s.terminates = [⟨0, false⟩]
  signals : s.signals = []

theorem unheard_start : ∃ s, Lts.exec (Caretaker.step S) .init unheardStart = some s ∧
    OnTime (Lts.history (Caretaker.step S) .init unheardStart) ∧
    lastRead (Lts.history (Caretaker.step S) .init unheardStart) = 0 ∧ Unheard S [] s :=
  ⟨_, rfl, ⟨trivial, trivial, trivial, trivial, trivial⟩, rfl,
    ⟨rfl, Nat.zero_le _, rfl, rfl, rfl, rfl, rfl, rfl, rfl⟩⟩

/-- Marks that far apart are tolerated. -/
theorem mark_next (hcount : 1 < S.program.retry.count) {kept : List Instant}
    (hlast : kept.length ≤ 1) :
    RetryGuard.mark ⟨kept, S.program.retry.window, S.program.retry.count⟩ (S.next kept) =
      some (true, ⟨[S.next kept], S.program.retry.window, S.program.retry.count⟩) := by
  match kept with
  | [] =>
      simp [RetryGuard.mark, RetryGuard.evict, Setting.next, hcount]
  | [t] =>
      have hfar : ∀ t w d : Nat, w ≤ t + w + d + 1 ∧ t < t + w + d + 1 - w := by omega
      obtain ⟨hw, hold⟩ := hfar t S.program.retry.window S.program.retry.delay
      simp only [Setting.next]
      simp [RetryGuard.mark, RetryGuard.evict, hw, hold, hcount]
  | _ :: _ :: _ => simp at hlast

/-- **The round leads where it began**, with the mark it made. -/
theorem unheard_round (hcount : 1 < S.program.retry.count) {kept : List Instant}
    (h : Unheard S kept s) :
    ∃ s₁ s₂ s₃ s₄ s', s.step S (.pollDaemon ⟨S.next kept, S.next kept, false⟩) = some s₁ ∧
      s₁.step S (.handle (.error "No such file or directory (os error 2)")) = some s₂ ∧
      s₂.step S (.pollRun 0 .underWay) = some s₃ ∧
      s₃.step S (.pollDaemon ⟨S.next kept, S.next kept, false⟩) = some s₄ ∧
      s₄.step S (.pollDaemon ⟨S.next kept + S.program.retry.delay,
        S.next kept + S.program.retry.delay, true⟩) = some s' ∧
      s₄.deadline = some (S.next kept + S.program.retry.delay) ∧ Unheard S [S.next kept] s' := by
  have hd := h.daemon
  have hmark := mark_next hcount h.last
  let guard (kept : List Instant) : RetryGuard :=
    ⟨kept, S.program.retry.window, S.program.retry.count⟩
  let error : SupervisorError := .spawn "No such file or directory (os error 2)"
  let s₁ : Caretaker := { s with
    mailbox := [.run stopReceiver s.nextReq]
    nextReq := s.nextReq + 1
    daemon := .running ⟨.polling s.nextReq, none, guard kept, S.program.retry.delay⟩ }
  let s₂ : Caretaker := { s₁ with
    mailbox := []
    status := .starting
    lastRun := some s.nextReq
    runs := [⟨.failure stopReceiver error, s.nextReq⟩] }
  let s₃ : Caretaker := { s₂ with
    status := .terminated
    runs := []
    replies := [(s.nextReq, .error stopReceiver error)] }
  let s₄ : Caretaker := { s₃ with
    replies := []
    log := s.log ++ [⟨.warn, S.name, RunResult.text (.error stopReceiver error)⟩]
    daemon := .running ⟨.waiting ⟨S.next kept + S.program.retry.delay⟩, some stopReceiver,
      guard [S.next kept], S.program.retry.delay⟩ }
  let s₅ : Caretaker := { s₄ with
    daemon := .running ⟨.empty, some stopReceiver, guard [S.next kept], S.program.retry.delay⟩ }
  refine ⟨s₁, s₂, s₃, s₄, s₅, ?_, ?_, ?_, ?_, rfl, rfl, ?_⟩
  · simp only [Caretaker.step, hd, Caretaker.pollDaemon, roundOf, Option.any_none,
      Bool.false_eq_true, ↓reduceIte, RepeatedActFut.poll, Caretaker.sendRun, Caretaker.settle,
      h.mailbox, List.nil_append, s₁, guard]
  · simp only [Caretaker.step, Caretaker.handle, Caretaker.handleRun, buildChild, h.runs,
      List.nil_append, Caretaker.settle, s₂, s₁, error]
  · simp only [Caretaker.step, List.getElem?_cons_zero, Option.map_some, Caretaker.pollRun,
      Caretaker.finishRun, h.replies, List.nil_append, Caretaker.settle, s₃, s₂, s₁,
      List.eraseIdx_cons_zero]
  · simp [Caretaker.step, Caretaker.pollDaemon, roundOf, Caretaker.answering, RepeatedActFut.poll,
      Caretaker.pollRound, RunResult.stopRx, hmark, Caretaker.settle, s₄, s₃, s₂, s₁, guard]
  · exact ⟨rfl, Nat.le_refl _, rfl, rfl, rfl, h.stoppedTx, h.waits, h.terminates, h.signals⟩

/-- The steps so far are on time, and the next round lies ahead. -/
def UnheardSo (S : Setting) (h : List (Caretaker × Event)) (s : Caretaker) : Prop :=
  OnTime h ∧ ∃ kept, Unheard S kept s ∧ lastRead h ≤ S.next kept

theorem unheard_starts : ∃ s, Lts.exec (Caretaker.step S) .init unheardStart = some s ∧
    UnheardSo S (Lts.history (Caretaker.step S) .init unheardStart) s := by
  obtain ⟨s, hex, hontime, hread, hs⟩ := unheard_start (S := S)
  exact ⟨s, hex, hontime, [], hs, by rw [hread]; exact Nat.zero_le _⟩

theorem unheard_again (hcount : 1 < S.program.retry.count) {h : List (Caretaker × Event)}
    (hs : UnheardSo S h s) :
    ∃ s', Lts.exec (Caretaker.step S) s (unheardRound S s) = some s' ∧
      UnheardSo S (h ++ Lts.history (Caretaker.step S) s (unheardRound S s)) s' := by
  obtain ⟨hontime, kept, hun, hread⟩ := hs
  obtain ⟨s₁, s₂, s₃, s₄, s', h₁, h₂, h₃, h₄, h₅, hdeadline, hun'⟩ := unheard_round hcount hun
  have hkept : s.kept = kept := by simp only [Caretaker.kept, hun.daemon]
  have hround : Lts.history (Caretaker.step S) s (unheardRound S s) =
      [(s, .pollDaemon ⟨S.next kept, S.next kept, false⟩),
        (s₁, .handle (.error "No such file or directory (os error 2)")), (s₂, .pollRun 0 .underWay),
        (s₃, .pollDaemon ⟨S.next kept, S.next kept, false⟩),
        (s₄, .pollDaemon ⟨S.next kept + S.program.retry.delay,
          S.next kept + S.program.retry.delay, true⟩)] := by
    simp [unheardRound, hkept, Lts.history, h₁, h₂, h₃, h₄, h₅]
  have hlast : lastRead (h ++ Lts.history (Caretaker.step S) s (unheardRound S s)) =
      S.next kept + S.program.retry.delay := by
    simp [hround, lastRead, Event.readAfter]
  refine ⟨s', ?_, ?_, [S.next kept], hun', ?_⟩
  · simp [unheardRound, hkept, Lts.exec, h₁, h₂, h₃, h₄, h₅]
  · rw [onTime_append, hround]
    refine ⟨hontime, ?_⟩
    simp [OnTimeFrom, Caretaker.Timely, Event.readAfter, hdeadline, hread]
  · have hahead : ∀ t w d : Nat, t + d ≤ t + w + d + 1 := by omega
    rw [hlast]
    exact hahead _ _ _

/-- The program fails to spawn for ever, and nobody is slow. -/
def unheard (S : Setting) : Lts.Execution (Caretaker.step S) .init :=
  .planned _ (unheardRound S) .init unheardStart

theorem unheard_returns (hcount : 1 < S.program.retry.count) (n : Nat) :
    ∃ m, n ≤ m ∧ UnheardSo S ((unheard S).past m) ((unheard S).state m) := by
  obtain ⟨m, hnm, -, hJ⟩ := Lts.Execution.planned_returns unheard_starts
    (fun h s => unheard_again hcount) n
  exact ⟨m, hnm, hJ⟩

theorem unheard_fair (hcount : 1 < S.program.retry.count) : Fair (unheard S) := by
  have hfair : ∀ {A : Caretaker → Event → Prop}, (∀ kept s, Unheard S kept s →
      (∃ es₁ e es₂ s', unheardRound S s = es₁ ++ e :: es₂ ∧
        Lts.exec (Caretaker.step S) s es₁ = some s' ∧ A s' e) ∨
      ∀ e s', A s e → s.step S e ≠ some s') → (unheard S).WeaklyFair A := fun hA =>
    Lts.Execution.planned_fair unheard_starts (fun h s => unheard_again hcount)
      fun h s hJ => by
        obtain ⟨-, kept, hun, -⟩ := hJ
        exact hA kept s hun
  constructor
  · refine hfair fun kept s hun => Or.inr fun e s' hA hs => ?_
    rw [hA] at hs
    simp [Caretaker.step, hun.daemon] at hs
  · refine hfair fun kept s hun => Or.inl ?_
    obtain ⟨s₁, _, _, _, _, h₁, -⟩ := unheard_round hcount hun
    have hkept : s.kept = kept := by simp only [Caretaker.kept, hun.daemon]
    exact ⟨[_], _, _, s₁, rfl, by simp [Lts.exec, hkept, h₁], _, rfl⟩
  · refine hfair fun kept s hun => Or.inl ?_
    exact ⟨[], _, _, s, rfl, rfl, _, rfl, fun hsleep => by
      simp [Caretaker.sleeping, hun.daemon] at hsleep⟩
  · refine fun i => hfair fun kept s hun => Or.inr fun e s' hA hs => ?_
    obtain ⟨grace, rfl, -⟩ := hA
    simp [Caretaker.step, hun.runs] at hs
  · refine fun pid => hfair fun kept s hun => Or.inr fun e s' hA hs => ?_
    have hsent := hA.1.1
    rw [hun.signals] at hsent
    exact absurd hsent List.not_mem_nil
  · refine fun i => hfair fun kept s hun => Or.inr fun e s' hA hs => ?_
    subst hA
    cases Caretaker.stepped hs with
    | pollWait hfut hres =>
        rw [hun.waits] at hfut
        rw [List.mem_singleton.mp (List.mem_of_getElem? hfut), hun.stoppedTx] at hres
        cases hres
  · refine fun i => hfair fun kept s hun => Or.inr fun e s' hA hs => ?_
    subst hA
    cases Caretaker.stepped hs with
    | pollTerminate hfut hover =>
        rw [hun.terminates] at hfut
        rw [List.mem_singleton.mp (List.mem_of_getElem? hfut)] at hover
        simp [Caretaker.waitOver, hun.waits] at hover

/-- **When a `Terminate` is honoured**: in every fair execution whose clock readings are in order,
    exactly with a retry count of at most one. With a greater count (the default is the greatest
    there is) a program that cannot be spawned is never stopped, although each of its rounds, its
    mailbox and its timers are served. -/
theorem terminate_honoured (S : Setting) :
    (∀ x : Lts.Execution (Caretaker.step S) .init, Fair x → (∀ n, OnTime (x.past n)) →
      x.LeadsTo Caretaker.asked Caretaker.over) ↔ S.program.retry.count ≤ 1 := by
  constructor
  · intro hall
    by_contra hcount
    rw [not_le] at hcount
    have hreach : ∀ n, Regular S ((unheard S).state n) := fun n =>
      regular_reach ((unheard S).reach n)
    have hontime : ∀ n, OnTime ((unheard S).past n) := by
      intro n
      obtain ⟨m, hnm, hm, -⟩ := unheard_returns hcount n
      obtain ⟨k, hk⟩ := (unheard S).past_append hnm
      rw [hk, onTime_append] at hm
      exact hm.1
    obtain ⟨n, -, -, kept, hun, -⟩ := unheard_returns hcount 0
    have hasked : ((unheard S).state n).asked := Or.inr (by simp [hun.terminates])
    obtain ⟨m, -, hover⟩ := hall _ (unheard_fair hcount) hontime n hasked
    -- over for good, but the next round begins
    obtain ⟨k, hmk, -, kept', hun', -⟩ := unheard_returns hcount m
    have hover' := (unheard S).stays hreach (P := Caretaker.over)
      (fun _ _ _ hI hover hs => (over_step hI hover hs).1) hmk hover
    rcases hover' with ⟨res, hd⟩ | hd <;> cases hd.symm.trans hun'.daemon
  · intro hone x hx _
    have hI : ∀ n, Regular S (x.state n) := fun n => regular_reach (x.reach n)
    have hmeets : x.Meets fun s e => ¬ Marks s e (some true) := fun n e _ =>
      no_again (counted_reach (x.reach n)) hone e
    have hends := asked_ends hI hx (struck_ends hI hx hmeets)
    exact fun n hasked => sent_ends hI hx hends n hasked

end Blahaj
