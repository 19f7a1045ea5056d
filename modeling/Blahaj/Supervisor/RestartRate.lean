/-
  File:      Blahaj/Supervisor/RestartRate.lean
  Subject:   HOW OFTEN A DAEMON RESTARTS, and when it gives up.

  `drive` polls a `RepeatedActFut` whose rounds end as the environment says. A run of it is
  read off as `RoundEvent`s: a round is started (the slot was empty, the factory is called), a
  round that ended with `Some` is marked, a round ended with `None`.

  * `Shape` -- the invariant: the events so far are rounds of one start and one tolerated mark
    each, followed by nothing, by an open round, or by the event that resolved the future;
  * `shape_step`, `shape_run` -- each poll keeps it, so every run has it;
  * `retry_rate` -- the give-up rule, the delay and the rate bound, read off the shape.
-/
import Blahaj.Supervisor.Futs
import Blahaj.Lib.Lts
import Mathlib.Algebra.Order.Group.Nat

namespace Blahaj.RestartRate

open SlidingWindow

variable {I : Type}

/-! ## 1. Driving the future -/

/-- One poll: the clock, and what the round's future answers if it is polled. -/
structure RoundPoll (I : Type) where
  clock : Clock
  inner : Poll (Option I)

/-- A `RepeatedActFut` under way: the latest clock reading, and its result once it has one. -/
structure Driven (I : Type) where
  fut : RepeatedActFut Unit I
  clock : Instant
  resolved : Option Bool

/-- The future as `Handler<Daemon>` makes it, with nothing marked. -/
def Driven.new (retry : Retry) (initialState : I) : Driven I where
  fut := .new initialState ⟨[], retry.window, retry.count⟩ retry.delay
  clock := 0
  resolved := none

/-- One poll of the future; a future that has resolved is not polled again. -/
def drive (s : Driven I) (e : RoundPoll I) : Option (Driven I) :=
  match s.resolved with
  | some _ => none
  | none =>
    match s.fut.poll (fun _ _ => ((), ())) (fun _ _ => (e.inner, (), ())) e.clock () with
    | none => none
    | some (.pending, fut, _) => some ⟨fut, e.clock.later, none⟩
    | some (.ready res, fut, _) => some ⟨fut, e.clock.later, some res⟩

/-- What is assumed of a poll: clock readings do not decrease, and a sleep does not elapse
    before its deadline. -/
structure Timely (s : Driven I) (e : RoundPoll I) : Prop where
  now : s.clock ≤ e.clock.now
  later : e.clock.now ≤ e.clock.later
  sleep : ∀ sleep, s.fut.fut = .waiting sleep → e.clock.elapsed = true →
    sleep.deadline ≤ e.clock.now

/-! ## 2. What a run shows -/

/-- A round is started, marked, or ended by the termination signal. -/
inductive RoundEvent where
  | start (t : Instant)
  | mark (t : Instant)
  | stop
  deriving DecidableEq, Repr

/-- What one poll shows. -/
def shown (s : Driven I) (e : RoundPoll I) : List RoundEvent :=
  match s.fut.fut, e.inner with
  | .empty, _ => [.start e.clock.now]
  | .polling _, .ready (some _) => [.mark e.clock.now]
  | .polling _, .ready none => [.stop]
  | .polling _, .pending => []
  | .waiting _, _ => []

/-- The events of a run, in order. -/
def events (h : List (Driven I × RoundPoll I)) : List RoundEvent :=
  h.flatMap fun x => shown x.1 x.2

theorem events_snoc (h : List (Driven I × RoundPoll I)) (s : Driven I) (e : RoundPoll I) :
    events (h ++ [(s, e)]) = events h ++ shown s e := by
  simp [events]

/-- The clock readings at which rounds were started. -/
def starts (l : List RoundEvent) : List Instant :=
  l.filterMap fun | .start t => some t | _ => none

/-- The clock readings that were marked. -/
def marks (l : List RoundEvent) : List Instant :=
  l.filterMap fun | .mark t => some t | _ => none

/-- The events of rounds (start, mark). -/
def played (rounds : List (Instant × Instant)) : List RoundEvent :=
  rounds.flatMap fun r => [.start r.1, .mark r.2]

theorem starts_append (l k : List RoundEvent) : starts (l ++ k) = starts l ++ starts k :=
  List.filterMap_append

theorem marks_append (l k : List RoundEvent) : marks (l ++ k) = marks l ++ marks k :=
  List.filterMap_append

theorem played_snoc (rounds : List (Instant × Instant)) (r : Instant × Instant) :
    played (rounds ++ [r]) = played rounds ++ [.start r.1, .mark r.2] := by
  simp [played]

theorem starts_played (rounds : List (Instant × Instant)) :
    starts (played rounds) = rounds.map Prod.fst := by
  induction rounds with
  | nil => rfl
  | cons r rounds ih =>
      show r.1 :: starts (played rounds) = r.1 :: rounds.map Prod.fst
      rw [ih]

theorem marks_played (rounds : List (Instant × Instant)) :
    marks (played rounds) = rounds.map Prod.snd := by
  induction rounds with
  | nil => rfl
  | cons r rounds ih =>
      show r.2 :: marks (played rounds) = r.2 :: rounds.map Prod.snd
      rw [ih]

theorem stop_not_played (rounds : List (Instant × Instant)) : .stop ∉ played rounds := by
  simp [played]

/-! ## 3. The shape of a run -/

/-- Rounds that have all been marked and tolerated, over a guard that keeps their marks. -/
structure Past (retry : Retry) (rounds : List (Instant × Instant)) (fut : RepeatedActFut Unit I) :
    Prop where
  paced : Paced retry.delay rounds
  sparse : Sparse retry.window retry.count (rounds.map Prod.snd)
  guard : fut.retryGuard.Keeps retry.window retry.count (rounds.map Prod.snd)
  interval : fut.retryInterval = retry.delay

/-- **The shape of a run**: the rounds that are over, and where the future stands after them. -/
inductive Shape (retry : Retry) : Driven I → List RoundEvent → Prop where
  | asleep {s : Driven I} (rounds : List (Instant × Instant)) (sleep : Sleep) (i : I)
      (past : Past retry rounds s.fut) (hres : s.resolved = none)
      (hslot : s.fut.fut = .waiting sleep) (hstate : s.fut.state = some i)
      (hclock : ∀ r ∈ rounds, r.2 ≤ s.clock)
      (hsleep : ∀ r ∈ rounds, r.2 + retry.delay ≤ sleep.deadline) :
      Shape retry s (played rounds)
  | emptied {s : Driven I} (rounds : List (Instant × Instant)) (i : I)
      (past : Past retry rounds s.fut) (hres : s.resolved = none)
      (hslot : s.fut.fut = .empty) (hstate : s.fut.state = some i)
      (hclock : ∀ r ∈ rounds, r.2 + retry.delay ≤ s.clock) :
      Shape retry s (played rounds)
  | running {s : Driven I} (rounds : List (Instant × Instant)) (t : Instant)
      (past : Past retry rounds s.fut) (hres : s.resolved = none)
      (hslot : s.fut.fut = .polling ()) (ht : ∀ r ∈ rounds, r.2 + retry.delay ≤ t)
      (hclock : t ≤ s.clock) :
      Shape retry s (played rounds ++ [.start t])
  | gaveUp {s : Driven I} (rounds : List (Instant × Instant)) (t m : Instant)
      (hp : Paced retry.delay rounds)
      (hs : Sparse retry.window retry.count (rounds.map Prod.snd))
      (hg : s.fut.retryGuard.Keeps retry.window retry.count (rounds.map Prod.snd ++ [m]))
      (hres : s.resolved = some false) (ht : ∀ r ∈ rounds, r.2 + retry.delay ≤ t)
      (hm : retry.count ≤ (window retry.window m (rounds.map Prod.snd ++ [m])).length) :
      Shape retry s (played rounds ++ [.start t, .mark m])
  | stopped {s : Driven I} (rounds : List (Instant × Instant)) (t : Instant)
      (past : Past retry rounds s.fut) (hres : s.resolved = some true)
      (ht : ∀ r ∈ rounds, r.2 + retry.delay ≤ t) :
      Shape retry s (played rounds ++ [.start t, .stop])

theorem shape_new (retry : Retry) (i : I) : Shape retry (Driven.new retry i) [] :=
  .emptied [] i
    { paced := ⟨by simp, .nil⟩, sparse := .nil, guard := RetryGuard.keeps_new _ _, interval := rfl }
    rfl rfl rfl (by simp)

/-- What one poll of `drive` does, by the slot it finds. -/
theorem drive_polled {s s' : Driven I} {e : RoundPoll I} (h : drive s e = some s') :
    s.resolved = none ∧ ∃ r fut', RepeatedActFut.Polled (fun _ _ => ((), ()))
      (fun _ _ => (e.inner, (), ())) e.clock s.fut () r fut' () ∧
      s' = ⟨fut', e.clock.later, match r with | .ready res => some res | .pending => none⟩ := by
  unfold drive at h
  cases hres : s.resolved with
  | some _ => simp [hres] at h
  | none =>
      simp only [hres] at h
      refine ⟨rfl, ?_⟩
      cases hp : s.fut.poll (fun _ _ => ((), ())) (fun _ _ => (e.inner, (), ())) e.clock () with
      | none => simp [hp] at h
      | some x =>
          obtain ⟨_ | _, fut', ⟨⟩⟩ := x
          · simp only [hp, Option.some.injEq] at h
            exact ⟨_, fut', RepeatedActFut.polled hp, h.symm⟩
          · simp only [hp, Option.some.injEq] at h
            exact ⟨_, fut', RepeatedActFut.polled hp, h.symm⟩

/-- A mark made after the rounds so far, at the clock reading `m`. -/
theorem Past.mark {retry : Retry} {rounds : List (Instant × Instant)} {fut : RepeatedActFut Unit I}
    (past : Past retry rounds fut) {m : Instant} (hm : ∀ r ∈ rounds, r.2 ≤ m) {ok : Bool}
    {guard : RetryGuard} (h : fut.retryGuard.mark m = some (ok, guard)) :
    guard.Keeps retry.window retry.count (rounds.map Prod.snd ++ [m]) ∧
      ok = decide ((window retry.window m (rounds.map Prod.snd ++ [m])).length < retry.count) := by
  have hmarks : ∀ t ∈ rounds.map Prod.snd, t ≤ m := by
    intro t ht
    obtain ⟨r, hr, rfl⟩ := List.mem_map.mp ht
    exact hm r hr
  obtain ⟨hk, -, hok⟩ := RetryGuard.mark_keeps past.guard hmarks h
  exact ⟨hk, hok⟩

/-- The rounds that are over stay over, whatever the slot holds. -/
theorem Past.slot {retry : Retry} {rounds : List (Instant × Instant)} {fut : RepeatedActFut Unit I}
    (past : Past retry rounds fut) (slot : FutureSlot Unit) (state : Option I) :
    Past retry rounds { fut with fut := slot, state := state } :=
  ⟨past.paced, past.sparse, past.guard, past.interval⟩

/-- A mark that is tolerated ends one more round. -/
theorem Past.tolerated {retry : Retry} {rounds : List (Instant × Instant)}
    {fut : RepeatedActFut Unit I} (past : Past retry rounds fut) {t m : Instant} (htm : t ≤ m)
    (hstart : ∀ r ∈ rounds, r.2 + retry.delay ≤ t) {guard : RetryGuard}
    (h : fut.retryGuard.mark m = some (true, guard)) (slot : FutureSlot Unit) (state : Option I) :
    Past retry (rounds ++ [(t, m)]) ⟨slot, state, guard, fut.retryInterval⟩ := by
  have hmark : ∀ r ∈ rounds, r.2 ≤ m := fun r hr =>
    ((Nat.le_add_right _ _).trans (hstart r hr)).trans htm
  obtain ⟨hk, hok⟩ := past.mark hmark h
  have hmarks : (rounds ++ [(t, m)]).map Prod.snd = rounds.map Prod.snd ++ [m] := by simp
  refine ⟨past.paced.snoc htm hstart, ?_, ?_, past.interval⟩
  · rw [hmarks]
    exact past.sparse.snoc (of_decide_eq_true hok.symm)
  · rw [hmarks]
    exact hk

/-- **Every timely poll keeps the shape.** -/
theorem shape_step {retry : Retry} {s s' : Driven I} {e : RoundPoll I} {l : List RoundEvent}
    (hsh : Shape retry s l) (ht : Timely s e) (h : drive s e = some s') :
    Shape retry s' (l ++ shown s e) := by
  obtain ⟨hnone, r, fut', hp, rfl⟩ := drive_polled h
  cases hsh with
  | asleep rounds sleep i past hres hslot hstate hclock hsleep =>
      have hshown : shown s e = [] := by simp [shown, hslot]
      rw [hshown, List.append_nil]
      cases hp with
      | asleep _ he =>
          exact .asleep rounds sleep i past rfl hslot hstate
            (fun r hr => ((hclock r hr).trans ht.now).trans ht.later) hsleep
      | woken _ he =>
          refine .emptied rounds i (past.slot _ _) rfl rfl hstate fun r hr => ?_
          exact ((hsleep r hr).trans (ht.sleep sleep hslot he)).trans ht.later
      | busy hs | again hs | giveUp hs | stopped hs | create hs => rw [hslot] at hs; cases hs
  | emptied rounds i past hres hslot hstate hclock =>
      have hshown : shown s e = [.start e.clock.now] := by simp [shown, hslot]
      rw [hshown]
      cases hp with
      | create _ hst =>
          exact .running rounds e.clock.now (past.slot _ _) rfl rfl
            (fun r hr => (hclock r hr).trans ht.now) ht.later
      | busy hs | again hs | giveUp hs | stopped hs | asleep hs | woken hs =>
          rw [hslot] at hs; cases hs
  | running rounds t past hres hslot hstart hclock =>
      have hnow : t ≤ e.clock.now := hclock.trans ht.now
      have hmark : ∀ r ∈ rounds, r.2 ≤ e.clock.now := fun r hr =>
        ((Nat.le_add_right _ _).trans (hstart r hr)).trans hnow
      have hshown : shown s e = match e.inner with
          | .ready (some _) => [.mark e.clock.now]
          | .ready none => [.stop]
          | .pending => [] := by
        unfold shown
        rw [hslot]
        cases e.inner with
        | pending => rfl
        | ready res => cases res <;> rfl
      rw [hshown]
      cases hp with
      | busy hs hinner =>
          rw [(Prod.mk.inj hinner).1, List.append_nil]
          exact .running rounds t (past.slot _ _) rfl rfl hstart
            ((hclock.trans ht.now).trans ht.later)
      | @again _ _ _ res guard hs hinner hm =>
          have hplayed : (played rounds ++ [.start t]) ++ [.mark e.clock.now] =
              played (rounds ++ [(t, e.clock.now)]) := by simp [played_snoc]
          rw [(Prod.mk.inj hinner).1, hplayed]
          refine .asleep _ ⟨e.clock.later + s.fut.retryInterval⟩ res
            (past.tolerated hnow hstart hm _ _) rfl rfl rfl ?_ ?_
          · refine List.forall_mem_append.mpr ⟨fun r hr => (hmark r hr).trans ht.later, ?_⟩
            simpa using ht.later
          · rw [past.interval]
            refine List.forall_mem_append.mpr ⟨fun r hr => ?_, by simpa using ht.later⟩
            exact Nat.add_le_add_right ((hmark r hr).trans ht.later) _
      | @giveUp _ _ _ res guard hs hinner hm =>
          rw [(Prod.mk.inj hinner).1, List.append_assoc]
          obtain ⟨hk, hok⟩ := past.mark hmark hm
          exact .gaveUp rounds t e.clock.now past.paced past.sparse hk rfl hstart
            (Nat.le_of_not_lt (of_decide_eq_false hok.symm))
      | stopped hs hinner =>
          rw [(Prod.mk.inj hinner).1, List.append_assoc]
          exact .stopped rounds t (past.slot _ _) rfl hstart
      | asleep hs | woken hs | create hs => rw [hslot] at hs; cases hs
  | gaveUp rounds t m _ _ _ hres => rw [hnone] at hres; cases hres
  | stopped rounds t _ hres => rw [hnone] at hres; cases hres

/-- **Every run of timely polls has the shape.** -/
theorem shape_run {retry : Retry} {i : I} {h : List (Driven I × RoundPoll I)} {s : Driven I}
    (hr : Lts.Run drive (Driven.new retry i) h s) (ht : ∀ x ∈ h, Timely x.1 x.2) :
    Shape retry s (events h) := by
  induction hr with
  | start => exact shape_new retry i
  | snoc e _ hs ih =>
      obtain ⟨hbefore, hlast⟩ := List.forall_mem_append.mp ht
      rw [events_snoc]
      exact shape_step (ih hbefore) (hlast _ (List.mem_singleton_self _)) hs

/-! ## 4. Give-up rule, delay and rate -/

theorem shape_resolved_false {retry : Retry} {s : Driven I} {l : List RoundEvent}
    (h : Shape retry s l) (hres : s.resolved = some false) :
    ∃ pre m, marks l = pre ++ [m] ∧
      retry.count ≤ (window retry.window m (pre ++ [m])).length := by
  cases h with
  | gaveUp rounds t m _ _ _ _ _ hm =>
      refine ⟨rounds.map Prod.snd, m, ?_, hm⟩
      rw [marks_append, marks_played]
      rfl
  | asleep _ _ _ _ hnone | emptied _ _ _ hnone | running _ _ _ hnone =>
      rw [hnone] at hres; cases hres
  | stopped _ _ _ htrue => rw [htrue] at hres; cases hres

/-- Where the future has not given up, every mark made was tolerated. -/
theorem shape_sparse {retry : Retry} {s : Driven I} {l : List RoundEvent}
    (h : Shape retry s l) (hres : s.resolved ≠ some false) :
    Sparse retry.window retry.count (marks l) := by
  cases h with
  | gaveUp _ _ _ _ _ _ hfalse => exact absurd hfalse hres
  | asleep rounds _ _ past | emptied rounds _ past =>
      rw [marks_played]
      exact past.sparse
  | running rounds _ past | stopped rounds _ past =>
      rw [marks_append, marks_played]
      simpa [marks] using past.sparse

/-- Where it has, every mark but the last was tolerated. -/
theorem shape_sparse_before {retry : Retry} {s : Driven I} {l : List RoundEvent}
    (h : Shape retry s l) (hres : s.resolved = some false) {pre : List Instant} {m : Instant}
    (hmarks : marks l = pre ++ [m]) : Sparse retry.window retry.count pre := by
  cases h with
  | gaveUp rounds t m' _ hs =>
      have hl : marks (played rounds ++ [.start t, .mark m']) = rounds.map Prod.snd ++ [m'] := by
        rw [marks_append, marks_played]
        rfl
      rw [hl] at hmarks
      obtain ⟨rfl, -⟩ := List.append_inj' hmarks rfl
      exact hs
  | asleep _ _ _ _ hnone | emptied _ _ _ hnone | running _ _ _ hnone =>
      rw [hnone] at hres; cases hres
  | stopped _ _ _ htrue => rw [htrue] at hres; cases hres

/-- **The give-up rule**: the condition of the bound holds at a mark exactly if it is the last
    one and the future resolved to `false`. -/
theorem shape_giveUp {retry : Retry} {s : Driven I} {l : List RoundEvent} (h : Shape retry s l)
    {pre post : List Instant} {m : Instant} (hmarks : marks l = pre ++ m :: post) :
    retry.count ≤ (window retry.window m (pre ++ [m])).length ↔
      post = [] ∧ s.resolved = some false := by
  by_cases hres : s.resolved = some false
  · obtain ⟨pre', m', hl, hcount⟩ := shape_resolved_false h hres
    have hbefore := shape_sparse_before h hres hl
    rw [hl] at hmarks
    constructor
    · intro hle
      refine ⟨?_, hres⟩
      cases post using List.reverseRecOn with
      | nil => rfl
      | append_singleton post x =>
          -- a mark with a mark after it is one of those tolerated
          have hsplit : pre' ++ [m'] = (pre ++ m :: post) ++ [x] := by simp [hmarks]
          obtain ⟨rfl, -⟩ := List.append_inj' hsplit rfl
          exact absurd (hbefore pre m post rfl) (Nat.not_lt.mpr hle)
    · rintro ⟨rfl, -⟩
      obtain ⟨rfl, hm⟩ := List.append_inj' hmarks rfl
      cases hm
      exact hcount
  · constructor
    · intro hle
      exact absurd (shape_sparse h hres pre m post hmarks) (Nat.not_lt.mpr hle)
    · rintro ⟨-, hfalse⟩
      exact absurd hfalse hres

/-- **Resolving to `true`** is what a round that ends with `None` does, once and last. -/
theorem shape_stop {retry : Retry} {s : Driven I} {l : List RoundEvent} (h : Shape retry s l) :
    s.resolved = some true ↔ ∃ pre, l = pre ++ [.stop] ∧ .stop ∉ pre := by
  have hplayed : ∀ rounds pre, played rounds ≠ pre ++ [.stop] := fun rounds pre he =>
    stop_not_played rounds (by rw [he]; simp)
  cases h with
  | asleep rounds _ _ _ hnone | emptied rounds _ _ hnone =>
      rw [hnone]
      simp [hplayed]
  | running rounds t _ hnone =>
      rw [hnone]
      constructor
      · intro h; cases h
      · rintro ⟨pre, he, -⟩
        obtain ⟨-, hx⟩ := List.append_inj' he rfl
        cases hx
  | gaveUp rounds t m _ _ _ hfalse =>
      rw [hfalse]
      constructor
      · intro h; cases h
      · rintro ⟨pre, he, -⟩
        rw [← List.append_cancel_left_eq (played rounds), ← List.append_assoc] at he
        have := congrArg List.getLast? he
        simp at this
  | stopped rounds t _ htrue =>
      refine ⟨fun _ => ⟨played rounds ++ [.start t], by simp, ?_⟩, fun _ => htrue⟩
      simp [stop_not_played]

/-- The guard has been marked with the ends of the `Some` rounds and with nothing else. -/
theorem shape_guard {retry : Retry} {s : Driven I} {l : List RoundEvent} (h : Shape retry s l) :
    s.fut.retryGuard.Keeps retry.window retry.count (marks l) := by
  cases h with
  | asleep rounds _ _ past | emptied rounds _ past =>
      rw [marks_played]
      exact past.guard
  | running rounds _ past | stopped rounds _ past =>
      rw [marks_append, marks_played]
      simpa [marks] using past.guard
  | gaveUp rounds t m _ _ hg =>
      rw [marks_append, marks_played]
      exact hg

/-- A start that follows a mark directly lies at least `d` after it. -/
def Delayed (d : Duration) (l : List RoundEvent) : Prop :=
  ∀ pre m t post, l = pre ++ .mark m :: .start t :: post → m + d ≤ t

/-- What the last event of a list adds to `Delayed`. -/
theorem Delayed.snoc {d : Duration} {l : List RoundEvent} (h : Delayed d l) {x : RoundEvent}
    (hx : ∀ pre m t, l = pre ++ [.mark m] → x = .start t → m + d ≤ t) : Delayed d (l ++ [x]) := by
  intro pre m t post he
  cases post using List.reverseRecOn with
  | nil =>
      have hsplit : l ++ [x] = (pre ++ [.mark m]) ++ [.start t] := by simp [he]
      obtain ⟨hl, hlast⟩ := List.append_inj' hsplit rfl
      cases hlast
      exact hx pre m t hl rfl
  | append_singleton post y =>
      have hsplit : l ++ [x] = (pre ++ .mark m :: .start t :: post) ++ [y] := by simp [he]
      obtain ⟨hl, -⟩ := List.append_inj' hsplit rfl
      exact h pre m t post hl

theorem played_getLast {rounds : List (Instant × Instant)} {pre : List RoundEvent} {m : Instant}
    (h : played rounds = pre ++ [.mark m]) : ∃ r ∈ rounds, r.2 = m := by
  cases rounds using List.reverseRecOn with
  | nil => simp [played] at h
  | append_singleton rounds r =>
      have hsplit : (played rounds ++ [.start r.1]) ++ [.mark r.2] = pre ++ [.mark m] := by
        rw [← h, played_snoc, List.append_assoc]
        rfl
      obtain ⟨-, hlast⟩ := List.append_inj' hsplit rfl
      cases hlast
      exact ⟨r, by simp, rfl⟩

/-- Rounds that are over, and a start after them. -/
theorem delayed_start {d : Duration} {rounds : List (Instant × Instant)} {t : Instant}
    (h : Delayed d (played rounds)) (ht : ∀ r ∈ rounds, r.2 + d ≤ t) :
    Delayed d (played rounds ++ [.start t]) := by
  refine h.snoc fun pre m u hl hu => ?_
  cases hu
  obtain ⟨r, hr, rfl⟩ := played_getLast hl
  exact ht r hr

theorem delayed_played {d : Duration} {rounds : List (Instant × Instant)}
    (hp : Paced d rounds) : Delayed d (played rounds) := by
  induction rounds using List.reverseRecOn with
  | nil =>
      intro pre m t post he
      simp [played] at he
  | append_singleton rounds r ih =>
      obtain ⟨hle, hpair⟩ := hp
      rw [List.pairwise_append] at hpair
      have hbefore := ih ⟨fun a ha => hle a (by simp [ha]), hpair.1⟩
      have hstart := delayed_start hbefore fun a ha => hpair.2.2 a ha r (by simp)
      have hsplit : played (rounds ++ [r]) = (played rounds ++ [.start r.1]) ++ [.mark r.2] := by
        rw [played_snoc, List.append_assoc]
        rfl
      rw [hsplit]
      exact hstart.snoc fun _ _ _ _ hx => by cases hx

/-- **The delay**: a round that follows a tolerated mark starts no earlier than the delay after
    it. -/
theorem shape_delayed {retry : Retry} {s : Driven I} {l : List RoundEvent}
    (h : Shape retry s l) : Delayed retry.delay l := by
  cases h with
  | asleep rounds _ _ past | emptied rounds _ past => exact delayed_played past.paced
  | running rounds t past _ _ ht => exact delayed_start (delayed_played past.paced) ht
  | gaveUp rounds t m hp _ _ _ ht =>
      have hsplit : played rounds ++ [.start t, .mark m] =
          (played rounds ++ [.start t]) ++ [.mark m] := by simp
      rw [hsplit]
      exact (delayed_start (delayed_played hp) ht).snoc fun _ _ _ _ hx => by cases hx
  | stopped rounds t past _ ht =>
      have hsplit : played rounds ++ [.start t, .stop] =
          (played rounds ++ [.start t]) ++ [.stop] := by simp
      rw [hsplit]
      exact (delayed_start (delayed_played past.paced) ht).snoc fun _ _ _ _ hx => by cases hx

/-- Rounds that are over, without a start after them: at most as many starts as with one. -/
theorem startsIn_played_le {retry : Retry} {rounds : List (Instant × Instant)}
    (hp : Paced retry.delay rounds)
    (hs : Sparse retry.window retry.count (rounds.map Prod.snd)) (t : Instant) :
    (startsIn retry.window t (rounds.map Prod.fst)).length ≤ max 1 retry.count := by
  cases rounds using List.reverseRecOn with
  | nil => simp [startsIn]
  | append_singleton rounds r =>
      obtain ⟨hle, hpair⟩ := hp
      rw [List.pairwise_append] at hpair
      rw [List.map_append] at hs ⊢
      exact starts_le (fun x => Nat.le_add_right x _)
        ⟨fun a ha => hle a (by simp [ha]), hpair.1⟩
        (fun a ha => hpair.2.2 a ha r (by simp)) hs.of_append t

/-- **The rate bound.** -/
theorem shape_rate {retry : Retry} {s : Driven I} {l : List RoundEvent} (h : Shape retry s l)
    (t : Instant) : (startsIn retry.window t (starts l)).length ≤ max 1 retry.count := by
  have hopen : ∀ {rounds : List (Instant × Instant)} {u : Instant} {tail : List RoundEvent},
      starts tail = [u] → Paced retry.delay rounds →
      Sparse retry.window retry.count (rounds.map Prod.snd) →
      (∀ r ∈ rounds, r.2 + retry.delay ≤ u) →
      (startsIn retry.window t (starts (played rounds ++ tail))).length ≤ max 1 retry.count := by
    intro rounds u tail htail hp hs hu
    rw [starts_append, starts_played, htail]
    exact starts_le (fun x => Nat.le_add_right x _) hp hu hs t
  cases h with
  | asleep rounds _ _ past | emptied rounds _ past =>
      rw [starts_played]
      exact startsIn_played_le past.paced past.sparse t
  | running rounds u past _ _ hu => exact hopen rfl past.paced past.sparse hu
  | gaveUp rounds u m hp hs _ _ hu => exact hopen rfl hp hs hu
  | stopped rounds u past _ hu => exact hopen rfl past.paced past.sparse hu

/-- **Restart rate.** For every retry configuration and every run of timely polls:
    the future resolves to `false` exactly at the first mark whose closed window holds the
    configured count of marks, and to `true` exactly when a round ends with `None`, which is the
    last event and is never marked; a round starts no earlier than the delay after the mark
    before it; and no closed interval of the window's length holds more than `max 1 count`
    starts. -/
theorem retry_rate {retry : Retry} {i : I} {h : List (Driven I × RoundPoll I)} {s : Driven I}
    (hr : Lts.Run drive (Driven.new retry i) h s) (ht : ∀ x ∈ h, Timely x.1 x.2) :
    (∀ pre m post, marks (events h) = pre ++ m :: post →
      (retry.count ≤ (window retry.window m (pre ++ [m])).length ↔
        post = [] ∧ s.resolved = some false)) ∧
    (s.resolved = some false → marks (events h) ≠ []) ∧
    (s.resolved = some true ↔ ∃ pre, events h = pre ++ [.stop] ∧ .stop ∉ pre) ∧
    s.fut.retryGuard.Keeps retry.window retry.count (marks (events h)) ∧
    (∀ pre m t post, events h = pre ++ .mark m :: .start t :: post → m + retry.delay ≤ t) ∧
    ∀ t, (startsIn retry.window t (starts (events h))).length ≤ max 1 retry.count := by
  have hsh := shape_run hr ht
  refine ⟨fun pre m post => shape_giveUp hsh, fun hres => ?_, shape_stop hsh, shape_guard hsh,
    shape_delayed hsh, shape_rate hsh⟩
  obtain ⟨pre, m, hl, -⟩ := shape_resolved_false hsh hres
  rw [hl]
  simp

/-- Two rounds under a tolerance of two in a window of ten: started at 20 and 24, marked at 21
    and 25. -/
def twoRounds : List (RoundPoll Unit) :=
  [⟨⟨20, 20, false⟩, .pending⟩, ⟨⟨21, 22, false⟩, .ready (some ())⟩, ⟨⟨23, 23, true⟩, .pending⟩,
    ⟨⟨24, 24, false⟩, .pending⟩, ⟨⟨25, 26, false⟩, .ready (some ())⟩]

theorem retry_rate_two_rounds :
    ∃ s, Lts.exec drive (Driven.new ⟨10, 2, 1⟩ ()) twoRounds = some s ∧
      s.resolved = some false ∧
      (2 ≤ (window 10 25 [21, 25]).length ↔ ([] : List Instant) = [] ∧ s.resolved = some false) ∧
      ∀ t, (startsIn 10 t [20, 24]).length ≤ 2 := by
  have hex : Lts.exec drive (Driven.new ⟨10, 2, 1⟩ ()) twoRounds =
      some ⟨⟨.polling (), none, ⟨[21, 25], 10, 2⟩, 1⟩, 26, some false⟩ := rfl
  have ht : ∀ x ∈ Lts.history drive (Driven.new ⟨10, 2, 1⟩ ()) twoRounds, Timely x.1 x.2 := by
    intro x hx
    simp [Lts.history, twoRounds, drive, Driven.new, RepeatedActFut.poll, RepeatedActFut.new,
      RetryGuard.mark, RetryGuard.evict] at hx
    rcases hx with rfl | rfl | rfl | rfl | rfl <;>
      exact ⟨by decide, by decide, by intro sleep h; cases h <;> decide⟩
  have h := retry_rate (Lts.run_history hex) ht
  exact ⟨_, hex, rfl, h.1 [21] 25 [] rfl, h.2.2.2.2.2⟩

end Blahaj.RestartRate
