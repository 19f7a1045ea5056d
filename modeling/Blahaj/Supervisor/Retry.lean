/-
  File:      Blahaj/Supervisor/Retry.lean
  Subject:   `RetryGuard` (supervisor/retry.rs): the marks of the last `tolerance_interval`, and
             whether one more is tolerated.

  `mark` pushes the clock reading, evicts what lies before the window, and counts the rest. The
  eviction counts the expired marks anywhere in the deque and drains that many from the front;
  `Keeps` is the invariant under which that is exact: the deque is the window of the marks made
  so far, which is sorted as long as the clock readings are. `mark_exact` is what this comes to
  for a sequence of marks.
-/
import Blahaj.Base
import Blahaj.Lib.Lts
import Blahaj.Lib.Window

namespace Blahaj

open SlidingWindow

/-! ## 1. The guard -/

/-- `RetryGuard`. -/
structure RetryGuard where
  retries : List Instant
  toleranceInterval : Duration
  toleranceCount : Nat
  deriving DecidableEq, Repr

/-- Evict all events before a given time. -/
def RetryGuard.evict (self : RetryGuard) (before : Instant) : RetryGuard :=
  let evictRange := self.retries.countP (· < before)
  { self with retries := self.retries.drop evictRange }

/-- Mark current event: `false` if the upper bound is reached. `none` where `now` minus the
    window underflows the clock, which panics. -/
def RetryGuard.mark (self : RetryGuard) (now : Instant) : Option (Bool × RetryGuard) :=
  if self.toleranceInterval ≤ now then
    let pushed := { self with retries := self.retries ++ [now] }
    let kept := pushed.evict (now - self.toleranceInterval)
    some (decide (kept.retries.length < kept.toleranceCount), kept)
  else none

/-! ## 2. What the guard keeps -/

/-- The guard was made with window `w` and count `c`, and has kept of the marks `ms` exactly
    those in the window of the last one. -/
structure RetryGuard.Keeps (w : Duration) (c : Nat) (ms : List Instant) (g : RetryGuard) :
    Prop where
  interval : g.toleranceInterval = w
  count : g.toleranceCount = c
  sorted : ms.Pairwise (· ≤ ·)
  retries : ∀ m, (∀ t ∈ ms, t ≤ m) → window w m g.retries = window w m ms
  live : ∀ t ∈ g.retries, t ∈ ms
  order : g.retries.Pairwise (· ≤ ·)

theorem RetryGuard.keeps_new (w : Duration) (c : Nat) : RetryGuard.Keeps w c [] ⟨[], w, c⟩ where
  interval := rfl
  count := rfl
  sorted := .nil
  retries _ _ := rfl
  live _ h := h
  order := .nil

/-- On a sorted deque the eviction is exact: what stays is what the bound does not exclude. -/
theorem RetryGuard.evict_retries {g : RetryGuard} (h : g.retries.Pairwise (· ≤ ·))
    (before : Instant) : (g.evict before).retries = g.retries.filter (before ≤ ·) :=
  drop_countP_lt before h

/-- With every item at most `now`, the eviction bound is the start of the window at `now`. -/
theorem filter_eq_window {w now : Nat} (hw : w ≤ now) {l : List Nat} (hl : ∀ t ∈ l, t ≤ now) :
    l.filter (now - w ≤ ·) = window w now l := by
  refine List.filter_congr fun t ht => ?_
  have hle := hl t ht
  simp only [decide_eq_decide]
  omega

/-- **One mark.** The guard keeps the marks in the window of the new one, and tolerates it
    exactly when fewer than the count lie there, the new one included. -/
theorem RetryGuard.mark_keeps {w : Duration} {c : Nat} {ms : List Instant} {g g' : RetryGuard}
    {now : Instant} {ok : Bool} (hg : g.Keeps w c ms) (hnow : ∀ t ∈ ms, t ≤ now)
    (h : g.mark now = some (ok, g')) :
    g'.Keeps w c (ms ++ [now]) ∧ g'.retries = window w now (ms ++ [now]) ∧
      ok = decide ((window w now (ms ++ [now])).length < c) := by
  obtain ⟨retries, interval, count⟩ := g
  obtain rfl : interval = w := hg.interval
  obtain rfl : count = c := hg.count
  unfold RetryGuard.mark at h
  split at h
  case isFalse => cases h
  case isTrue hw =>
    simp only [Option.some.injEq, Prod.mk.injEq] at h
    obtain ⟨rfl, rfl⟩ := h
    have hall : ∀ t ∈ retries ++ [now], t ≤ now :=
      List.forall_mem_append.mpr ⟨fun t ht => hnow t (hg.live t ht), by simp⟩
    have hms : ∀ t ∈ ms ++ [now], t ≤ now := List.forall_mem_append.mpr ⟨hnow, by simp⟩
    have hsorted : (retries ++ [now]).Pairwise (· ≤ ·) :=
      pairwise_snoc hg.order fun t ht => hnow t (hg.live t ht)
    have hevict := RetryGuard.evict_retries (g := ⟨retries ++ [now], interval, count⟩) hsorted
      (now - interval)
    have hkept : (RetryGuard.evict ⟨retries ++ [now], interval, count⟩
        (now - interval)).retries = window interval now (ms ++ [now]) := by
      rw [hevict, filter_eq_window hw hall, window_append, hg.retries now hnow, ← window_append]
    refine ⟨⟨rfl, rfl, pairwise_snoc hg.sorted hnow, fun m hm => ?_, fun t ht => ?_, ?_⟩,
      hkept, ?_⟩
    · rw [hkept]
      exact window_window (hm now (by simp)) hms
    · rw [hkept] at ht
      exact (mem_window.mp ht).1
    · rw [hevict]
      exact hsorted.filter _
    · rw [hkept]
      rfl

/-! ## 3. A sequence of marks -/

/-- The guard a mark leaves. -/
def RetryGuard.marked (self : RetryGuard) (now : Instant) : Option RetryGuard :=
  (self.mark now).map Prod.snd

/-- A mark does not underflow the clock where its window begins after the clock does. -/
theorem RetryGuard.mark_some {g : RetryGuard} {now : Instant} (h : g.toleranceInterval ≤ now) :
    ∃ ok g', g.mark now = some (ok, g') := by
  unfold RetryGuard.mark
  rw [if_pos h]
  exact ⟨_, _, rfl⟩

/-- Marks by a clock that never goes back leave a guard that keeps them. -/
theorem RetryGuard.keeps_marks (w : Duration) (c : Nat) {ts : List Instant}
    (hsorted : ts.Pairwise (· ≤ ·)) (hw : ∀ t ∈ ts, w ≤ t) :
    ∃ g, Lts.exec RetryGuard.marked ⟨[], w, c⟩ ts = some g ∧ g.Keeps w c ts := by
  induction ts using List.reverseRecOn with
  | nil => exact ⟨_, rfl, RetryGuard.keeps_new w c⟩
  | append_singleton ts now ih =>
      rw [List.pairwise_append] at hsorted
      obtain ⟨g, hg, hk⟩ := ih hsorted.1 fun t ht => hw t (by simp [ht])
      have hle : g.toleranceInterval ≤ now := by
        rw [hk.interval]
        exact hw now (by simp)
      obtain ⟨ok, g', hm⟩ := RetryGuard.mark_some hle
      have hnow : ∀ t ∈ ts, t ≤ now := fun t ht => hsorted.2.2 t ht now (by simp)
      refine ⟨g', Lts.exec_snoc hg ?_, (RetryGuard.mark_keeps hk hnow hm).1⟩
      rw [RetryGuard.marked, hm]
      rfl

/-- **The guard keeps exactly the marks of its window.** After any sequence of marks by a clock
    that never goes back, one more keeps those from `now - w` on, in order and with multiplicity;
    what it evicts from the front lies before; and it is tolerated exactly when fewer than `c`
    are kept. -/
theorem RetryGuard.mark_exact {w : Duration} {c : Nat} {ts : List Instant} {now : Instant}
    (hsorted : (ts ++ [now]).Pairwise (· ≤ ·)) (hw : ∀ t ∈ ts ++ [now], w ≤ t) :
    ∃ g ok g', Lts.exec RetryGuard.marked ⟨[], w, c⟩ ts = some g ∧ g.mark now = some (ok, g') ∧
      g'.retries = (ts ++ [now]).filter (now - w ≤ ·) ∧ g'.retries.Pairwise (· ≤ ·) ∧
      g.retries ++ [now] = (g.retries ++ [now]).filter (· < now - w) ++ g'.retries ∧
      (ok = true ↔ g'.retries.length < c) := by
  have hparts := List.pairwise_append.mp hsorted
  have hnow : ∀ t ∈ ts, t ≤ now := fun t ht => hparts.2.2 t ht now (by simp)
  have hall : ∀ t ∈ ts ++ [now], t ≤ now := List.forall_mem_append.mpr ⟨hnow, by simp⟩
  have hwnow : w ≤ now := hw now (by simp)
  obtain ⟨g, hg, hk⟩ := RetryGuard.keeps_marks w c hparts.1 fun t ht => hw t (by simp [ht])
  have hle : g.toleranceInterval ≤ now := by
    rw [hk.interval]
    exact hwnow
  obtain ⟨ok, g', hm⟩ := RetryGuard.mark_some hle
  obtain ⟨hk', hkept, hok⟩ := RetryGuard.mark_keeps hk hnow hm
  have hpushed : (g.retries ++ [now]).Pairwise (· ≤ ·) :=
    pairwise_snoc hk.order fun t ht => hnow t (hk.live t ht)
  -- the deque is cut where the count says: the expired marks in front, the live ones behind
  have hcut : g'.retries = (g.retries ++ [now]).drop
      ((g.retries ++ [now]).countP (· < now - w)) := by
    unfold RetryGuard.mark at hm
    rw [hk.interval, if_pos hwnow] at hm
    obtain ⟨-, rfl⟩ := Prod.mk.inj (Option.some.inj hm)
    rfl
  refine ⟨g, ok, g', hg, hm, ?_, hk'.order, ?_, ?_⟩
  · rw [hkept, filter_eq_window hwnow hall]
  · rw [← take_countP_lt _ hpushed, hcut, List.take_append_drop]
  · rw [hok, hkept, decide_eq_true_iff]

/-- A mark on the edge of the window is kept, one before it is not, and two at one time count
    twice. -/
theorem RetryGuard.mark_exact_edge :
    ∃ g ok g', Lts.exec RetryGuard.marked ⟨[], 5, 4⟩ [6, 7, 9, 9] = some g ∧
      g.mark 12 = some (ok, g') ∧ g'.retries = [6, 7, 9, 9, 12].filter (12 - 5 ≤ ·) ∧
      g'.retries.Pairwise (· ≤ ·) ∧
      g.retries ++ [12] = (g.retries ++ [12]).filter (· < 12 - 5) ++ g'.retries ∧
      (ok = true ↔ g'.retries.length < 4) :=
  RetryGuard.mark_exact (by decide) (by decide)

end Blahaj
