/-
  File:      Blahaj/Lib/Window.lean
  Subject:   SLIDING WINDOWS over recorded instants: eviction from the front of a sorted list, and
             how often something that is admitted by a window can happen in one interval.

  * `drop_countP_lt` -- dropping as many items from the front as lie below a bound is filtering,
    on a sorted list (and only there: the count does not say where the items are), and
    `take_countP_lt` says what is dropped;
  * `window`, `window_window` -- the items at most `w` before `m`; looking through an earlier
    window first loses nothing;
  * `Sparse` -- every item finds fewer than `c` items in its own window;
  * `starts_le` -- in rounds that start, then mark, then start again, with sparse marks, every
    closed interval of length `w` holds at most `max 1 c` starts.
-/
import Mathlib.Algebra.Order.Monoid.Unbundled.Basic
import Mathlib.Data.List.Induction
import Mathlib.Order.Lattice

namespace SlidingWindow

variable {T : Type*} [LinearOrder T]

/-! ## 1. Eviction -/

/-- **On a sorted list, dropping the number of items below `b` leaves the items from `b` on.** -/
theorem drop_countP_lt (b : T) {l : List T} (hl : l.Pairwise (· ≤ ·)) :
    l.drop (l.countP (· < b)) = l.filter (b ≤ ·) := by
  induction l with
  | nil => rfl
  | cons a l ih =>
      rw [List.pairwise_cons] at hl
      by_cases ha : a < b
      · have hb : ¬ b ≤ a := not_le.mpr ha
        simp [ha, hb, ih hl.2]
      · -- nothing behind `a` lies below `b`, so nothing is dropped
        have hle : b ≤ a := not_lt.mp ha
        have hnone : l.countP (· < b) = 0 := by
          rw [List.countP_eq_zero]
          intro x hx
          simpa using hle.trans (hl.1 x hx)
        have hall : l.filter (b ≤ ·) = l := by
          rw [List.filter_eq_self]
          intro x hx
          simpa using hle.trans (hl.1 x hx)
        simp [ha, hle, hnone, hall]

/-- What is dropped there are the items below `b`. -/
theorem take_countP_lt (b : T) {l : List T} (hl : l.Pairwise (· ≤ ·)) :
    l.take (l.countP (· < b)) = l.filter (· < b) := by
  induction l with
  | nil => rfl
  | cons a l ih =>
      rw [List.pairwise_cons] at hl
      by_cases ha : a < b
      · simp [ha, ih hl.2]
      · have hnone : ∀ x ∈ l, ¬ x < b := fun x hx => not_lt.mpr ((not_lt.mp ha).trans (hl.1 x hx))
        have hcount : l.countP (· < b) = 0 := by
          rw [List.countP_eq_zero]
          simpa using hnone
        have hall : l.filter (· < b) = [] := by
          rw [List.filter_eq_nil_iff]
          simpa using hnone
        simp [ha, hcount, hall]

theorem pairwise_snoc {α : Type*} {R : α → α → Prop} {l : List α} {a : α} (hl : l.Pairwise R)
    (ha : ∀ x ∈ l, R x a) : (l ++ [a]).Pairwise R := by
  rw [List.pairwise_append]
  exact ⟨hl, List.pairwise_singleton _ _, fun x hx y hy => by
    rw [List.mem_singleton.mp hy]
    exact ha x hx⟩

/-! ## 2. Windows -/

variable [Add T]

/-- The items of `l` in the closed window of width `w` that ends at `m`. -/
def window (w m : T) (l : List T) : List T := l.filter fun t => m ≤ t + w ∧ t ≤ m

theorem mem_window {w m t : T} {l : List T} : t ∈ window w m l ↔ t ∈ l ∧ m ≤ t + w ∧ t ≤ m := by
  simp [window]

theorem window_append (w m : T) (l k : List T) :
    window w m (l ++ k) = window w m l ++ window w m k := List.filter_append ..

/-- An item of the window ending at `m` was in every window that ended before `m`, so keeping
    only the latter loses nothing. -/
theorem window_window {w m m' : T} (hm : m' ≤ m) {l : List T} (hl : ∀ t ∈ l, t ≤ m') :
    window w m (window w m' l) = window w m l := by
  unfold window
  rw [List.filter_filter]
  refine List.filter_congr fun t ht => ?_
  have hle : t ≤ m' := hl t ht
  by_cases h : m ≤ t + w
  · simp [h, hm.trans h, hle, hle.trans hm]
  · simp [h]

/-- Every item finds fewer than `c` items, itself included, in the window that ends at it. -/
def Sparse (w : T) (c : Nat) (l : List T) : Prop :=
  ∀ pre m post, l = pre ++ m :: post → (window w m (pre ++ [m])).length < c

theorem Sparse.nil {w : T} {c : Nat} : Sparse w c [] := by
  intro pre m post h
  simp at h

theorem Sparse.of_append {w : T} {c : Nat} {l k : List T} (h : Sparse w c (l ++ k)) :
    Sparse w c l := by
  intro pre m post hl
  exact h pre m (post ++ k) (by simp [hl])

theorem Sparse.snoc {w m : T} {c : Nat} {l : List T} (h : Sparse w c l)
    (hm : (window w m (l ++ [m])).length < c) : Sparse w c (l ++ [m]) := by
  intro pre x post hl
  cases post using List.reverseRecOn with
  | nil =>
      obtain ⟨rfl, hx⟩ := List.append_inj' hl rfl
      cases hx
      exact hm
  | append_singleton post y =>
      have hl' : l ++ [m] = (pre ++ x :: post) ++ [y] := by simp [hl]
      obtain ⟨rfl, -⟩ := List.append_inj' hl' rfl
      exact h pre x post rfl

/-! ## 3. Starts between marks -/

/-- Rounds (start, mark) in order: a round is marked after its start, and the next one starts
    no earlier than `d` after the mark. -/
def Paced (d : T) (rounds : List (T × T)) : Prop :=
  (∀ r ∈ rounds, r.1 ≤ r.2) ∧ rounds.Pairwise fun a b => a.2 + d ≤ b.1

theorem Paced.snoc {d : T} {rounds : List (T × T)} {r : T × T} (h : Paced d rounds)
    (hr : r.1 ≤ r.2) (hlast : ∀ a ∈ rounds, a.2 + d ≤ r.1) : Paced d (rounds ++ [r]) :=
  ⟨List.forall_mem_append.mpr ⟨h.1, by simpa using hr⟩, pairwise_snoc h.2 hlast⟩

/-- The starts within `[t, t + w]`. -/
def startsIn (w t : T) (starts : List T) : List T := starts.filter fun s => t ≤ s ∧ s ≤ t + w

variable [AddRightMono T]

/-- **The rate bound.** Marks with fewer than `c` marks in every window leave at most `max 1 c`
    starts in a closed interval of length `w`: all but the last start in it have their mark in
    the window of the last mark before it. -/
theorem starts_le {w d : T} {c : Nat} (hd : ∀ x : T, x ≤ x + d) {rounds : List (T × T)} {s : T}
    (hp : Paced d rounds) (hs : ∀ r ∈ rounds, r.2 + d ≤ s)
    (hc : Sparse w c (rounds.map Prod.snd)) (t : T) :
    (startsIn w t (rounds.map Prod.fst ++ [s])).length ≤ max 1 c := by
  induction rounds using List.reverseRecOn generalizing s with
  | nil =>
      have hone := List.length_filter_le (fun s => decide (t ≤ s ∧ s ≤ t + w)) [s]
      exact hone.trans (le_max_left _ _)
  | append_singleton rounds r ih =>
      obtain ⟨hle, hpair⟩ := hp
      rw [List.pairwise_append] at hpair
      have hlast : ∀ a ∈ rounds, a.2 + d ≤ r.1 := fun a ha => hpair.2.2 a ha r (by simp)
      have hp' : Paced d rounds := ⟨fun a ha => hle a (by simp [ha]), hpair.1⟩
      have hc' : Sparse w c (rounds.map Prod.snd) := by
        rw [List.map_append] at hc
        exact hc.of_append
      have hbefore := ih hp' hlast hc'
      have hsplit : startsIn w t ((rounds ++ [r]).map Prod.fst ++ [s]) =
          startsIn w t (rounds.map Prod.fst ++ [r.1]) ++ startsIn w t [s] := by
        rw [List.map_append, startsIn, List.filter_append]
        rfl
      rw [hsplit]
      by_cases hin : t ≤ s ∧ s ≤ t + w
      · -- every earlier start in the interval has its mark in the window of `r`'s mark
        have hmark : ∀ a ∈ rounds ++ [r], t ≤ a.1 → r.2 ≤ a.2 + w ∧ a.2 ≤ r.2 := by
          intro a ha hta
          have hrs : r.2 ≤ t + w := ((hd _).trans (hs r (by simp))).trans hin.2
          have haw : t + w ≤ a.2 + w := add_le_add_left (hta.trans (hle a ha)) w
          refine ⟨hrs.trans haw, ?_⟩
          rcases List.mem_append.mp ha with ha | ha
          · exact ((hd _).trans (hlast a ha)).trans (hle r (by simp))
          · rw [List.mem_singleton.mp ha]
        have hcount : (startsIn w t (rounds.map Prod.fst ++ [r.1])).length ≤
            (window w r.2 ((rounds ++ [r]).map Prod.snd)).length := by
          have hmap : rounds.map Prod.fst ++ [r.1] = (rounds ++ [r]).map Prod.fst := by simp
          rw [hmap, startsIn, window, ← List.countP_eq_length_filter,
            ← List.countP_eq_length_filter, List.countP_map, List.countP_map]
          refine List.countP_mono_left fun a ha hp => ?_
          simp only [Function.comp_apply, decide_eq_true_eq] at hp ⊢
          exact hmark a ha hp.1
        have hsparse : (window w r.2 ((rounds ++ [r]).map Prod.snd)).length < c := by
          have hmarks : (rounds ++ [r]).map Prod.snd = rounds.map Prod.snd ++ [r.2] := by simp
          rw [hmarks] at hc ⊢
          exact hc _ r.2 [] rfl
        have hself : (startsIn w t [s]).length ≤ 1 :=
          List.length_filter_le (fun s => decide (t ≤ s ∧ s ≤ t + w)) [s]
        rw [List.length_append]
        have hmax : c ≤ max 1 c := le_max_right _ _
        omega
      · have hout : startsIn w t [s] = [] := by simp [startsIn, hin]
        rw [hout, List.append_nil]
        exact hbefore

end SlidingWindow
