/-
  File:      Blahaj/Lib/Streak.lean
  Subject:   STREAKS at the end of a list, and the items with the greatest keys.

  * `streak` -- how many items at the end meet a predicate in a row; `le_streak` says that it is
    `n` at least exactly if the last `n` items meet it;
  * `latest` -- the `n` items with the greatest keys, whatever the order of the list;
  * `latest_of_last` -- when what holds of the last `n` items holds of the latest `n`.
-/
import Mathlib.Data.List.Count
import Mathlib.Data.List.DropRight
import Mathlib.Data.List.Sort

namespace Streak

variable {α : Type*}

/-! ## 1. Streaks -/

/-- How many items at the end of the list meet `p` in a row. -/
def streak (p : α → Bool) (l : List α) : Nat := (l.rtakeWhile p).length

/-- One item more prolongs the streak or ends it. -/
theorem streak_snoc (p : α → Bool) (l : List α) (a : α) :
    streak p (l ++ [a]) = if p a then streak p l + 1 else 0 := by
  unfold streak
  rw [List.rtakeWhile_concat]
  split
  · rw [List.length_append, List.length_singleton]
  · rfl

/-- **A streak of `n` at least**: the last `n` items meet `p`. -/
theorem le_streak {p : α → Bool} {n : Nat} {l : List α} :
    n ≤ streak p l ↔ ∃ pre last, l = pre ++ last ∧ last.length = n ∧ ∀ x ∈ last, p x = true := by
  induction l using List.reverseRecOn generalizing n with
  | nil =>
      constructor
      · intro h
        exact ⟨[], [], rfl, (Nat.le_zero.mp h).symm, by simp⟩
      · rintro ⟨pre, last, hl, rfl, -⟩
        obtain ⟨-, rfl⟩ := List.append_eq_nil_iff.mp hl.symm
        exact Nat.le_refl _
  | append_singleton l a ih =>
      rw [streak_snoc]
      constructor
      · intro h
        cases n with
        | zero => exact ⟨l ++ [a], [], by simp, rfl, by simp⟩
        | succ n =>
            split at h
            · rename_i ha
              have hshorter : n ≤ streak p l := by omega
              obtain ⟨pre, last, rfl, rfl, hlast⟩ := ih.mp hshorter
              refine ⟨pre, last ++ [a], by simp, by simp, fun x hx => ?_⟩
              rcases List.mem_append.mp hx with hx | hx
              · exact hlast x hx
              · rw [List.mem_singleton.mp hx]
                exact ha
            · cases h
      · rintro ⟨pre, last, hl, rfl, hlast⟩
        cases last using List.reverseRecOn with
        | nil => exact Nat.zero_le _
        | append_singleton last b =>
            rw [← List.append_assoc] at hl
            obtain ⟨rfl, hb⟩ := List.append_inj' hl rfl
            cases hb
            rw [if_pos (hlast a (by simp)), List.length_append, List.length_singleton]
            have hshorter := ih.mpr ⟨pre, last, rfl, rfl, fun x hx => hlast x (by simp [hx])⟩
            omega

/-! ## 2. The latest items -/

variable {K : Type*} [LinearOrder K]

/-- The `n` items with the greatest keys. -/
def latest (key : α → K) (n : Nat) (l : List α) : List α :=
  (l.insertionSort fun a b => key a ≤ key b).drop (l.length - n)

theorem perm_sorted (key : α → K) (l : List α) :
    (l.insertionSort fun a b => key a ≤ key b).Perm l := List.perm_insertionSort ..

theorem pairwise_sorted (key : α → K) (l : List α) :
    (l.insertionSort fun a b => key a ≤ key b).Pairwise fun a b => key a ≤ key b := by
  have : Std.Total fun a b : α => key a ≤ key b := ⟨fun a b => le_total (key a) (key b)⟩
  have : IsTrans α fun a b => key a ≤ key b := ⟨fun _ _ _ => le_trans⟩
  exact List.pairwise_insertionSort ..

/-- Fewer than `n` items lie above one of the latest `n`. -/
theorem countP_above_lt {key : α → K} {n : Nat} {l : List α} (hn : n ≤ l.length) {g : α}
    (hg : g ∈ latest key n l) : (l.countP fun x => key g < key x) < n := by
  have hsorted := pairwise_sorted key l
  have hlen := (perm_sorted key l).length_eq
  rw [← (perm_sorted key l).countP_eq]
  unfold latest at hg
  generalize l.insertionSort (fun a b => key a ≤ key b) = sorted at hsorted hlen hg ⊢
  -- none of those before the latest lies above `g`, and `g` does not lie above itself
  rw [← List.take_append_drop (l.length - n) sorted] at hsorted ⊢
  have hbefore : (sorted.take (l.length - n)).countP (fun x => key g < key x) = 0 := by
    rw [List.countP_eq_zero]
    intro x hx
    have hle : key x ≤ key g := (List.pairwise_append.mp hsorted).2.2 x hx g hg
    simpa using hle
  have hself : (sorted.drop (l.length - n)).countP (fun x => key g < key x) <
      (sorted.drop (l.length - n)).length := by
    rw [List.countP_lt_length_iff]
    exact ⟨g, hg, by simp⟩
  rw [List.length_drop, hlen] at hself
  rw [List.countP_append, hbefore]
  omega

theorem mem_of_mem_latest {key : α → K} {n : Nat} {l : List α} {g : α}
    (hg : g ∈ latest key n l) : g ∈ l :=
  (perm_sorted key l).mem_iff.mp (List.mem_of_mem_drop hg)

/-- **Where the last `n` items meet `p`, the latest `n` do**, if each item that does not meet it
    is below each of the last `n`. -/
theorem latest_of_last {key : α → K} {p : α → Bool} {pre last : List α}
    (hlast : ∀ x ∈ last, p x = true)
    (hbelow : ∀ x ∈ last, ∀ y ∈ pre, p y = false → key y < key x) :
    ∀ g ∈ latest key last.length (pre ++ last), p g = true := by
  intro g hg
  by_contra hp
  have hp : p g = false := by simpa using hp
  have hpre : g ∈ pre := by
    rcases List.mem_append.mp (mem_of_mem_latest hg) with hpre | hmem
    · exact hpre
    · exact absurd (hlast g hmem) (by simp [hp])
  have hall : last.countP (fun x => key g < key x) = last.length := by
    rw [List.countP_eq_length]
    intro x hx
    simpa using hbelow x hx g hpre hp
  have hlt := countP_above_lt (by simp) hg
  rw [List.countP_append, hall] at hlt
  omega

end Streak
