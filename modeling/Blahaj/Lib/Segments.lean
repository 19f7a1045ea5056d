/-
  File:      Blahaj/Lib/Segments.lean
  Subject:   LISTS CUT AT A SEPARATOR: trimming it, splitting at its last occurrence, and the
             chain of prefixes that ends at each of its occurrences.

  * `trimStart`, `trim` -- the separators at the front, at both ends; `trim_decomp`: a list is
    its trimmed middle between two runs of separators;
  * `rsplitOnce` -- cut at the last separator;
  * `ancestors` -- a list, then what stands before its last separator, and so on;
    `ancestors_eq` is the equation it is computed by, `mem_ancestors` says what it visits (the
    list itself and each prefix that a separator follows) and `ancestors_sorted` in which order
    (longest first);
  * `findSome_ancestors` -- so the first hit of a search along the chain is the longest one.
-/
import Mathlib.Data.List.DropRight

namespace Segments

variable {α : Type*} [DecidableEq α] {sep : α}

/-! ## 1. Trimming -/

/-- Without the separators at the front. -/
def trimStart (sep : α) (l : List α) : List α := l.dropWhile (· == sep)

/-- Without the separators at either end. -/
def trim (sep : α) (l : List α) : List α := (trimStart sep l).rdropWhile (· == sep)

theorem trimStart_head (sep : α) (l : List α) : (trimStart sep l).head? ≠ some sep := by
  intro h
  have hnot := List.head?_dropWhile_not (· == sep) l
  rw [show (l.dropWhile (· == sep)).head? = some sep from h] at hnot
  simp at hnot

theorem trimStart_of_head {l : List α} (h : l.head? ≠ some sep) : trimStart sep l = l := by
  cases l with
  | nil => rfl
  | cons a l =>
      have ha : a ≠ sep := fun e => h (congrArg some e)
      exact List.dropWhile_cons_of_neg (by simp [ha])

theorem trimStart_replicate_append (sep : α) (n : Nat) (l : List α) :
    trimStart sep (List.replicate n sep ++ l) = trimStart sep l := by
  induction n with
  | zero => rfl
  | succ n ih =>
      show trimStart sep (sep :: (List.replicate n sep ++ l)) = _
      rw [trimStart, List.dropWhile_cons_of_pos (by simp)]
      exact ih

/-- A list is a run of separators and what is left without them. -/
theorem trimStart_decomp (sep : α) (l : List α) :
    ∃ n, l = List.replicate n sep ++ trimStart sep l := by
  induction l with
  | nil => exact ⟨0, rfl⟩
  | cons a l ih =>
      by_cases ha : a = sep
      · obtain ⟨n, hn⟩ := ih
        refine ⟨n + 1, ?_⟩
        have htrim : trimStart sep (a :: l) = trimStart sep l :=
          List.dropWhile_cons_of_pos (by simp [ha])
        rw [htrim, List.replicate_succ, List.cons_append, ← hn, ha]
      · exact ⟨0, (trimStart_of_head (by simp [ha])).symm⟩

/-- The run of separators at the front and what follows it are determined. -/
theorem replicate_append_inj {m n : Nat} {a b : List α} (ha : a.head? ≠ some sep)
    (hb : b.head? ≠ some sep)
    (h : List.replicate m sep ++ a = List.replicate n sep ++ b) : m = n ∧ a = b := by
  have htrim := congrArg (trimStart sep) h
  rw [trimStart_replicate_append, trimStart_replicate_append, trimStart_of_head ha,
    trimStart_of_head hb] at htrim
  subst htrim
  have hlen := congrArg List.length h
  simp only [List.length_append, List.length_replicate] at hlen
  exact ⟨by omega, rfl⟩

theorem mem_of_mem_trimStart {l : List α} {a : α} (h : a ∈ trimStart sep l) : a ∈ l :=
  (List.dropWhile_sublist _).mem h

theorem trim_head (sep : α) (l : List α) : (trim sep l).head? ≠ some sep := by
  intro h
  refine trimStart_head sep l ?_
  obtain ⟨t, ht⟩ := List.rdropWhile_prefix (· == sep) (trimStart sep l)
  rw [← ht]
  cases hm : trim sep l with
  | nil => rw [hm] at h; cases h
  | cons a m =>
      rw [hm] at h
      show (trim sep l ++ t).head? = some sep
      rw [hm]
      exact h

theorem trim_getLast (sep : α) (l : List α) : (trim sep l).getLast? ≠ some sep := by
  intro h
  have hne : trim sep l ≠ [] := fun e => by rw [e] at h; cases h
  have hlast := List.rdropWhile_last_not (· == sep) (trimStart sep l) hne
  rw [List.getLast?_eq_some_getLast hne] at h
  exact hlast (beq_iff_eq.mpr (Option.some.inj h))

theorem rdropWhile_decomp (sep : α) (l : List α) :
    ∃ n, l = l.rdropWhile (· == sep) ++ List.replicate n sep := by
  obtain ⟨n, hn⟩ := trimStart_decomp sep l.reverse
  refine ⟨n, ?_⟩
  have h := congrArg List.reverse hn
  simpa [List.rdropWhile, trimStart] using h

/-- **A list is its trimmed middle between two runs of separators**; where nothing is left in
    the middle, the second run is empty. -/
theorem trim_decomp (sep : α) (l : List α) :
    ∃ m n, l = List.replicate m sep ++ (trim sep l ++ List.replicate n sep) ∧
      (trim sep l = [] → n = 0) := by
  obtain ⟨m, hm⟩ := trimStart_decomp sep l
  obtain ⟨n, hn⟩ := rdropWhile_decomp sep (trimStart sep l)
  refine ⟨m, n, ?_, fun hnil => ?_⟩
  · rw [hn] at hm
    exact hm
  · cases n with
    | zero => rfl
    | succ n =>
        have hstart : trimStart sep l = List.replicate (n + 1) sep := by
          rw [hn]
          show trim sep l ++ _ = _
          rw [hnil, List.nil_append]
        refine absurd ?_ (trimStart_head sep l)
        rw [hstart, List.replicate_succ, List.head?_cons]

/-! ## 2. The last separator -/

/-- Cut at the last separator. -/
def rsplitOnce (sep : α) : List α → Option (List α × List α)
  | [] => none
  | a :: l => match rsplitOnce sep l with
    | some (parent, rest) => some (a :: parent, rest)
    | none => if a = sep then some ([], l) else none

theorem rsplitOnce_none {l : List α} (h : rsplitOnce sep l = none) : sep ∉ l := by
  induction l with
  | nil => simp
  | cons a l ih =>
      unfold rsplitOnce at h
      split at h
      · cases h
      · rename_i hl
        split at h
        · cases h
        · rename_i ha
          simp [ih hl, Ne.symm ha]

theorem rsplitOnce_some {l parent rest : List α} (h : rsplitOnce sep l = some (parent, rest)) :
    l = parent ++ sep :: rest ∧ sep ∉ rest := by
  induction l generalizing parent with
  | nil => cases h
  | cons a l ih =>
      unfold rsplitOnce at h
      split at h
      · rename_i parent' rest' hl
        simp only [Option.some.injEq, Prod.mk.injEq] at h
        obtain ⟨rfl, rfl⟩ := h
        obtain ⟨hl, hrest⟩ := ih hl
        exact ⟨by rw [hl, List.cons_append], hrest⟩
      · rename_i hl
        split at h
        · rename_i ha
          simp only [Option.some.injEq, Prod.mk.injEq] at h
          obtain ⟨rfl, rfl⟩ := h
          exact ⟨by rw [ha, List.nil_append], rsplitOnce_none hl⟩
        · cases h

/-! ## 3. The chain of ancestors -/

/-- The first items of the sequence that starts with `b` and goes on with `f`. -/
def successors {β : Type*} (f : β → Option β) : Nat → β → List β
  | 0, _ => []
  | n + 1, b => b :: match f b with
    | some b' => successors f n b'
    | none => []

/-- What stands before the last separator. -/
def parent (sep : α) (l : List α) : Option (List α) := (rsplitOnce sep l).map Prod.fst

theorem parent_length {l k : List α} (h : parent sep l = some k) : k.length < l.length := by
  obtain ⟨⟨k', rest⟩, hs, rfl⟩ := Option.map_eq_some_iff.mp h
  have hl := (rsplitOnce_some hs).1
  rw [hl]
  simp

/-- A list, then what stands before its last separator, and so on. A parent is shorter, so the
    bound never cuts the sequence off (`ancestors_eq`). -/
def ancestors (sep : α) (l : List α) : List (List α) := successors (parent sep) (l.length + 1) l

theorem successors_parent {n : Nat} : ∀ {m : Nat} {l : List α}, l.length < n → l.length < m →
    successors (parent sep) n l = successors (parent sep) m l := by
  induction n with
  | zero => intro m l hn; omega
  | succ n ih =>
      intro m l hn hm
      cases m with
      | zero => omega
      | succ m =>
          unfold successors
          cases hp : parent sep l with
          | none => rfl
          | some k =>
              have hk := parent_length hp
              simp only [List.cons.injEq, true_and]
              exact ih (by omega) (by omega)

/-- **The equation of the chain**: a list, then the chain of its parent if it has one. -/
theorem ancestors_eq (l : List α) : ancestors sep l = l :: match parent sep l with
    | some k => ancestors sep k
    | none => [] := by
  show l :: _ = l :: _
  cases hp : parent sep l with
  | none => rfl
  | some k =>
      simp only [List.cons.injEq, true_and]
      exact successors_parent (parent_length hp) (by omega)

/-- Induction along the chain. -/
theorem chain_induction (sep : α) {P : List α → Prop}
    (h : ∀ l, (∀ k, parent sep l = some k → P k) → P l) (l : List α) : P l := by
  induction hn : l.length using Nat.strong_induction_on generalizing l with
  | _ n ih =>
      refine h l fun k hk => ih k.length ?_ k rfl
      rw [← hn]
      exact parent_length hk

/-- `k` is the list `l`, or a separator follows it in `l`. -/
def Mounted (sep : α) (k l : List α) : Prop := l = k ∨ (k ++ [sep]) <+: l

omit [DecidableEq α] in
theorem Mounted.prefixOf {k l : List α} (h : Mounted sep k l) : k <+: l := by
  rcases h with rfl | h
  · exact List.prefix_rfl
  · exact (List.prefix_append k [sep]).trans h

/-- What follows `k` starts with a separator, if there is anything. -/
theorem Mounted.gap {k rest : List α} (h : Mounted sep k (k ++ rest)) {n : Nat}
    (hn : rest = List.replicate n sep ++ trimStart sep rest) : n = 0 ↔ rest = [] := by
  constructor
  · intro h0
    rw [h0, List.replicate_zero, List.nil_append] at hn
    rcases h with h | ⟨t, ht⟩
    · exact List.append_right_eq_self.mp h
    · rw [List.append_assoc] at ht
      refine absurd ?_ (trimStart_head sep rest)
      rw [← hn, ← List.append_cancel_left ht]
      rfl
  · intro hnil
    rw [hnil] at hn
    exact (List.replicate_eq_nil_iff sep).mp (List.append_eq_nil_iff.mp hn.symm).1

omit [DecidableEq α] in
/-- A prefix that a separator follows is the parent, or a separator follows it in the parent. -/
theorem mounted_parent {k l p rest : List α} (hl : l = p ++ sep :: rest) (hrest : sep ∉ rest)
    (h : (k ++ [sep]) <+: l) : Mounted sep k p := by
  obtain ⟨t, ht⟩ := h
  rw [hl, List.append_assoc] at ht
  rcases List.append_eq_append_iff.mp ht with ⟨a, ha, hb⟩ | ⟨a, ha, hb⟩
  · -- the separator after `k` lies in the parent, or is the one the parent was cut at
    cases a with
    | nil => exact Or.inl (by simpa using ha)
    | cons x a =>
        simp only [List.cons_append, List.cons.injEq] at hb
        exact Or.inr ⟨a, by rw [ha, ← hb.1]; simp⟩
  · cases a with
    | nil => exact Or.inl (by simpa using ha.symm)
    | cons x a =>
        -- otherwise it would lie behind the last separator
        simp only [List.cons_append, List.cons.injEq] at hb
        refine absurd ?_ hrest
        rw [hb.2]
        simp

/-- **What the chain visits.** -/
theorem mem_ancestors {k l : List α} : k ∈ ancestors sep l ↔ Mounted sep k l := by
  induction l using chain_induction sep with
  | h l ih =>
      rw [ancestors_eq, List.mem_cons]
      cases hp : parent sep l with
      | none =>
          have hsep : sep ∉ l := rsplitOnce_none (Option.map_eq_none_iff.mp hp)
          constructor
          · rintro (rfl | h)
            · exact Or.inl rfl
            · cases h
          · rintro (rfl | h)
            · exact Or.inl rfl
            · exact absurd (h.subset (by simp)) hsep
      | some p =>
          obtain ⟨⟨p', rest⟩, hs, rfl⟩ := Option.map_eq_some_iff.mp hp
          obtain ⟨hl, hrest⟩ := rsplitOnce_some hs
          rw [ih p' hp]
          constructor
          · rintro (rfl | rfl | h)
            · exact Or.inl rfl
            · exact Or.inr ⟨rest, by rw [hl]; simp⟩
            · exact Or.inr (h.trans ⟨sep :: rest, hl.symm⟩)
          · rintro (rfl | h)
            · exact Or.inl rfl
            · exact Or.inr (mounted_parent hl hrest h)

/-- **In which order**: longest first. -/
theorem ancestors_sorted (l : List α) :
    (ancestors sep l).Pairwise fun a b => b.length < a.length := by
  induction l using chain_induction sep with
  | h l ih =>
      rw [ancestors_eq]
      cases hp : parent sep l with
      | none => exact List.pairwise_singleton _ _
      | some p =>
          refine List.pairwise_cons.mpr ⟨fun k hk => ?_, ih p hp⟩
          have hk' : k.length ≤ p.length := (mem_ancestors.mp hk).prefixOf.length_le
          have := parent_length hp
          omega

/-! ## 4. Searching along the chain -/

/-- In a list that is sorted by a strict relation, the first hit stands before all others. -/
theorem findSome_sorted {β γ : Type*} {R : β → β → Prop} {f : β → Option γ} {l : List β}
    (hl : l.Pairwise R) {c : γ} (h : l.findSome? f = some c) :
    ∃ b ∈ l, f b = some c ∧ ∀ a ∈ l, (f a).isSome → a = b ∨ R b a := by
  induction l with
  | nil => cases h
  | cons x l ih =>
      rw [List.pairwise_cons] at hl
      rw [List.findSome?_cons] at h
      cases hx : f x with
      | some c' =>
          rw [hx] at h
          refine ⟨x, by simp, by rw [hx]; exact h, fun a ha _ => ?_⟩
          rcases List.mem_cons.mp ha with rfl | ha
          · exact Or.inl rfl
          · exact Or.inr (hl.1 a ha)
      | none =>
          rw [hx] at h
          obtain ⟨b, hb, hfb, hfirst⟩ := ih hl.2 h
          refine ⟨b, by simp [hb], hfb, fun a ha hsome => ?_⟩
          rcases List.mem_cons.mp ha with rfl | ha
          · rw [hx] at hsome; cases hsome
          · exact hfirst a ha hsome

/-- **The first hit along the chain is the longest.** -/
theorem findSome_ancestors {γ : Type*} {f : List α → Option γ} {l : List α} {c : γ}
    (h : (ancestors sep l).findSome? f = some c) :
    ∃ k, Mounted sep k l ∧ f k = some c ∧
      ∀ k', Mounted sep k' l → (f k').isSome → k' = k ∨ k'.length < k.length := by
  obtain ⟨k, hk, hfk, hfirst⟩ := findSome_sorted (ancestors_sorted l) h
  exact ⟨k, mem_ancestors.mp hk, hfk, fun k' hk' hsome => hfirst k' (mem_ancestors.mpr hk') hsome⟩

theorem findSome_ancestors_none {γ : Type*} {f : List α → Option γ} {l : List α} :
    (ancestors sep l).findSome? f = none ↔ ∀ k, Mounted sep k l → f k = none := by
  rw [List.findSome?_eq_none_iff]
  exact forall_congr' fun k => by rw [mem_ancestors]

end Segments
