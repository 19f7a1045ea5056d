/-
  File:      Blahaj/Lib/Fair.lean
  Subject:   INFINITE EXECUTIONS of a step function, and what a fair one leads to.

  In each instant of an execution a step is taken, or nothing happens; so a system that has come
  to rest has executions too. Fairness is weak: a kind of step that can be taken at every instant
  from some one on is taken.

  * `Execution.past`, `Execution.run_past` -- the steps taken so far are a run;
  * `Execution.resting` -- a run, and then nothing more;
  * `Execution.planned` -- a plan followed round after round, `planned_fair` where it is fair;
  * `Execution.LeadsTo` -- wherever `P` holds, `Q` holds then or later;
  * `LeadsTo.ensures` -- the rule for one kind of step: `P` lasts until it is taken, and then `Q`;
  * `LeadsTo.descend`, `LeadsTo.rank` -- the rules for many: a rank that goes down until `Q`;
  * `LeadsTo.queue` -- what waits in a queue gets its turn;
  * `LeadsTo.all` -- goals that last are reached together;
  * `Execution.project`, `project_fair` -- an execution of a system as one of a component, and
    when it is fair.
-/
import Blahaj.Lib.Lts

namespace Lts

variable {σ ε : Type*} {step : σ → ε → Option σ} {s₀ : σ}

/-! ## 1. Executions -/

/-- What happens in one instant: a step with this label, or nothing. -/
def Tick (step : σ → ε → Option σ) (s : σ) : Option ε → σ → Prop
  | some e, s' => step s e = some s'
  | none, s' => s' = s

/-- An infinite execution from `s₀`. -/
structure Execution (step : σ → ε → Option σ) (s₀ : σ) where
  state : Nat → σ
  label : Nat → Option ε
  start : state 0 = s₀
  next : ∀ n, Tick step (state n) (label n) (state (n + 1))

/-- The steps taken before the instant `n`. -/
def Execution.past (x : Execution step s₀) : Nat → List (σ × ε)
  | 0 => []
  | n + 1 => x.past n ++ ((x.label n).map fun e => (x.state n, e)).toList

/-- **The steps taken so far are a run.** -/
theorem Execution.run_past (x : Execution step s₀) (n : Nat) :
    Run step s₀ (x.past n) (x.state n) := by
  induction n with
  | zero =>
      rw [x.start]
      exact .start
  | succ n ih =>
      have hnext := x.next n
      unfold Execution.past
      cases hl : x.label n with
      | none =>
          rw [hl] at hnext
          rw [show x.state (n + 1) = x.state n from hnext]
          simpa using ih
      | some e =>
          rw [hl] at hnext
          exact .snoc e ih hnext

theorem Execution.reach (x : Execution step s₀) (n : Nat) : Reach step s₀ (x.state n) :=
  ⟨x.past n, x.run_past n⟩

/-- What has happened stays so. -/
theorem Execution.past_append (x : Execution step s₀) {m n : Nat} (hmn : m ≤ n) :
    ∃ k, x.past n = x.past m ++ k := by
  induction hmn with
  | refl => exact ⟨[], (List.append_nil _).symm⟩
  | step _ ih =>
      obtain ⟨k, hk⟩ := ih
      exact ⟨k ++ _, by rw [Execution.past, hk, List.append_assoc]⟩

/-- **What each step keeps lasts.** `I` is what holds at every instant. -/
theorem Execution.stays (x : Execution step s₀) {I P : σ → Prop} (hI : ∀ n, I (x.state n))
    (hs : ∀ s e s', I s → P s → step s e = some s' → P s') {m n : Nat} (hmn : m ≤ n)
    (hP : P (x.state m)) : P (x.state n) := by
  induction hmn with
  | refl => exact hP
  | @step n _ ih =>
      have hnext := x.next n
      cases hl : x.label n with
      | none =>
          rw [hl] at hnext
          rw [show x.state (n + 1) = x.state n from hnext]
          exact ih
      | some e =>
          rw [hl] at hnext
          exact hs _ e _ (hI n) ih hnext

/-- **What each step keeps until `Q`** lasts until `Q`. -/
theorem Execution.lasts_until (x : Execution step s₀) {I P Q : σ → Prop}
    (hI : ∀ n, I (x.state n)) (hs : ∀ s e s', I s → P s → step s e = some s' → Q s' ∨ P s')
    {m n : Nat} (hmn : m ≤ n) (hP : P (x.state m)) :
    (∃ k, m ≤ k ∧ k ≤ n ∧ Q (x.state k)) ∨ P (x.state n) := by
  induction hmn with
  | refl => exact Or.inr hP
  | @step n hmn ih =>
      rcases ih with ⟨k, hmk, hkn, hQ⟩ | hP'
      · exact Or.inl ⟨k, hmk, Nat.le_succ_of_le hkn, hQ⟩
      have hnext := x.next n
      cases hl : x.label n with
      | none =>
          rw [hl] at hnext
          rw [show x.state (n + 1) = x.state n from hnext]
          exact Or.inr hP'
      | some e =>
          rw [hl] at hnext
          rcases hs _ e _ (hI n) hP' hnext with hQ | hP''
          · exact Or.inl ⟨n + 1, Nat.le_succ_of_le hmn, Nat.le_refl _, hQ⟩
          · exact Or.inr hP''

/-- The execution from the instant `k` on. -/
def Execution.drop (x : Execution step s₀) (k : Nat) : Execution step (x.state k) where
  state n := x.state (k + n)
  label n := x.label (k + n)
  start := rfl
  next n := x.next (k + n)

/-- Every step of the execution meets `C`. -/
def Execution.Meets (x : Execution step s₀) (C : σ → ε → Prop) : Prop :=
  ∀ n e, x.label n = some e → C (x.state n) e

/-- **Weak fairness**: steps of the kind `A` that can be taken at every instant from `n` on are
    taken at one of them. -/
def Execution.WeaklyFair (x : Execution step s₀) (A : σ → ε → Prop) : Prop :=
  ∀ n, (∀ m, n ≤ m → ∃ e s', A (x.state m) e ∧ step (x.state m) e = some s') →
    ∃ m e, n ≤ m ∧ x.label m = some e ∧ A (x.state m) e

theorem Execution.WeaklyFair.drop {x : Execution step s₀} {A : σ → ε → Prop}
    (h : x.WeaklyFair A) (k : Nat) : (x.drop k).WeaklyFair A := by
  intro n hen
  obtain ⟨m, e, hle, hl, hA⟩ := h (k + n) fun m hm => by
    obtain ⟨d, rfl⟩ := Nat.exists_eq_add_of_le hm
    have := hen (n + d) (by omega)
    rwa [show (x.drop k).state (n + d) = x.state (k + n + d) by
      show x.state (k + (n + d)) = _
      rw [Nat.add_assoc]] at this
  obtain ⟨d, rfl⟩ := Nat.exists_eq_add_of_le hle
  refine ⟨n + d, e, by omega, ?_, ?_⟩
  · show x.label (k + (n + d)) = _
    rw [← Nat.add_assoc]
    exact hl
  · show A (x.state (k + (n + d))) e
    rw [← Nat.add_assoc]
    exact hA

/-- Fair for nothing: from some instant on no step of the kind is possible. -/
theorem Execution.WeaklyFair.of_rest {x : Execution step s₀} {A : σ → ε → Prop} (k : Nat)
    (h : ∀ n, k ≤ n → ∀ e s', A (x.state n) e → step (x.state n) e ≠ some s') :
    x.WeaklyFair A := by
  intro n hen
  obtain ⟨e, s', hA, hs⟩ := hen (max n k) (Nat.le_max_left ..)
  exact absurd hs (h (max n k) (Nat.le_max_right ..) e s' hA)

/-! ## 2. A run that comes to rest -/

/-- The state after the first `n` labels; it stays where one is not enabled. -/
def after (step : σ → ε → Option σ) (s₀ : σ) (es : List ε) : Nat → σ
  | 0 => s₀
  | n + 1 => match es[n]? with
    | some e => (step (after step s₀ es n) e).getD (after step s₀ es n)
    | none => after step s₀ es n

theorem exec_after {es : List ε} : ∀ {n : Nat} {s : σ}, exec step s₀ es = some s → n ≤ es.length →
    exec step s₀ (es.take n) = some (after step s₀ es n) ∧
      exec step (after step s₀ es n) (es.drop n) = some s
  | 0, _, h, _ => ⟨rfl, h⟩
  | n + 1, s, h, hn => by
      obtain ⟨hbefore, hrest⟩ := exec_after (n := n) h (by omega)
      have hget : es[n]? = some es[n] := List.getElem?_eq_getElem hn
      rw [List.drop_eq_getElem_cons hn] at hrest
      obtain ⟨s₁, hs₁, hrest⟩ := Option.bind_eq_some_iff.mp hrest
      have hafter : after step s₀ es (n + 1) = s₁ := by
        show (match es[n]? with
          | some e => (step (after step s₀ es n) e).getD (after step s₀ es n)
          | none => after step s₀ es n) = s₁
        rw [hget]
        simp only [hs₁, Option.getD_some]
      rw [hafter, List.take_add_one, hget, Option.toList_some]
      exact ⟨exec_snoc hbefore hs₁, hrest⟩

/-- **A run, and then nothing more.** -/
def Execution.resting {es : List ε} {s : σ} (h : exec step s₀ es = some s) :
    Execution step s₀ where
  state := after step s₀ es
  label n := es[n]?
  start := rfl
  next n := by
    cases hget : es[n]? with
    | none => simp only [Tick, after, hget]
    | some e =>
        have hn := (List.getElem?_eq_some_iff.mp hget).1
        obtain ⟨-, hrest⟩ := exec_after (n := n) h (by omega)
        rw [List.drop_eq_getElem_cons hn] at hrest
        obtain ⟨s₁, hs₁, -⟩ := Option.bind_eq_some_iff.mp hrest
        rw [(List.getElem?_eq_some_iff.mp hget).2] at hs₁
        simp only [Tick, after, hget, hs₁, Option.getD_some]

theorem Execution.resting_end {es : List ε} {s : σ} (h : exec step s₀ es = some s) {n : Nat}
    (hn : es.length ≤ n) : (Execution.resting h).state n = s := by
  induction hn with
  | refl =>
      obtain ⟨-, hrest⟩ := exec_after (n := es.length) h (Nat.le_refl _)
      rw [List.drop_length] at hrest
      exact Option.some.inj hrest
  | @step n hn ih =>
      show after step s₀ es (n + 1) = s
      simp only [after, List.getElem?_eq_none_iff.mpr hn]
      exact ih

/-! ## 3. A plan followed for ever -/

/-- Labels in two parts. -/
theorem exec_append {es₂ : List ε} : ∀ {es₁ : List ε} {s : σ},
    exec step s (es₁ ++ es₂) = (exec step s es₁).bind fun s' => exec step s' es₂
  | [], _ => rfl
  | e :: es₁, s => by
      show ((step s e).bind fun s' => exec step s' (es₁ ++ es₂)) =
        ((step s e).bind fun s' => exec step s' es₁).bind fun s' => exec step s' es₂
      rw [Option.bind_assoc]
      exact congrArg _ (funext fun _ => exec_append)

/-- One instant of a plan: the next label of the round, or a new round where none is left. -/
def follow (step : σ → ε → Option σ) (plan : σ → List ε) : σ × List ε → σ × List ε
  | (s, []) => (s, plan s)
  | (s, e :: es) => ((step s e).getD s, es)

/-- The state at an instant, and what is left of the round; the first one is `es`. -/
def followed (step : σ → ε → Option σ) (plan : σ → List ε) (s₀ : σ) (es : List ε) :
    Nat → σ × List ε
  | 0 => (s₀, es)
  | n + 1 => follow step plan (followed step plan s₀ es n)

/-- The label of an instant. -/
def followedBy (step : σ → ε → Option σ) : σ × List ε → Option ε
  | (_, []) => none
  | (s, e :: _) => (step s e).map fun _ => e

/-- **A plan followed for ever**: the labels `es`, and then round after round what `plan` says of
    the state. -/
def Execution.planned (step : σ → ε → Option σ) (plan : σ → List ε) (s₀ : σ) (es : List ε) :
    Execution step s₀ where
  state n := (followed step plan s₀ es n).1
  label n := followedBy step (followed step plan s₀ es n)
  start := rfl
  next n := by
    rcases hat : followed step plan s₀ es n with ⟨s, _ | ⟨e, rest⟩⟩
    · simp only [Tick, followedBy, followed, follow, hat]
    · cases hs : step s e with
      | none => simp only [Tick, followedBy, followed, follow, hat, hs, Option.map_none,
          Option.getD_none]
      | some s' => simp only [Tick, followedBy, followed, follow, hat, hs, Option.map_some,
          Option.getD_some]

section Plan

variable {plan : σ → List ε} {es : List ε}

/-- Labels that are enabled one after the other are taken one after the other. -/
theorem Execution.planned_exec {es₂ : List ε} : ∀ {es₁ : List ε} {n : Nat} {s s' : σ},
    followed step plan s₀ es n = (s, es₁ ++ es₂) → exec step s es₁ = some s' →
    followed step plan s₀ es (n + es₁.length) = (s', es₂) ∧
      (Execution.planned step plan s₀ es).past (n + es₁.length) =
        (Execution.planned step plan s₀ es).past n ++ history step s es₁
  | [], n, s, s', hat, he => by
      cases he
      exact ⟨hat, (List.append_nil _).symm⟩
  | e :: es₁, n, s, s', hat, he => by
      obtain ⟨s₁, hs₁, he⟩ := Option.bind_eq_some_iff.mp he
      have hnext : followed step plan s₀ es (n + 1) = (s₁, es₁ ++ es₂) := by
        simp only [followed, hat, follow, List.cons_append, hs₁, Option.getD_some]
      have hpast : (Execution.planned step plan s₀ es).past (n + 1) =
          (Execution.planned step plan s₀ es).past n ++ [(s, e)] := by
        simp [Execution.past, Execution.planned, hat, followedBy, hs₁]
      obtain ⟨hat', hpast'⟩ := Execution.planned_exec hnext he
      rw [List.length_cons, Nat.add_comm es₁.length 1, ← Nat.add_assoc]
      refine ⟨hat', ?_⟩
      rw [hpast', hpast]
      simp only [history, hs₁, List.append_assoc, List.singleton_append]

/-- Where a round is over the next one begins, and no step is taken. -/
theorem Execution.planned_round {m : Nat} (hrest : (followed step plan s₀ es m).2 = []) :
    followed step plan s₀ es (m + 1) =
        ((followed step plan s₀ es m).1, plan (followed step plan s₀ es m).1) ∧
      (Execution.planned step plan s₀ es).past (m + 1) =
        (Execution.planned step plan s₀ es).past m := by
  constructor
  · show follow step plan (followed step plan s₀ es m) = _
    rw [← Prod.eta (followed step plan s₀ es m), hrest]
    rfl
  · show _ ++ ((followedBy step (followed step plan s₀ es m)).map _).toList = _
    rw [← Prod.eta (followed step plan s₀ es m), hrest]
    exact List.append_nil _

/-- After a round that is enabled comes the end of the next one. -/
theorem Execution.planned_again {m : Nat} (hrest : (followed step plan s₀ es m).2 = []) {s' : σ}
    (he : exec step ((Execution.planned step plan s₀ es).state m)
      (plan ((Execution.planned step plan s₀ es).state m)) = some s') :
    ∃ k, m < k ∧ (followed step plan s₀ es k).2 = [] ∧
      (Execution.planned step plan s₀ es).state k = s' ∧
      (Execution.planned step plan s₀ es).past k = (Execution.planned step plan s₀ es).past m ++
        history step ((Execution.planned step plan s₀ es).state m)
          (plan ((Execution.planned step plan s₀ es).state m)) := by
  obtain ⟨hround, hquiet⟩ := Execution.planned_round hrest
  rw [← List.append_nil (plan _)] at hround
  obtain ⟨hat, hpast⟩ := Execution.planned_exec hround he
  refine ⟨m + 1 + _, by omega, by rw [hat], congrArg Prod.fst hat, ?_⟩
  rw [hpast, hquiet]
  rfl

/-- **The rounds come back**: if each round is enabled where `J` holds and leads there again, `J`
    holds at the end of a round after every instant. -/
theorem Execution.planned_returns {J : List (σ × ε) → σ → Prop}
    (h0 : ∃ s, exec step s₀ es = some s ∧ J (history step s₀ es) s)
    (hJ : ∀ h s, J h s → ∃ s', exec step s (plan s) = some s' ∧ J (h ++ history step s (plan s)) s')
    (n : Nat) : ∃ m, n ≤ m ∧ (followed step plan s₀ es m).2 = [] ∧
      J ((Execution.planned step plan s₀ es).past m)
        ((Execution.planned step plan s₀ es).state m) := by
  induction n with
  | zero =>
      obtain ⟨s, he, hJs⟩ := h0
      have hfirst : followed step plan s₀ es 0 = (s₀, es ++ []) := by
        rw [List.append_nil]
        rfl
      obtain ⟨hat, hpast⟩ := Execution.planned_exec hfirst he
      refine ⟨0 + es.length, Nat.zero_le _, by rw [hat], ?_⟩
      rw [hpast, show (Execution.planned step plan s₀ es).state _ = s from congrArg Prod.fst hat]
      exact hJs
  | succ n ih =>
      obtain ⟨m, hnm, hrest, hJm⟩ := ih
      obtain ⟨s', he, hJ'⟩ := hJ _ _ hJm
      obtain ⟨k, hmk, hrest', hstate, hpast⟩ := Execution.planned_again hrest he
      refine ⟨k, by omega, hrest', ?_⟩
      rw [hpast, hstate]
      exact hJ'

/-- What each round raises is unbounded. -/
theorem Execution.planned_grows {J : List (σ × ε) → σ → Prop} (f : σ → Nat)
    (h0 : ∃ s, exec step s₀ es = some s ∧ J (history step s₀ es) s)
    (hJ : ∀ h s, J h s → ∃ s', exec step s (plan s) = some s' ∧
      J (h ++ history step s (plan s)) s' ∧ f s < f s')
    (d : Nat) : ∃ m, (followed step plan s₀ es m).2 = [] ∧
      J ((Execution.planned step plan s₀ es).past m)
        ((Execution.planned step plan s₀ es).state m) ∧
      d ≤ f ((Execution.planned step plan s₀ es).state m) := by
  induction d with
  | zero =>
      obtain ⟨m, -, hrest, hJm⟩ := Execution.planned_returns h0 (fun h s hs => by
        obtain ⟨s', he, hJ', -⟩ := hJ h s hs
        exact ⟨s', he, hJ'⟩) 0
      exact ⟨m, hrest, hJm, Nat.zero_le _⟩
  | succ d ih =>
      obtain ⟨m, hrest, hJm, hd⟩ := ih
      obtain ⟨s', he, hJ', hgrows⟩ := hJ _ _ hJm
      obtain ⟨k, -, hrest', hstate, hpast⟩ := Execution.planned_again hrest he
      rw [← hstate] at hgrows
      refine ⟨k, hrest', ?_, by omega⟩
      rw [hpast, hstate]
      exact hJ'

/-- **When a plan is fair** to a kind of step: each round takes one, or begins where none is
    possible. -/
theorem Execution.planned_fair {J : List (σ × ε) → σ → Prop} {A : σ → ε → Prop}
    (h0 : ∃ s, exec step s₀ es = some s ∧ J (history step s₀ es) s)
    (hJ : ∀ h s, J h s → ∃ s', exec step s (plan s) = some s' ∧ J (h ++ history step s (plan s)) s')
    (hA : ∀ h s, J h s → (∃ es₁ e es₂ s', plan s = es₁ ++ e :: es₂ ∧ exec step s es₁ = some s' ∧
      A s' e) ∨ ∀ e s', A s e → step s e ≠ some s') :
    (Execution.planned step plan s₀ es).WeaklyFair A := by
  intro n hen
  obtain ⟨m, hnm, hrest, hJm⟩ := Execution.planned_returns h0 hJ n
  rcases hA _ _ hJm with ⟨es₁, e, es₂, s', hplan, he, hAe⟩ | hno
  · obtain ⟨hround, -⟩ := Execution.planned_round hrest
    rw [show plan (followed step plan s₀ es m).1 = _ from hplan] at hround
    obtain ⟨hat, -⟩ := Execution.planned_exec hround he
    obtain ⟨s'', hall, -⟩ := hJ _ _ hJm
    rw [hplan, exec_append, he, Option.bind_some] at hall
    obtain ⟨s₁, hs₁, -⟩ := Option.bind_eq_some_iff.mp hall
    refine ⟨m + 1 + es₁.length, e, by omega, ?_, ?_⟩
    · show followedBy step (followed step plan s₀ es _) = _
      rw [hat]
      simp only [followedBy, hs₁, Option.map_some]
    · show A (followed step plan s₀ es _).1 e
      rw [hat]
      exact hAe
  · obtain ⟨e, s', hAe, hs⟩ := hen m hnm
    exact absurd hs (hno e s' hAe)

end Plan

/-! ## 4. Leads-to -/

/-- Wherever `P` holds, `Q` holds then or later. -/
def Execution.LeadsTo (x : Execution step s₀) (P Q : σ → Prop) : Prop :=
  ∀ n, P (x.state n) → ∃ m, n ≤ m ∧ Q (x.state m)

variable {x : Execution step s₀} {P Q R : σ → Prop}

theorem Execution.LeadsTo.of_imp (h : ∀ s, P s → Q s) : x.LeadsTo P Q :=
  fun n hP => ⟨n, Nat.le_refl n, h _ hP⟩

theorem Execution.LeadsTo.trans (h₁ : x.LeadsTo P Q) (h₂ : x.LeadsTo Q R) : x.LeadsTo P R := by
  intro n hP
  obtain ⟨m, hnm, hQ⟩ := h₁ n hP
  obtain ⟨k, hmk, hR⟩ := h₂ m hQ
  exact ⟨k, Nat.le_trans hnm hmk, hR⟩

theorem Execution.LeadsTo.or (h₁ : x.LeadsTo P R) (h₂ : x.LeadsTo Q R) :
    x.LeadsTo (fun s => P s ∨ Q s) R :=
  fun n h => h.elim (h₁ n) (h₂ n)

theorem Execution.LeadsTo.exists {α : Sort*} {P : α → σ → Prop} (h : ∀ a, x.LeadsTo (P a) Q) :
    x.LeadsTo (fun s => ∃ a, P a s) Q := by
  intro n hP
  obtain ⟨a, hP⟩ := hP
  exact h a n hP

/-- What lasts is still there. -/
theorem Execution.LeadsTo.and_stable {I : σ → Prop} (hI : ∀ n, I (x.state n))
    (hR : ∀ s e s', I s → R s → step s e = some s' → R s') (h : x.LeadsTo P Q) :
    x.LeadsTo (fun s => P s ∧ R s) fun s => Q s ∧ R s := by
  intro n hP
  obtain ⟨m, hnm, hQ⟩ := h n hP.1
  exact ⟨m, hnm, hQ, x.stays hI hR hnm hP.2⟩

/-- What lasts leads where it leads from some instant on. -/
theorem Execution.LeadsTo.of_drop {I : σ → Prop} (hI : ∀ n, I (x.state n))
    (hP : ∀ s e s', I s → P s → step s e = some s' → P s') {k : Nat}
    (h : (x.drop k).LeadsTo P Q) : x.LeadsTo P Q := by
  intro n hn
  obtain ⟨m, hm, hQ⟩ := h n (x.stays hI hP (Nat.le_add_left n k) hn)
  exact ⟨k + m, by omega, hQ⟩

/-- **The rule for one kind of step.** Each step from `P` reaches `Q`, or keeps `P` and is not of
    the kind `A`; and one of the kind is possible there. `I` is what holds at every instant, and
    `C` of every step. -/
theorem Execution.LeadsTo.ensures {I : σ → Prop} {C A : σ → ε → Prop} (hI : ∀ n, I (x.state n))
    (hC : x.Meets C) (hfair : x.WeaklyFair A)
    (hstep : ∀ s e s', I s → C s e → P s → step s e = some s' → Q s' ∨ P s' ∧ ¬ A s e)
    (hen : ∀ s, I s → P s → ∃ e s', A s e ∧ step s e = some s') : x.LeadsTo P Q := by
  intro n hP
  by_contra hnever
  have hnot : ∀ m, n ≤ m → ¬ Q (x.state m) := fun m hm hQ => hnever ⟨m, hm, hQ⟩
  -- without `Q` the premise lasts, so that the kind of step is taken
  have hlast : ∀ m, n ≤ m → P (x.state m) := by
    intro m hm
    induction hm with
    | refl => exact hP
    | @step m hm ih =>
        have hnext := x.next m
        cases hl : x.label m with
        | none =>
            rw [hl] at hnext
            rw [show x.state (m + 1) = x.state m from hnext]
            exact ih
        | some e =>
            rw [hl] at hnext
            rcases hstep _ e _ (hI m) (hC m e hl) ih hnext with hQ | ⟨hP', -⟩
            · exact absurd hQ (hnot (m + 1) (Nat.le_succ_of_le hm))
            · exact hP'
  obtain ⟨m, e, hm, hl, hA⟩ := hfair n fun m hm => hen _ (hI m) (hlast m hm)
  have hnext := x.next m
  rw [hl] at hnext
  rcases hstep _ e _ (hI m) (hC m e hl) (hlast m hm) hnext with hQ | ⟨-, hno⟩
  · exact hnot (m + 1) (by omega) hQ
  · exact hno hA

/-- **The rule of descent**: from each rank `Q` is reached, or a rank below. -/
theorem Execution.LeadsTo.descend {P : Nat → σ → Prop}
    (h : ∀ k, x.LeadsTo (P k) fun s => Q s ∨ ∃ j < k, P j s) (k : Nat) : x.LeadsTo (P k) Q := by
  induction k using Nat.strongRecOn with
  | ind k ih =>
      intro n hP
      obtain ⟨m, hnm, hQ | ⟨j, hjk, hj⟩⟩ := h k n hP
      · exact ⟨m, hnm, hQ⟩
      · obtain ⟨i, hmi, hQ⟩ := ih j hjk m hj
        exact ⟨i, Nat.le_trans hnm hmi, hQ⟩

/-- **The rule for one kind of step that has to be taken several times**: a rank never grows, and
    each step of the kind lowers it. -/
theorem Execution.LeadsTo.rank (f : σ → Nat) {I : σ → Prop} {C A : σ → ε → Prop}
    (hI : ∀ n, I (x.state n)) (hC : x.Meets C) (hfair : x.WeaklyFair A)
    (hstep : ∀ s e s', I s → C s e → P s → step s e = some s' →
      Q s' ∨ P s' ∧ (f s' < f s ∨ f s' = f s ∧ ¬ A s e))
    (hen : ∀ s, I s → P s → ∃ e s', A s e ∧ step s e = some s') : x.LeadsTo P Q := by
  have hdescend := Execution.LeadsTo.descend (x := x) (Q := Q)
    (P := fun k s => P s ∧ f s = k) fun k => by
    refine Execution.LeadsTo.ensures hI hC hfair (fun s e s' hIs hCs hP hs => ?_)
      fun s hIs hP => hen s hIs hP.1
    obtain ⟨hP, rfl⟩ := hP
    rcases hstep s e s' hIs hCs hP hs with hQ | ⟨hP', hlt | ⟨heq, hA⟩⟩
    · exact Or.inl (Or.inl hQ)
    · exact Or.inl (Or.inr ⟨f s', hlt, hP', rfl⟩)
    · exact Or.inr ⟨⟨hP', heq⟩, hA⟩
  exact fun n hP => hdescend (f (x.state n)) n ⟨hP, rfl⟩

/-- What joins a queue changes no place in it. -/
theorem findIdx_append_any {α : Type*} {kind : α → Bool} {queue : List α} (new : List α)
    (h : queue.any kind = true) : (queue ++ new).findIdx kind = queue.findIdx kind := by
  obtain ⟨m, hm, hk⟩ := List.any_eq_true.mp h
  rw [List.findIdx_append, if_pos (List.findIdx_lt_length.mpr ⟨m, hm, hk⟩)]

/-- **The rule for a queue.** A step of the kind `A` takes the head out, and others at most put
    something behind. So each element of a kind has its turn, and its turn reaches `Q`; `J` lasts
    until then. -/
theorem Execution.LeadsTo.queue {α : Type*} (queue : σ → List α) (kind : α → Bool)
    {I J : σ → Prop} {C A : σ → ε → Prop} (hI : ∀ n, I (x.state n)) (hC : x.Meets C)
    (hfair : x.WeaklyFair A)
    (hstep : ∀ s e s', I s → C s e → J s → step s e = some s' → Q s' ∨ J s' ∧
      ((∃ new, queue s' = queue s ++ new) ∧ ¬ A s e ∨
        ∃ m rest new, queue s = m :: rest ∧ kind m = false ∧ queue s' = rest ++ new))
    (hen : ∀ s, I s → J s → queue s ≠ [] → ∃ e s', A s e ∧ step s e = some s') :
    x.LeadsTo (fun s => J s ∧ (queue s).any kind = true) Q := by
  refine Execution.LeadsTo.rank (fun s => (queue s).findIdx kind) hI hC hfair ?_ ?_
  · intro s e s' hIs hCs hP hs
    obtain ⟨hJ, hany⟩ := hP
    rcases hstep s e s' hIs hCs hJ hs with hQ | ⟨hJ', ⟨⟨new, hq⟩, hA⟩ | ⟨m, rest, new, hm, hno, hq⟩⟩
    · exact Or.inl hQ
    · refine Or.inr ⟨⟨hJ', by rw [hq, List.any_append, hany]; rfl⟩, Or.inr ⟨?_, hA⟩⟩
      rw [hq, findIdx_append_any new hany]
    · have hrest : rest.any kind = true := by simpa [hm, hno] using hany
      refine Or.inr ⟨⟨hJ', by rw [hq, List.any_append, hrest]; rfl⟩, Or.inl ?_⟩
      rw [hq, findIdx_append_any new hrest, hm, List.findIdx_cons, hno]
      exact Nat.lt_succ_self _
  · intro s hIs hP
    refine hen s hIs hP.1 fun hnil => ?_
    rw [hnil] at hP
    cases hP.2

/-- **Goals that last are reached together.** -/
theorem Execution.LeadsTo.all {Q : Nat → σ → Prop} {k : Nat} (h : ∀ i < k, x.LeadsTo P (Q i))
    (hlasts : ∀ i < k, ∀ m n, m ≤ n → Q i (x.state m) → Q i (x.state n)) :
    x.LeadsTo P fun s => ∀ i < k, Q i s := by
  intro n hP
  induction k with
  | zero => exact ⟨n, Nat.le_refl n, fun i hi => absurd hi (Nat.not_lt_zero i)⟩
  | succ k ih =>
      obtain ⟨m, hnm, hall⟩ := ih (fun i hi => h i (by omega)) fun i hi => hlasts i (by omega)
      obtain ⟨m', hnm', hlast⟩ := h k (Nat.lt_succ_self k) n hP
      refine ⟨max m m', by omega, fun i hi => ?_⟩
      by_cases hik : i = k
      · subst hik
        exact hlasts i hi m' _ (Nat.le_max_right ..) hlast
      · exact hlasts i hi m _ (Nat.le_max_left ..) (hall i (by omega))

/-! ## 5. Components -/

section Components

variable {τ ε' : Type*} {step' : τ → ε' → Option τ} {t₀ : τ} {f : σ → τ} {g : σ → ε → Option ε'}
  {I : σ → Prop} {h₀ : f s₀ = t₀}

/-- **An execution of a system as one of a component.** `f` is the component, `g` its part in a
    step; `I` is what holds at every instant. -/
def Execution.project (x : Execution step s₀) (f : σ → τ) (g : σ → ε → Option ε') (h₀ : f s₀ = t₀)
    (hI : ∀ n, I (x.state n))
    (hstep : ∀ s e s', I s → step s e = some s' → Tick step' (f s) (g s e) (f s')) :
    Execution step' t₀ where
  state n := f (x.state n)
  label n := (x.label n).bind (g (x.state n))
  start := by rw [x.start, h₀]
  next n := by
    have hnext := x.next n
    cases hl : x.label n with
    | none =>
        rw [hl] at hnext
        exact congrArg f hnext
    | some e =>
        rw [hl] at hnext
        exact hstep _ e _ (hI n) hnext

/-- **When it is fair to a kind of step**: the system can take such a step where the component
    can, and is fair to it. -/
theorem Execution.project_fair {hI : ∀ n, I (x.state n)}
    {hstep : ∀ s e s', I s → step s e = some s' → Tick step' (f s) (g s e) (f s')}
    {A : σ → ε → Prop} {A' : τ → ε' → Prop} (hfair : x.WeaklyFair A)
    (hen : ∀ n e t', A' (f (x.state n)) e → step' (f (x.state n)) e = some t' →
      ∃ e s', A (x.state n) e ∧ step (x.state n) e = some s')
    (hA : ∀ s e, A s e → ∃ e', g s e = some e' ∧ A' (f s) e') :
    (x.project f g h₀ hI hstep).WeaklyFair A' := by
  intro n hcan
  obtain ⟨m, e, hnm, hl, hAe⟩ := hfair n fun m hm => by
    obtain ⟨e, t', hA', hs⟩ := hcan m hm
    exact hen m e t' hA' hs
  obtain ⟨e', hg, hA'⟩ := hA _ e hAe
  refine ⟨m, e', hnm, ?_, hA'⟩
  show (x.label m).bind (g (x.state m)) = some e'
  rw [hl]
  exact hg

end Components

end Lts
