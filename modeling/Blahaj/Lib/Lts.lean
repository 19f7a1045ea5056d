/-
  File:      Blahaj/Lib/Lts.lean
  Subject:   LABELLED STEP FUNCTIONS: runs with their history, invariants, simulations.

  A system is a partial function `step : σ → ε → Option σ`: `none` where the label is not
  enabled. A run carries its history, the pairs (state before, label) in the order taken, so
  that a property of a whole run is a property of a list.

  * `exec`, `history` -- a run as a computation, for concrete labels;
  * `Run` -- a run as a derivation, for inductions; `run_history` takes the first to the second;
  * `Run.invariant`, `Run.invariant_if` -- what every step keeps holds in every state reached,
    also when only the steps meeting a condition keep it;
  * `Run.split` -- a history cut in two is a run to the state in the middle and one from it;
  * `Run.counts`, `Run.logs`, `Run.latched`, `Run.once` -- what a state says about the steps taken
    so far: how many of a kind there were, which ones, whether there was one, that there was at most
    one;
  * `record_at` -- the step that made an entry of a record;
  * `Run.simulate` -- a simulation takes every run to a path of the abstract relation;
  * `Run.project` -- what a component does in a run of the whole is a run of its own.
-/
import Mathlib.Logic.Relation
import Mathlib.Data.List.Induction

namespace Lts

variable {σ ε : Type*} {step : σ → ε → Option σ}

/-! ## 1. Runs -/

/-- The state after the labels, `none` where one of them is not enabled. -/
def exec (step : σ → ε → Option σ) : σ → List ε → Option σ
  | s, [] => some s
  | s, e :: es => (step s e).bind fun s' => exec step s' es

/-- One label more. -/
theorem exec_snoc {e : ε} {s₁ s₂ : σ} : ∀ {es : List ε} {s₀ : σ}, exec step s₀ es = some s₁ →
    step s₁ e = some s₂ → exec step s₀ (es ++ [e]) = some s₂
  | [], _, h, he => by
      cases h
      simp [exec, he]
  | e' :: es, _, h, he => by
      obtain ⟨s, hs, h⟩ := Option.bind_eq_some_iff.mp h
      simp only [List.cons_append, exec, hs, Option.bind_some, exec_snoc h he]

/-- A run from `s₀` with its history. -/
inductive Run (step : σ → ε → Option σ) (s₀ : σ) : List (σ × ε) → σ → Prop where
  | start : Run step s₀ [] s₀
  | snoc {h : List (σ × ε)} {s s' : σ} (e : ε) (hr : Run step s₀ h s) (hs : step s e = some s') :
      Run step s₀ (h ++ [(s, e)]) s'

/-- Some run from `s₀` ends in `s`. -/
def Reach (step : σ → ε → Option σ) (s₀ s : σ) : Prop := ∃ h, Run step s₀ h s

theorem Reach.start {s₀ : σ} : Reach step s₀ s₀ := ⟨[], .start⟩

theorem Reach.snoc {s₀ s s' : σ} {e : ε} (hr : Reach step s₀ s) (hs : step s e = some s') :
    Reach step s₀ s' := by
  obtain ⟨h, hr⟩ := hr
  exact ⟨h ++ [(s, e)], .snoc e hr hs⟩

theorem Run.append {s₀ s s' : σ} {h k : List (σ × ε)} (hr : Run step s₀ h s)
    (hk : Run step s k s') : Run step s₀ (h ++ k) s' := by
  induction hk with
  | start => simpa using hr
  | snoc e _ hs ih =>
      rw [← List.append_assoc]
      exact .snoc e ih hs

/-- The history of the labels, as far as they are enabled. -/
def history (step : σ → ε → Option σ) : σ → List ε → List (σ × ε)
  | _, [] => []
  | s, e :: es => match step s e with
    | some s' => (s, e) :: history step s' es
    | none => []

/-- The labels of a history are among those given. -/
theorem label_mem : ∀ {es : List ε} {s₀ : σ}, ∀ x ∈ history step s₀ es, x.2 ∈ es
  | [], _, _, hx => nomatch hx
  | e :: es, s₀, x, hx => by
      rw [history] at hx
      split at hx
      · rcases List.mem_cons.mp hx with rfl | hx
        · exact List.mem_cons_self ..
        · exact List.mem_cons_of_mem _ (label_mem x hx)
      · cases hx

/-- The history of a computed run, cut at one of its labels. -/
theorem history_cut {e : ε} {es' : List ε} : ∀ {es : List ε} {s₀ s₁ s₂ : σ},
    exec step s₀ es = some s₁ → step s₁ e = some s₂ →
      history step s₀ (es ++ e :: es') = history step s₀ es ++ (s₁, e) :: history step s₂ es'
  | [], _, _, _, h, he => by
      cases h
      simp only [List.nil_append, history, he]
  | e' :: es, s₀, _, _, h, he => by
      obtain ⟨s, hs, h⟩ := Option.bind_eq_some_iff.mp h
      simp only [List.cons_append, history, hs, history_cut h he]

/-- A computed run is a run. -/
theorem run_history : ∀ {es : List ε} {s₀ s : σ}, exec step s₀ es = some s →
    Run step s₀ (history step s₀ es) s
  | [], _, _, he => by
      cases he
      exact .start
  | e :: es, s₀, s, he => by
      obtain ⟨s₁, h₁, he⟩ := Option.bind_eq_some_iff.mp he
      have hfirst : Run step s₀ ([] ++ [(s₀, e)]) s₁ := .snoc e .start h₁
      simp only [history, h₁]
      exact hfirst.append (run_history he)

theorem reach_of_exec {es : List ε} {s₀ s : σ} (he : exec step s₀ es = some s) :
    Reach step s₀ s := ⟨_, run_history he⟩

/-- **A history cut in two**: the first part is a run to the state the second part starts in. -/
theorem Run.split {s₀ s' : σ} {h k : List (σ × ε)} (hr : Run step s₀ (h ++ k) s') :
    ∃ s, Run step s₀ h s ∧ Run step s k s' := by
  induction k using List.reverseRecOn generalizing s' with
  | nil => exact ⟨s', by simpa using hr, .start⟩
  | append_singleton k x ih =>
      rw [← List.append_assoc] at hr
      generalize hg : (h ++ k) ++ [x] = l at hr
      cases hr with
      | start => simp at hg
      | snoc e hr hs =>
          obtain ⟨hl, hx⟩ := List.append_inj' hg rfl
          cases hx
          subst hl
          obtain ⟨s, h₁, h₂⟩ := ih hr
          exact ⟨s, h₁, .snoc e h₂ hs⟩

/-- The first step of a run. -/
theorem Run.head {s₀ s' s : σ} {e : ε} {k : List (σ × ε)} (hr : Run step s₀ ((s, e) :: k) s') :
    s = s₀ ∧ ∃ s₁, step s e = some s₁ ∧ Run step s₁ k s' := by
  obtain ⟨s₁, h₁, h₂⟩ := Run.split (h := [(s, e)]) hr
  generalize hg : [(s, e)] = l at h₁
  cases h₁ with
  | start => cases hg
  | snoc e' hr' hs =>
      cases hr' with
      | start =>
          cases hg
          exact ⟨rfl, _, hs, h₂⟩
      | snoc =>
          have hlen := congrArg List.length hg
          simp at hlen

/-- A history up to one of its steps is a run to the state the step was taken in. -/
theorem Run.before {s₀ s : σ} {h₁ h₂ : List (σ × ε)} {x : σ × ε}
    (hr : Run step s₀ (h₁ ++ x :: h₂) s) : Run step s₀ h₁ x.1 := by
  obtain ⟨s₁, hr₁, hr₂⟩ := hr.split
  rw [hr₂.head.1]
  exact hr₁

/-- What a step of a history leads to is a state of the run: the next one, or the last. -/
theorem Run.next_mem {s₀ s : σ} {h : List (σ × ε)} (hr : Run step s₀ h s) :
    ∀ x ∈ h, ∀ s', step x.1 x.2 = some s' → s' ∈ h.map Prod.fst ++ [s] := by
  induction hr with
  | start => exact fun _ hx => nomatch hx
  | @snoc h s s' e _ hs ih =>
      intro x hx t ht
      rw [List.map_append]
      rcases List.mem_append.mp hx with hx | hx
      · exact List.mem_append_left _ (ih x hx t ht)
      · rw [List.mem_singleton.mp hx] at ht
        rw [Option.some.inj (ht.symm.trans hs)]
        exact List.mem_append_right _ (List.mem_singleton.mpr rfl)

/-- Each step of a history was taken. -/
theorem Run.enabled {s₀ s : σ} {h : List (σ × ε)} (hr : Run step s₀ h s) :
    ∀ x ∈ h, ∃ s', step x.1 x.2 = some s' := by
  induction hr with
  | start => exact fun _ hx => nomatch hx
  | snoc e _ hs ih =>
      intro x hx
      rcases List.mem_append.mp hx with hx | hx
      · exact ih x hx
      · rw [List.mem_singleton.mp hx]
        exact ⟨_, hs⟩

/-! ## 2. Invariants -/

/-- **What every step meeting `C` keeps holds after every run whose steps meet `C`.** -/
theorem Run.invariant_if {C : σ → ε → Prop} {P : σ → Prop} {s₀ : σ} (h0 : P s₀)
    (hs : ∀ s e s', P s → C s e → step s e = some s' → P s') {h : List (σ × ε)} {s : σ}
    (hr : Run step s₀ h s) (hC : ∀ x ∈ h, C x.1 x.2) : P s := by
  induction hr with
  | start => exact h0
  | snoc e _ hstep ih =>
      have hprev := ih fun x hx => hC x (List.mem_append_left _ hx)
      exact hs _ e _ hprev (hC (_, e) (by simp)) hstep

/-- **What every step keeps holds in every state a run reaches.** -/
theorem Run.invariant {P : σ → Prop} {s₀ : σ} (h0 : P s₀)
    (hs : ∀ s e s', P s → step s e = some s' → P s') {h : List (σ × ε)} {s : σ}
    (hr : Run step s₀ h s) : P s :=
  hr.invariant_if (C := fun _ _ => True) h0 (fun s e s' hp _ => hs s e s' hp) fun _ _ => trivial

theorem Reach.invariant {P : σ → Prop} {s₀ : σ} (h0 : P s₀)
    (hs : ∀ s e s', P s → step s e = some s' → P s') {s : σ} (hr : Reach step s₀ s) : P s := by
  obtain ⟨h, hr⟩ := hr
  exact hr.invariant h0 hs

/-- An invariant holds before every step of a run. -/
theorem Run.invariant_before {P : σ → Prop} {s₀ : σ} (h0 : P s₀)
    (hs : ∀ s e s', P s → step s e = some s' → P s') {h : List (σ × ε)} {s : σ}
    (hr : Run step s₀ h s) : ∀ x ∈ h, P x.1 := by
  induction hr with
  | start => simp
  | snoc e hr hstep ih =>
      intro x hx
      rcases List.mem_append.mp hx with hx | hx
      · exact ih x hx
      · rw [List.mem_singleton.mp hx]
        exact hr.invariant h0 hs

/-! ## 3. Histories -/

/-- **A number that grows with every step of a kind** counts the steps of that kind. -/
theorem Run.counts {f : σ → Nat} {c : σ → ε → Bool} {s₀ : σ} (h0 : f s₀ = 0)
    (hs : ∀ s e s', Reach step s₀ s → step s e = some s' → f s' = f s + if c s e then 1 else 0)
    {h : List (σ × ε)} {s : σ} (hr : Run step s₀ h s) : f s = h.countP fun x => c x.1 x.2 := by
  induction hr with
  | start => exact h0
  | snoc e hr hstep ih =>
      rw [hs _ e _ ⟨_, hr⟩ hstep, ih, List.countP_append, List.countP_singleton]

/-- **A list that grows with what the steps leave in it** holds just that, in their order. -/
theorem Run.logs {β : Type*} {f : σ → List β} {g : σ → ε → Option β} {s₀ : σ} (h0 : f s₀ = [])
    (hs : ∀ s e s', Reach step s₀ s → step s e = some s' → f s' = f s ++ (g s e).toList)
    {h : List (σ × ε)} {s : σ} (hr : Run step s₀ h s) : f s = h.filterMap fun x => g x.1 x.2 := by
  induction hr with
  | start => exact h0
  | @snoc h s s' e hr hstep ih =>
      rw [hs _ e _ ⟨_, hr⟩ hstep, ih, List.filterMap_append]
      cases hg : g s e <;> simp [hg]

/-- **What the steps of a kind switch on**, and no other step changes, is on exactly where such a
    step was taken. -/
theorem Run.latched {P : σ → Prop} {C : σ → ε → Prop} {s₀ : σ} (h0 : ¬ P s₀)
    (hs : ∀ s e s', Reach step s₀ s → step s e = some s' → (P s' ↔ P s ∨ C s e))
    {h : List (σ × ε)} {s : σ} (hr : Run step s₀ h s) : P s ↔ ∃ x ∈ h, C x.1 x.2 := by
  induction hr with
  | start => simp [h0]
  | snoc e hr hstep ih =>
      rw [hs _ e _ ⟨_, hr⟩ hstep, ih]
      simp only [List.mem_append, List.mem_singleton, or_and_right, exists_or, exists_eq_left]

/-- **A step that switches off what it needs**, where nothing switches it on again, is taken at
    most once. -/
theorem Run.once {P : σ → Prop} {c : σ → ε → Bool} {s₀ : σ}
    (hon : ∀ s e s', Reach step s₀ s → step s e = some s' → c s e = true → P s ∧ ¬ P s')
    (hoff : ∀ s e s', Reach step s₀ s → step s e = some s' → P s' → P s)
    {h : List (σ × ε)} {s : σ} (hr : Run step s₀ h s) :
    (h.countP fun x => c x.1 x.2) ≤ 1 ∧ (P s → (h.countP fun x => c x.1 x.2) = 0) := by
  induction hr with
  | start => simp
  | @snoc h s s' e hr hstep ih =>
      obtain ⟨hle, hzero⟩ := ih
      rw [List.countP_append, List.countP_singleton]
      cases hc : c s e with
      | false => exact ⟨hle, fun hP => hzero (hoff _ e _ ⟨_, hr⟩ hstep hP)⟩
      | true =>
          obtain ⟨hP, hP'⟩ := hon _ e _ ⟨_, hr⟩ hstep hc
          rw [hzero hP]
          exact ⟨Nat.le_refl _, fun h => absurd h hP'⟩

/-- **What was recorded, and when**: an entry of the record was made at a step of the history, with
    the entries before it made at the steps before it. -/
theorem record_at {α β : Type*} {f : α → Option β} {b : β} : ∀ {l : List α} {n : Nat},
    (l.filterMap f)[n]? = some b →
      ∃ l₁ x l₂, l = l₁ ++ x :: l₂ ∧ f x = some b ∧ (l₁.filterMap f).length = n
  | [], _, h => nomatch h
  | x :: l, n, h => by
      cases hx : f x with
      | none =>
          rw [List.filterMap_cons_none hx] at h
          obtain ⟨l₁, y, l₂, rfl, hy, hn⟩ := record_at h
          exact ⟨x :: l₁, y, l₂, rfl, hy, by rw [List.filterMap_cons_none hx, hn]⟩
      | some c =>
          rw [List.filterMap_cons_some hx] at h
          cases n with
          | zero => exact ⟨[], x, l, rfl, hx.trans h, rfl⟩
          | succ n =>
              obtain ⟨l₁, y, l₂, rfl, hy, hn⟩ := record_at h
              exact ⟨x :: l₁, y, l₂, rfl, hy, by
                rw [List.filterMap_cons_some hx, List.length_cons, hn]⟩

/-! ## 4. Simulation -/

/-- **A simulation takes every run to a path of the abstract relation**: each step is matched by
    abstract moves, none of them where the step is invisible. -/
theorem Run.simulate {α : Type*} {R : σ → α → Prop} {Move : α → α → Prop} {s₀ : σ} {a₀ : α}
    (h0 : R s₀ a₀)
    (hs : ∀ s a e s', R s a → step s e = some s' → ∃ a', R s' a' ∧ Relation.ReflTransGen Move a a')
    {h : List (σ × ε)} {s : σ} (hr : Run step s₀ h s) :
    ∃ a, R s a ∧ Relation.ReflTransGen Move a₀ a := by
  induction hr with
  | start => exact ⟨a₀, h0, .refl⟩
  | snoc e _ hstep ih =>
      obtain ⟨a, ha, hpath⟩ := ih
      obtain ⟨a', ha', hmove⟩ := hs _ a e _ ha hstep
      exact ⟨a', ha', hpath.trans hmove⟩

/-- A path of steps is a run. -/
theorem reach_of_path {s₀ s : σ}
    (h : Relation.ReflTransGen (fun s s' => ∃ e, step s e = some s') s₀ s) :
    Reach step s₀ s := by
  induction h with
  | refl => exact .start
  | tail _ hstep ih =>
      obtain ⟨e, hs⟩ := hstep
      exact ih.snoc hs

/-! ## 5. Components -/

/-- **What a component does in a run of the whole is a run of its own**, from a state in which it
    may be created. `proj` says which steps of the whole are its steps; the others leave it alone,
    or create it. -/
theorem Run.project {τ δ : Type*} {step' : τ → δ → Option τ} {view : σ → Option τ}
    {proj : σ × ε → Option (τ × δ)} {I : τ → Prop} {s₀ : σ} (h0 : view s₀ = none)
    (hown : ∀ s e s' t d, step s e = some s' → proj (s, e) = some (t, d) →
      view s = some t ∧ ∃ t', step' t d = some t' ∧ view s' = some t')
    (hother : ∀ s e s', step s e = some s' → proj (s, e) = none →
      view s' = view s ∨ view s = none ∧ ∃ t, view s' = some t ∧ I t)
    {h : List (σ × ε)} {s : σ} (hr : Run step s₀ h s) :
    (∀ t, view s = some t → ∃ t₀, I t₀ ∧ Run step' t₀ (h.filterMap proj) t) ∧
      (view s = none → h.filterMap proj = []) := by
  induction hr with
  | start =>
      refine ⟨fun t ht => ?_, fun _ => rfl⟩
      rw [h0] at ht
      cases ht
  | @snoc h s s' e _ hs ih =>
      obtain ⟨hrun, hnil⟩ := ih
      rw [List.filterMap_append]
      cases hproj : proj (s, e) with
      | none =>
          have hsame : [(s, e)].filterMap proj = [] := by simp [hproj]
          rw [hsame, List.append_nil]
          rcases hother s e s' hs hproj with heq | ⟨hnone, t, ht, hI⟩
          · rw [heq]
            exact ⟨hrun, hnil⟩
          · refine ⟨fun t' ht' => ?_, fun hnone' => ?_⟩
            · obtain rfl := Option.some.inj (ht.symm.trans ht')
              rw [hnil hnone]
              exact ⟨t, hI, .start⟩
            · rw [ht] at hnone'
              cases hnone'
      | some own =>
          obtain ⟨t, d⟩ := own
          obtain ⟨ht, t', hs', ht'⟩ := hown s e s' t d hs hproj
          have hone : [(s, e)].filterMap proj = [(t, d)] := by simp [hproj]
          rw [hone]
          refine ⟨fun t₁ ht₁ => ?_, fun hnone => ?_⟩
          · obtain rfl := Option.some.inj (ht'.symm.trans ht₁)
            obtain ⟨t₀, hI, hr⟩ := hrun t ht
            exact ⟨t₀, hI, .snoc d hr hs'⟩
          · rw [ht'] at hnone
            cases hnone

end Lts
