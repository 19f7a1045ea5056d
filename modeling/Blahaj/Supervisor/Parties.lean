/-
  File:      Blahaj/Supervisor/Parties.lean
  Subject:   A CARETAKER AND ITS HEALTH ACTORS: what a step of the one does to the other.

  * `Monitored.Stepped` -- everything a step of the two parties is;
  * `receives_told`, `receives_signalled` -- what a health actor does to the records of its
    caretaker;
  * `Watching.untold`, `Watching.knows` -- what the caretaker does to them itself;
  * `known_run` -- the caretaker knows of every health actor.
-/
import Blahaj.Supervisor.Records
import Blahaj.Supervisor.StopChannel

namespace Blahaj

variable {S : Setting} {s s' : Caretaker}

/-! ## 1. Steps -/

/-- **Everything a step of a caretaker with its health actors is**: one of the caretaker, or one of
    a health actor, which handles its stop message only where it was told to stop. -/
inductive Monitored.Stepped (S : Setting) (s : Monitored) : Turn → Monitored → Prop where
  | caretaker {e : Event} (hown : e.own = true) {s₁ : Caretaker}
      (hs : s.caretaker.step S e = some s₁) : Stepped S s (.caretaker e) (s.hire S s₁)
  | actor {t : Turn} {k : Nat} {actor : HealthActor} {e : HealthEvent}
      (hown : Monitored.own k (s, t) = some (actor, e))
      (hothers : ∀ j, j ≠ k → Monitored.own j (s, t) = none) {actor' : HealthActor}
      (hs : actor.step S.timer e = some actor') {told : Bool}
      (htold : s.caretaker.told k = some told)
      (hstop : e = .stop → told = true) :
      Stepped S s t
        ⟨(HealthActor.does S.timer (actor, e)).foldl (Caretaker.receive S k) s.caretaker,
          s.actors.set k actor'⟩

/-- A turn is one of those steps. -/
theorem turn_stepped {k : Nat} {s s' : Monitored} {enabled : HealthActor → Bool → Bool}
    {f : HealthActor → HealthActor × List HealthAction} {t : Turn} {e : HealthEvent}
    (hevent : ∀ j receiving, j ≠ k → t.event j receiving = none)
    (hself : t.event k (s.caretaker.receiving k) = some e)
    (hturn : ∀ actor told, enabled actor told = true → actor.turn S.timer e = some (f actor))
    (hstop : ∀ actor told, enabled actor told = true → e = .stop → told = true)
    (hs : s.turn S k enabled f = some s') : Monitored.Stepped S s t s' := by
  obtain ⟨actor, told, hactor, htold, hen, rfl⟩ := turn_some hs
  have hone := hturn actor told hen
  have hdoes : HealthActor.does S.timer (actor, e) = (f actor).2 := by simp [HealthActor.does, hone]
  rw [← hdoes]
  refine .actor ?_ (fun j hj => ?_) ?_ htold (hstop actor told hen)
  · simp [Monitored.own, hactor, hself]
  · simp [Monitored.own, hevent j _ hj]
  · simp [HealthActor.step, hone]

theorem Monitored.stepped {s s' : Monitored} {t : Turn} (hs : s.step S t = some s') :
    Monitored.Stepped S s t s' := by
  cases t with
  | caretaker e =>
      simp only [Monitored.step] at hs
      split at hs
      · obtain ⟨s₁, hs₁, rfl⟩ := Option.map_eq_some_iff.mp hs
        exact .caretaker ‹_› hs₁
      · cases hs
  | started k =>
      refine turn_stepped (f := HealthActor.started S.timer) (e := .started) (fun j _ hj => ?_) ?_
        (fun actor told hen => ?_) (fun _ _ _ he => by cases he) hs
      · simp [Turn.event, Ne.symm hj]
      · simp [Turn.event]
      · simp only [HealthActor.turn, hen, ↓reduceIte]
  | stop k =>
      refine turn_stepped (f := HealthActor.leave .stopped) (e := .stop) (fun j _ hj => ?_) ?_
        (fun actor told hen => ?_) (fun actor told hen _ => ?_) hs
      · simp [Turn.event, Ne.symm hj]
      · simp [Turn.event]
      · rw [Bool.and_eq_true] at hen
        simp only [HealthActor.turn, hen.1, ↓reduceIte]
      · rw [Bool.and_eq_true] at hen
        exact hen.2
  | tick k =>
      refine turn_stepped (f := HealthActor.tick) (e := .tick) (fun j _ hj => ?_) ?_
        (fun actor told hen => ?_) (fun _ _ _ he => by cases he) hs
      · simp [Turn.event, Ne.symm hj]
      · simp [Turn.event]
      · simp only [HealthActor.polls, Bool.and_eq_true] at hen
        simp only [HealthActor.turn, hen.1.1, hen.2, Bool.and_self, ↓reduceIte]
  | checked k check answer =>
      refine turn_stepped (f := HealthActor.checked _ check answer)
        (e := .checked (s.caretaker.receiving k) check answer) (fun j _ hj => ?_) ?_
        (fun actor told hen => ?_) (fun _ _ _ he => by cases he) hs
      · simp [Turn.event, Ne.symm hj]
      · simp [Turn.event]
      · simp only [HealthActor.polls, Bool.and_eq_true] at hen
        simp only [HealthActor.turn, hen.1.1, hen.2, Bool.and_self, ↓reduceIte]

theorem hire_caretaker (S : Setting) (s : Monitored) (caretaker : Caretaker) :
    (s.hire S caretaker).caretaker = caretaker := by
  unfold Monitored.hire
  split <;> rfl

/-! ## 2. What they do to the records -/

/-- What a health actor does reaches the sender of the unhealthy signal only in one action. -/
theorem receive_signalled (s : Caretaker) {k : Nat} {told : Bool} (htold : s.told k = some told)
    (j : Nat) (a : HealthAction) :
    (s.receive S k a).signalled ⟨.unhealthy j⟩ =
      (s.signalled ⟨.unhealthy j⟩ || (a == .signal && j == k)) := by
  cases a with
  | report health =>
      have hsame : (s.receive S k (.report health)).health = s.health := by
        simp only [Caretaker.receive, Caretaker.step, Caretaker.arrive]
        split
        · rfl
        · split <;> rfl
      simp [Caretaker.signalled, hsame]
  | signal =>
      obtain ⟨handle, hhandle, -⟩ := Option.map_eq_some_iff.mp htold
      have hlt := (List.getElem?_eq_some_iff.mp hhandle).1
      simp only [Caretaker.receive, Caretaker.step, hlt, ↓reduceIte, Option.getD_some,
        Caretaker.signalled, List.getElem?_modify]
      by_cases hj : j = k
      · subst hj
        simp [hhandle]
      · have hkj : k ≠ j := fun heq => hj heq.symm
        cases s.health[j]? <;> simp [hkj, hj]

/-- What health actors do touches the mailbox and the health actors only. -/
theorem receives_frame (s : Caretaker) (k : Nat) (actions : List HealthAction) :
    ∃ mailbox n health, actions.foldl (Caretaker.receive S k) s =
      { s with mailbox := mailbox, nextReq := n, health := health } := by
  induction actions generalizing s with
  | nil => exact ⟨_, _, _, rfl⟩
  | cons a actions ih =>
      obtain ⟨mailbox, n, health, hrest⟩ := ih (s.receive S k a)
      rw [List.foldl_cons, hrest]
      rcases received (S := S) s k a with ⟨_, _, hone⟩ | hone
      · rw [hone]
        exact ⟨_, _, _, rfl⟩
      · rw [hone]
        exact ⟨_, _, _, rfl⟩

theorem receives_told (s : Caretaker) (k j : Nat) (actions : List HealthAction) :
    (actions.foldl (Caretaker.receive S k) s).told j = s.told j := by
  induction actions generalizing s with
  | nil => rfl
  | cons a actions ih => rw [List.foldl_cons, ih, receive_told]

theorem receives_signalled {s : Caretaker} {k : Nat} {told : Bool} (htold : s.told k = some told)
    (j : Nat) (actions : List HealthAction) :
    (actions.foldl (Caretaker.receive S k) s).signalled ⟨.unhealthy j⟩ =
      (s.signalled ⟨.unhealthy j⟩ || (actions.contains .signal && j == k)) := by
  induction actions generalizing s with
  | nil => simp
  | cons a actions ih =>
      rw [List.foldl_cons, ih ((receive_told s k k a).trans htold), receive_signalled s htold,
        List.contains_cons, Bool.or_assoc, ← Bool.and_or_distrib_right]
      rw [show (a == HealthAction.signal) = (HealthAction.signal == a) from Bool.beq_comm]

theorem signalled_unhealthy (s : Caretaker) (k : Nat) :
    s.signalled ⟨.unhealthy k⟩ = ((s.health[k]?).map HealthHandle.signalled).getD true := by
  simp only [Caretaker.signalled]
  cases s.health[k]? <;> rfl

/-- What an event of the caretaker makes of a health actor that is not told to stop behind it: it
    was not before, and has its sender as before, or it is just started. -/
theorem Watching.untold {e : Event} (h : Watching S e s.health s'.health) (he : e.own = true)
    {k : Nat} (htold : s'.told k = some false) :
    s.told k = some false ∧ s'.signalled ⟨.unhealthy k⟩ = s.signalled ⟨.unhealthy k⟩ ∨
      k = s.health.length ∧ s'.signalled ⟨.unhealthy k⟩ = false := by
  rw [signalled_unhealthy, signalled_unhealthy]
  unfold Caretaker.told at htold ⊢
  generalize s'.health = health' at h htold ⊢
  cases h with
  | same => exact Or.inl ⟨htold, rfl⟩
  | start =>
      rcases Nat.lt_trichotomy k s.health.length with hlt | rfl | hgt
      · rw [List.getElem?_append_left hlt] at htold ⊢
        exact Or.inl ⟨htold, rfl⟩
      · exact Or.inr ⟨rfl, by simp⟩
      · rw [List.getElem?_eq_none (by simp; omega)] at htold
        cases htold
  | stop j _ =>
      rw [List.getElem?_modify] at htold ⊢
      cases hk : s.health[k]? with
      | none =>
          rw [hk] at htold
          cases htold
      | some handle =>
          rw [hk] at htold
          by_cases hj : j = k
          · simp [hj] at htold
          · simp only [hj, ↓reduceIte] at htold ⊢
            exact Or.inl ⟨htold, rfl⟩
  | signal j hj =>
      rw [hj] at he
      cases he

/-- A health actor the caretaker knows of stays known. -/
theorem Watching.knows {e : Event} (h : Watching S e s.health s'.health) {k : Nat} {told : Bool}
    (htold : s.told k = some told) : ∃ told, s'.told k = some told := by
  obtain ⟨handle, hhandle, -⟩ := Option.map_eq_some_iff.mp htold
  have hlt := (List.getElem?_eq_some_iff.mp hhandle).1
  unfold Caretaker.told
  generalize s'.health = health' at h ⊢
  cases h with
  | same => exact ⟨_, by rw [hhandle]; rfl⟩
  | start => exact ⟨_, by rw [List.getElem?_append_left hlt, hhandle]; rfl⟩
  | stop j _ => exact ⟨_, by rw [List.getElem?_modify, hhandle]; rfl⟩
  | signal j _ => exact ⟨_, by rw [List.getElem?_modify, hhandle]; rfl⟩

/-- The caretaker knows of every health actor. -/
theorem known_step {s s' : Monitored}
    (h : ∀ (k : Nat) (actor : HealthActor), s.actors[k]? = some actor →
      ∃ told, s.caretaker.told k = some told)
    {t : Turn} (hs : s.step S t = some s') (k : Nat) (actor : HealthActor)
    (hactor : s'.actors[k]? = some actor) : ∃ told, s'.caretaker.told k = some told := by
  cases Monitored.stepped hs with
  | @caretaker e _ s₁ hs₁ =>
      have hknows : ∀ actor, s.actors[k]? = some actor → ∃ told, s₁.told k = some told := by
        intro actor hactor
        obtain ⟨told, htold⟩ := h k actor hactor
        exact (recorded_step hs₁).health.knows htold
      unfold Monitored.hire at hactor ⊢
      split at hactor
      · rename_i handle hhandle
        rw [List.getElem?_append] at hactor
        split at hactor
        · exact hknows actor hactor
        · rename_i hge
          have hk : k = s.actors.length := by
            have hlt := (List.getElem?_eq_some_iff.mp hactor).1
            simp at hlt
            omega
          subst hk
          exact ⟨handle.stopped, by simp [Caretaker.told, hhandle]⟩
      · exact hknows actor hactor
  | @actor _ j actor₁ e _ _ actor' _ told₁ htold₁ _ =>
      rw [receives_told]
      by_cases hj : k = j
      · subst hj
        exact ⟨_, htold₁⟩
      · rw [List.getElem?_set_ne (Ne.symm hj)] at hactor
        exact h k actor hactor

theorem known_run {h : List (Monitored × Turn)} {s : Monitored}
    (hr : Lts.Run (Monitored.step S) .init h s) (k : Nat) (actor : HealthActor)
    (hactor : s.actors[k]? = some actor) : ∃ told, s.caretaker.told k = some told :=
  hr.invariant (P := fun s => ∀ (k : Nat) (actor : HealthActor), s.actors[k]? = some actor →
    ∃ told, s.caretaker.told k = some told) (fun _ _ hactor => by cases hactor)
    (fun _ _ _ h hs => known_step h hs) k actor hactor

end Blahaj
