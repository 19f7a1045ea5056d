/-
  File:      Blahaj/Lib/Waker.lean
  Subject:   TASKS AND THEIR WAKERS: a future that is polled only after its task was woken.

  A poll that stays pending leaves the waker of its task with what it waits for, or wakes the task
  itself. The executor polls a task that was woken, and no other. So a future that leaves its waker
  nowhere is not polled again: a wake-up is lost.

  * `Scene` -- a future, the world it is polled in, and the events there;
  * `Scene.step` -- its task: it is polled where it was woken, and events wake it;
  * `Attentive` -- the future leaves its waker with all that can change its next poll;
  * `Attentive.parked`, `Attentive.asleep` -- **no wake-up is lost**: a task that is left alone has
    nothing to do;
  * `Attentive.leads` -- a task that has something to do is polled.
-/
import Blahaj.Lib.Fair

namespace Waker

/-! ## 1. Futures -/

/-- What a poll leaves behind: whether it has woken its own task, and the sources that have got the
    waker. -/
structure Wakes (ι : Type*) where
  self : Bool
  sources : List ι

/-- What a poll does; `out` is `none` where it stays pending. -/
structure PollOut (φ ω ι ρ : Type*) where
  out : Option ρ
  fut : φ
  world : ω
  wakes : Wakes ι

/-- A future of the type `φ` in a world `ω`. A poll reads a `κ`, and is `none` where it panics; an
    event of the world fires some sources. -/
structure Scene (φ ω κ ε ι ρ : Type*) where
  poll : κ → φ → ω → Option (PollOut φ ω ι ρ)
  event : ω → ε → Option ω
  fires : ω → ε → ι → Bool

/-- The task of a future, the sources that have its waker, and what the future has resolved to. -/
structure Task (φ ω ι ρ : Type*) where
  fut : φ
  world : ω
  woken : Bool
  wakers : List ι
  outcome : Option ρ
  panicked : Bool

inductive TaskEvent (κ ε : Type*) where
  | poll (k : κ)
  | world (e : ε)
  /-- the task is woken for another reason -/
  | wake

variable {φ ω κ ε ι ρ : Type*}

/-- A task that was spawned: it is polled without being woken. -/
def Task.spawn (fut : φ) (world : ω) : Task φ ω ι ρ := ⟨fut, world, true, [], none, false⟩

/-- The future is still to be polled. -/
def Task.live (t : Task φ ω ι ρ) : Bool := t.outcome.isNone && !t.panicked

/-- **One step of a task.** A source that fires gives the waker back. -/
def Scene.step (F : Scene φ ω κ ε ι ρ) (t : Task φ ω ι ρ) :
    TaskEvent κ ε → Option (Task φ ω ι ρ)
  | .poll k =>
    if t.live && t.woken then
      match F.poll k t.fut t.world with
      | none => some { t with panicked := true }
      | some p => some { t with
          fut := p.fut
          world := p.world
          woken := p.wakes.self
          wakers := p.wakes.sources ++ t.wakers
          outcome := p.out }
    else none
  | .world e => (F.event t.world e).map fun world => { t with
      world
      woken := t.woken || t.wakers.any (F.fires t.world e)
      wakers := t.wakers.filter fun i => !F.fires t.world e i }
  | .wake => some { t with woken := true }

/-! ## 2. No wake-up is lost -/

/-- A poll would stay pending and change nothing. -/
def Scene.Quiet (F : Scene φ ω κ ε ι ρ) (fut : φ) (world : ω) : Prop :=
  ∀ k, ∃ sources, F.poll k fut world = some ⟨none, fut, world, ⟨false, sources⟩⟩

/-- **The future leaves its waker with all that can change its next poll.** `Parked` is what holds
    from a pending poll on until one of the sources fires. -/
structure Attentive (F : Scene φ ω κ ε ι ρ) (Parked : φ → ω → List ι → Prop) : Prop where
  quiet : ∀ {fut world wakers}, Parked fut world wakers → F.Quiet fut world
  more : ∀ {fut world wakers wakers'}, wakers ⊆ wakers' → Parked fut world wakers →
    Parked fut world wakers'
  poll : ∀ {k fut world p}, F.poll k fut world = some p → p.out = none → p.wakes.self = false →
    Parked p.fut p.world p.wakes.sources
  event : ∀ {fut world world' e wakers}, Parked fut world wakers → F.event world e = some world' →
    (∀ i ∈ wakers, F.fires world e i = false) → Parked fut world' wakers

variable {F : Scene φ ω κ ε ι ρ} {Parked : φ → ω → List ι → Prop} {t t' : Task φ ω ι ρ}

theorem Attentive.parked_step (h : Attentive F Parked)
    (ht : t.live = true → t.woken = false → Parked t.fut t.world t.wakers) {e : TaskEvent κ ε}
    (hs : F.step t e = some t') :
    t'.live = true → t'.woken = false → Parked t'.fut t'.world t'.wakers := by
  intro hlive hidle
  cases e with
  | poll k =>
      simp only [Scene.step] at hs
      split at hs
      · split at hs
        · obtain rfl := Option.some.inj hs
          simp [Task.live] at hlive
        · rename_i p hp
          obtain rfl := Option.some.inj hs
          have hout : p.out = none := by
            simp only [Task.live, Bool.and_eq_true, Option.isNone_iff_eq_none] at hlive
            exact hlive.1
          exact h.more (List.subset_append_left ..) (h.poll hp hout hidle)
      · cases hs
  | world e =>
      simp only [Scene.step] at hs
      obtain ⟨world, hevent, rfl⟩ := Option.map_eq_some_iff.mp hs
      obtain ⟨hbefore, hfires⟩ := Bool.or_eq_false_iff.mp hidle
      have hsilent : ∀ i ∈ t.wakers, F.fires t.world e i = false := by
        simpa [List.any_eq_false] using hfires
      have hkept : (t.wakers.filter fun i => !F.fires t.world e i) = t.wakers :=
        List.filter_eq_self.mpr fun i hi => by simp [hsilent i hi]
      show Parked t.fut world (t.wakers.filter fun i => !F.fires t.world e i)
      rw [hkept]
      exact h.event (ht hlive hbefore) hevent hsilent
  | wake =>
      obtain rfl := Option.some.inj hs
      cases hidle

/-- **A task that is left alone is parked**: while its future is not resolved, and nobody has woken
    it, its waker is where the future waits. -/
theorem Attentive.parked (h : Attentive F Parked) {fut : φ} {world : ω}
    (hr : Lts.Reach F.step (.spawn fut world) t) :
    t.live = true → t.woken = false → Parked t.fut t.world t.wakers :=
  hr.invariant (P := fun t => t.live = true → t.woken = false → Parked t.fut t.world t.wakers)
    (fun _ hidle => by cases hidle) fun _ _ _ ht hs => h.parked_step ht hs

/-- **No wake-up is lost.** -/
theorem Attentive.asleep (h : Attentive F Parked) {fut : φ} {world : ω}
    (hr : Lts.Reach F.step (.spawn fut world) t) (hlive : t.live = true) (hidle : t.woken = false) :
    F.Quiet t.fut t.world :=
  h.quiet (h.parked hr hlive hidle)

/-- **A task that has something to do is polled**, in each execution that polls the tasks that
    were woken. `P` lasts until then. -/
theorem Attentive.leads [Nonempty κ] (h : Attentive F Parked) {fut : φ} {world : ω}
    {x : Lts.Execution F.step (.spawn fut world)}
    (hfair : x.WeaklyFair fun _ e => ∃ k, e = .poll k) {P Q : Task φ ω ι ρ → Prop}
    (hbusy : ∀ t, P t → t.live = true ∧ ¬ F.Quiet t.fut t.world)
    (hpoll : ∀ t k t', P t → F.step t (.poll k) = some t' → Q t')
    (hother : ∀ t e t', P t → (∀ k, e ≠ .poll k) → F.step t e = some t' → P t') :
    x.LeadsTo P Q := by
  refine Lts.Execution.LeadsTo.ensures
    (I := fun t => t.live = true → t.woken = false → F.Quiet t.fut t.world)
    (C := fun _ _ => True) (fun n => h.asleep (x.reach n)) (fun _ _ _ => trivial) hfair ?_ ?_
  · intro t e t' _ _ hP hs
    by_cases he : ∃ k, e = .poll k
    · obtain ⟨k, rfl⟩ := he
      exact Or.inl (hpoll t k t' hP hs)
    · exact Or.inr ⟨hother t e t' hP (fun k heq => he ⟨k, heq⟩) hs, he⟩
  · intro t hI hP
    obtain ⟨hlive, hbusy⟩ := hbusy t hP
    have hwoken : t.woken = true := by
      by_contra hidle
      exact hbusy (hI hlive (by simpa using hidle))
    obtain ⟨k⟩ := ‹Nonempty κ›
    have henabled : ∃ t', F.step t (.poll k) = some t' := by
      simp only [Scene.step, hlive, hwoken, Bool.and_self, ↓reduceIte]
      split <;> exact ⟨_, rfl⟩
    obtain ⟨t', hs⟩ := henabled
    exact ⟨_, t', ⟨k, rfl⟩, hs⟩

/-- A run after which the future is resolved polls all that were woken. -/
theorem polls_resting {t₀ : Task φ ω ι ρ} {es : List (TaskEvent κ ε)}
    (h : Lts.exec F.step t₀ es = some t) (hdone : t.live = false) :
    (Lts.Execution.resting h).WeaklyFair fun _ e => ∃ k, e = .poll k := by
  refine .of_rest es.length fun n hn e s' he hs => ?_
  obtain ⟨k, rfl⟩ := he
  rw [Lts.Execution.resting_end h hn] at hs
  simp [Scene.step, hdone] at hs

end Waker
