/-
  File:      Blahaj/Shutdown.lean
  Subject:   WHO WAITS FOR WHOM when the program ends.

  `Join` is a `try_join_all` over a `Wait` for each caretaker, and its result is thrown away: the
  first `Wait` that fails answers it. And the server stops on a termination signal by itself, while
  `main` waits for nothing but the server.

  * `Moved`, `System.Stepped`, `Passes.moved` -- a step of the program is a step of each caretaker,
    or none;
  * `replied_over`, `failed_dead` -- a `Wait` is answered where the daemon is over, and fails where
    the actor has panicked;
  * `join_waits` -- **`Join` waits for everybody, if no `Wait` fails**, and for nobody once one has;
  * `no_early_exit` -- **the program outlives its children, except where a signal reaches it before
    they are gone, a caretaker dies, or a kill is refused**.
-/
import Blahaj.Main
import Blahaj.Supervisor.Answers
import Blahaj.Supervisor.Handover
import Mathlib.Data.List.Forall2

namespace Blahaj

variable {S : Setting} {s s' : Caretaker} {st : Stage}

/-! ## 1. `try_join_all` -/

theorem tryJoinAll_ok {ε α : Type} : ∀ {futs : List (Poll (Except ε α))} {as : List α},
    tryJoinAll futs = .ready (.ok as) → ∀ fut ∈ futs, ∃ a, fut = .ready (.ok a)
  | [], _, _, _, hfut => nomatch hfut
  | .ready (.error _) :: _, _, h, _, _ => by cases h
  | .ready (.ok a) :: futs, as, h, fut, hfut => by
      rw [tryJoinAll] at h
      split at h
      · rename_i as' hrest
        rcases List.mem_cons.mp hfut with rfl | hfut
        · exact ⟨a, rfl⟩
        · exact tryJoinAll_ok hrest fut hfut
      · cases h
      · cases h
  | .pending :: futs, as, h, _, _ => by
      rw [tryJoinAll] at h
      split at h <;> cases h

theorem tryJoinAll_error {ε α : Type} : ∀ {futs : List (Poll (Except ε α))} {e : ε},
    tryJoinAll futs = .ready (.error e) → .ready (.error e) ∈ futs
  | [], _, h => by cases h
  | .ready (.error _) :: _, _, h => by
      cases h
      exact List.mem_cons_self ..
  | .ready (.ok _) :: _, _, h => by
      rw [tryJoinAll] at h
      split at h
      · cases h
      · rename_i hrest
        cases h
        exact List.mem_cons_of_mem _ (tryJoinAll_error hrest)
      · cases h
  | .pending :: _, _, h => by
      rw [tryJoinAll] at h
      split at h
      · rename_i hrest
        cases h
        exact List.mem_cons_of_mem _ (tryJoinAll_error hrest)
      · cases h

/-- One error is enough. -/
theorem tryJoinAll_failed {ε α : Type} {e : ε} : ∀ {futs : List (Poll (Except ε α))},
    .ready (.error e) ∈ futs → ∃ e', tryJoinAll futs = .ready (.error e')
  | .ready (.error e') :: _, _ => ⟨e', rfl⟩
  | .ready (.ok _) :: futs, h => by
      obtain ⟨e', hrest⟩ := tryJoinAll_failed (List.mem_of_ne_of_mem (by simp) h)
      exact ⟨e', by rw [tryJoinAll, hrest]⟩
  | .pending :: futs, h => by
      obtain ⟨e', hrest⟩ := tryJoinAll_failed (List.mem_of_ne_of_mem (by simp) h)
      exact ⟨e', by rw [tryJoinAll, hrest]⟩

theorem tryJoinAll_values {ε α : Type} : ∀ {futs : List (Poll (Except ε α))} {as : List α},
    tryJoinAll futs = .ready (.ok as) → futs = as.map fun a => .ready (.ok a)
  | [], as, h => by
      cases h
      rfl
  | .ready (.error _) :: _, _, h => by cases h
  | .ready (.ok a) :: futs, as, h => by
      rw [tryJoinAll] at h
      split at h
      · rename_i as' hrest
        cases h
        rw [List.map_cons, ← tryJoinAll_values hrest]
      · cases h
      · cases h
  | .pending :: futs, as, h => by
      rw [tryJoinAll] at h
      split at h <;> cases h

theorem tryJoinAll_pending {ε α : Type} : ∀ {futs : List (Poll (Except ε α))},
    tryJoinAll futs = .pending → .pending ∈ futs
  | [], h => by cases h
  | .ready (.error _) :: _, h => by cases h
  | .ready (.ok _) :: _, h => by
      rw [tryJoinAll] at h
      split at h
      · cases h
      · cases h
      · rename_i hrest
        exact List.mem_cons_of_mem _ (tryJoinAll_pending hrest)
  | .pending :: _, _ => List.mem_cons_self ..

/-! ## 2. The caretakers of a program -/

/-- A caretaker takes a step, or none. -/
def Moved (actor actor' : Setting × Caretaker) : Prop :=
  actor'.1 = actor.1 ∧
    (actor'.2 = actor.2 ∨ ∃ e, actor.2.step actor.1 e = some actor'.2)

theorem Moved.refl (actor : Setting × Caretaker) : Moved actor actor := ⟨rfl, Or.inl rfl⟩

theorem moved_send (m : Incoming) (actor : Setting × Caretaker) :
    Moved actor (actor.1, actor.2.send actor.1 m) := by
  refine ⟨rfl, ?_⟩
  unfold Caretaker.send
  cases hs : actor.2.step actor.1 (.arrive m) with
  | none => exact Or.inl rfl
  | some s' => exact Or.inr ⟨_, hs⟩

theorem moved_map {f : Setting × Caretaker → Setting × Caretaker}
    (hf : ∀ actor, Moved actor (f actor)) (actors : List (Setting × Caretaker)) :
    List.Forall₂ Moved actors (actors.map f) :=
  List.forall₂_map_right_iff.mpr (List.forall₂_same.mpr fun actor _ => hf actor)

theorem moved_same (actors : List (Setting × Caretaker)) : List.Forall₂ Moved actors actors :=
  List.forall₂_same.mpr fun actor _ => .refl actor

theorem moved_set {actor' : Setting × Caretaker} : ∀ {actors : List (Setting × Caretaker)} {i : Nat}
    {actor : Setting × Caretaker}, actors[i]? = some actor → Moved actor actor' →
      List.Forall₂ Moved actors (actors.set i actor')
  | [], _, _, hget, _ => nomatch hget
  | _ :: actors, 0, _, hget, hmoved => by
      cases hget
      exact .cons hmoved (moved_same actors)
  | first :: _, _ + 1, _, hget, hmoved => .cons (.refl first) (moved_set hget hmoved)

/-- What a step of each caretaker keeps, the program keeps of all of them. -/
theorem forall_moved {P : Setting × Caretaker → Prop} (hP : ∀ a a', Moved a a' → P a → P a')
    {actors actors' : List (Setting × Caretaker)} (h : List.Forall₂ Moved actors actors')
    (hall : ∀ a ∈ actors, P a) : ∀ a ∈ actors', P a := by
  induction h with
  | nil => exact fun _ ha => nomatch ha
  | cons hmoved _ ih =>
      intro a ha
      rcases List.mem_cons.mp ha with rfl | ha
      · exact hP _ _ hmoved (hall _ (List.mem_cons_self ..))
      · exact ih (fun b hb => hall b (List.mem_cons_of_mem _ hb)) a ha

/-- A caretaker of some shape. -/
def Shaped (actor : Setting × Caretaker) : Prop := ∃ st, Shape actor.1 actor.2 st

theorem Moved.shape {actor actor' : Setting × Caretaker} (hm : Moved actor actor')
    (h : Shape actor.1 actor.2 st) :
    ∃ st', Shape actor'.1 actor'.2 st' ∧ (st.over = true → st' = st) := by
  obtain ⟨S, s⟩ := actor
  obtain ⟨S', s'⟩ := actor'
  obtain ⟨rfl, rfl | ⟨e, hs⟩⟩ := hm
  · exact ⟨st, h, fun _ => rfl⟩
  · obtain ⟨st', h', hn⟩ := shape_step h hs
    exact ⟨st', h', over_stays hn⟩

theorem Moved.shaped {actor actor' : Setting × Caretaker} (hm : Moved actor actor')
    (h : Shaped actor) : Shaped actor' := by
  obtain ⟨st, h⟩ := h
  obtain ⟨st', h', -⟩ := hm.shape h
  exact ⟨st', h'⟩

/-! ## 3. The `Wait`s of a `Join` -/

/-- A `Wait` of `Join`: its caretaker holds it, or has panicked. -/
def Asked (s : Caretaker) : Option Nat → Prop
  | none => s.crashed.isSome
  | some req => s.holdsWait req ∨ s.crashed.isSome

theorem crashed_moved {actor actor' : Setting × Caretaker} (hm : Moved actor actor')
    (h : Shaped actor) (hc : actor.2.crashed.isSome) : actor'.2.crashed.isSome := by
  obtain ⟨st, h⟩ := h
  obtain ⟨-, hsame | ⟨e, hs⟩⟩ := hm
  · rw [hsame]
    exact hc
  · cases hc' : actor'.2.crashed with
    | some _ => rfl
    | none =>
        rw [crashed_before h hs hc'] at hc
        cases hc

theorem Asked.moved {actor actor' : Setting × Caretaker} (hm : Moved actor actor')
    (h : Shaped actor) : ∀ {request : Option Nat}, Asked actor.2 request → Asked actor'.2 request
  | none, ha => crashed_moved hm h ha
  | some req, ha => by
      rcases ha with ha | ha
      · obtain ⟨st, h⟩ := h
        obtain ⟨-, hsame | ⟨e, hs⟩⟩ := hm
        · rw [hsame]
          exact Or.inl ha
        · exact (frame_step h hs).waits req ha
      · exact Or.inr (crashed_moved hm h ha)

/-- A `Wait` that was just sent is in the mailbox, or was refused. -/
theorem asked_send (S : Setting) (s : Caretaker) : Asked (s.send S .wait) s.waitRequest := by
  unfold Caretaker.send Caretaker.waitRequest
  cases hc : s.crashed with
  | none =>
      have hs : s.step S (.arrive .wait) = some { s with
          mailbox := s.mailbox ++ [.wait s.nextReq]
          nextReq := s.nextReq + 1 } := by
        simp [Caretaker.step, hc, Caretaker.arrive]
      rw [hs]
      exact Or.inl (Or.inl (List.mem_append_right _ (List.mem_singleton.mpr rfl)))
  | some panic =>
      have hs : s.step S (.arrive .wait) = none := by simp [Caretaker.step, hc]
      rw [hs]
      show s.crashed.isSome = true
      rw [hc]
      rfl

/-- **A `Wait` is answered where the daemon is over.** -/
theorem replied_over (h : Shape S s st) {request : Option Nat}
    (hr : s.waitReply request = .ready (.ok ())) : st.over = true := by
  cases request with
  | none => cases hr
  | some req =>
      simp only [Caretaker.waitReply] at hr
      split at hr
      · rename_i hany
        obtain ⟨fut, hfut, hreq⟩ := List.any_eq_true.mp hany
        simp only [Bool.and_eq_true, beq_iff_eq] at hreq
        cases hover : st.over with
        | true => rfl
        | false =>
            have hwaiting := h.doors.waiting hover fut hfut
            rw [hreq.2] at hwaiting
            cases hwaiting
      · split at hr <;> cases hr

/-- **A `Wait` fails where the actor has panicked.** -/
theorem failed_dead {request : Option Nat} (ha : Asked s request) {e : MailboxError}
    (hr : s.waitReply request = .ready (.error e)) : s.crashed.isSome := by
  cases request with
  | none => exact ha
  | some req =>
      refine ha.resolve_left fun hholds => ?_
      simp only [Caretaker.waitReply] at hr
      split at hr
      · cases hr
      · rename_i hany
        split at hr
        · rename_i hgone
          simp only [Caretaker.waitOver, Bool.and_eq_true, Bool.not_eq_true',
            List.any_eq_false] at hgone
          rcases hholds with hmem | hmem
          · have hnot := hgone.1 _ hmem
            simp [Msg.isWait] at hnot
          · obtain ⟨fut, hfut, rfl⟩ := List.mem_map.mp hmem
            have hnot := hgone.2 fut hfut
            refine hany (List.any_eq_true.mpr ⟨fut, hfut, ?_⟩)
            simpa using hnot
        · cases hr

/-! ## 4. Steps of the program -/

/-- The caretakers of the program. -/
abbrev System.actors (s : System) : List (Setting × Caretaker) := s.supervisor.actors

/-- **All that a step does**, while `main` has not returned. -/
inductive System.Stepped (s : System) : Act → System → Prop where
  | caretaker {i : Nat} {S : Setting} {c c' : Caretaker} {e : Event}
      (hget : s.actors[i]? = some (S, c)) (hs : c.step S e = some c') :
      Stepped s (.caretaker i e) { s with supervisor := { s.supervisor with
        actors := s.supervisor.actors.set i (S, c') } }
  | sendJoin (hj : s.join = .unsent) :
      Stepped s .sendJoin { s with
        join := .sent
        supervisor := { s.supervisor with mailbox := s.supervisor.mailbox ++ [.join] } }
  | supervise {m : SupervisorMsg} {mailbox : List SupervisorMsg}
      (hm : s.supervisor.mailbox = m :: mailbox) :
      Stepped s .supervise
        (System.supervise { s with supervisor := { s.supervisor with mailbox } } m)
  | pollJoin {requests : List (Option Nat)} {res : Except MailboxError (List Unit)}
      (hj : s.join = .waiting requests)
      (hr : tryJoinAll (s.supervisor.replies requests) = .ready res) :
      Stepped s .pollJoin { s with join := .replied }
  | stopServer (hj : s.join = .replied) (hserver : s.server = .serving) :
      Stepped s .stopServer { s with server := .stopping }
  | signal (signal : TermSignal) :
      Stepped s (.signal signal) { s with
        signalHandler := s.signalHandler.deliver signal
        server := if s.server = .serving then .stopping else s.server }
  | handleSignal {signal : TermSignal} (hp : signal ∈ s.signalHandler.pending) :
      Stepped s (.handleSignal signal) { s with
        signalHandler := s.signalHandler.handle signal
        supervisor := { s.supervisor with
          mailbox := s.supervisor.mailbox ++ [.terminateAll] } }
  | serverCompletes (hserver : s.server = .stopping) :
      Stepped s .serverCompletes { s with server := .completed }
  | serverFails : Stepped s .serverFails { s with server := .failed }
  | leave (hserver : s.server = .completed) :
      Stepped s .pollMain { s with main := .returned (.ok ()) }
  | crash (hserver : s.server = .failed) :
      Stepped s .pollMain { s with main := .returned (.error "Server crashed.") }

theorem step_awaiting {s s' : System} {a : Act} (hs : s.step a = some s') :
    s.main = .awaiting ∧ s.advance a = some s' := by
  unfold System.step at hs
  split at hs
  · exact ⟨‹_›, hs⟩
  · cases hs

theorem System.stepped {s s' : System} {a : Act} (hs : s.step a = some s') :
    s.main = .awaiting ∧ s.Stepped a s' := by
  obtain ⟨hmain, hs⟩ := step_awaiting hs
  refine ⟨hmain, ?_⟩
  cases a with
  | caretaker i e =>
      simp only [System.advance] at hs
      split at hs
      · rename_i S c hget
        split at hs
        · obtain ⟨c', hs', rfl⟩ := Option.map_eq_some_iff.mp hs
          exact .caretaker hget hs'
        · cases hs
      · cases hs
  | sendJoin =>
      simp only [System.advance] at hs
      split at hs
      · obtain rfl := Option.some.inj hs
        exact .sendJoin ‹_›
      · cases hs
  | supervise =>
      simp only [System.advance] at hs
      split at hs
      · obtain rfl := Option.some.inj hs
        exact .supervise ‹_›
      · cases hs
  | pollJoin =>
      simp only [System.advance] at hs
      split at hs
      · split at hs
        · obtain rfl := Option.some.inj hs
          exact .pollJoin ‹_› ‹_›
        · cases hs
      · cases hs
  | stopServer =>
      simp only [System.advance] at hs
      split at hs
      · obtain rfl := Option.some.inj hs
        exact .stopServer ‹_› ‹_›
      · cases hs
  | signal signal =>
      obtain rfl := Option.some.inj hs
      exact .signal signal
  | handleSignal signal =>
      simp only [System.advance] at hs
      split at hs
      · obtain rfl := Option.some.inj hs
        exact .handleSignal ‹_›
      · cases hs
  | serverCompletes =>
      simp only [System.advance] at hs
      split at hs
      · obtain rfl := Option.some.inj hs
        exact .serverCompletes ‹_›
      · cases hs
  | serverFails =>
      simp only [System.advance] at hs
      split at hs
      · obtain rfl := Option.some.inj hs
        exact .serverFails
      · obtain rfl := Option.some.inj hs
        exact .serverFails
      · cases hs
  | pollMain =>
      simp only [System.advance] at hs
      split at hs
      · obtain rfl := Option.some.inj hs
        exact .leave ‹_›
      · obtain rfl := Option.some.inj hs
        exact .crash ‹_›
      · cases hs

/-- **The moves of the program.** -/
inductive Passes (s s' : System) (a : Act) : Prop where
  /-- the caretakers, and messages between the parties -/
  | inside (hm : List.Forall₂ Moved s.actors s'.actors)
      (hj : s'.join = s.join ∨ s'.join = .sent) (hs : s'.server = s.server)
      (hmain : s'.main = s.main)
  /-- `Join` is handled -/
  | ask (hm : s'.actors = s.actors.map fun actor => (actor.1, actor.2.send actor.1 .wait))
      (hj : s'.join = .waiting (s.actors.map fun actor => actor.2.waitRequest))
      (hs : s'.server = s.server) (hmain : s'.main = s.main)
  /-- `Join` is answered -/
  | answer (ha : a = .pollJoin) (requests : List (Option Nat)) (hj : s.join = .waiting requests)
      (res : Except MailboxError (List Unit))
      (hr : tryJoinAll (s.supervisor.replies requests) = .ready res)
      (hs : s' = { s with join := .replied })
  | stopServer (hj : s.join = .replied) (hs : s' = { s with server := .stopping })
  | signal (signal : TermSignal) (ha : a = .signal signal) (hm : s'.actors = s.actors)
      (hj : s'.join = s.join) (hmain : s'.main = s.main)
  | complete (hserver : s.server = .stopping) (hs : s' = { s with server := .completed })
  | fail (hs : s' = { s with server := .failed })
  /-- `main` returns -/
  | leave (hserver : s.server = .completed) (hs : s' = { s with main := .returned (.ok ()) })
  | crash (hs : s' = { s with main := .returned (.error "Server crashed.") })

/-- A step is one of the moves. -/
theorem System.Stepped.passes {s s' : System} {a : Act} (h : s.Stepped a s') : Passes s s' a := by
  cases h with
  | caretaker hget hs => exact .inside (moved_set hget ⟨rfl, Or.inr ⟨_, hs⟩⟩) (Or.inl rfl) rfl rfl
  | sendJoin _ => exact .inside (moved_same _) (Or.inr rfl) rfl rfl
  | @supervise m _ _ =>
      cases m with
      | join => exact .ask rfl rfl rfl rfl
      | terminateAll => exact .inside (moved_map (moved_send .terminate) _) (Or.inl rfl) rfl rfl
  | pollJoin hj hr => exact .answer rfl _ hj _ hr rfl
  | stopServer hj _ => exact .stopServer hj rfl
  | signal signal => exact .signal signal rfl rfl rfl rfl
  | handleSignal _ => exact .inside (moved_same _) (Or.inl rfl) rfl rfl
  | serverCompletes hserver => exact .complete hserver rfl
  | serverFails => exact .fail rfl
  | leave hserver => exact .leave hserver rfl
  | crash _ => exact .crash rfl

/-- **Each step of the program is a step of each caretaker, or none.** -/
theorem Passes.moved {s s' : System} {a : Act} (h : Passes s s' a) :
    List.Forall₂ Moved s.actors s'.actors := by
  cases h with
  | inside hm _ _ _ => exact hm
  | ask hm _ _ _ =>
      rw [hm]
      exact moved_map (moved_send .wait) _
  | signal _ _ hm _ _ =>
      rw [hm]
      exact moved_same _
  | answer _ _ _ _ _ hs => exact hs ▸ moved_same _
  | stopServer _ hs => exact hs ▸ moved_same _
  | complete _ hs => exact hs ▸ moved_same _
  | fail hs => exact hs ▸ moved_same _
  | leave _ hs => exact hs ▸ moved_same _
  | crash hs => exact hs ▸ moved_same _

/-- **What holds in every state of the program**: its caretakers have a shape, and hold the `Wait`s
    of `Join`. -/
structure Sound (s : System) : Prop where
  shaped : ∀ actor ∈ s.actors, Shaped actor
  asked : ∀ requests, s.join = .waiting requests →
    List.Forall₂ (fun actor request => Asked actor.2 request) s.actors requests

theorem sound_start (programs : List Setting) : Sound (.start programs) where
  shaped := fun actor hactor => by
    obtain ⟨S, -, rfl⟩ := List.mem_map.mp hactor
    exact ⟨.boot, shape_init S⟩
  asked := fun _ hj => nomatch hj

/-- The `Wait`s of `Join` stay where they are held. -/
theorem asked_moved {actors actors' : List (Setting × Caretaker)}
    (hm : List.Forall₂ Moved actors actors') (hshaped : ∀ actor ∈ actors, Shaped actor) :
    ∀ {requests : List (Option Nat)},
      List.Forall₂ (fun actor request => Asked actor.2 request) actors requests →
      List.Forall₂ (fun actor request => Asked actor.2 request) actors' requests := by
  induction hm with
  | nil => exact fun h => h
  | cons hmoved _ ih =>
      intro requests h
      cases h with
      | cons hasked hrest =>
          refine .cons (hasked.moved hmoved (hshaped _ (List.mem_cons_self ..))) (ih ?_ hrest)
          exact fun actor hactor => hshaped actor (List.mem_cons_of_mem _ hactor)

theorem sound_step {s s' : System} {a : Act} (h : Sound s) (hs : s.step a = some s') :
    Sound s' := by
  have hp := (System.stepped hs).2.passes
  have hkept : s'.join = s.join → ∀ requests, s'.join = .waiting requests →
      List.Forall₂ (fun actor request => Asked actor.2 request) s'.actors requests :=
    fun hsame requests hj => asked_moved hp.moved h.shaped (h.asked requests (hsame ▸ hj))
  refine ⟨forall_moved (fun _ _ hm => hm.shaped) hp.moved h.shaped, ?_⟩
  cases hp with
  | inside _ hj _ _ =>
      rcases hj with hj | hj
      · exact hkept hj
      · intro requests hj'
        cases hj.symm.trans hj'
  | ask hm hj _ _ =>
      intro requests hj'
      obtain rfl := JoinRequest.waiting.inj (hj.symm.trans hj')
      rw [hm]
      exact List.forall₂_map_left_iff.mpr (List.forall₂_map_right_iff.mpr
        (List.forall₂_same.mpr fun actor _ => asked_send actor.1 actor.2))
  | answer _ _ _ _ _ hs =>
      intro requests hj'
      rw [hs] at hj'
      cases hj'
  | signal _ _ _ hj _ => exact hkept hj
  | stopServer _ hs => exact hkept (by rw [hs])
  | complete _ hs => exact hkept (by rw [hs])
  | fail hs => exact hkept (by rw [hs])
  | leave _ hs => exact hkept (by rw [hs])
  | crash hs => exact hkept (by rw [hs])

theorem sound_before {programs : List Setting} {h : List (System × Act)} {s : System}
    (hr : Lts.Run System.step (.start programs) h s) : ∀ x ∈ h, Sound x.1 :=
  hr.invariant_before (sound_start programs) fun _ _ _ => sound_step

/-! ## 5. Kills that are refused -/

/-- A caretaker kills its child in this step, and the operating system refuses it. -/
def KillRefused (s : System) (a : Act) : Prop :=
  ∃ i S caretaker e, s.actors[i]? = some (S, caretaker) ∧ a = .caretaker i e ∧
    RefusesKill caretaker e

/-- It is a poll of a `Run`, after the grace period. -/
theorem KillRefused.label {s : System} {a : Act} (h : KillRefused s a) :
    ∃ i j, a = .caretaker i (.pollRun j (.elapsed (.error ()))) := by
  obtain ⟨i, S, caretaker, e, -, rfl, hrefuses⟩ := h
  obtain ⟨j, rfl⟩ := hrefuses.label
  exact ⟨i, j, rfl⟩

/-- No caretaker has given up a child. -/
def System.NoneGivenUp (s : System) : Prop := ∀ actor ∈ s.actors, actor.2.refused = []

theorem none_given_up_start (programs : List Setting) : (System.start programs).NoneGivenUp := by
  intro actor hactor
  obtain ⟨S, -, rfl⟩ := List.mem_map.mp hactor
  rfl

/-- A message to a caretaker gives up no child. -/
theorem refused_send (S : Setting) (s : Caretaker) (m : Incoming) :
    (s.send S m).refused = s.refused := by
  unfold Caretaker.send
  cases hs : s.step S (.arrive m) with
  | none => rfl
  | some s' =>
      cases Caretaker.stepped hs with
      | arrive _ hs =>
          obtain ⟨⟨n, rfl⟩, -⟩ := Caretaker.arrived hs
          rfl

/-- **A step in which no kill is refused gives up no child.** -/
theorem none_given_up_step {s s' : System} {a : Act} (h : Sound s) (hnone : s.NoneGivenUp)
    (hC : ¬ KillRefused s a) (hs : s.step a = some s') : s'.NoneGivenUp := by
  cases (System.stepped hs).2 with
  | @caretaker i S c c' e hget hstep =>
      intro actor hactor
      rcases List.mem_or_eq_of_mem_set hactor with hold | rfl
      · exact hnone actor hold
      · obtain ⟨st, hshape⟩ := h.shaped _ (List.mem_of_getElem? hget)
        have hrefusal : c.refusal e = none := Option.not_isSome_iff_eq_none.mp fun hrefuses =>
          hC ⟨i, S, c, e, hget, rfl, hrefuses⟩
        have hgiven : c.refused = [] := hnone _ (List.mem_of_getElem? hget)
        simpa [hrefusal, hgiven] using refused_step hshape hstep
  | @supervise m _ _ =>
      have hsent : ∀ m, ∀ actor ∈ s.actors.map fun actor => (actor.1, actor.2.send actor.1 m),
          actor.2.refused = [] := by
        intro m actor hactor
        obtain ⟨actor₀, hmem, rfl⟩ := List.mem_map.mp hactor
        exact (refused_send ..).trans (hnone actor₀ hmem)
      cases m with
      | join => exact hsent .wait
      | terminateAll => exact hsent .terminate
  | _ => exact hnone

/-- In a run in which no kill is refused, no child is given up. -/
theorem none_given_up {programs : List Setting} {h : List (System × Act)} {s : System}
    (hr : Lts.Run System.step (.start programs) h s) (hC : ∀ x ∈ h, ¬ KillRefused x.1 x.2) :
    s.NoneGivenUp :=
  (hr.invariant_if (C := fun s a => ¬ KillRefused s a) (P := fun s => Sound s ∧ s.NoneGivenUp)
    ⟨sound_start programs, none_given_up_start programs⟩
    (fun _ _ _ h hC hs => ⟨sound_step h.1 hs, none_given_up_step h.1 h.2 hC hs⟩) hC).2

/-! ## 6. `Join` -/

/-- The caretaker is there, and has a child that it has neither reaped nor given up. -/
def Caretaker.supervises (s : Caretaker) : Prop :=
  s.crashed = none ∧ ∃ pid, Unreaped s.procs pid ∧ pid ∉ s.refused

/-- A `Wait` of `Join` has failed. -/
def System.waitFailed (s : System) : Prop :=
  ∃ requests e, s.join = .waiting requests ∧
    .ready (.error e) ∈ s.supervisor.replies requests

theorem Shape.supervises_not (h : Shape S s st) (hover : st.over = true) : ¬ s.supervises := by
  intro hsup
  obtain ⟨hlive, pid, hun, hgiven⟩ := hsup
  have hchild := (h.procs.owner hlive hun).resolve_right hgiven
  rw [Stage.child_over hover] at hchild
  cases hchild

/-- A caretaker that is over and has given up no child has none left. -/
theorem Shape.left_none (h : Shape S s st) (hover : st.over = true) (hk : s.refused = [])
    (hlive : s.crashed = none) (pid : Nat) : ¬ Unreaped s.procs pid := fun hun =>
  h.supervises_not hover ⟨hlive, pid, hun, by simp [hk]⟩

/-- Each caretaker has a `Wait` of `Join`. -/
theorem exists_reply {R : Caretaker → Option Nat → Prop} {actors : List (Setting × Caretaker)}
    {requests : List (Option Nat)}
    (h : List.Forall₂ (fun actor request => R actor.2 request) actors requests) :
    ∀ actor ∈ actors, ∃ request, actor.2.waitReply request ∈
      List.zipWith (fun actor request => Caretaker.waitReply actor.2 request) actors requests := by
  induction h with
  | nil => exact fun _ hactor => nomatch hactor
  | cons _ _ ih =>
      intro actor hactor
      rcases List.mem_cons.mp hactor with rfl | hactor
      · exact ⟨_, List.mem_cons_self ..⟩
      · obtain ⟨request, hmem⟩ := ih actor hactor
        exact ⟨request, List.mem_cons_of_mem _ hmem⟩

/-- Each reply is one of a caretaker to its own `Wait`. -/
theorem reply_of {R : Caretaker → Option Nat → Prop} {actors : List (Setting × Caretaker)}
    {requests : List (Option Nat)}
    (h : List.Forall₂ (fun actor request => R actor.2 request) actors requests)
    {reply : Poll (Except MailboxError Unit)} (hreply : reply ∈
      List.zipWith (fun actor request => Caretaker.waitReply actor.2 request) actors requests) :
    ∃ actor ∈ actors, ∃ request, R actor.2 request ∧ reply = actor.2.waitReply request := by
  induction h with
  | nil => cases hreply
  | @cons actor request _ _ hR _ ih =>
      rcases List.mem_cons.mp hreply with rfl | hreply
      · exact ⟨actor, List.mem_cons_self .., request, hR, rfl⟩
      · obtain ⟨actor', hmem, request', hR', heq⟩ := ih hreply
        exact ⟨actor', List.mem_cons_of_mem _ hmem, request', hR', heq⟩

/-- **A `Wait` of `Join` fails only where a caretaker has panicked.** -/
theorem Sound.failed_dead {s : System} (h : Sound s) (hf : s.waitFailed) :
    ∃ actor ∈ s.actors, actor.2.crashed.isSome := by
  obtain ⟨requests, e, hj, hmem⟩ := hf
  obtain ⟨actor, hactor, request, hasked, heq⟩ := reply_of (h.asked requests hj) hmem
  exact ⟨actor, hactor, Blahaj.failed_dead hasked heq.symm⟩

/-- **Where `Join` is answered and no `Wait` has failed, every daemon is over.** -/
theorem Sound.join_over {s : System} (h : Sound s) {requests : List (Option Nat)}
    (hj : s.join = .waiting requests) {res : Except MailboxError (List Unit)}
    (hr : tryJoinAll (s.supervisor.replies requests) = .ready res) (hf : ¬ s.waitFailed) :
    ∀ actor ∈ s.actors, ∃ st, Shape actor.1 actor.2 st ∧ st.over = true := by
  intro actor hactor
  obtain ⟨st, hshape⟩ := h.shaped actor hactor
  refine ⟨st, hshape, ?_⟩
  cases res with
  | error e => exact absurd ⟨requests, e, hj, tryJoinAll_error hr⟩ hf
  | ok _ =>
      obtain ⟨request, hmem⟩ := exists_reply (h.asked requests hj) actor hactor
      obtain ⟨_, hready⟩ := tryJoinAll_ok hr _ hmem
      exact replied_over hshape hready

/-- **A `Wait` that has failed answers `Join`**, whatever the other caretakers do. -/
theorem System.waitFailed.answers {s : System} (hf : s.waitFailed) (hmain : s.main = .awaiting) :
    s.step .pollJoin = some { s with join := .replied } := by
  obtain ⟨requests, e, hj, hmem⟩ := hf
  obtain ⟨e', hready⟩ := tryJoinAll_failed hmem
  simp only [System.step, hmain, System.advance, hj, hready]

/-- **`Join` waits for everybody, if no `Wait` fails.** In every run of the program, with any number
    of caretakers, in which no `Wait` of `Join` has failed where its future is polled: each answer
    to `Join` is sent where every daemon is over and no caretaker supervises a child; and where no
    kill of the run is refused, no caretaker that lives has a child at all. It waits for nobody once
    a `Wait` has failed: in each such state its next poll answers it, whatever the other caretakers
    supervise. -/
theorem join_waits {programs : List Setting} {h : List (System × Act)} {s : System}
    (hr : Lts.Run System.step (.start programs) h s) :
    ((∀ x ∈ h, x.2 = .pollJoin → ¬ x.1.waitFailed) →
      ∀ x ∈ h, x.2 = .pollJoin → ∀ actor ∈ x.1.actors,
        actor.2.over ∧ ¬ actor.2.supervises ∧
        ((∀ y ∈ h, ¬ KillRefused y.1 y.2) → actor.2.crashed = none →
          ∀ pid, ¬ Unreaped actor.2.procs pid)) ∧
    (s.main = .awaiting → s.waitFailed → s.step .pollJoin = some { s with join := .replied }) := by
  refine ⟨fun hall x hx ha actor hactor => ?_, fun hmain hf => hf.answers hmain⟩
  obtain ⟨s', hs⟩ := hr.enabled x hx
  rw [ha] at hs
  obtain ⟨st, hshape, hover⟩ : ∃ st, Shape actor.1 actor.2 st ∧ st.over = true := by
    cases (System.stepped hs).2 with
    | pollJoin hj hready =>
        exact (sound_before hr x hx).join_over hj hready (hall x hx ha) actor hactor
  refine ⟨hshape.over_of_stage hover, hshape.supervises_not hover, fun hC hlive pid => ?_⟩
  have hgiven : x.1.NoneGivenUp := by
    obtain ⟨h₁, h₂, rfl⟩ := List.append_of_mem hx
    exact none_given_up hr.before fun y hy => hC y (List.mem_append_left _ hy)
  exact hshape.left_none hover (hgiven actor hactor) hlive pid

/-- Both children are told to stop, and exit. -/
def stopBoth : List Act :=
  [.caretaker 0 .startDaemon, .caretaker 0 (.pollDaemon ⟨1, 1, false⟩),
    .caretaker 0 (.handle (.ok ())), .caretaker 1 .startDaemon,
    .caretaker 1 (.pollDaemon ⟨1, 1, false⟩), .caretaker 1 (.handle (.ok ())), .sendJoin,
    .supervise, .signal .sigterm, .handleSignal .sigterm, .supervise,
    .caretaker 1 (.handle (.ok ())), .caretaker 1 (.handle (.ok ())),
    .caretaker 1 (.pollRun 0 .underWay), .caretaker 0 (.handle (.ok ())),
    .caretaker 0 (.handle (.ok ())), .caretaker 0 (.pollRun 0 .underWay),
    .caretaker 1 (.exit 0 (.killed 15)), .caretaker 1 (.pollRun 0 .underWay),
    .caretaker 1 (.pollDaemon ⟨2, 2, false⟩), .caretaker 1 (.pollWait 0),
    .caretaker 0 (.exit 0 (.exited 0)), .caretaker 0 (.pollRun 0 (.elapsed (.ok ()))),
    .caretaker 0 (.pollDaemon ⟨3, 3, false⟩), .caretaker 0 (.pollWait 0)]

/-- The health check of the first program cannot be built, and its caretaker dies in the first
    `Run`. The child of the second one runs. -/
def uncheckableFirst : List Act :=
  [.caretaker 0 .startDaemon, .caretaker 0 (.pollDaemon ⟨1, 1, false⟩), .caretaker 1 .startDaemon,
    .caretaker 1 (.pollDaemon ⟨1, 1, false⟩), .sendJoin, .caretaker 0 (.handle (.ok ())),
    .caretaker 1 (.handle (.ok ())), .supervise]

theorem join_waits_stopBoth :
    (∃ h s, Lts.Run System.step (.start [settingA, settingA]) h s ∧ s.join = .replied ∧
      s.actors.length = 2 ∧ ∀ x ∈ h, x.2 = .pollJoin → ∀ actor ∈ x.1.actors,
        actor.2.over ∧ ¬ actor.2.supervises ∧
        (actor.2.crashed = none → ∀ pid, ¬ Unreaped actor.2.procs pid)) ∧
    ∃ h s, Lts.Run System.step (.start [settingSpace, settingCut]) h s ∧ s.waitFailed ∧
      s.step .pollJoin = some { s with join := .replied } := by
  constructor
  · have hex : ∃ s s' requests, Lts.exec System.step (.start [settingA, settingA]) stopBoth =
        some s ∧ s.step .pollJoin = some s' ∧ s'.join = .replied ∧ s'.actors.length = 2 ∧
        s.join = .waiting requests ∧
        s.supervisor.replies requests = [.ready (.ok ()), .ready (.ok ())] :=
      ⟨_, _, _, rfl, rfl, rfl, rfl, rfl, rfl⟩
    obtain ⟨s, s', requests, hex, hs, hj, hlen, hasked, hreplies⟩ := hex
    have hr := (Lts.run_history hex).snoc _ hs
    have hlabels : ∀ x ∈ Lts.history System.step (.start [settingA, settingA]) stopBoth ++
        [(s, .pollJoin)], x.2 ∈ stopBoth ∨ x = (s, .pollJoin) := fun x hx =>
      (List.mem_append.mp hx).imp (Lts.label_mem x) List.mem_singleton.mp
    have hopen : ∀ x ∈ Lts.history System.step (.start [settingA, settingA]) stopBoth ++
        [(s, .pollJoin)], x.2 = .pollJoin → ¬ x.1.waitFailed := by
      intro x hx ha hf
      rcases hlabels x hx with hmem | rfl
      · rw [ha] at hmem
        simp [stopBoth] at hmem
      · obtain ⟨requests', e, hasked', hmem⟩ := hf
        obtain rfl := JoinRequest.waiting.inj (hasked.symm.trans hasked')
        rw [hreplies] at hmem
        simp at hmem
    refine ⟨_, s', hr, hj, hlen, fun x hx ha actor hactor => ?_⟩
    obtain ⟨hover, hsup, hleft⟩ := (join_waits hr).1 hopen x hx ha actor hactor
    refine ⟨hover, hsup, hleft fun y hy hrefused => ?_⟩
    obtain ⟨i, j, hlabel⟩ := hrefused.label
    rcases hlabels y hy with hmem | rfl
    · rw [hlabel] at hmem
      simp [stopBoth] at hmem
    · cases hlabel
  · have hex : ∃ s, Lts.exec System.step (.start [settingSpace, settingCut]) uncheckableFirst =
        some s ∧ s.main = .awaiting ∧ s.waitFailed :=
      ⟨_, rfl, rfl, _, .closed, rfl, List.mem_cons_self ..⟩
    obtain ⟨s, hex, hmain, hf⟩ := hex
    exact ⟨_, s, Lts.run_history hex, hf, (join_waits (Lts.run_history hex)).2 hmain hf⟩

/-- `Join` is answered while the second caretaker supervises its child. -/
theorem join_answered_early :
    ∃ s s', Lts.Reach System.step (.start [settingSpace, settingCut]) s ∧
      s.step .pollJoin = some s' ∧ s'.join = .replied ∧
      ∃ actor ∈ s.actors, ¬ actor.2.over ∧ actor.2.supervises := by
  have hex : ∃ s s' first second fut, Lts.exec System.step (.start [settingSpace, settingCut])
      uncheckableFirst = some s ∧ s.step .pollJoin = some s' ∧ s'.join = .replied ∧
      s.actors = [first, second] ∧ second.2.daemon = .running fut ∧ second.2.crashed = none ∧
      second.2.procs = [.running] ∧ second.2.refused = [] :=
    ⟨_, _, _, _, _, rfl, rfl, rfl, rfl, rfl, rfl, rfl, rfl⟩
  obtain ⟨s, s', first, second, fut, hex, hs, hj, hactors, hd, hlive, hprocs, hgiven⟩ := hex
  refine ⟨s, s', Lts.reach_of_exec hex, hs, hj, second, by simp [hactors], fun hover => ?_, hlive,
    0, ⟨.running, by rw [hprocs]; rfl, rfl⟩, by simp [hgiven]⟩
  rcases hover with ⟨res, hend⟩ | hdrop
  · cases hd.symm.trans hend
  · cases hd.symm.trans hdrop

/-! ## 7. `main` -/

/-- Every daemon has ended, and no child is unreaped. -/
def System.Done (s : System) : Prop :=
  ∀ actor ∈ s.actors, actor.2.ended ∧ ∀ pid, ¬ Unreaped actor.2.procs pid

/-- The step leaves the end of the program to its children: no termination signal is delivered
    before they are done, no caretaker has died when `Join` is answered, and no kill is refused. -/
def Undisturbed (s : System) (a : Act) : Prop :=
  (∀ signal, a = .signal signal → s.Done) ∧
    (a = .pollJoin → ∀ actor ∈ s.actors, actor.2.crashed = none) ∧ ¬ KillRefused s a

theorem Shape.done {res : Bool} (h : Shape S s (.ended res)) (hk : s.refused = []) :
    s.ended ∧ ∀ pid, ¬ Unreaped s.procs pid :=
  ⟨⟨res, h.token.daemon⟩, h.left_none rfl hk h.token.crashed⟩

/-- What is done stays done, while no child is given up. -/
theorem Sound.done_stays {s s' : System} {a : Act} (h : Sound s) (hnone : s'.NoneGivenUp)
    (hd : s.Done) (hp : Passes s s' a) : s'.Done := by
  have hend : ∀ actor ∈ s.actors, ∃ res, Shape actor.1 actor.2 (.ended res) := by
    intro actor hactor
    obtain ⟨st, hshape⟩ := h.shaped actor hactor
    obtain ⟨res, rfl⟩ := hshape.ended_stage (hd actor hactor).1
    exact ⟨res, hshape⟩
  intro actor hactor
  obtain ⟨res, hshape⟩ := forall_moved
    (P := fun actor => ∃ res, Shape actor.1 actor.2 (.ended res)) (fun _ _ hm hshape => by
      obtain ⟨res, hshape⟩ := hshape
      obtain ⟨st', hshape', hsame⟩ := hm.shape hshape
      rw [hsame rfl] at hshape'
      exact ⟨res, hshape'⟩) hp.moved hend actor hactor
  exact hshape.done (hnone actor hactor)

/-- Whoever lets `main` go has seen the children go. -/
structure Quits (s : System) : Prop where
  join : s.join = .replied → s.Done
  server : s.server = .stopping ∨ s.server = .completed → s.Done
  main : s.main = .returned (.ok ()) → s.Done

theorem quits_step {s s' : System} {a : Act} (h : Sound s) (hnone : s.NoneGivenUp) (hq : Quits s)
    (hC : Undisturbed s a) (hs : s.step a = some s') : Quits s' := by
  have hnone' := none_given_up_step h hnone hC.2.2 hs
  obtain ⟨hmain, hstep⟩ := System.stepped hs
  have hp := hstep.passes
  have hstays := fun hd => h.done_stays hnone' hd hp
  have hawait : ∀ {s' : System}, s'.main = s.main → s'.main ≠ .returned (.ok ()) := by
    intro s' hsame hret
    rw [hsame, hmain] at hret
    cases hret
  cases hp with
  | inside _ hj hserver hsame =>
      refine ⟨fun hrep => ?_, fun hstop => hstays (hq.server (hserver ▸ hstop)),
        fun hret => absurd hret (hawait hsame)⟩
      rcases hj with hj | hj
      · exact hstays (hq.join (hj ▸ hrep))
      · cases hj.symm.trans hrep
  | ask _ hj hserver hsame =>
      exact ⟨fun hrep => (nomatch hj.symm.trans hrep),
        fun hstop => hstays (hq.server (hserver ▸ hstop)), fun hret => absurd hret (hawait hsame)⟩
  | answer ha requests hj res hr hs =>
      subst hs
      have hlive := hC.2.1 ha
      have hnot : ¬ s.waitFailed := fun hf => by
        obtain ⟨actor, hactor, hdead⟩ := h.failed_dead hf
        rw [hlive actor hactor] at hdead
        cases hdead
      have hdone : s.Done := by
        intro actor hactor
        obtain ⟨st, hshape, hover⟩ := h.join_over hj hr hnot actor hactor
        obtain ⟨res, rfl⟩ := hshape.ended_stage ((hshape.over_iff (hlive actor hactor)).mp hover)
        exact hshape.done (hnone actor hactor)
      exact ⟨fun _ => hdone, fun _ => hdone, fun _ => hdone⟩
  | stopServer hj hs =>
      subst hs
      have hdone := hq.join hj
      exact ⟨fun _ => hdone, fun _ => hdone, fun _ => hdone⟩
  | signal signal ha hm hj hsame =>
      have hdone := hstays (hC.1 signal ha)
      exact ⟨fun _ => hdone, fun _ => hdone, fun _ => hdone⟩
  | complete hserver hs =>
      subst hs
      have hdone := hq.server (Or.inl hserver)
      exact ⟨fun _ => hdone, fun _ => hdone, fun _ => hdone⟩
  | fail hs =>
      subst hs
      refine ⟨hq.join, fun hstop => ?_, hq.main⟩
      rcases hstop with hc | hc <;> cases hc
  | leave hserver hs =>
      subst hs
      have hdone := hq.server (Or.inr hserver)
      exact ⟨fun _ => hdone, fun _ => hdone, fun _ => hdone⟩
  | crash hs =>
      subst hs
      exact ⟨hq.join, hq.server, fun hret => nomatch hret⟩

/-- The steps lead to the end of `main`, with children left. -/
def System.Overtaken (s : System) (as : List Act) : Prop :=
  ∃ s', Lts.exec System.step s as = some s' ∧ s'.main = .returned (.ok ()) ∧ ¬ s'.Done

/-- **The program does not leave before its children**, in every run whose steps are undisturbed:
    when `main` returns `Ok`, every daemon has ended and no child is unreaped. And it takes no more
    than a disturbed step to break it: while the server serves and the children are not done, each
    termination signal can be followed by the end of `main`, and so can an answer to `Join`. -/
theorem no_early_exit {programs : List Setting} {h : List (System × Act)} {s : System}
    (hr : Lts.Run System.step (.start programs) h s) :
    ((∀ x ∈ h, Undisturbed x.1 x.2) → s.main = .returned (.ok ()) → s.Done) ∧
    (s.main = .awaiting → s.server = .serving → ¬ s.Done →
      (∀ signal, s.Overtaken [.signal signal, .serverCompletes, .pollMain]) ∧
      (s.join = .replied → s.Overtaken [.stopServer, .serverCompletes, .pollMain])) := by
  constructor
  · intro hC hret
    have hall : Sound s ∧ s.NoneGivenUp ∧ Quits s := by
      refine hr.invariant_if (C := Undisturbed) (P := fun s => Sound s ∧ s.NoneGivenUp ∧ Quits s)
        ⟨sound_start programs, none_given_up_start programs, ?_⟩ (fun s a s' h hC hs => ?_) hC
      · refine ⟨fun hj => (nomatch hj), fun hstop => ?_, fun hret => nomatch hret⟩
        rcases hstop with hc | hc <;> cases hc
      · obtain ⟨hsound, hnone, hq⟩ := h
        exact ⟨sound_step hsound hs, none_given_up_step hsound hnone hC.2.2 hs,
          quits_step hsound hnone hq hC hs⟩
    exact hall.2.2.main hret
  · intro hmain hserver hnot
    constructor
    · intro signal
      refine ⟨{ s with
        signalHandler := s.signalHandler.deliver signal
        server := .completed
        main := .returned (.ok ()) }, ?_, rfl, hnot⟩
      simp [Lts.exec, System.step, System.advance, hmain, hserver]
    · intro hj
      refine ⟨{ s with server := .completed, main := .returned (.ok ()) }, ?_, rfl, hnot⟩
      simp [Lts.exec, System.step, System.advance, hmain, hserver, hj]

/-- Program `a` without a retry. -/
def settingOnce : Setting :=
  { settingA with program := { programA with
    retry := { window := 5000000000, count := 1, delay := 5000000000 } } }

/-- The child exits and is not started again, and its daemon answers the `Wait` of `Join`. -/
def lastRound : List Act :=
  [.caretaker 0 .startDaemon, .caretaker 0 (.pollDaemon ⟨1, 1, false⟩), .sendJoin, .supervise,
    .caretaker 0 (.handle (.ok ())), .caretaker 0 (.handle (.ok ())),
    .caretaker 0 (.exit 0 (.exited 0)), .caretaker 0 (.pollRun 0 .underWay),
    .caretaker 0 (.pollDaemon ⟨90000000000, 90000000000, false⟩), .caretaker 0 (.pollWait 0)]

theorem undisturbed_of_label {es : List Act}
    (h : ∀ a ∈ es, a ≠ .pollJoin ∧ (∀ signal, a ≠ .signal signal) ∧
      ∀ i j, a ≠ .caretaker i (.pollRun j (.elapsed (.error ())))) (s : System) :
    ∀ x ∈ Lts.history System.step s es, Undisturbed x.1 x.2 := by
  intro x hx
  obtain ⟨hjoin, hsignal, hkill⟩ := h x.2 (Lts.label_mem x hx)
  refine ⟨fun signal ha => absurd ha (hsignal signal), fun ha => absurd ha hjoin,
    fun hrefused => ?_⟩
  obtain ⟨i, j, ha⟩ := hrefused.label
  exact hkill i j ha

theorem no_early_exit_lastRound :
    ∃ h s, Lts.Run System.step (.start [settingOnce]) h s ∧ (∀ x ∈ h, Undisturbed x.1 x.2) ∧
      s.main = .returned (.ok ()) ∧ s.actors.length = 1 ∧ s.Done := by
  have hex : ∃ s s₁ s', Lts.exec System.step (.start [settingOnce]) lastRound = some s ∧
      s.step .pollJoin = some s₁ ∧
      Lts.exec System.step s₁ [.stopServer, .serverCompletes, .pollMain] = some s' ∧
      s'.main = .returned (.ok ()) ∧ s'.actors.length = 1 ∧
      s.actors.map (fun actor => actor.2.crashed) = [none] :=
    ⟨_, _, _, rfl, rfl, rfl, rfl, rfl, rfl⟩
  obtain ⟨s, s₁, s', hex, hs, hex', hmain, hlen, hlive⟩ := hex
  have hr := ((Lts.run_history hex).snoc _ hs).append (Lts.run_history hex')
  have hjoin : Undisturbed s .pollJoin := by
    refine ⟨fun _ ha => (nomatch ha), fun _ actor hactor => ?_, fun hrefused => ?_⟩
    · have hmem := List.mem_map_of_mem (f := fun actor => actor.2.crashed) hactor
      rw [hlive] at hmem
      simpa using hmem
    · obtain ⟨i, j, ha⟩ := hrefused.label
      cases ha
  have hC : ∀ x ∈ Lts.history System.step (.start [settingOnce]) lastRound ++ [(s, .pollJoin)] ++
      Lts.history System.step s₁ [.stopServer, .serverCompletes, .pollMain],
      Undisturbed x.1 x.2 :=
    List.forall_mem_append.mpr ⟨List.forall_mem_append.mpr
      ⟨undisturbed_of_label (by simp [lastRound]) _, by simpa using hjoin⟩,
      undisturbed_of_label (by simp) _⟩
  exact ⟨_, s', hr, hC, hmain, hlen, (no_early_exit hr).1 hC hmain⟩

/-- A signal reaches the server and the supervisor; the child is told to exit, and takes its
    time. -/
def slowChild : List Act :=
  [.caretaker 0 .startDaemon, .caretaker 0 (.pollDaemon ⟨1, 1, false⟩), .sendJoin, .supervise,
    .caretaker 0 (.handle (.ok ())), .caretaker 0 (.handle (.ok ())), .signal .sigterm,
    .handleSignal .sigterm, .supervise, .caretaker 0 (.handle (.ok ())),
    .caretaker 0 (.handle (.ok ())), .caretaker 0 (.pollRun 0 .underWay), .serverCompletes,
    .pollMain]

/-- `main` returns `Ok` while the child still runs. -/
theorem main_returns_early :
    ∃ s, Lts.Reach System.step (.start [settingA]) s ∧ s.main = .returned (.ok ()) ∧
      ∃ actor ∈ s.actors, ¬ actor.2.ended ∧ actor.2.signals = [(0, .sigterm)] ∧
        Unreaped actor.2.procs 0 := by
  have hex : ∃ s actor fut, Lts.exec System.step (.start [settingA]) slowChild = some s ∧
      s.main = .returned (.ok ()) ∧ s.actors = [actor] ∧ actor.2.daemon = .running fut ∧
      actor.2.signals = [(0, .sigterm)] ∧ actor.2.procs = [.running] :=
    ⟨_, _, _, rfl, rfl, rfl, rfl, rfl, rfl⟩
  obtain ⟨s, actor, fut, hex, hmain, hactors, hd, hsignals, hprocs⟩ := hex
  refine ⟨s, Lts.reach_of_exec hex, hmain, actor, by simp [hactors], fun hend => ?_, hsignals,
    .running, by rw [hprocs]; rfl, rfl⟩
  obtain ⟨res, hd'⟩ := hend
  cases hd.symm.trans hd'

end Blahaj
