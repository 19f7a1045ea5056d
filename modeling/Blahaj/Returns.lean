/-
  File:      Blahaj/Returns.lean
  Subject:   WHEN `main` RETURNS, and what a termination signal comes to.

  The parties of the program wait for each other: `main` for the server, the server for a signal
  or for the task that sent `Join`, that task for the supervisor and the supervisor for each
  caretaker; the other way go the signals. In a fair execution nobody waits for ever but for what
  never happens.

  * `System.part` -- an execution of the program as one of a caretaker, `part_fair` where it is
    fair;
  * `Hosts` -- what holds at every instant;
  * `main_returns` -- **the executions in which `main` returns**;
  * `signal_ends` -- **a signal reaches every daemon**, unless `main` returns before.
-/
import Blahaj.Shutdown
import Blahaj.Supervisor.Served

namespace Blahaj

variable {S : Setting} {s s' s₀ : System} {a : Act} {programs : List Setting} {i : Nat}

/-! ## 1. A caretaker in an execution of the program -/

/-- The caretaker with this number. -/
def System.caretaker (s : System) (i : Nat) : Caretaker :=
  ((s.actors[i]?).map Prod.snd).getD .init

/-- A message of the supervisor arrives, unless the actor is gone. -/
def System.sent (s : System) (i : Nat) (m : Incoming) : Option Event :=
  if (s.caretaker i).crashed.isSome then none else some (.arrive m)

/-- What caretaker `i` does in a step of the program. -/
def System.own (i : Nat) (s : System) : Act → Option Event
  | .caretaker j e => if j = i then some e else none
  | .supervise => match s.supervisor.mailbox with
    | .join :: _ => s.sent i .wait
    | .terminateAll :: _ => s.sent i .terminate
    | [] => none
  | _ => none

/-- The programs, each with its caretaker. -/
def System.Runs (programs : List Setting) (s : System) : Prop := s.actors.map Prod.fst = programs

theorem System.Runs.get (h : s.Runs programs) (hi : programs[i]? = some S) :
    s.actors[i]? = some (S, s.caretaker i) := by
  rw [← h, List.getElem?_map] at hi
  obtain ⟨⟨S', c⟩, hget, rfl⟩ := Option.map_eq_some_iff.mp hi
  unfold System.caretaker
  rw [hget]
  rfl

theorem System.Runs.of_get {c : Caretaker} (hget : s.actors[i]? = some (S, c)) :
    s.caretaker i = c := by
  unfold System.caretaker
  rw [hget]
  rfl

theorem System.Runs.setting {c : Caretaker} (h : s.Runs programs)
    (hget : s.actors[i]? = some (S, c)) : programs[i]? = some S := by
  rw [← h, List.getElem?_map, hget]
  rfl

theorem runs_start (programs : List Setting) : (System.start programs).Runs programs := by
  unfold System.Runs System.actors System.start Supervisor.start
  rw [List.map_map]
  exact List.map_id programs

theorem moved_settings {actors actors' : List (Setting × Caretaker)}
    (h : List.Forall₂ Moved actors actors') : actors'.map Prod.fst = actors.map Prod.fst := by
  induction h with
  | nil => rfl
  | cons hm _ ih => rw [List.map_cons, List.map_cons, hm.1, ih]

theorem runs_step (h : s.Runs programs) (hs : s.step a = some s') : s'.Runs programs :=
  (moved_settings (System.stepped hs).2.passes.moved).trans h

/-- A message of the supervisor is a step of the caretaker, or none. -/
theorem send_tick {c : Caretaker} {m : Incoming} (hm : m = .wait ∨ m = .terminate) :
    Lts.Tick (Caretaker.step S) c (if c.crashed.isSome then none else some (.arrive m))
      (c.send S m) := by
  unfold Caretaker.send
  cases hc : c.crashed with
  | some panic =>
      rw [show c.step S (.arrive m) = none by simp [Caretaker.step, hc]]
      exact rfl
  | none => rcases hm with rfl | rfl <;> simp [Lts.Tick, Caretaker.step, Caretaker.arrive, hc]

/-- **A step of the program is one of the caretaker, or none.** -/
theorem own_tick (h : s.Runs programs) (hi : programs[i]? = some S) (hs : s.step a = some s') :
    Lts.Tick (Caretaker.step S) (s.caretaker i) (s.own i a) (s'.caretaker i) := by
  have hget := h.get hi
  cases (System.stepped hs).2 with
  | @caretaker j S' c c' e hget' hs' =>
      simp only [System.own]
      by_cases hij : j = i
      · subst hij
        obtain ⟨rfl, rfl⟩ := Prod.mk.inj (Option.some.inj (hget'.symm.trans hget))
        rw [if_pos rfl]
        refine hs'.trans (congrArg some (System.Runs.of_get (S := S') ?_).symm)
        exact List.getElem?_set_self (List.getElem?_eq_some_iff.mp hget).1
      · rw [if_neg hij]
        refine System.Runs.of_get (S := S) ?_
        show (s.actors.set j (S', c'))[i]? = _
        rw [List.getElem?_set_ne hij, hget]
  | @supervise m mailbox hm =>
      have hsend : ∀ m : Incoming,
          (s.actors.map fun actor => (actor.1, actor.2.send actor.1 m))[i]? =
            some (S, (s.caretaker i).send S m) := by
        intro m
        rw [List.getElem?_map, hget]
        rfl
      simp only [System.own, hm]
      cases m with
      | join =>
          refine cast ?_ (send_tick (S := S) (c := s.caretaker i) (Or.inl rfl))
          exact congrArg _ (System.Runs.of_get (hsend .wait)).symm
      | terminateAll =>
          refine cast ?_ (send_tick (S := S) (c := s.caretaker i) (Or.inr rfl))
          exact congrArg _ (System.Runs.of_get (hsend .terminate)).symm
  | _ => exact rfl

theorem caretaker_start (hi : programs[i]? = some S) :
    (System.start programs).caretaker i = .init := by
  refine System.Runs.of_get (S := S) ?_
  simp [System.actors, System.start, Supervisor.start, hi]

/-- **An execution of the program as one of a caretaker.** -/
def System.part (x : Lts.Execution System.step (.start programs)) (hi : programs[i]? = some S) :
    Lts.Execution (Caretaker.step S) .init :=
  x.project (fun s => s.caretaker i) (System.own i) (caretaker_start hi) (I := System.Runs programs)
    (fun n => (x.reach n).invariant (runs_start programs) fun _ _ _ => runs_step)
    fun _ _ _ => fun h hs => own_tick h hi hs

/-! ## 2. Fairness -/

/-- What a caretaker is owed comes from nobody in the program. -/
theorem Owed.unsupervised {A : Caretaker → Event → Prop} (hA : Owed A) {c : Caretaker} {e : Event}
    (h : A c e) : e.unsupervised = true := by
  cases hA with
  | started => rw [show e = .startDaemon from h]; rfl
  | mailbox => obtain ⟨spawn, rfl⟩ := h; rfl
  | daemon => obtain ⟨clock, rfl, -⟩ := h; rfl
  | run i => obtain ⟨grace, rfl, -⟩ := h; rfl
  | killed pid => obtain ⟨-, status, rfl⟩ := h; rfl
  | wait i => rw [show e = .pollWait i from h]; rfl
  | terminate i => rw [show e = .pollTerminate i from h]; rfl

/-- What the executor, the clock and the operating system owe the supervisor, its caretakers and
    the signal handler. -/
structure System.Driven (x : Lts.Execution System.step s₀) : Prop where
  caretakers : ∀ i A, Owed A → x.WeaklyFair fun s a => ∃ e, a = .caretaker i e ∧ A (s.caretaker i) e
  supervise : x.WeaklyFair fun _ a => a = .supervise
  handleSignal : ∀ signal, x.WeaklyFair fun _ a => a = .handleSignal signal

/-- **What they owe the whole program**: the task of `main` and the server too go on. -/
structure System.Fair (x : Lts.Execution System.step s₀) : Prop extends System.Driven x where
  sendJoin : x.WeaklyFair fun _ a => a = .sendJoin
  pollJoin : x.WeaklyFair fun _ a => a = .pollJoin
  stopServer : x.WeaklyFair fun _ a => a = .stopServer
  /-- a graceful stop has a time limit -/
  serverCompletes : x.WeaklyFair fun _ a => a = .serverCompletes
  pollMain : x.WeaklyFair fun _ a => a = .pollMain

/-- **What holds at every instant.** -/
structure Hosts (programs : List Setting) (s : System) : Prop where
  runs : s.Runs programs
  sound : Sound s
  regular : ∀ i S, programs[i]? = some S → Regular S (s.caretaker i)
  /-- there is one `Join` -/
  joins : s.join = .sent → s.supervisor.mailbox.count .join = 1
  noJoin : s.join ≠ .sent → s.supervisor.mailbox.count .join = 0
  /-- the numbers of its `Wait`s were given out -/
  requests : ∀ requests, s.join = .waiting requests → ∀ i S req, programs[i]? = some S →
    requests[i]? = some (some req) → req < (s.caretaker i).nextReq

/-- What each step of a caretaker keeps, a step of the program keeps of it. -/
theorem tick_keeps {P : Caretaker → Prop} {c c' : Caretaker} {o : Option Event}
    (ht : Lts.Tick (Caretaker.step S) c o c') (hP : ∀ e, c.step S e = some c' → P c')
    (h : P c) : P c' := by
  cases o with
  | none => rw [show c' = c from ht]; exact h
  | some e => exact hP e ht

theorem tick_nextReq {c c' : Caretaker} {o : Option Event} (h : Regular S c)
    (ht : Lts.Tick (Caretaker.step S) c o c') : c.nextReq ≤ c'.nextReq :=
  tick_keeps (P := fun c' => c.nextReq ≤ c'.nextReq) ht
    (fun _ hs => by
      obtain ⟨st, hshape⟩ := h.shape
      exact (issued_step hshape hs).1) (Nat.le_refl _)

theorem hosts_start (programs : List Setting) : Hosts programs (.start programs) where
  runs := runs_start programs
  sound := sound_start programs
  regular := fun i S hi => by
    rw [caretaker_start hi]
    exact regular_init S
  joins := fun hj => by cases hj
  noJoin := fun _ => rfl
  requests := fun _ hj => by cases hj

theorem hosts_step (h : Hosts programs s) (hs : s.step a = some s') : Hosts programs s' := by
  have hregular : ∀ i S, programs[i]? = some S → Regular S (s'.caretaker i) := fun i S hi =>
    tick_keeps (P := Regular S) (own_tick h.runs hi hs)
      (fun _ hs => regular_step (h.regular i S hi) hs) (h.regular i S hi)
  have hkept : s'.join = s.join → ∀ requests, s'.join = .waiting requests → ∀ i S req,
      programs[i]? = some S → requests[i]? = some (some req) → req < (s'.caretaker i).nextReq := by
    intro hsame requests hj i S req hi hreq
    have hlt := h.requests requests (hsame ▸ hj) i S req hi hreq
    have hle := tick_nextReq (h.regular i S hi) (own_tick h.runs hi hs)
    omega
  have hruns := runs_step h.runs hs
  have hsound := sound_step h.sound hs
  have hstep := (System.stepped hs).2
  cases hstep with
  | sendJoin hj =>
      refine ⟨hruns, hsound, hregular, fun _ => ?_, fun hne => absurd rfl hne, ?_⟩
      · have hnone := h.noJoin (by simp [hj])
        show (s.supervisor.mailbox ++ [SupervisorMsg.join]).count .join = 1
        rw [List.count_append, hnone]
        rfl
      · exact fun _ hj' => by cases hj'
  | @supervise m mailbox hm =>
      cases m with
      | join =>
          have hsent : s.join = .sent := by
            by_contra hne
            have hnone := h.noJoin hne
            rw [hm, List.count_cons_self] at hnone
            cases hnone
          have hone := h.joins hsent
          rw [hm, List.count_cons_self] at hone
          refine ⟨hruns, hsound, hregular, fun hj' => (by cases hj'), fun _ => ?_, ?_⟩
          · exact Nat.succ.inj hone
          · intro requests hj' i S req hi hreq
            cases hj'
            rw [List.getElem?_map, h.runs.get hi] at hreq
            have hwait : (s.caretaker i).waitRequest = some req := Option.some.inj hreq
            unfold Caretaker.waitRequest at hwait
            split at hwait
            · cases hwait
            · rename_i hlive
              obtain rfl := Option.some.inj hwait
              have htick := own_tick h.runs hi hs
              simp only [System.own, hm, System.sent, if_neg hlive] at htick
              simp only [Lts.Tick, Caretaker.step, if_neg hlive, Caretaker.arrive,
                Option.some.injEq] at htick
              rw [← htick]
              exact Nat.lt_succ_self _
      | terminateAll =>
          have hcount : s.supervisor.mailbox.count .join = mailbox.count .join := by
            rw [hm, List.count_cons_of_ne (by decide)]
          refine ⟨hruns, hsound, hregular, fun hj' => ?_, fun hne => ?_, hkept rfl⟩
          · exact hcount.symm.trans (h.joins hj')
          · exact hcount.symm.trans (h.noJoin hne)
  | pollJoin hj hr =>
      refine ⟨hruns, hsound, hregular, fun hj' => (by cases hj'), fun _ => ?_, ?_⟩
      · exact h.noJoin (by simp [hj])
      · exact fun _ hj' => by cases hj'
  | @handleSignal signal _ =>
      have hcount : (s.supervisor.mailbox ++ [SupervisorMsg.terminateAll]).count .join =
          s.supervisor.mailbox.count .join := by
        rw [List.count_append]
        rfl
      exact ⟨hruns, hsound, hregular, fun hj' => hcount.trans (h.joins hj'),
        fun hne => hcount.trans (h.noJoin hne), hkept rfl⟩
  | _ => exact ⟨hruns, hsound, hregular, h.joins, h.noJoin, hkept rfl⟩

/-- There is no second `Join`. -/
theorem Hosts.no_join (h : Hosts programs s) (hj : s.join ≠ .sent) {rest : List SupervisorMsg}
    (hm : s.supervisor.mailbox = .join :: rest) : False := by
  have hnone := h.noJoin hj
  rw [hm, List.count_cons_self] at hnone
  cases hnone

theorem hosts (x : Lts.Execution System.step (.start programs)) (n : Nat) :
    Hosts programs (x.state n) :=
  (x.reach n).invariant (hosts_start programs) fun _ _ _ => hosts_step

theorem step_of_awaiting (h : s.main = .awaiting) : s.step a = s.advance a := by
  unfold System.step
  rw [h]

/-- **The execution of a caretaker is fair**, as long as `main` has not returned. -/
theorem part_fair {x : Lts.Execution System.step (.start programs)} (hx : System.Driven x)
    (hawait : ∀ n, (x.state n).main = .awaiting) (hi : programs[i]? = some S) :
    Fair (System.part x hi) := by
  refine fair_of_owed fun A hA => Lts.Execution.project_fair (hx.caretakers i A hA) ?_ ?_
  · intro n e c' hAe hs
    have hadvance : (x.state n).step (.caretaker i e) = some { x.state n with
        supervisor := { (x.state n).supervisor with
          actors := (x.state n).supervisor.actors.set i (S, c') } } := by
      rw [step_of_awaiting (hawait n)]
      simp only [System.advance, (hosts x n).runs.get hi, hA.unsupervised hAe, ↓reduceIte, hs,
        Option.map_some]
    exact ⟨.caretaker i e, _, ⟨e, rfl, hAe⟩, hadvance⟩
  · rintro s a ⟨e, rfl, hAe⟩
    exact ⟨e, if_pos rfl, hAe⟩

/-! ## 3. The server -/

/-- **A server that stops lets `main` go.** -/
theorem server_leads {x : Lts.Execution System.step s₀} (hx : System.Fair x) :
    x.LeadsTo (fun s => s.server ≠ .serving) fun s => s.main ≠ .awaiting := by
  have hdone : x.LeadsTo
      (fun s => s.main = .awaiting ∧ (s.server = .completed ∨ s.server = .failed))
      fun s => s.main ≠ .awaiting := by
    refine Lts.Execution.LeadsTo.ensures (I := fun _ => True) (C := fun _ _ => True)
      (fun _ => trivial) (fun _ _ _ => trivial) hx.pollMain ?_ ?_
    · rintro s a s' - - ⟨hmain, hserver⟩ hs
      cases (System.stepped hs).2 with
      | leave _ | crash _ => exact Or.inl (by simp)
      | stopServer _ hserver' => simp [hserver'] at hserver
      | serverCompletes hserver' => simp [hserver'] at hserver
      | serverFails => exact Or.inr ⟨⟨hmain, Or.inr rfl⟩, by simp⟩
      | signal signal =>
          have hne : s.server ≠ .serving := by rcases hserver with h | h <;> simp [h]
          exact Or.inr ⟨⟨hmain, by simpa [hne] using hserver⟩, by simp⟩
      | @supervise m _ _ => cases m <;> exact Or.inr ⟨⟨hmain, hserver⟩, by simp⟩
      | _ => exact Or.inr ⟨⟨hmain, hserver⟩, by simp⟩
    · rintro s - ⟨hmain, hserver⟩
      rcases hserver with h | h
      · exact ⟨.pollMain, _, rfl, by simp only [step_of_awaiting hmain, System.advance, h]; rfl⟩
      · exact ⟨.pollMain, _, rfl, by simp only [step_of_awaiting hmain, System.advance, h]; rfl⟩
  have hstops : x.LeadsTo (fun s => s.main = .awaiting ∧ s.server = .stopping)
      fun s => s.main ≠ .awaiting ∨
        s.main = .awaiting ∧ (s.server = .completed ∨ s.server = .failed) := by
    refine Lts.Execution.LeadsTo.ensures (I := fun _ => True) (C := fun _ _ => True)
      (fun _ => trivial) (fun _ _ _ => trivial) hx.serverCompletes ?_ ?_
    · rintro s a s' - - ⟨hmain, hserver⟩ hs
      cases (System.stepped hs).2 with
      | leave _ | crash _ => exact Or.inl (Or.inl (by simp))
      | stopServer _ hserver' => simp [hserver] at hserver'
      | serverCompletes _ => exact Or.inl (Or.inr ⟨hmain, Or.inl rfl⟩)
      | serverFails => exact Or.inl (Or.inr ⟨hmain, Or.inr rfl⟩)
      | signal signal => exact Or.inr ⟨⟨hmain, by simp [hserver]⟩, by simp⟩
      | @supervise m _ _ => cases m <;> exact Or.inr ⟨⟨hmain, hserver⟩, by simp⟩
      | _ => exact Or.inr ⟨⟨hmain, hserver⟩, by simp⟩
    · rintro s - ⟨hmain, hserver⟩
      exact ⟨.serverCompletes, _, rfl, by
        simp only [step_of_awaiting hmain, System.advance, hserver]; rfl⟩
  intro n hP
  by_cases hmain : (x.state n).main = .awaiting
  · cases hserver : (x.state n).server with
    | serving => exact absurd hserver hP
    | stopping =>
        exact hstops.trans ((Lts.Execution.LeadsTo.of_imp fun _ => id).or hdone) n ⟨hmain, hserver⟩
    | completed => exact hdone n ⟨hmain, Or.inl hserver⟩
    | failed => exact hdone n ⟨hmain, Or.inr hserver⟩
  · exact ⟨n, Nat.le_refl n, hmain⟩

/-! ## 4. `Join` -/

/-- Nothing is left of the `Wait` with this number, and it did not reply. -/
def WaitLost (req : Nat) (c : Caretaker) : Prop :=
  Closing req 0 c ∧ ∀ fut ∈ c.waits, fut.req ≠ req

/-- Nothing is open: no `Wait` with the number is in the mailbox, and each that was handled has
    replied. -/
theorem Closing.nothing {req : Nat} {c : Caretaker} (h : Closing req 0 c) :
    .wait req ∉ c.mailbox ∧ ∀ fut ∈ c.waits, fut.req = req → fut.stoppedRx = .replied := by
  have hover : c.waitOver req = true := (waitOver_iff c req).mpr (Nat.le_zero.mp h.2.2)
  simp only [Caretaker.waitOver, Bool.and_eq_true, Bool.not_eq_true', List.any_eq_false] at hover
  refine ⟨fun hmem => ?_, fun fut hfut hreq => ?_⟩
  · exact hover.1 _ hmem (by simp [Msg.isWait])
  · have hnot := hover.2 fut hfut
    simpa [hreq] using hnot

theorem Closing.reply {req : Nat} {c : Caretaker} (h : Closing req 0 c) :
    c.waitReply (some req) ≠ .pending := by
  have hover : c.waitOver req = true := (waitOver_iff c req).mpr (Nat.le_zero.mp h.2.2)
  simp only [Caretaker.waitReply, hover, ↓reduceIte]
  split <;> simp

theorem WaitLost.reply {req : Nat} {c : Caretaker} (h : WaitLost req c) :
    c.waitReply (some req) = .ready (.error .closed) := by
  have hover : c.waitOver req = true := (waitOver_iff c req).mpr (Nat.le_zero.mp h.1.2.2)
  have hnone : (c.waits.any fun fut => fut.req == req && fut.stoppedRx == .replied) = false := by
    rw [List.any_eq_false]
    intro fut hfut
    simp [h.2 fut hfut]
  simp only [Caretaker.waitReply, hover, hnone, ↓reduceIte, Bool.false_eq_true]

/-- Where a `Wait` of `Join` has failed it is lost. -/
theorem waitLost_of_error {req : Nat} {c : Caretaker} {e : MailboxError} (hover : c.over)
    (hreq : req < c.nextReq) (hr : c.waitReply (some req) = .ready (.error e)) :
    WaitLost req c := by
  simp only [Caretaker.waitReply] at hr
  split at hr
  · cases hr
  · rename_i hany
    split at hr
    · rename_i hgone
      have hclosing : Closing req 0 c := ⟨hover, hreq, Nat.le_of_eq ((waitOver_iff c req).mp hgone)⟩
      refine ⟨hclosing, fun fut hfut heq => hany (List.any_eq_true.mpr ⟨fut, hfut, ?_⟩)⟩
      simp [heq, hclosing.nothing.2 fut hfut heq]
    · cases hr

/-- **Lost for good.** -/
theorem WaitLost.step {req : Nat} {c c' : Caretaker} (h : Regular S c) (hl : WaitLost req c)
    {e : Event} (hs : c.step S e = some c') : WaitLost req c' := by
  obtain ⟨hclosing, hend⟩ := hl.1.step h hs
  refine ⟨hclosing, ?_⟩
  have hnone := hl.2
  cases hend with
  | arrive _ _ hw _ => exact hw ▸ hnone
  | @wait spawn req' rest hbox _ hw _ =>
      intro fut hfut
      rw [hw] at hfut
      rcases List.mem_append.mp hfut with hfut | hfut
      · exact hnone fut hfut
      · rw [List.mem_singleton.mp hfut]
        intro heq
        have heq : req' = req := heq
        exact hl.1.nothing.1 (by rw [hbox, heq]; exact List.mem_cons_self ..)
  | terminate _ _ _ hw _ => exact hw ▸ hnone
  | other _ _ _ _ hw _ => exact hw ▸ hnone
  | @pollWait i fut hfut _ hw _ =>
      intro fut' hfut'
      rw [hw] at hfut'
      rcases List.mem_or_eq_of_mem_set hfut' with hmem | heq
      · exact hnone fut' hmem
      · rw [heq]
        exact hnone fut (List.mem_of_getElem? hfut)
  | pollTerminate _ _ hw _ => exact hw ▸ hnone
  | world _ _ hw _ => exact hw ▸ hnone

/-- The replies of a `Join`, one by one. -/
theorem replies_get (h : s.Runs programs) (hi : programs[i]? = some S)
    {requests : List (Option Nat)} {request : Option Nat} (hreq : requests[i]? = some request) :
    (s.supervisor.replies requests)[i]? = some ((s.caretaker i).waitReply request) := by
  have hget : s.supervisor.actors[i]? = some (S, s.caretaker i) := h.get hi
  simp only [Supervisor.replies, List.getElem?_zipWith, hget, hreq]

theorem replies_mem (h : s.Runs programs) {requests : List (Option Nat)}
    {r : Poll (Except MailboxError Unit)} (hr : r ∈ s.supervisor.replies requests) :
    ∃ i S request, programs[i]? = some S ∧ requests[i]? = some request ∧
      r = (s.caretaker i).waitReply request := by
  obtain ⟨i, hi⟩ := List.mem_iff_getElem?.mp hr
  simp only [Supervisor.replies, List.getElem?_zipWith] at hi
  split at hi
  · rename_i actor request hactor hreq
    obtain ⟨S, c⟩ := actor
    refine ⟨i, S, request, h.setting hactor, hreq, ?_⟩
    rw [System.Runs.of_get hactor]
    exact (Option.some.inj hi).symm
  · cases hi

section Join

variable {x : Lts.Execution System.step (.start programs)} (hx : System.Fair x)
  (hawait : ∀ n, (x.state n).main = .awaiting)

include hx hawait in
/-- The task of `main` sends `Join`. -/
theorem unsent_leads : x.LeadsTo (fun s => s.join = .unsent) fun s => s.join = .sent := by
  refine Lts.Execution.LeadsTo.ensures (I := fun s => Hosts programs s ∧ s.main = .awaiting)
    (C := fun _ _ => True) (fun n => ⟨hosts x n, hawait n⟩) (fun _ _ _ => trivial) hx.sendJoin ?_ ?_
  · rintro s a s' ⟨hhosts, -⟩ - hj hs
    cases (System.stepped hs).2 with
    | sendJoin _ => exact Or.inl rfl
    | pollJoin hj' _ => cases hj.symm.trans hj'
    | @supervise m mailbox hm =>
        cases m with
        | join => exact (hhosts.no_join (by simp [hj]) hm).elim
        | terminateAll => exact Or.inr ⟨hj, by simp⟩
    | _ => exact Or.inr ⟨hj, by simp⟩
  · rintro s ⟨-, hmain⟩ hj
    exact ⟨.sendJoin, _, rfl, by simp only [step_of_awaiting hmain, System.advance, hj]; rfl⟩

/-- What a step of the supervisor's mailbox is. -/
theorem supervised (hs : s.step a = some s') :
    ((∃ new, s'.supervisor.mailbox = s.supervisor.mailbox ++ new) ∧ a ≠ .supervise) ∨
      ∃ m rest, a = .supervise ∧ s.supervisor.mailbox = m :: rest ∧
        s' = System.supervise { s with supervisor := { s.supervisor with mailbox := rest } } m ∧
        s'.supervisor.mailbox = rest := by
  cases (System.stepped hs).2 with
  | @supervise m mailbox hm =>
      refine Or.inr ⟨m, mailbox, rfl, hm, rfl, ?_⟩
      cases m <;> rfl
  | sendJoin _ => exact Or.inl ⟨⟨_, rfl⟩, by simp⟩
  | handleSignal _ => exact Or.inl ⟨⟨_, rfl⟩, by simp⟩
  | _ => exact Or.inl ⟨⟨[], (List.append_nil _).symm⟩, by simp⟩

include hawait in
/-- **A message to the supervisor is handled.** -/
theorem supervise_leads (hx : System.Driven x) (m : SupervisorMsg) {Q : System → Prop}
    (hQ : ∀ s rest, Hosts programs s → s.supervisor.mailbox = m :: rest →
      Q (System.supervise { s with supervisor := { s.supervisor with mailbox := rest } } m)) :
    x.LeadsTo (fun s => m ∈ s.supervisor.mailbox) Q := by
  have hqueue := Lts.Execution.LeadsTo.queue (x := x) (Q := Q) (fun s => s.supervisor.mailbox)
    (· == m) (I := fun s => Hosts programs s ∧ s.main = .awaiting) (J := fun _ => True)
    (C := fun _ _ => True) (A := fun _ a => a = .supervise) (fun n => ⟨hosts x n, hawait n⟩)
    (fun _ _ _ => trivial) hx.supervise
    (by
      rintro s a s' ⟨hhosts, -⟩ - - hs
      rcases supervised hs with ⟨hnew, ha⟩ | ⟨m', rest, -, hm, rfl, hrest⟩
      · exact Or.inr ⟨trivial, Or.inl ⟨hnew, ha⟩⟩
      · by_cases hmm : m' = m
        · subst hmm
          exact Or.inl (hQ s rest hhosts hm)
        · refine Or.inr ⟨trivial, Or.inr ⟨m', rest, [], hm, beq_eq_false_iff_ne.mpr hmm, ?_⟩⟩
          rw [hrest, List.append_nil])
    (by
      rintro s ⟨-, hmain⟩ - hne
      cases hm : s.supervisor.mailbox with
      | nil => exact absurd hm hne
      | cons m' rest =>
          exact ⟨.supervise, _, rfl, by
            simp only [step_of_awaiting hmain, System.advance, hm]; rfl⟩)
  exact fun n hmem => hqueue n ⟨trivial, List.any_eq_true.mpr ⟨m, hmem, by simp⟩⟩

include hx hawait in
/-- `Join` is sent, and handled. -/
theorem asking_leads :
    x.LeadsTo (fun s => s.join = .unsent ∨ s.join = .sent)
      fun s => ∃ requests, s.join = .waiting requests := by
  have hsent : x.LeadsTo (fun s => s.join = .sent)
      fun s => ∃ requests, s.join = .waiting requests := by
    intro n hj
    refine supervise_leads hawait hx.toDriven .join
      (Q := fun s => ∃ requests, s.join = .waiting requests) (fun s rest _ _ => ⟨_, rfl⟩) n ?_
    exact List.count_pos_iff.mp (by rw [(hosts x n).joins hj]; exact Nat.one_pos)
  exact ((unsent_leads hx hawait).trans hsent).or hsent

/-- While `Join` is not answered its `Wait`s stay the same. -/
theorem waiting_step {requests : List (Option Nat)} (h : Hosts programs s)
    (hj : s.join = .waiting requests) (hs : s.step a = some s') :
    s'.join = .replied ∨ s'.join = .waiting requests ∧ a ≠ .pollJoin := by
  cases (System.stepped hs).2 with
  | sendJoin hj' => cases hj.symm.trans hj'
  | pollJoin _ _ => exact Or.inl rfl
  | @supervise m mailbox hm =>
      cases m with
      | join => exact (h.no_join (by simp [hj]) hm).elim
      | terminateAll => exact Or.inr ⟨hj, by simp⟩
  | _ => exact Or.inr ⟨hj, by simp⟩

theorem replied_stays (hj : s.join = .replied) (hs : s.step a = some s') (h : Hosts programs s) :
    s'.join = .replied := by
  cases (System.stepped hs).2 with
  | sendJoin hj' => cases hj.symm.trans hj'
  | pollJoin _ _ => rfl
  | @supervise m mailbox hm =>
      cases m with
      | join => exact (h.no_join (by simp [hj]) hm).elim
      | terminateAll => exact hj
  | _ => exact hj

include hx hawait in
/-- **`Join` is answered** where `try_join_all` resolves for good. -/
theorem ready_leads (requests : List (Option Nat)) {J : System → Prop}
    (hJ : ∀ s a s', Hosts programs s → J s → s.step a = some s' → J s')
    (hready : ∀ s, Hosts programs s → s.join = .waiting requests → J s →
      tryJoinAll (s.supervisor.replies requests) ≠ .pending) :
    x.LeadsTo (fun s => s.join = .waiting requests ∧ J s) fun s => s.join = .replied := by
  refine Lts.Execution.LeadsTo.ensures (I := fun s => Hosts programs s ∧ s.main = .awaiting)
    (C := fun _ _ => True) (fun n => ⟨hosts x n, hawait n⟩) (fun _ _ _ => trivial) hx.pollJoin ?_ ?_
  · rintro s a s' ⟨hhosts, -⟩ - ⟨hj, hJs⟩ hs
    rcases waiting_step hhosts hj hs with hrep | ⟨hj', ha⟩
    · exact Or.inl hrep
    · exact Or.inr ⟨⟨hj', hJ s a s' hhosts hJs hs⟩, ha⟩
  · rintro s ⟨hhosts, hmain⟩ ⟨hj, hJs⟩
    cases hr : tryJoinAll (s.supervisor.replies requests) with
    | pending => exact absurd hr (hready s hhosts hj hJs)
    | ready res =>
        exact ⟨.pollJoin, _, rfl, by
          simp only [step_of_awaiting hmain, System.advance, hj, hr]; rfl⟩

include hx hawait in
/-- **A failed `Wait` answers `Join`.** -/
theorem failed_leads (requests : List (Option Nat)) :
    x.LeadsTo (fun s => s.join = .waiting requests ∧ s.waitFailed) fun s => s.join = .replied := by
  have hlost := ready_leads hx hawait requests
    (J := fun s => ∃ i S request, programs[i]? = some S ∧ requests[i]? = some request ∧
      ∀ req, request = some req → WaitLost req (s.caretaker i))
    (by
      rintro s a s' hhosts ⟨i, S, request, hi, hreq, hl⟩ hs
      refine ⟨i, S, request, hi, hreq, fun req heq => ?_⟩
      exact tick_keeps (own_tick hhosts.runs hi hs)
        (fun _ hs => (hl req heq).step (hhosts.regular i S hi) hs) (hl req heq))
    (by
      rintro s hhosts - ⟨i, S, request, hi, hreq, hl⟩
      have hget := replies_get hhosts.runs hi hreq
      have hlost : (s.caretaker i).waitReply request = .ready (.error .closed) := by
        cases request with
        | none => rfl
        | some req => rw [(hl req rfl).reply]
      have hmem := List.mem_iff_getElem?.mpr ⟨i, hget.trans (congrArg some hlost)⟩
      obtain ⟨e', hready⟩ := tryJoinAll_failed hmem
      simp [hready])
  rintro n ⟨hj, requests', e, hj', hmem⟩
  refine hlost n ⟨hj, ?_⟩
  obtain rfl := JoinRequest.waiting.inj (hj.symm.trans hj')
  have hhosts := hosts x n
  obtain ⟨i, S, request, hi, hreq, hr⟩ := replies_mem hhosts.runs hmem
  refine ⟨i, S, request, hi, hreq, ?_⟩
  rintro req rfl
  -- the actor of a `Wait` that failed has panicked
  have hasked : Asked ((x.state n).caretaker i) (some req) := by
    have hall := hhosts.sound.asked _ hj
    obtain ⟨hlt, hget⟩ := List.getElem?_eq_some_iff.mp (hhosts.runs.get hi)
    obtain ⟨hlt', hget'⟩ := List.getElem?_eq_some_iff.mp hreq
    have hat := hall.get hlt hlt'
    simp only [List.get_eq_getElem, hget, hget'] at hat
    exact hat
  have hover := (hhosts.regular i S hi).over_of_crashed (failed_dead hasked hr.symm)
  exact waitLost_of_error hover (hhosts.requests _ hj i S req hi hreq) hr.symm

/-- Every daemon is over. -/
def System.Over (s : System) : Prop := ∀ actor ∈ s.actors, actor.2.over

theorem System.Runs.over (h : s.Runs programs) (hover : s.Over) (hi : programs[i]? = some S) :
    (s.caretaker i).over := hover _ (List.mem_of_getElem? (h.get hi))

theorem over_keeps (h : Hosts programs s) (hover : s.Over) (hs : s.step a = some s') :
    s'.Over := by
  rintro ⟨S, c⟩ hactor
  obtain ⟨i, hget⟩ := List.mem_iff_getElem?.mp hactor
  have hi := (runs_step h.runs hs).setting hget
  have hkept := tick_keeps (P := Caretaker.over) (own_tick h.runs hi hs)
    (fun _ hs => (over_step (h.regular i S hi) (h.runs.over hover hi) hs).1) (h.runs.over hover hi)
  rwa [System.Runs.of_get hget] at hkept

include hx hawait in
/-- **When every daemon is over `Join` is answered.** -/
theorem over_leads (requests : List (Option Nat)) :
    x.LeadsTo (fun s => s.join = .waiting requests ∧ s.Over) fun s => s.join = .replied := by
  -- each `Wait` in turn is closed, and stays so
  have hclosed : x.LeadsTo (fun s => s.join = .waiting requests ∧ s.Over) fun s =>
      ∀ i < programs.length, ∀ req, requests[i]? = some (some req) →
        Closing req 0 (s.caretaker i) := by
    refine .all (fun i hi n hP => ?_) fun i hi m n hmn hQ req hreq => ?_
    · have hprog := List.getElem?_eq_getElem hi
      obtain ⟨hj, hover⟩ := hP
      cases hreq : requests[i]? with
      | none => exact ⟨n, Nat.le_refl n, fun req h => by cases h⟩
      | some request =>
          cases request with
          | none => exact ⟨n, Nat.le_refl n, fun req h => by cases h⟩
          | some req =>
              obtain ⟨m, hnm, hm⟩ := waits_leads
                (fun n => regular_reach ((System.part x hprog).reach n))
                (part_fair hx.toDriven hawait hprog) req n
                ⟨(hosts x n).runs.over hover hprog, (hosts x n).requests _ hj i _ req hprog hreq⟩
              refine ⟨m, hnm, fun req' heq => ?_⟩
              obtain rfl := Option.some.inj (Option.some.inj heq)
              exact hm
    · have hprog := List.getElem?_eq_getElem hi
      exact (System.part x hprog).stays (P := Closing req 0)
        (fun n => regular_reach ((System.part x hprog).reach n))
        (fun _ _ _ h hP hs => (hP.step h hs).1) hmn (hQ req hreq)
  have hready := ready_leads hx hawait requests
    (J := fun s => ∀ i < programs.length, ∀ req, requests[i]? = some (some req) →
      Closing req 0 (s.caretaker i))
    (by
      intro s a s' hhosts hJ hs i hi req hreq
      have hprog := List.getElem?_eq_getElem hi
      exact tick_keeps (own_tick hhosts.runs hprog hs)
        (fun _ hs => ((hJ i hi req hreq).step (hhosts.regular i _ hprog) hs).1) (hJ i hi req hreq))
    (by
      intro s hhosts _ hJ hpend
      obtain ⟨i, S, request, hprog, hreq, hr⟩ := replies_mem hhosts.runs (tryJoinAll_pending hpend)
      cases request with
      | none => cases hr
      | some req =>
          exact (hJ i (List.getElem?_eq_some_iff.mp hprog).1 req hreq).reply hr.symm)
  rintro n ⟨hj, hover⟩
  obtain ⟨m, hnm, hall⟩ := hclosed n ⟨hj, hover⟩
  -- meanwhile `Join` was answered, or waits for the same
  have hkept := x.stays (I := Hosts programs)
    (P := fun s => s.join = .waiting requests ∨ s.join = .replied) (hosts x)
    (fun s a s' h hP hs => by
      rcases hP with hj | hj
      · exact (waiting_step h hj hs).symm.imp And.left id
      · exact Or.inr (replied_stays hj hs h)) hnm (Or.inl hj)
  rcases hkept with hj' | hj'
  · obtain ⟨k, hmk, hrep⟩ := hready m ⟨hj', hall⟩
    exact ⟨k, Nat.le_trans hnm hmk, hrep⟩
  · exact ⟨m, hnm, hj'⟩

end Join

/-! ## 5. `main` -/

/-- What lets `main` return: every daemon is over, or a `Wait` of `Join` has failed, or the server
    is stopped from outside. -/
def Frees (s : System) (label : Option Act) : Prop :=
  s.Over ∨ s.waitFailed ∨ label = some .serverFails ∨ ∃ signal, label = some (.signal signal)

/-- Nobody lets `main` go before. -/
theorem returned_frees (x : Lts.Execution System.step (.start programs)) (n : Nat)
    (h : (x.state n).join = .replied ∨ (x.state n).server ≠ .serving ∨
      (x.state n).main ≠ .awaiting) : ∃ m, Frees (x.state m) (x.label m) := by
  induction n with
  | zero =>
      rw [x.start] at h
      rcases h with h | h | h
      · cases h
      · exact absurd rfl h
      · exact absurd rfl h
  | succ n ih =>
      by_cases hbefore : (x.state n).join = .replied ∨ (x.state n).server ≠ .serving ∨
          (x.state n).main ≠ .awaiting
      · exact ih hbefore
      obtain ⟨hj, hserver, hmain⟩ := not_or.mp hbefore |>.imp id not_or.mp
      have hserver := not_not.mp hserver
      have hnext := x.next n
      cases hl : x.label n with
      | none =>
          rw [hl] at hnext
          rw [show x.state (n + 1) = x.state n from hnext] at h
          exact absurd h hbefore
      | some a =>
          rw [hl] at hnext
          refine ⟨n, ?_⟩
          rw [hl]
          have hstep := (System.stepped hnext).2
          generalize x.state (n + 1) = s' at h hstep
          cases hstep with
          | @pollJoin requests res hj' hr =>
              by_cases hf : (x.state n).waitFailed
              · exact Or.inr (Or.inl hf)
              · refine Or.inl fun actor hactor => ?_
                obtain ⟨st, hshape, hover⟩ := (hosts x n).sound.join_over hj' hr hf actor hactor
                exact hshape.over_of_stage hover
          | stopServer hj' _ => exact absurd hj' hj
          | signal signal => exact Or.inr (Or.inr (Or.inr ⟨signal, rfl⟩))
          | serverCompletes hserver' => cases hserver.symm.trans hserver'
          | serverFails => exact Or.inr (Or.inr (Or.inl rfl))
          | leave hserver' | crash hserver' => cases hserver.symm.trans hserver'
          | @supervise m _ _ =>
              cases m with
              | join => simp [System.supervise, hserver, hmain] at h
              | terminateAll => exact absurd h hbefore
          | sendJoin _ => simp [hserver, hmain] at h
          | _ => exact absurd h hbefore

/-- **The executions in which `main` returns**, of all that are fair: those in which every daemon
    is over at some instant, or a `Wait` of `Join` has failed, or a termination signal is
    delivered, or the server fails. -/
theorem main_returns {x : Lts.Execution System.step (.start programs)} (hx : System.Fair x) :
    (∃ n res, (x.state n).main = .returned res) ↔ ∃ n, Frees (x.state n) (x.label n) := by
  constructor
  · rintro ⟨n, res, hret⟩
    exact returned_frees x n (Or.inr (Or.inr (by simp [hret])))
  · rintro ⟨n, hfrees⟩
    by_contra hnever
    have hawait : ∀ n, (x.state n).main = .awaiting := by
      intro n
      cases hm : (x.state n).main with
      | awaiting => rfl
      | returned res => exact absurd ⟨n, res, hm⟩ hnever
    have hserving : ∀ n, (x.state n).server = .serving := by
      intro n
      by_contra hne
      obtain ⟨m, -, hm⟩ := server_leads hx n hne
      exact hm (hawait m)
    -- so `Join` is never answered
    have hopen : ∀ n, (x.state n).join ≠ .replied := by
      intro n hj
      have hlasts : ∀ m, n ≤ m → (x.state m).join = .replied := fun m hnm =>
        x.stays (I := Hosts programs) (P := fun s => s.join = .replied) (hosts x)
          (fun s a s' h hP hs => replied_stays hP hs h) hnm hj
      obtain ⟨m, a, hnm, hl, rfl⟩ := hx.stopServer n fun m hnm => ⟨.stopServer, _, rfl, by
        simp only [step_of_awaiting (hawait m), System.advance, hlasts m hnm, hserving m]; rfl⟩
      have hnext := x.next m
      rw [hl] at hnext
      have hserver := hserving (m + 1)
      have hstep := (System.stepped hnext).2
      generalize x.state (m + 1) = s' at hserver hstep
      cases hstep with
      | stopServer _ _ => cases hserver
    rcases hfrees with hover | hf | hl | ⟨signal, hl⟩
    · -- every daemon is over: `Join` is handled, and answered
      have hanswered : ∀ m requests, n ≤ m → (x.state m).join = .waiting requests → False := by
        intro m requests hnm hj
        have hover' := x.stays (P := System.Over) (hosts x) (fun _ _ _ => over_keeps) hnm hover
        obtain ⟨k, -, hrep⟩ := over_leads hx hawait requests m ⟨hj, hover'⟩
        exact hopen k hrep
      have hasks : (x.state n).join = .unsent ∨ (x.state n).join = .sent → False := by
        intro hj
        obtain ⟨m, hnm, requests, hj'⟩ := asking_leads hx hawait n hj
        exact hanswered m requests hnm hj'
      cases hj : (x.state n).join with
      | unsent => exact hasks (Or.inl hj)
      | sent => exact hasks (Or.inr hj)
      | waiting requests => exact hanswered n requests (Nat.le_refl n) hj
      | replied => exact hopen n hj
    · obtain ⟨requests, e, hj, hmem⟩ := hf
      obtain ⟨m, -, hrep⟩ := failed_leads hx hawait requests n ⟨hj, requests, e, hj, hmem⟩
      exact hopen m hrep
    · have hnext := x.next n
      rw [hl] at hnext
      have hserver := hserving (n + 1)
      have hstep := (System.stepped hnext).2
      generalize x.state (n + 1) = s' at hserver hstep
      cases hstep with
      | serverFails => cases hserver
    · have hnext := x.next n
      rw [hl] at hnext
      have hserver := hserving (n + 1)
      have hstep := (System.stepped hnext).2
      generalize x.state (n + 1) = s' at hserver hstep
      cases hstep with
      | signal signal => simp [hserving n] at hserver

/-- **A run in which `main` returns is fair**: nothing can follow. -/
theorem fair_returned {es : List Act} {res : Except String Unit}
    (h : Lts.exec System.step s₀ es = some s) (hret : s.main = .returned res) :
    System.Fair (Lts.Execution.resting h) := by
  have hfair : ∀ A : System → Act → Prop, (Lts.Execution.resting h).WeaklyFair A := by
    intro A
    refine .of_rest es.length fun n hn a s' _ hs => ?_
    rw [Lts.Execution.resting_end h hn] at hs
    have hawait := (step_awaiting hs).1
    rw [hret] at hawait
    cases hawait
  exact {
    caretakers := fun _ _ _ => hfair _
    supervise := hfair _
    handleSignal := fun _ => hfair _
    sendJoin := hfair _
    pollJoin := hfair _
    stopServer := hfair _
    serverCompletes := hfair _
    pollMain := hfair _ }

theorem main_returns_lastRound :
    ∃ x : Lts.Execution System.step (.start [settingOnce]), System.Fair x ∧
      (x.state 9).actors.length = 1 ∧ (x.state 9).Over ∧
      ∃ n res, (x.state n).main = .returned res := by
  have hex : ∃ s actor, Lts.exec System.step (.start [settingOnce])
      (lastRound ++ [.pollJoin, .stopServer, .serverCompletes, .pollMain]) = some s ∧
      s.main = .returned (.ok ()) ∧
      (Lts.after System.step (.start [settingOnce])
        (lastRound ++ [.pollJoin, .stopServer, .serverCompletes, .pollMain]) 9).actors = [actor] ∧
      actor.2.daemon = .ended false := ⟨_, _, rfl, rfl, rfl, rfl⟩
  obtain ⟨s, actor, hex, hret, hactors, hd⟩ := hex
  have hfair := fair_returned hex hret
  have hover : ((Lts.Execution.resting hex).state 9).Over := by
    intro actor' hactor
    rw [show ((Lts.Execution.resting hex).state 9).actors = [actor] from hactors] at hactor
    rw [List.mem_singleton.mp hactor]
    exact Or.inl ⟨false, hd⟩
  exact ⟨_, hfair, congrArg List.length hactors, hover,
    (main_returns hfair).mpr ⟨9, Or.inl hover⟩⟩

/-! ## 6. A signal -/

/-- The spawns of each caretaker fail finitely often. -/
def System.SpawnsAtLast (x : Lts.Execution System.step s₀) : Prop :=
  ∀ i, ∃ k, ∀ n e, k ≤ n → x.label n = some (.caretaker i e) →
    ¬ FailsToSpawn ((x.state n).caretaker i) e

theorem part_spawns {x : Lts.Execution System.step (.start programs)}
    (hspawn : System.SpawnsAtLast x) (hi : programs[i]? = some S) :
    SpawnsAtLast (System.part x hi) := by
  obtain ⟨k, hk⟩ := hspawn i
  refine ⟨k, fun n e hkn hl hfails => ?_⟩
  obtain ⟨a, hla, hown⟩ := Option.bind_eq_some_iff.mp
    (show (x.label n).bind (System.own i (x.state n)) = some e from hl)
  obtain ⟨-, source, rfl⟩ := id hfails
  have hsent : ∀ m, (x.state n).sent i m ≠ some (.handle (.error source)) := by
    intro m hm
    unfold System.sent at hm
    split at hm
    · cases hm
    · cases hm
  cases a with
  | caretaker j e' =>
      simp only [System.own] at hown
      split at hown
      · rename_i hij
        cases hown
        exact hk n _ hkn (hij ▸ hla) hfails
      · cases hown
  | supervise =>
      simp only [System.own] at hown
      split at hown
      · exact hsent _ hown
      · exact hsent _ hown
      · cases hown
  | _ => cases hown

section Signal

variable {x : Lts.Execution System.step (.start programs)} (hx : System.Driven x)
  (hawait : ∀ n, (x.state n).main = .awaiting)

include hx hawait in
/-- The signal handler handles its signal. -/
theorem pending_leads (signal : TermSignal) :
    x.LeadsTo (fun s => signal ∈ s.signalHandler.pending)
      fun s => .terminateAll ∈ s.supervisor.mailbox := by
  refine Lts.Execution.LeadsTo.ensures (I := fun s => s.main = .awaiting) (C := fun _ _ => True)
    hawait (fun _ _ _ => trivial) (hx.handleSignal signal) ?_ ?_
  · intro s a s' _ _ hpending hs
    cases (System.stepped hs).2 with
    | @handleSignal signal' hp =>
        exact Or.inl (List.mem_append_right _ (List.mem_singleton.mpr rfl))
    | signal signal' =>
        refine Or.inr ⟨?_, by simp⟩
        show signal ∈ if signal' ∈ s.signalHandler.pending then s.signalHandler.pending
          else s.signalHandler.pending ++ [signal']
        split
        · exact hpending
        · exact List.mem_append_left _ hpending
    | @supervise m _ _ => cases m <;> exact Or.inr ⟨hpending, by simp⟩
    | _ => exact Or.inr ⟨hpending, by simp⟩
  · intro s hmain hpending
    exact ⟨.handleSignal signal, _, rfl, by
      simp only [step_of_awaiting hmain, System.advance, hpending, ↓reduceIte]; rfl⟩

include hx hawait in
/-- **`TerminateAll` ends every daemon.** -/
theorem terminateAll_leads (hspawn : System.SpawnsAtLast x) :
    x.LeadsTo (fun s => .terminateAll ∈ s.supervisor.mailbox) System.Over := by
  have hreaches := supervise_leads hawait hx .terminateAll
    (Q := fun s => ∀ i S, programs[i]? = some S → (s.caretaker i).asked ∨ (s.caretaker i).over)
    (fun s rest h hm i S hi => by
      have hget : (s.actors.map fun actor => (actor.1, actor.2.send actor.1 .terminate))[i]? =
          some (S, (s.caretaker i).send S .terminate) := by
        rw [List.getElem?_map, h.runs.get hi]
        rfl
      have hat : (System.supervise { s with supervisor := { s.supervisor with mailbox := rest } }
          .terminateAll).caretaker i = (s.caretaker i).send S .terminate :=
        System.Runs.of_get hget
      rw [hat]
      unfold Caretaker.send
      cases hc : (s.caretaker i).crashed with
      | some panic =>
          rw [show (s.caretaker i).step S (.arrive .terminate) = none by
            simp [Caretaker.step, hc]]
          exact Or.inr ((h.regular i S hi).over_of_crashed (by rw [hc]; rfl))
      | none =>
          refine Or.inl (Or.inl ?_)
          simp [Caretaker.step, hc, Caretaker.arrive])
  refine hreaches.trans fun n hP => ?_
  have hall : x.LeadsTo
      (fun s => ∀ i S, programs[i]? = some S → (s.caretaker i).asked ∨ (s.caretaker i).over)
      fun s => ∀ i < programs.length, (s.caretaker i).over := by
    refine .all (fun i hi n hP => ?_) fun i hi m n hmn hQ => ?_
    · have hprog := List.getElem?_eq_getElem hi
      exact asked_leads (part_fair hx hawait hprog) (part_spawns hspawn hprog) n (hP i _ hprog)
    · have hprog := List.getElem?_eq_getElem hi
      exact (System.part x hprog).stays (P := Caretaker.over)
        (fun n => regular_reach ((System.part x hprog).reach n))
        (fun _ _ _ h hP hs => (over_step h hP hs).1) hmn hQ
  obtain ⟨m, hnm, hover⟩ := hall n hP
  refine ⟨m, hnm, fun actor hactor => ?_⟩
  obtain ⟨i, hget⟩ := List.mem_iff_getElem?.mp hactor
  obtain ⟨S, c⟩ := actor
  have hi := (hosts x m).runs.setting hget
  have hlast := hover i (List.getElem?_eq_some_iff.mp hi).1
  rwa [System.Runs.of_get hget] at hlast

end Signal

/-- **A signal reaches every daemon**, in each execution that is fair to the supervisor, to the
    caretakers and to the signal handler, and in which the spawns of each caretaker fail finitely
    often: wherever a signal is pending, then or later either `main` has returned, or every daemon
    is over and no child is left that a caretaker supervises: a caretaker that lives has reaped all
    its children but those whose kill was refused. -/
theorem signal_ends {x : Lts.Execution System.step (.start programs)} (hx : System.Driven x)
    (hspawn : System.SpawnsAtLast x) (signal : TermSignal) :
    x.LeadsTo (fun s => signal ∈ s.signalHandler.pending) fun s =>
      (∃ res, s.main = .returned res) ∨
        ∀ actor ∈ s.actors, actor.2.over ∧ ¬ actor.2.supervises := by
  intro n hpending
  by_cases hret : ∃ m res, (x.state m).main = .returned res
  · obtain ⟨m, res, hret⟩ := hret
    refine ⟨max n m, Nat.le_max_left .., Or.inl ⟨res, ?_⟩⟩
    refine x.stays (I := fun _ => True) (P := fun s => s.main = .returned res) (fun _ => trivial)
      (fun s a s' _ hP hs => ?_) (Nat.le_max_right n m) hret
    cases hP.symm.trans (step_awaiting hs).1
  · have hawait : ∀ n, (x.state n).main = .awaiting := by
      intro n
      cases hm : (x.state n).main with
      | awaiting => rfl
      | returned res => exact absurd ⟨n, res, hm⟩ hret
    obtain ⟨m, hnm, hover⟩ := (pending_leads hx hawait signal).trans
      (terminateAll_leads hx hawait hspawn) n hpending
    refine ⟨m, hnm, Or.inr fun actor hactor => ⟨hover actor hactor, ?_⟩⟩
    obtain ⟨st, hshape⟩ := (hosts x m).sound.shaped actor hactor
    exact hshape.supervises_not (hshape.stage_over (hover actor hactor))

/-- **A run after which nobody owes a step is fair to the parties.** -/
theorem driven_resting {es : List Act} (h : Lts.exec System.step s₀ es = some s)
    (hrest : ∀ actor ∈ s.actors, AtRest actor.2) (hbox : s.supervisor.mailbox = [])
    (hpending : s.signalHandler.pending = []) : System.Driven (Lts.Execution.resting h) where
  caretakers i A hA := by
    refine .of_rest es.length fun n hn a s' ha hs => ?_
    rw [Lts.Execution.resting_end h hn] at ha hs
    obtain ⟨e, rfl, he⟩ := ha
    cases (System.stepped hs).2 with
    | @caretaker _ S c c' _ hget hs' =>
        rw [System.Runs.of_get hget] at he
        rw [(hrest _ (List.mem_of_getElem? hget)).no_step hA he] at hs'
        cases hs'
  supervise := by
    refine .of_rest es.length fun n hn a s' ha hs => ?_
    rw [Lts.Execution.resting_end h hn] at hs
    subst ha
    cases (System.stepped hs).2 with
    | supervise hm => cases hm.symm.trans hbox
  handleSignal signal := by
    refine .of_rest es.length fun n hn a s' ha hs => ?_
    rw [Lts.Execution.resting_end h hn] at hs
    subst ha
    cases (System.stepped hs).2 with
    | handleSignal hp =>
        rw [hpending] at hp
        cases hp

/-- Both children exit on the signal, and the two `Terminate`s are answered. The server still waits
    for a connection. -/
def stopServed : List Act :=
  stopBoth ++ [.caretaker 0 (.handle (.ok ())), .caretaker 0 (.pollWait 1),
    .caretaker 0 (.pollTerminate 0), .caretaker 1 (.handle (.ok ())), .caretaker 1 (.pollWait 1),
    .caretaker 1 (.pollTerminate 0)]

/-- A caretaker that was stopped and has answered both its `Wait`s. -/
structure Served (c : Caretaker) : Prop where
  mailbox : c.mailbox = []
  daemon : c.daemon = .ended true
  runs : c.runs = []
  signals : c.signals = [(0, .sigterm)]
  waits : c.waits = [⟨1, .replied⟩, ⟨2, .replied⟩]
  terminates : c.terminates = [⟨2, true⟩]

theorem Served.rest {c : Caretaker} (h : Served c) : AtRest c where
  mailbox := h.mailbox
  daemon := ⟨true, h.daemon⟩
  runs := h.runs
  signals := by simp [h.signals]
  waits := by simp [h.waits]
  terminates := by simp [h.terminates]

theorem signal_ends_stopServed :
    ∃ x : Lts.Execution System.step (.start [settingA, settingA]), System.Driven x ∧
      System.SpawnsAtLast x ∧ .sigterm ∈ (x.state 9).signalHandler.pending ∧
      (∀ n, 31 ≤ n → (x.state n).main = .awaiting) ∧ ∃ m, 9 ≤ m ∧
        ((∃ res, (x.state m).main = .returned res) ∨
          ∀ actor ∈ (x.state m).actors, actor.2.over ∧ ¬ actor.2.supervises) := by
  have hex : ∃ s first second, Lts.exec System.step (.start [settingA, settingA]) stopServed =
      some s ∧ s.actors = [first, second] ∧ s.main = .awaiting ∧ s.supervisor.mailbox = [] ∧
      s.signalHandler.pending = [] ∧ Served first.2 ∧ Served second.2 := by
    refine ⟨_, _, _, rfl, rfl, rfl, rfl, rfl, ?_, ?_⟩
    · exact ⟨rfl, rfl, rfl, rfl, rfl, rfl⟩
    · exact ⟨rfl, rfl, rfl, rfl, rfl, rfl⟩
  obtain ⟨s, first, second, hex, hactors, hmain, hbox, hpending, hfirst, hsecond⟩ := hex
  have hrest : ∀ actor ∈ s.actors, AtRest actor.2 := by
    rw [hactors]
    simp [hfirst.rest, hsecond.rest]
  have hdriven := driven_resting hex hrest hbox hpending
  have hspawn : System.SpawnsAtLast (Lts.Execution.resting hex) := fun i =>
    ⟨stopServed.length, fun n e hn hl => by
      rw [show (Lts.Execution.resting hex).label n = stopServed[n]? from rfl,
        List.getElem?_eq_none_iff.mpr hn] at hl
      cases hl⟩
  have hsignal : .sigterm ∈ ((Lts.Execution.resting hex).state 9).signalHandler.pending :=
    List.mem_singleton.mpr rfl
  refine ⟨_, hdriven, hspawn, hsignal, fun n hn => ?_,
    signal_ends hdriven hspawn .sigterm 9 hsignal⟩
  rw [Lts.Execution.resting_end hex hn]
  exact hmain

end Blahaj
