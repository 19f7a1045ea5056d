/-
  File:      Blahaj/Supervisor/Handover.lean
  Subject:   FROM THE SPAWN TO THE WAIT: what `Handler<Run>` does with the child it has spawned.

  Between `build_child` and `WaitAbortFut::new` stands `uri_for_check`, whose `expect` panics on a
  health-check path that the http crate refuses. No one looks at the path before that. The child
  goes on running then, and nobody waits for it.

  * `HandsOver` -- what a handled `Run` owes: the child in a `WaitAbortFut`, or an error with the
    stop receiver;
  * `healthConfig_isSome` -- the closure in between goes through exactly for a path that the crate
    accepts;
  * `run_hands_over` -- over every run, each `Run` hands over exactly where the spawn fails or the
    path is accepted; with such a path every child has an owner in every state.
-/
import Blahaj.Supervisor.Lifecycle

namespace Blahaj

open Segments

variable {S : Setting} {s s' : Caretaker} {st : Stage}

/-! ## 1. The path -/

/-- The slashes at the front of a path do not matter. -/
theorem HttpCrate.accepts_trimStart {H : HttpCrate} (hslash : H.pathChar '/' = true) (s : Str) :
    H.accepts (trimStart '/' s) = H.accepts s := by
  obtain ⟨n, hn⟩ := trimStart_decomp '/' s
  have hall : ∀ (n : Nat) (l : Str), H.accepts (List.replicate n '/' ++ l) = H.accepts l := by
    intro n l
    induction n with
    | zero => rfl
    | succ n ih =>
        rw [List.replicate_succ, List.cons_append, HttpCrate.accepts_slash hslash]
        exact ih
  rw [← hall n (trimStart '/' s), ← hn]

/-- **`uri_for_check` makes a URI of the paths that the crate accepts**, whatever the port. -/
theorem uriForCheck_isSome {H : HttpCrate} (hH : H.Lawful) (hstrict : H.Strict) (https : Bool)
    (port : UInt16) (path : Str) :
    (uriForCheck H https port path).isSome = H.accepts path := by
  have hpath := hstrict ('/' :: trimStart '/' path) rfl
  rw [HttpCrate.accepts_slash hH.slash, HttpCrate.accepts_trimStart hH.slash] at hpath
  unfold uriForCheck
  rw [← hpath, hH.authority]
  cases H.pathAndQuery ('/' :: trimStart '/' path) with
  | none => rfl
  | some pathAndQuery =>
      show (H.build _ _ _).isSome = _
      rw [hH.build]
      rfl

/-- The program has no health check, or one whose path the crate accepts. -/
def Setting.Checkable (S : Setting) : Prop :=
  ∀ http check, S.program.check = some (http, check) → S.crate.accepts check.path = true

theorem healthConfig_isSome (hH : S.crate.Lawful) (hstrict : S.crate.Strict)
    (status : Lifecycle) : (healthConfig S status).isSome = true ↔ S.Checkable := by
  unfold healthConfig Setting.Checkable
  cases hcheck : S.program.check with
  | none => simp
  | some found =>
      obtain ⟨http, check⟩ := found
      simp only [Option.isSome_map, uriForCheck_isSome hH hstrict]
      constructor
      · intro hacc http' check' heq
        obtain ⟨-, rfl⟩ := Prod.mk.inj (Option.some.inj heq)
        exact hacc
      · intro hall
        exact hall http check rfl

theorem Setting.Checkable.legal (hH : S.crate.Lawful) (hstrict : S.crate.Strict)
    (h : S.Checkable) : S.Legal := by
  intro http check hcheck
  rw [uriForCheck_isSome hH hstrict]
  exact h http check hcheck

/-! ## 2. One `Run` -/

/-- **What `Handler<Run>` owes.** It does not panic. A child that it has spawned is in a
    `WaitAbortFut` with the stop receiver, whose next poll does not panic either; where none could
    be spawned, the next poll yields `RunResult::Error` with the stop receiver. -/
def HandsOver (S : Setting) (s : Caretaker) (spawn : Except String Unit) (stopRx : Receiver)
    (req : Nat) (s' : Caretaker) : Prop :=
  s'.crashed = none ∧ match spawn with
  | .ok _ => s'.procs = s.procs ++ [.running] ∧ ∃ i,
      s'.runs[i]? = some ⟨.waitAbort (.new ⟨s.procs.length⟩ stopRx ⟨.unhealthy s.procs.length⟩)
        s.procs.length, req⟩ ∧
      ∀ grace, ∃ s₁, s'.step S (.pollRun i grace) = some s₁ ∧ s₁.crashed = none
  | .error source => s'.procs = s.procs ∧ ∃ i,
      s'.runs[i]? = some ⟨.failure stopRx (.spawn source), req⟩ ∧
      ∀ grace, s'.step S (.pollRun i grace) =
        some (s'.finishRun i req (.error stopRx (.spawn source)))

/-- The next poll of a `WaitAbortFut` whose child is waited for does not panic. -/
theorem Shape.up_polled {req : Nat} {child : Child} (h : Shape S s (.up req child))
    (grace : Grace) :
    ∃ s₁, s.step S (.pollRun 0 grace) = some s₁ ∧ s₁.crashed = none := by
  obtain ⟨s₁, st₁, hout, hshape, hnext⟩ :=
    h.polled_up grace (.pollRun 0 grace) (by simp)
  refine ⟨s₁, ?_, crashed_of_not_dropped hshape ?_⟩
  · simp only [Caretaker.step, show s.runs = [_] from h.token.runs, List.getElem?_cons_zero,
      Option.map_some]
    rw [hout]
  · intro hst
    subst hst
    cases hnext

/-- **One `Run` is handed over** exactly where its spawn fails or the health check goes through. -/
theorem Shape.hands_over (h : Shape S s st) {stopRx : Receiver} {req : Nat} {rest : List Msg}
    (hm : s.mailbox = .run stopRx req :: rest) (spawn : Except String Unit) :
    HandsOver S s spawn stopRx req
        (Caretaker.settle (Caretaker.handleRun S spawn stopRx req { s with mailbox := rest })) ↔
      (∃ source, spawn = .error source) ∨ (healthConfig S .starting).isSome = true := by
  have hlive := h.alive hm
  obtain ⟨rfl, rfl, -⟩ := h.run_head hm
  have hruns : s.runs = [] := h.token.runs
  cases spawn with
  | error source =>
      refine iff_of_true ⟨hlive, rfl, 0, ?_, fun _ => ?_⟩ (Or.inl ⟨source, rfl⟩)
      · simp [Caretaker.handleRun, buildChild, Caretaker.settle, hruns]
      · simp [Caretaker.handleRun, buildChild, Caretaker.settle, hruns, Caretaker.step,
          Caretaker.pollRun]
  | ok _ =>
      cases hc : healthConfig S .starting with
      | none =>
          refine iff_of_false (fun hands => ?_) (by simp)
          have hcrash := hands.1
          simp only [Caretaker.handleRun, buildChild, hc, Caretaker.settle] at hcrash
          cases hcrash
      | some found =>
          refine iff_of_true ?_ (Or.inr rfl)
          obtain ⟨hstatus, hconfig⟩ := healthConfig_some hc
          have hout : Caretaker.settle
              (Caretaker.handleRun S (.ok ()) stopReceiver req { s with mailbox := rest }) =
              s.spawned rest found.1 found.2 req := by
            simp only [Caretaker.handleRun, buildChild, hc, Caretaker.settle, Caretaker.spawned]
          have hshape : Shape S (s.spawned rest found.1 found.2 req) (.up req ⟨s.procs.length⟩) :=
            h.spawned hm (by rw [hstatus]; split <;> rfl) hconfig
          rw [hout]
          refine ⟨hlive, rfl, 0, ?_, hshape.up_polled⟩
          rw [show (s.spawned rest found.1 found.2 req).runs = [_] from hshape.token.runs]
          rfl

/-! ## 3. Over a run -/

/-- With a legal health-check URI every child that is not reaped is owned, or its kill was
    refused. -/
theorem Shape.child_owned (h : Shape S s st) (hS : S.Legal) {pid : Nat}
    (hun : Unreaped s.procs pid) :
    (∃ item ∈ s.runs, item.fut.child = some ⟨pid⟩) ∨ pid ∈ s.refused := by
  refine (h.owner hS hun).imp_left fun hown => ?_
  cases st with
  | up req child =>
      refine ⟨_, by rw [show s.runs = [_] from h.token.runs]; exact List.mem_singleton_self _, ?_⟩
      rw [← Option.some.inj hown]
      rfl
  | stopping req child res =>
      obtain ⟨killing, hruns⟩ := h.token.runs
      refine ⟨_, by rw [hruns]; exact List.mem_singleton_self _, ?_⟩
      rw [← Option.some.inj hown]
      rfl
  | _ => cases hown

/-- **A handled `Run` hands its child over**, in every run of a caretaker, exactly where the spawn
    fails or the health-check path is one that the http crate accepts. With such a path each child
    that is not reaped is owned by the future of a handled `Run`, in every state, unless its kill
    was refused before. -/
theorem run_hands_over (hH : S.crate.Lawful) (hstrict : S.crate.Strict)
    {h : List (Caretaker × Event)} {s : Caretaker}
    (hr : Lts.Run (Caretaker.step S) .init h s) :
    (∀ s₁ spawn, (s₁, Event.handle spawn) ∈ h → ∀ stopRx req rest s₂,
      s₁.mailbox = .run stopRx req :: rest → s₁.step S (.handle spawn) = some s₂ →
      (HandsOver S s₁ spawn stopRx req s₂ ↔
        (∃ source, spawn = .error source) ∨ S.Checkable)) ∧
    (S.Checkable → ∀ pid, Unreaped s.procs pid →
      (∃ item ∈ s.runs, item.fut.child = some ⟨pid⟩) ∨
        ∃ x ∈ h, x.1.refusal x.2 = some pid) := by
  constructor
  · intro s₁ spawn hx stopRx req rest s₂ hm hs
    obtain ⟨st, hshape⟩ := shape_before hr _ hx
    simp only [Caretaker.step, hm, Option.some.injEq] at hs
    rw [← hs, ← healthConfig_isSome hH hstrict .starting]
    exact hshape.hands_over hm spawn
  · intro hS pid hun
    obtain ⟨st, hshape⟩ := shape_run hr
    exact (hshape.child_owned (hS.legal hH hstrict) hun).imp_right (mem_refused hr).mp

/-- Program `a`, over a crate that drops what follows a `#`. -/
def settingCut : Setting := { settingA with crate := .cutting }

theorem settingCut_checkable : settingCut.Checkable := by
  intro http check hcheck
  obtain ⟨rfl, rfl⟩ := Prod.mk.inj (Option.some.inj hcheck)
  decide

theorem run_hands_over_spawned :
    ∃ s s', Lts.exec (Caretaker.step settingCut) .init [.startDaemon, .pollDaemon ⟨1, 1, false⟩] =
        some s ∧ s.step settingCut (.handle (.ok ())) = some s' ∧
      HandsOver settingCut s (.ok ()) stopReceiver 0 s' ∧
      ∃ item ∈ s'.runs, item.fut.child = some ⟨0⟩ := by
  have hex : ∃ s s', Lts.exec (Caretaker.step settingCut) .init
      [.startDaemon, .pollDaemon ⟨1, 1, false⟩] = some s ∧
      s.mailbox = [.run stopReceiver 0] ∧ s.step settingCut (.handle (.ok ())) = some s' ∧
      s'.procs[0]? = some .running := ⟨_, _, rfl, rfl, rfl, rfl⟩
  obtain ⟨s, s', hex, hm, hs, hproc⟩ := hex
  have hr := (Lts.run_history hex).snoc _ hs
  obtain ⟨hhands, howned⟩ :=
    run_hands_over HttpCrate.cutting_lawful HttpCrate.cutting_strict hr
  refine ⟨s, s', hex, hs, (hhands s (.ok ()) (by simp) stopReceiver 0 [] s' hm hs).mpr
    (Or.inr settingCut_checkable), ?_⟩
  refine (howned settingCut_checkable 0 ⟨.running, hproc, rfl⟩).resolve_right fun hrefused => ?_
  -- no `Run` was polled yet
  obtain ⟨x, hx, hsome⟩ := hrefused
  obtain ⟨i, hlabel⟩ := RefusesKill.label (Option.isSome_iff_exists.mpr ⟨0, hsome⟩)
  rcases List.mem_append.mp hx with hx | hx
  · have hmem := Lts.label_mem x hx
    rw [hlabel] at hmem
    simp at hmem
  · rw [List.mem_singleton.mp hx] at hlabel
    cases hlabel

/-- Program `a`, its health checked under a path with a space. -/
def settingSpace : Setting :=
  { settingCut with program := { programA with
    http := some
      { port := 8081
        path := ['/', 's', 'o', 'm', 'e', '_', 'p', 'a', 't', 'h']
        https := true
        stripPath := true
        healthCheck := some
          { path := ['/', 'i', 's', ' ', 'u', 'p']
            interval := 10000000000
            grace := 60000000000 } } } }

/-- **A path with a space**: the caretaker dies with its child running, and nobody owns it. -/
theorem run_abandons :
    (∃ s', Lts.exec (Caretaker.step settingSpace) .init
        [.startDaemon, .pollDaemon ⟨1, 1, false⟩, .handle (.ok ())] = some s' ∧
      s'.crashed = some .healthUri ∧ s'.procs = [.running] ∧ s'.runs = []) ∧
    ¬ ∀ (S : Setting) (h : List (Caretaker × Event)) (s : Caretaker), S.crate.Lawful →
      S.crate.Strict → Lts.Run (Caretaker.step S) .init h s →
      ∀ s₁ spawn, (s₁, Event.handle spawn) ∈ h → ∀ stopRx req rest s₂,
        s₁.mailbox = .run stopRx req :: rest → s₁.step S (.handle spawn) = some s₂ →
        HandsOver S s₁ spawn stopRx req s₂ := by
  have hex : ∃ s s', Lts.exec (Caretaker.step settingSpace) .init
      [.startDaemon, .pollDaemon ⟨1, 1, false⟩] = some s ∧
      Lts.exec (Caretaker.step settingSpace) .init
        [.startDaemon, .pollDaemon ⟨1, 1, false⟩, .handle (.ok ())] = some s' ∧
      s.mailbox = [.run stopReceiver 0] ∧ s.step settingSpace (.handle (.ok ())) = some s' ∧
      s'.crashed = some .healthUri ∧ s'.procs = [.running] ∧ s'.runs = [] :=
    ⟨_, _, rfl, rfl, rfl, rfl, rfl, rfl, rfl⟩
  obtain ⟨s, s', hex, hex', hm, hs, hcrash, hprocs, hruns⟩ := hex
  refine ⟨⟨s', hex', hcrash, hprocs, hruns⟩, fun hall => ?_⟩
  have hhands := hall settingSpace _ s' HttpCrate.cutting_lawful HttpCrate.cutting_strict
    ((Lts.run_history hex).snoc _ hs) s (.ok ()) (by simp) stopReceiver 0 [] s' hm hs
  cases hcrash.symm.trans hhands.1

end Blahaj
