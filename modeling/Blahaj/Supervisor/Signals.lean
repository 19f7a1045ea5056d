/-
  File:      Blahaj/Supervisor/Signals.lean
  Subject:   THE SIGNALS A CHILD IS SENT: `ensure_stop` (supervisor/caretaker.rs) over
             `terminate` (supervisor/terminate_ext.rs).

  `ensure_stop` asks first and kills when the grace period is over; `terminate` asks only a child
  that has not been waited for, since the number of a process that was reaped may be another's.

  * `Signalled` -- the invariant: what each child was sent, by what its `Run` is at;
  * `signals_in_order` -- at most one SIGTERM and then at most one SIGKILL for each child, each
    with its cause, and none to a process that is reaped.
-/
import Blahaj.Supervisor.RunPolls

namespace Blahaj

variable {S : Setting} {s s' : Caretaker} {st : Stage}

/-! ## 1. What a child was sent -/

/-- The signals sent to a process, in order. -/
def sentTo (signals : List (Nat × Signal)) (pid : Nat) : List Signal :=
  signals.filterMap fun sent => if sent.1 = pid then some sent.2 else none

theorem sentTo_append (signals new : List (Nat × Signal)) (pid : Nat) :
    sentTo (signals ++ new) pid = sentTo signals pid ++ sentTo new pid :=
  List.filterMap_append

theorem sentTo_self (pid : Nat) (sig : Signal) : sentTo [(pid, sig)] pid = [sig] := by
  simp [sentTo]

theorem sentTo_other {pid pid' : Nat} (h : pid' ≠ pid) (sig : Signal) :
    sentTo [(pid, sig)] pid' = [] := by
  simp [sentTo, Ne.symm h]

theorem mem_sentTo {signals : List (Nat × Signal)} {pid : Nat} {sig : Signal} :
    sig ∈ sentTo signals pid ↔ (pid, sig) ∈ signals := by
  unfold sentTo
  rw [List.mem_filterMap]
  constructor
  · rintro ⟨sent, hin, hsome⟩
    split at hsome
    · rename_i hpid
      rw [← hpid, ← Option.some.inj hsome]
      exact hin
    · cases hsome
  · exact fun hin => ⟨_, hin, by simp⟩

/-- What the future of a `Run` has sent to its child. -/
def RunFut.sent : RunFut → List Signal
  | .ensureStop killing _ _ => .sigterm :: if killing then [.sigkill] else []
  | _ => []

/-- The signals sent so far: a SIGTERM and then a SIGKILL, to children that were spawned. -/
structure Orderly (s : Caretaker) : Prop where
  born : ∀ pid, s.procs.length ≤ pid → sentTo s.signals pid = []
  order : ∀ pid, sentTo s.signals pid <+: [.sigterm, .sigkill]

/-- **What each child was sent**, by what its `Run` is at. -/
structure Signalled (s : Caretaker) : Prop where
  orderly : Orderly s
  runs : ∀ item ∈ s.runs, ∀ child, item.fut.child = some child →
    sentTo s.signals child.pid = item.fut.sent

theorem signalled_init : Signalled .init where
  orderly := { born := fun _ _ => rfl, order := fun _ => List.nil_prefix }
  runs := fun _ h => absurd h List.not_mem_nil

theorem RunFut.isNew.sent {fut : RunFut} {k : Nat} (h : fut.isNew k) : fut.sent = [] := by
  cases fut with
  | ensureStop _ _ _ => cases h
  | _ => rfl

theorem RunFut.isNew.child {fut : RunFut} {k : Nat} (h : fut.isNew k) {child : Child}
    (hchild : fut.child = some child) : child.pid = k := by
  cases fut with
  | waitAbort fut _ => rw [← Option.some.inj ((show fut.child = some ⟨k⟩ from h).symm.trans hchild)]
  | failure _ _ => cases hchild
  | ensureStop _ _ _ => cases h

theorem Apart.length {e : Event} (h : Apart s s' e) : s.procs.length ≤ s'.procs.length := by
  rcases h.born with hlen | hprocs
  · omega
  · rw [hprocs]
    simp

theorem Apart.signalled {e : Event} (h : Apart s s' e) (hs : Signalled s) : Signalled s' where
  orderly := {
    born := fun pid hpid => by
      rw [h.signals]
      exact hs.orderly.born pid (Nat.le_trans h.length hpid)
    order := fun pid => by
      rw [h.signals]
      exact hs.orderly.order pid }
  runs := fun item hitem child hchild => by
    rw [h.signals]
    rcases h.runs item hitem with hold | ⟨hnew, -⟩ | ⟨-, hnone⟩
    · exact hs.runs item hold child hchild
    · rw [hnew.child hchild, hnew.sent]
      exact hs.orderly.born _ (Nat.le_refl _)
    · rw [hnone] at hchild
      cases hchild

/-- One signal more, to a child that was sent the one before it. -/
theorem Orderly.send (h : Orderly s) {pid : Nat} (hlt : pid < s.procs.length) {sig : Signal}
    (hp : sentTo s.signals pid ++ [sig] <+: [.sigterm, .sigkill])
    (hs : s'.signals = s.signals ++ [(pid, sig)]) (hprocs : s'.procs = s.procs) :
    Orderly s' where
  born := fun pid' hpid' => by
    rw [hprocs] at hpid'
    rw [hs, sentTo_append, sentTo_other (by omega), List.append_nil]
    exact h.born pid' hpid'
  order := fun pid' => by
    rw [hs, sentTo_append]
    by_cases heq : pid' = pid
    · rw [heq, sentTo_self]
      exact hp
    · rw [sentTo_other heq, List.append_nil]
      exact h.order pid'

/-- A `Run` that is done owes nothing more. -/
theorem Orderly.finished (h : Orderly s) {item : RunItem} (hruns : s.runs = [item]) (req : Nat)
    (res : RunResult) : Signalled (s.finishRun 0 req res) :=
  ⟨⟨h.born, h.order⟩, fun item' hitem' => by simp [Caretaker.finishRun, hruns] at hitem'⟩

/-- The SIGKILL to a child that was sent a SIGTERM. -/
theorem Orderly.kill (h : Orderly s) {pid : Nat} (hlt : pid < s.procs.length)
    (hsent : sentTo s.signals pid = [.sigterm]) :
    Orderly { s with signals := s.signals ++ [(pid, .sigkill)] } ∧
      sentTo (s.signals ++ [(pid, .sigkill)]) pid = [.sigterm, .sigkill] := by
  have horder : sentTo s.signals pid ++ [Signal.sigkill] = [.sigterm, .sigkill] := by
    rw [hsent]
    rfl
  refine ⟨h.send hlt (horder ▸ List.prefix_rfl) rfl rfl, ?_⟩
  rw [sentTo_append, sentTo_self, horder]

/-- One poll of `ensure_stop`, for a child that was sent what it says. -/
theorem StopPolled.signalled {req : Nat} {killing : Bool} {grace : Grace} {child : Child}
    {res : RunResult} (hp : StopPolled s 0 req killing child res grace s')
    (h : Orderly s) (hlt : child.pid < s.procs.length) {item : RunItem} (hruns : s.runs = [item])
    (hsent : sentTo s.signals child.pid = (RunFut.ensureStop killing child res).sent) :
    Signalled s' := by
  have hset : ∀ {killing' : Bool}, ∀ item' ∈ s.runs.set 0 ⟨.ensureStop killing' child res, req⟩,
      item' = ⟨.ensureStop killing' child res, req⟩ := by
    rw [hruns]
    exact fun _ => List.mem_singleton.mp
  cases hp with
  | reaped _ =>
      have horderly : Orderly { s with procs := s.procs.set child.pid .reaped } :=
        ⟨fun pid hpid => h.born pid (by simpa using hpid), h.order⟩
      exact horderly.finished hruns req res
  | waits _ _ =>
      refine ⟨⟨h.born, h.order⟩, fun item' hitem' child' hchild' => ?_⟩
      rw [hset item' hitem'] at hchild' ⊢
      obtain rfl := Option.some.inj hchild'
      exact hsent
  | kills _ hkilling _ =>
      subst hkilling
      obtain ⟨hkill, hboth⟩ := h.kill hlt hsent
      refine ⟨⟨hkill.born, hkill.order⟩, fun item' hitem' child' hchild' => ?_⟩
      rw [hset item' hitem'] at hchild' ⊢
      obtain rfl := Option.some.inj hchild'
      exact hboth
  | refused _ hkilling _ =>
      subst hkilling
      obtain ⟨hkill, -⟩ := h.kill hlt hsent
      have horderly : Orderly { s with
          signals := s.signals ++ [(child.pid, .sigkill)]
          refused := s.refused ++ [child.pid] } := ⟨hkill.born, hkill.order⟩
      exact horderly.finished hruns req res

theorem Shape.pid_lt (h : Shape S s st) {child : Child} (hst : st.child = some child.pid) :
    child.pid < s.procs.length := by
  have hlast := h.procs.last child.pid hst
  omega

/-- `ensure_stop` begins with a SIGTERM to a child that was sent nothing. -/
theorem Signalled.asked (h : Signalled s) {child : Child} (hlt : child.pid < s.procs.length)
    (hsent : sentTo s.signals child.pid = []) : Orderly (s.asking child) ∧
      sentTo (s.asking child).signals child.pid = [.sigterm] := by
  constructor
  · have hfirst : sentTo s.signals child.pid ++ [Signal.sigterm] <+: [.sigterm, .sigkill] := by
      rw [hsent]
      simp
    exact h.orderly.send hlt hfirst rfl rfl
  · show sentTo (s.signals ++ [(child.pid, .sigterm)]) child.pid = _
    rw [sentTo_append, hsent, sentTo_self, List.nil_append]

theorem Signalled.polled {req : Nat} {child : Child} (h : Signalled s)
    (hshape : Shape S s (.up req child)) {grace : Grace}
    (hp : RunPolled S s req child grace s') : Signalled s' := by
  have hruns : s.runs = [_] := hshape.token.runs
  have hsent : sentTo s.signals child.pid = [] := by
    rw [h.runs _ (hruns ▸ List.mem_singleton.mpr rfl) child rfl]
    rfl
  have hlt : child.pid < s.procs.length := hshape.pid_lt rfl
  obtain ⟨hasked, hterm⟩ := h.asked hlt hsent
  cases hp with
  | stop _ hp => exact hp.signalled hasked hlt hruns hterm
  | unhealthy _ _ hp => exact hp.signalled hasked hlt hruns hterm
  | exited _ _ _ res _ =>
      refine ⟨⟨fun pid hpid => h.orderly.born pid ?_, h.orderly.order⟩, fun item hitem => ?_⟩
      · simpa [Caretaker.finishRun, Caretaker.stopHealth] using hpid
      · simp [Caretaker.finishRun, Caretaker.stopHealth, hruns] at hitem
  | pending _ _ => exact h

/-- **Each step keeps `Signalled`.** -/
theorem signalled_step (hshape : Shape S s st) (h : Signalled s) {e : Event}
    (hs : s.step S e = some s') : Signalled s' := by
  by_cases he : ∃ i grace, e = .pollRun i grace
  · obtain ⟨i, grace, rfl⟩ := he
    cases hshape.polls hs with
    | up hp => exact h.polled hshape hp
    | @spawnFailed req err hs' =>
        obtain ⟨_, hruns⟩ := hshape.token.runs
        subst hs'
        refine ⟨⟨h.orderly.born, h.orderly.order⟩, fun item hitem => ?_⟩
        simp [Caretaker.finishRun, hruns] at hitem
    | @stopping req child res killing hruns hp =>
        exact hp.signalled h.orderly (hshape.pid_lt rfl) hruns
          (h.runs _ (hruns ▸ List.mem_singleton.mpr rfl) child rfl)
  · exact (apart_step hshape hs fun i g heq => he ⟨i, g, heq⟩).signalled h

/-! ## 2. Whom a signal goes to -/

/-- The process is the child of a `Run` under way. -/
def Caretaker.owns (s : Caretaker) (pid : Nat) : Prop :=
  ∃ item ∈ s.runs, item.fut.child = some ⟨pid⟩

/-- Why a signal is sent: the caretaker was asked to stop, or the health actor of the child gave
    up; the grace period is over, and the child still runs. -/
def Caretaker.Cause (s : Caretaker) (e : Event) (pid : Nat) : Signal → Prop
  | .sigterm => s.terminates ≠ [] ∨ s.signalled ⟨.unhealthy pid⟩ = true
  | .sigkill => s.procs[pid]? = some .running ∧ ∃ i kill, e = .pollRun i (.elapsed kill)

theorem StopPolled.sends {req : Nat} {killing : Bool} {grace : Grace} {child : Child}
    {res : RunResult} (hp : StopPolled s 0 req killing child res grace s') :
    ∃ new, s'.signals = s.signals ++ new ∧ ∀ sent ∈ new, sent = (child.pid, .sigkill) ∧
      s.procs[child.pid]? = some .running ∧ ∃ kill, grace = .elapsed kill := by
  cases hp with
  | reaped _ => exact ⟨[], by simp [Caretaker.finishRun], by simp⟩
  | waits _ _ => exact ⟨[], by simp, by simp⟩
  | kills hrun _ hgrace =>
      exact ⟨_, rfl, fun sent hsent => ⟨List.mem_singleton.mp hsent, hrun, _, hgrace⟩⟩
  | refused hrun _ hgrace =>
      exact ⟨_, rfl, fun sent hsent => ⟨List.mem_singleton.mp hsent, hrun, _, hgrace⟩⟩

/-- **What a step sends**, with its cause. -/
theorem sends_step (hshape : Shape S s st) {e : Event} (hs : s.step S e = some s') :
    ∃ new, s'.signals = s.signals ++ new ∧
      ∀ pid sig, (pid, sig) ∈ new → s.owns pid ∧ s.Cause e pid sig := by
  by_cases he : ∃ i grace, e = .pollRun i grace
  · obtain ⟨i, grace, rfl⟩ := he
    cases hshape.polls hs with
    | @up req child hp =>
        have howns : s.owns child.pid := ⟨_, by
          rw [show s.runs = [_] from hshape.token.runs]
          exact List.mem_singleton.mpr rfl, rfl⟩
        -- the SIGTERM of the start, and what the first poll of `ensure_stop` sends
        have hstart : ∀ res, StopPolled (s.asking child) 0 req false child res grace s' →
            (s.terminates ≠ [] ∨ s.signalled ⟨.unhealthy child.pid⟩ = true) →
            ∃ new, s'.signals = s.signals ++ new ∧ ∀ pid sig, (pid, sig) ∈ new →
              s.owns pid ∧ s.Cause (.pollRun i grace) pid sig := by
          intro res hp hcause
          obtain ⟨new, hnew, hall⟩ := hp.sends
          refine ⟨(child.pid, .sigterm) :: new, ?_, fun pid sig hsent => ?_⟩
          · rw [hnew]
            simp [Caretaker.asking]
          · rcases List.mem_cons.mp hsent with heq | hsent
            · cases heq
              exact ⟨howns, hcause⟩
            · obtain ⟨heq, hrun, kill, rfl⟩ := hall _ hsent
              cases heq
              exact ⟨howns, hrun, i, kill, rfl⟩
        cases hp with
        | stop htx hp =>
            refine hstart _ hp (Or.inl fun hnil => ?_)
            have hdoor := hshape.doors.stopTx
            rw [htx, hnil] at hdoor
            cases hdoor
        | unhealthy _ hu hp => exact hstart _ hp (Or.inr hu)
        | exited _ _ _ res _ =>
            exact ⟨[], by simp [Caretaker.finishRun, Caretaker.stopHealth], by simp⟩
        | pending _ _ => exact ⟨[], by simp, by simp⟩
    | spawnFailed hs' =>
        subst hs'
        exact ⟨[], by simp [Caretaker.finishRun], by simp⟩
    | @stopping req child res killing hruns hp =>
        obtain ⟨new, hnew, hall⟩ := hp.sends
        refine ⟨new, hnew, fun pid sig hsent => ?_⟩
        obtain ⟨heq, hrun, kill, rfl⟩ := hall _ hsent
        cases heq
        exact ⟨⟨_, hruns ▸ List.mem_singleton.mpr rfl, rfl⟩, hrun, i, kill, rfl⟩
  · have hapart := apart_step hshape hs fun i g heq => he ⟨i, g, heq⟩
    exact ⟨[], by rw [hapart.signals, List.append_nil], by simp⟩

theorem StopPolled.awaited {req : Nat} {killing : Bool} {grace : Grace} {child : Child}
    {res : RunResult} (hp : StopPolled s 0 req killing child res grace s')
    {item : RunItem} (hruns : s.runs = [item]) {pid : Nat} (hown : s'.owns pid) :
    Unreaped s'.procs pid := by
  obtain ⟨item', hitem', hchild⟩ := hown
  have hset : ∀ {killing' : Bool}, item' ∈ s.runs.set 0 ⟨.ensureStop killing' child res, req⟩ →
      pid = child.pid := by
    intro killing' hmem
    rw [hruns, List.set_cons_zero] at hmem
    rw [List.mem_singleton.mp hmem] at hchild
    obtain rfl := Option.some.inj hchild
    rfl
  cases hp with
  | reaped _ => simp [Caretaker.finishRun, hruns] at hitem'
  | waits hrun _ =>
      rw [hset hitem']
      exact ⟨_, hrun, rfl⟩
  | kills hrun _ _ =>
      rw [hset hitem']
      exact ⟨_, hrun, rfl⟩
  | refused _ _ _ => simp [Caretaker.finishRun, hruns] at hitem'

/-- **The child of a `Run` under way is not reaped**, unless somebody else reaps it. -/
theorem awaited_step (hshape : Shape S s st) {pid : Nat}
    (h : s.owns pid → Unreaped s.procs pid) {e : Event} (he : e ≠ .reap pid)
    (hs : s.step S e = some s') (hown : s'.owns pid) : Unreaped s'.procs pid := by
  by_cases hpoll : ∃ i grace, e = .pollRun i grace
  · obtain ⟨i, grace, rfl⟩ := hpoll
    cases hshape.polls hs with
    | @up req child hp =>
        have hruns : s.runs = [_] := hshape.token.runs
        cases hp with
        | stop _ hp => exact hp.awaited hruns hown
        | unhealthy _ _ hp => exact hp.awaited hruns hown
        | exited _ _ _ res _ =>
            obtain ⟨item, hitem, -⟩ := hown
            simp [Caretaker.finishRun, Caretaker.stopHealth, hruns] at hitem
        | pending _ _ => exact h hown
    | spawnFailed hs' =>
        subst hs'
        obtain ⟨_, hruns⟩ := hshape.token.runs
        obtain ⟨item, hitem, -⟩ := hown
        simp [Caretaker.finishRun, hruns] at hitem
    | stopping hruns hp => exact hp.awaited hruns hown
  · have hapart := apart_step hshape hs fun i g heq => hpoll ⟨i, g, heq⟩
    obtain ⟨item, hitem, hchild⟩ := hown
    rcases hapart.runs item hitem with hold | ⟨hnew, hlt⟩ | ⟨-, hnone⟩
    · exact (hapart.procs pid (h ⟨item, hold, hchild⟩)).resolve_right he
    · obtain rfl : pid = s.procs.length := hnew.child hchild
      rcases hapart.born with hlen | hprocs
      · omega
      · exact ⟨.running, by rw [hprocs]; simp, rfl⟩
    · rw [hnone] at hchild
      cases hchild

/-! ## 3. Over a run -/

theorem signalled_run {h : List (Caretaker × Event)} {s : Caretaker}
    (hr : Lts.Run (Caretaker.step S) .init h s) : Signalled s := by
  have hboth := hr.invariant (P := fun s => (∃ st, Shape S s st) ∧ Signalled s)
    ⟨⟨.boot, shape_init S⟩, signalled_init⟩ fun _ _ _ hP hs => by
      obtain ⟨⟨st, hshape⟩, hsig⟩ := hP
      exact ⟨shaped_step ⟨st, hshape⟩ hs, signalled_step hshape hsig hs⟩
  exact hboth.2

theorem awaited_run {pid : Nat} {h : List (Caretaker × Event)} {s : Caretaker}
    (hr : Lts.Run (Caretaker.step S) .init h s) (hC : ∀ x ∈ h, x.2 ≠ .reap pid) :
    s.owns pid → Unreaped s.procs pid := by
  have hboth := hr.invariant_if (C := fun _ e => e ≠ .reap pid)
    (P := fun s => (∃ st, Shape S s st) ∧ (s.owns pid → Unreaped s.procs pid))
    ⟨⟨.boot, shape_init S⟩, fun hown => by
      obtain ⟨_, hitem, -⟩ := hown
      cases hitem⟩
    (fun _ _ _ hP he hs => by
      obtain ⟨⟨st, hshape⟩, hown⟩ := hP
      exact ⟨shaped_step ⟨st, hshape⟩ hs, awaited_step hshape hown he hs⟩) hC
  exact hboth.2

/-- **The signals of a caretaker**, over all its runs. Each child is sent nothing, a SIGTERM, or a
    SIGTERM and then a SIGKILL. A step sends a SIGTERM only where the caretaker was asked to stop
    or the health actor of the child gave up, a SIGKILL only where the grace period is over and
    the child still runs; and each goes to the child of the `Run` under way, which is not reaped
    unless somebody else has done so before. -/
theorem signals_in_order {h : List (Caretaker × Event)} {s : Caretaker}
    (hr : Lts.Run (Caretaker.step S) .init h s) :
    (∀ pid, sentTo s.signals pid <+: [.sigterm, .sigkill]) ∧
    ∀ h₁ x h₂, h = h₁ ++ x :: h₂ → ∀ s', x.1.step S x.2 = some s' →
      ∃ new, s'.signals = x.1.signals ++ new ∧ ∀ pid sig, (pid, sig) ∈ new →
        x.1.owns pid ∧ x.1.Cause x.2 pid sig ∧
        (Unreaped x.1.procs pid ∨ ∃ y ∈ h₁, y.2 = .reap pid) := by
  refine ⟨(signalled_run hr).orderly.order, ?_⟩
  intro h₁ x h₂ hsplit s' hs
  subst hsplit
  have hr₁ := hr.before
  obtain ⟨st, hshape⟩ := shape_run hr₁
  obtain ⟨new, hnew, hall⟩ := sends_step hshape hs
  refine ⟨new, hnew, fun pid sig hsent => ?_⟩
  obtain ⟨hown, hcause⟩ := hall pid sig hsent
  refine ⟨hown, hcause, ?_⟩
  by_cases hreap : ∃ y ∈ h₁, y.2 = .reap pid
  · exact Or.inr hreap
  · exact Or.inl (awaited_run hr₁ (fun y hy heq => hreap ⟨y, hy, heq⟩) hown)

/-- The child of `a` ignores the SIGTERM until the grace period is over. -/
def stubborn : List Event :=
  [.startDaemon, .pollDaemon ⟨1, 1, false⟩, .handle (.ok ()), .arrive .terminate, .handle (.ok ()),
    .pollRun 0 .underWay]

/-- The next step kills it. -/
def graceOver : Event := .pollRun 0 (.elapsed (.ok ()))

theorem signals_in_order_stubborn :
    ∃ h s s', Lts.Run (Caretaker.step settingA) .init h s ∧ s.step settingA graceOver = some s' ∧
      s.signals = [(0, .sigterm)] ∧ s'.signals = [(0, .sigterm), (0, .sigkill)] ∧
      (∀ pid, sentTo s'.signals pid <+: [.sigterm, .sigkill]) ∧
      s.owns 0 ∧ s.Cause graceOver 0 .sigkill ∧ Unreaped s.procs 0 := by
  have hex : ∃ s s', Lts.exec (Caretaker.step settingA) .init stubborn = some s ∧
      s.step settingA graceOver = some s' ∧ s.signals = [(0, .sigterm)] ∧
      s'.signals = [(0, .sigterm), (0, .sigkill)] := ⟨_, _, rfl, rfl, rfl, rfl⟩
  obtain ⟨s, s', hex, hs, hterm, hkill⟩ := hex
  have hr := Lts.run_history hex
  have hr' := hr.snoc graceOver hs
  obtain ⟨new, hnew, hall⟩ := (signals_in_order hr').2 _ _ [] rfl s' hs
  have hnew' : new = [(0, .sigkill)] := by
    rw [hterm, hkill, List.singleton_append] at hnew
    exact (List.tail_eq_of_cons_eq hnew).symm
  obtain ⟨hown, hcause, hlive⟩ := hall 0 .sigkill (by simp [hnew'])
  refine ⟨_, s, s', hr, hs, hterm, hkill, (signals_in_order hr').1, hown, hcause, ?_⟩
  refine hlive.resolve_right ?_
  rintro ⟨y, hy, heq⟩
  have hmem := Lts.label_mem y hy
  rw [heq] at hmem
  simp [stubborn] at hmem

end Blahaj
