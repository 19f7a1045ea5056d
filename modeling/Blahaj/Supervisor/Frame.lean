/-
  File:      Blahaj/Supervisor/Frame.lean
  Subject:   WHAT THE STEPS OF A CARETAKER LEAVE ALONE.

  * `Spared` -- the part of the state that the futures of a `Run` and most handlers do not touch;
    one lemma for each of them;
  * `Kept` -- what is left of it where the daemon has called `broadcast_stopped`;
  * `frame_step` -- the mailbox is a queue: a step takes at most the oldest message and adds at the
    end; a `Terminate` that is handled is kept; no process is forgotten;
  * `terminates_run`, `asked_iff` -- the caretaker knows every `Terminate` it has handled.
-/
import Blahaj.Supervisor.Polls

namespace Blahaj

variable {S : Setting} {s s' : Caretaker} {st : Stage}

/-! ## 1. What is kept -/

/-- The `Terminate`s handled so far and the mailbox are as before (a panic empties it), and no
    process and no `Wait` is forgotten. -/
structure Kept (s s' : Caretaker) : Prop where
  terminates : s'.terminates = s.terminates
  mailbox : s'.mailbox = s.mailbox ∨ s'.mailbox = [] ∧ s'.crashed.isSome
  waits : s.waits.map WaitFut.req <+: s'.waits.map WaitFut.req
  procs : s.procs.length ≤ s'.procs.length

theorem Kept.refl (s : Caretaker) : Kept s s :=
  ⟨rfl, Or.inl rfl, List.prefix_rfl, Nat.le_refl _⟩

theorem Kept.drop (h : Kept s s') (panic : Panic) : Kept s (s'.drop panic) :=
  ⟨h.terminates, Or.inr ⟨rfl, rfl⟩, h.waits, h.procs⟩

/-- The futures of the `Wait`s are the same too, and a panic is not that of the broadcast. -/
structure Spared (s s' : Caretaker) : Prop where
  terminates : s'.terminates = s.terminates
  waits : s'.waits = s.waits
  outcome : (s'.mailbox = s.mailbox ∧ s'.crashed = s.crashed) ∨
    ∃ panic, panic ≠ .sendStopped ∧ s'.mailbox = [] ∧ s'.crashed = some panic
  procs : s.procs.length ≤ s'.procs.length

theorem Spared.kept (h : Spared s s') : Kept s s' where
  terminates := h.terminates
  mailbox := by
    rcases h.outcome with ⟨hm, -⟩ | ⟨panic, -, hm, hc⟩
    · exact Or.inl hm
    · exact Or.inr ⟨hm, by rw [hc]; rfl⟩
  waits := ⟨[], by rw [h.waits, List.append_nil]⟩
  procs := h.procs

/-- A `Wait` that was sent is in the mailbox, or has a future. -/
def Caretaker.holdsWait (s : Caretaker) (req : Nat) : Prop :=
  .wait req ∈ s.mailbox ∨ req ∈ s.waits.map WaitFut.req

theorem Kept.holdsWait (h : Kept s s') {req : Nat} (hreq : s.holdsWait req) :
    s'.holdsWait req ∨ s'.crashed.isSome := by
  rcases hreq with hmem | hmem
  · rcases h.mailbox with hbox | ⟨-, hcrash⟩
    · rw [← hbox] at hmem
      exact Or.inl (Or.inl hmem)
    · exact Or.inr hcrash
  · exact Or.inl (Or.inr (h.waits.subset hmem))

theorem wait_length (child : Child) (procs : List Proc) :
    (child.wait procs).2.length = procs.length := by
  unfold Child.wait
  split
  · rfl
  · exact List.length_set ..
  · rfl
  · rfl

theorem waitAbort_length {fut fut' : WaitAbortFut} {signalName : Nat → Option String}
    {signalled : Receiver → Bool} {procs procs' : List Proc} {r : Poll WaitAbortResult}
    (h : fut.poll signalName signalled procs = some (r, fut', procs')) :
    procs'.length = procs.length := by
  unfold WaitAbortFut.poll at h
  split at h
  · rename_i child stopRx unhealthyRx _ _ _
    have hlen := wait_length child procs
    split at h
    · cases h
      rfl
    · cases h
      rfl
    · split at h
      · rename_i hwait
        rw [hwait] at hlen
        cases h
        exact hlen
      · rename_i hwait
        rw [hwait] at hlen
        cases h
        exact hlen
  · cases h

theorem handleRun_spared (spawn : Except String Unit) (stopRx : Receiver) (req : Nat)
    (s : Caretaker) : Spared s (Caretaker.settle (s.handleRun S spawn stopRx req)) := by
  unfold Caretaker.handleRun
  cases spawn with
  | error source => exact ⟨rfl, rfl, Or.inl ⟨rfl, rfl⟩, Nat.le_refl _⟩
  | ok _ =>
      have hlen : s.procs.length ≤ (s.procs ++ [Proc.running]).length := by simp
      simp only [buildChild]
      split
      · exact ⟨rfl, rfl, Or.inr ⟨.healthUri, by simp, rfl, rfl⟩, hlen⟩
      · exact ⟨rfl, rfl, Or.inl ⟨rfl, rfl⟩, hlen⟩

theorem handleSetHealthState_spared (health : HealthState) (s : Caretaker) :
    Spared s (s.handleSetHealthState health) := by
  unfold Caretaker.handleSetHealthState
  split <;> exact ⟨rfl, rfl, Or.inl ⟨rfl, rfl⟩, Nat.le_refl _⟩

theorem StopPolled.spared {i req : Nat} {killing : Bool} {child : Child} {res : RunResult}
    {grace : Grace} (hp : StopPolled s i req killing child res grace s') : Spared s s' := by
  cases hp with
  | reaped _ => exact ⟨rfl, rfl, Or.inl ⟨rfl, rfl⟩, Nat.le_of_eq (List.length_set ..).symm⟩
  | waits _ _ => exact ⟨rfl, rfl, Or.inl ⟨rfl, rfl⟩, Nat.le_refl _⟩
  | kills _ _ _ => exact ⟨rfl, rfl, Or.inl ⟨rfl, rfl⟩, Nat.le_refl _⟩
  | refused _ _ _ => exact ⟨rfl, rfl, Or.inl ⟨rfl, rfl⟩, Nat.le_refl _⟩

/-- The closures behind a resolved `WaitAbortFut`. -/
theorem afterWaitAbort_spared (i req : Nat) (grace : Grace) (s : Caretaker)
    (res : WaitAbortResult) : Spared s (s.afterWaitAbort i req grace res) := by
  cases res with
  | exit stopRx => exact ⟨rfl, rfl, Or.inl ⟨rfl, rfl⟩, Nat.le_refl _⟩
  | exitWithError stopRx e => exact ⟨rfl, rfl, Or.inl ⟨rfl, rfl⟩, Nat.le_refl _⟩
  | stopSignalReceived child =>
      obtain ⟨ht, hw, ho, hp⟩ := (stop_polled i req false child .terminated grace
        { s with status := .terminating, signals := s.signals ++ [(child.pid, .sigterm)] }).spared
      exact ⟨ht, hw, ho, hp⟩
  | unhealthySignalReceived stopRx child =>
      obtain ⟨ht, hw, ho, hp⟩ := (stop_polled i req false child (.unhealthy stopRx) grace
        { s with status := .terminating, signals := s.signals ++ [(child.pid, .sigterm)] }).spared
      exact ⟨ht, hw, ho, hp⟩

theorem pollRun_spared (i : Nat) (grace : Grace) (item : RunItem) (s : Caretaker) :
    Spared s (Caretaker.settle (s.pollRun S i grace item)) := by
  unfold Caretaker.pollRun
  split
  · split
    · exact ⟨rfl, rfl, Or.inr ⟨.handleTaken, by simp, rfl, rfl⟩, Nat.le_refl _⟩
    · rename_i hpoll
      exact ⟨rfl, rfl, Or.inl ⟨rfl, rfl⟩, Nat.le_of_eq (waitAbort_length hpoll).symm⟩
    · rename_i healthAddr _ _ res _ procs hpoll
      obtain ⟨ht, hw, ho, hp⟩ := afterWaitAbort_spared i item.req grace
        (Caretaker.stopHealth healthAddr { s with procs := procs }) res
      exact ⟨ht, hw, ho, Nat.le_trans (Nat.le_of_eq (waitAbort_length hpoll).symm) hp⟩
  · exact ⟨rfl, rfl, Or.inl ⟨rfl, rfl⟩, Nat.le_refl _⟩
  · exact (stop_polled ..).spared

theorem broadcastStopped_kept (s : Caretaker) :
    Kept s (Caretaker.settle s.broadcastStopped) := by
  cases htx : s.stoppedTx with
  | none =>
      simp only [Caretaker.broadcastStopped, htx]
      exact ⟨rfl, Or.inr ⟨rfl, rfl⟩, List.prefix_rfl, Nat.le_refl _⟩
  | some _ =>
      simp only [Caretaker.broadcastStopped, htx]
      split
      · refine ⟨rfl, Or.inl rfl, ?_, Nat.le_refl _⟩
        show _ <+: (s.waits.map _).map _
        rw [List.map_map]
        exact List.prefix_rfl
      · exact ⟨rfl, Or.inr ⟨rfl, rfl⟩, List.prefix_rfl, Nat.le_refl _⟩

/-- One poll of a round changes nothing but the replies and the log. -/
theorem pollRound_same {req req' : Nat} {r : Poll (Option Receiver)}
    (h : s.pollRound S req = (r, req', s')) :
    ∃ replies log, s' = { s with replies := replies, log := log } := by
  unfold Caretaker.pollRound at h
  split at h
  · obtain ⟨-, -, rfl⟩ := h
    exact ⟨s.replies, s.log, rfl⟩
  · obtain ⟨-, -, rfl⟩ := h
    exact ⟨_, _, rfl⟩

/-- A poll of the daemon may add the next `Run`. -/
theorem pollDaemon_kept (clock : Clock) (fut : RepeatedActFut Nat Receiver) (s : Caretaker) :
    Kept s (Caretaker.settle (s.pollDaemon S clock fut)) ∨
      ∃ stopRx req, Kept { s with mailbox := s.mailbox ++ [.run stopRx req] }
        (Caretaker.settle (s.pollDaemon S clock fut)) := by
  unfold Caretaker.pollDaemon
  split
  · exact Or.inl ((Kept.refl s).drop _)
  · cases hp : fut.poll Caretaker.sendRun (Caretaker.pollRound S) clock s with
    | none => exact Or.inl ((Kept.refl s).drop _)
    | some polled =>
        obtain ⟨r, fut₁, s₁⟩ := polled
        -- all but the factory keep the mailbox, and the factory is called in a pending poll
        cases RepeatedActFut.polled hp with
        | busy _ hpf =>
            obtain ⟨replies, log, rfl⟩ := pollRound_same hpf
            exact Or.inl ⟨rfl, Or.inl rfl, List.prefix_rfl, Nat.le_refl _⟩
        | again _ hpf _ =>
            obtain ⟨replies, log, rfl⟩ := pollRound_same hpf
            exact Or.inl ⟨rfl, Or.inl rfl, List.prefix_rfl, Nat.le_refl _⟩
        | giveUp _ hpf _ =>
            obtain ⟨replies, log, rfl⟩ := pollRound_same hpf
            obtain ⟨ht, hm, hw, hp⟩ := broadcastStopped_kept { s with
              replies := replies
              status := .failed
              daemon := .ended false
              log := log ++ [⟨.error, S.name, "Retry limits exceeded, giving up"⟩] }
            exact Or.inl ⟨ht, hm, hw, hp⟩
        | stopped _ hpf =>
            obtain ⟨replies, log, rfl⟩ := pollRound_same hpf
            obtain ⟨ht, hm, hw, hp⟩ := broadcastStopped_kept { s with
              replies := replies
              daemon := .ended true
              log := log }
            exact Or.inl ⟨ht, hm, hw, hp⟩
        | asleep _ _ => exact Or.inl ⟨rfl, Or.inl rfl, List.prefix_rfl, Nat.le_refl _⟩
        | woken _ _ => exact Or.inl ⟨rfl, Or.inl rfl, List.prefix_rfl, Nat.le_refl _⟩
        | create _ _ => exact Or.inr ⟨_, _, rfl, Or.inl rfl, List.prefix_rfl, Nat.le_refl _⟩

/-! ## 2. Every step -/

/-- What is left of the mailbox when the event has taken its message. -/
def Event.rest : Event → List Msg → List Msg
  | .handle _, mailbox => mailbox.tail
  | _, mailbox => mailbox

/-- **What a step does to the mailbox, to the `Terminate`s and to the processes**: it takes at most
    the oldest message, adds at the end (or panics), and adds a report only if one arrives; it
    keeps a `Terminate` or a `Wait` it handles; no process is forgotten. -/
structure Framed (s s' : Caretaker) (e : Event) : Prop where
  mailbox : s'.mailbox = [] ∧ s'.crashed.isSome ∨ ∃ new, s'.mailbox = e.rest s.mailbox ++ new ∧
    ∀ r ∈ new.filterMap Msg.asReport, e = .arrive (.setHealthState r.1 r.2)
  terminates : s'.terminates.length = s.terminates.length + if AsksToStop s e then 1 else 0
  waits : ∀ req, s.holdsWait req → s'.holdsWait req ∨ s'.crashed.isSome
  procs : s.procs.length ≤ s'.procs.length

/-- The mailbox is kept, or emptied, and no `Terminate` is handled. -/
theorem Kept.framed {s₀ : Caretaker} {e : Event} (h : Kept s₀ s')
    (hm : s₀.mailbox = e.rest s.mailbox) (ht : s₀.terminates = s.terminates)
    (hw : ∀ req, s.holdsWait req → s₀.holdsWait req ∨ s'.holdsWait req)
    (hp : s₀.procs = s.procs) (ha : ¬ AsksToStop s e) : Framed s s' e where
  mailbox := by
    rcases h.mailbox with hbox | hbox
    · exact Or.inr ⟨[], by rw [hbox, hm, List.append_nil], fun _ hr => absurd hr List.not_mem_nil⟩
    · exact Or.inl hbox
  terminates := by rw [if_neg ha, h.terminates, ht]; rfl
  waits := fun req hreq => (hw req hreq).elim h.holdsWait Or.inl
  procs := by rw [← hp]; exact h.procs

/-- A message that is no report joins the mailbox. -/
theorem framed_send {e : Event} {m : Msg} (hm : s'.mailbox = e.rest s.mailbox ++ [m])
    (hr : ∀ r, m.asReport = some r → e = .arrive (.setHealthState r.1 r.2))
    (ht : s'.terminates = s.terminates) (hw : s'.waits = s.waits) (hp : s'.procs = s.procs)
    (hrest : e.rest s.mailbox = s.mailbox) (ha : ¬ AsksToStop s e) : Framed s s' e where
  mailbox := by
    refine Or.inr ⟨[m], hm, fun r hmem => ?_⟩
    obtain ⟨m', hm', hr'⟩ := List.mem_filterMap.mp hmem
    rw [List.mem_singleton.mp hm'] at hr'
    exact hr r hr'
  terminates := by rw [if_neg ha, ht]; rfl
  waits := fun req hreq => by
    refine Or.inl (hreq.imp (fun hmem => ?_) fun hmem => ?_)
    · rw [hm, hrest]
      exact List.mem_append_left _ hmem
    · rw [hw]
      exact hmem
  procs := Nat.le_of_eq (by rw [hp])

/-- Neither the mailbox nor the `Terminate`s are touched, and no message is handled. -/
theorem framed_same {e : Event} (hm : s'.mailbox = s.mailbox)
    (ht : s'.terminates.length = s.terminates.length)
    (hw : s'.waits.map WaitFut.req = s.waits.map WaitFut.req)
    (hp : s.procs.length ≤ s'.procs.length)
    (hrest : e.rest s.mailbox = s.mailbox) (hasks : s.handles (· == .terminate) e = false) :
    Framed s s' e where
  mailbox := Or.inr ⟨[], by rw [hm, hrest, List.append_nil], fun _ hr => absurd hr List.not_mem_nil⟩
  terminates := by rw [if_neg (by rw [AsksToStop, hasks]; simp), ht]; rfl
  waits := fun req hreq => by
    refine Or.inl (hreq.imp (fun hmem => ?_) fun hmem => ?_)
    · rw [hm]
      exact hmem
    · rw [hw]
      exact hmem
  procs := hp

theorem frame_arrive {m : Incoming} (hs : s.arrive m = some s') :
    Framed s s' (.arrive m) := by
  obtain ⟨⟨n, rfl⟩, -⟩ := Caretaker.arrived hs
  refine framed_send (m := m.msg s.nextReq) rfl (fun r hr => ?_) rfl rfl rfl rfl
    (by simp [AsksToStop, Caretaker.handles])
  cases m with
  | setHealthState sender health => rw [← Option.some.inj hr]
  | _ => cases hr

theorem frame_handle (h : Shape S s st) {m : Msg} {rest : List Msg} (hm : s.mailbox = m :: rest)
    (spawn : Except String Unit) :
    Framed s (Caretaker.settle (Caretaker.handle S spawn { s with mailbox := rest } m))
      (.handle spawn) := by
  have hrest : rest = Event.rest (.handle spawn) s.mailbox := by
    show rest = s.mailbox.tail
    rw [hm]
    rfl
  have hasks : AsksToStop s (.handle spawn) ↔ m = .terminate := by
    simp [AsksToStop, Caretaker.handles, hm]
  -- a `Wait` that is not handled stays where it is
  have hleft : (∀ req, m ≠ .wait req) → ∀ req, s.holdsWait req →
      Caretaker.holdsWait { s with mailbox := rest } req := by
    intro hm' req hreq
    refine hreq.imp_left fun hmem => ?_
    rw [hm] at hmem
    rcases List.mem_cons.mp hmem with heq | hmem
    · exact absurd heq.symm (hm' req)
    · exact hmem
  cases m with
  | run stopRx req =>
      exact (handleRun_spared spawn stopRx req { s with mailbox := rest }).kept.framed hrest rfl
        (fun req hreq => Or.inl (hleft (by simp) req hreq)) rfl (by rw [hasks]; simp)
  | wait req =>
      have hkept : Kept { s with mailbox := rest }
          (Caretaker.handleWait req { s with mailbox := rest }) := by
        unfold Caretaker.handleWait
        split <;> exact ⟨rfl, Or.inl rfl, by simp, Nat.le_refl _⟩
      have hnew : req ∈ (Caretaker.handleWait req { s with mailbox := rest }).waits.map
          WaitFut.req := by
        unfold Caretaker.handleWait
        split <;> simp
      refine hkept.framed hrest rfl (fun req' hreq => ?_) rfl (by rw [hasks]; simp)
      rcases hreq with hmem | hmem
      · rw [hm] at hmem
        rcases List.mem_cons.mp hmem with heq | hmem
        · cases heq
          exact Or.inr (Or.inr hnew)
        · exact Or.inl (Or.inl hmem)
      · exact Or.inl (Or.inr hmem)
  | terminate =>
      simp only [Caretaker.handle, (h.handled_terminate (h.alive hm) hm).1, Caretaker.settle]
      exact {
        mailbox := Or.inr ⟨[.wait s.nextReq], by rw [← hrest]; rfl,
          fun _ hr => absurd hr List.not_mem_nil⟩
        terminates := by
          rw [if_pos (hasks.mpr rfl)]
          exact List.length_append ..
        waits := fun req hreq =>
          Or.inl ((hleft (by simp) req hreq).imp_left (List.mem_append_left _))
        procs := Nat.le_refl _ }
  | setHealthState sender health =>
      have hkept := (handleSetHealthState_spared health { s with mailbox := rest }).kept
      exact hkept.framed hrest rfl (fun req hreq => Or.inl (hleft (by simp) req hreq)) rfl
        (by rw [hasks]; simp)
  | getStatus =>
      have hkept : Kept { s with mailbox := rest }
          (Caretaker.handleGetStatus { s with mailbox := rest }) :=
        ⟨rfl, Or.inl rfl, List.prefix_rfl, Nat.le_refl _⟩
      exact hkept.framed hrest rfl (fun req hreq => Or.inl (hleft (by simp) req hreq)) rfl
        (by rw [hasks]; simp)

/-- **Every step is framed.** -/
theorem frame_step (h : Shape S s st) {e : Event} (hs : s.step S e = some s') :
    Framed s s' e := by
  cases Caretaker.stepped hs with
  | arrive _ hs => exact frame_arrive hs
  | handle hm spawn => exact frame_handle h hm spawn
  | startDaemon _ => exact framed_same rfl rfl rfl (Nat.le_refl _) rfl rfl
  | @pollDaemon fut _ clock =>
      rcases pollDaemon_kept (S := S) clock fut s with hkept | ⟨stopRx, req, hkept⟩
      · exact hkept.framed rfl rfl (fun _ => Or.inl) rfl
          (by simp [AsksToStop, Caretaker.handles])
      · refine ⟨?_, ?_, fun req hreq => hkept.holdsWait (hreq.imp_left
          (List.mem_append_left _)), hkept.procs⟩
        · rcases hkept.mailbox with hbox | hbox
          · exact Or.inr ⟨[.run stopRx req], hbox, fun _ hr => absurd hr List.not_mem_nil⟩
          · exact Or.inl hbox
        · exact congrArg List.length hkept.terminates
  | @pollRun i item _ grace =>
      exact (pollRun_spared i grace item s).kept.framed rfl rfl (fun _ => Or.inl) rfl
        (by simp [AsksToStop, Caretaker.handles])
  | @pollWait i fut hfut _ =>
      refine framed_same rfl rfl ?_ (Nat.le_refl _) rfl rfl
      have hreq : (s.waits.map WaitFut.req)[i]? = some fut.req := by
        rw [List.getElem?_map, hfut]
        rfl
      obtain ⟨hlt, hget⟩ := List.getElem?_eq_some_iff.mp hreq
      show (s.waits.set i _).map WaitFut.req = _
      rw [List.map_set, ← hget, List.set_getElem_self]
  | pollTerminate _ _ => exact framed_same rfl (List.length_set ..) rfl (Nat.le_refl _) rfl rfl
  | exit _ status =>
      exact framed_same rfl rfl rfl (Nat.le_of_eq (List.length_set ..).symm) rfl rfl
  | reap _ => exact framed_same rfl rfl rfl (Nat.le_of_eq (List.length_set ..).symm) rfl rfl
  | unhealthy _ => exact framed_same rfl rfl rfl (Nat.le_refl _) rfl rfl

/-- **The caretaker knows every `Terminate` it has handled.** -/
theorem terminates_run {h : List (Caretaker × Event)} {s : Caretaker}
    (hr : Lts.Run (Caretaker.step S) .init h s) :
    s.terminates.length = h.countP fun x => AsksToStop x.1 x.2 := by
  refine hr.counts (f := fun s => s.terminates.length) (c := fun s e => AsksToStop s e) rfl
    fun s e s' hreach hs => ?_
  obtain ⟨st, hshape⟩ := shape_reach hreach
  rw [(frame_step hshape hs).terminates]
  simp

theorem asked_iff {h : List (Caretaker × Event)} {s : Caretaker}
    (hr : Lts.Run (Caretaker.step S) .init h s) :
    s.terminates ≠ [] ↔ ∃ x ∈ h, AsksToStop x.1 x.2 := by
  rw [← List.length_pos_iff, terminates_run hr, List.countP_pos_iff]
  simp only [decide_eq_true_eq]

end Blahaj
