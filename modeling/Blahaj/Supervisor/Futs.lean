/-
  File:      Blahaj/Supervisor/Futs.lean
  Subject:   The two hand-written futures of supervisor/futs.rs, one poll at a time.

  * `RepeatedActFut.poll` -- the slot machine that drives the rounds of a daemon: poll the
    round's future, mark its end, sleep, empty the slot, create the next one;
  * `WaitAbortFut.poll` -- the race between the stop signal, the unhealthy signal and the exit
    of the child, each handle taken out of its slot and put back.

  `none` is a panic: an `expect` or `unwrap` that fails, or a clock that underflows. Each poll
  has one inversion (`RepeatedActFut.Polled`, `WaitAbortFut.Polled`): everything the poll can
  do, with the guard under which it does it. The proofs about daemons use these and never the
  bodies.
-/
import Blahaj.Base
import Blahaj.Supervisor.Retry

namespace Blahaj

/-! ## 1. RepeatedActFut -/

/-- `tokio::time::Sleep`. -/
structure Sleep where
  deadline : Instant
  deriving DecidableEq, Repr

/-- What one poll reads from the clock and the timer: `Instant::now()` in `RetryGuard::mark`,
    the clock once more where `tokio::time::sleep` computes its deadline, and whether the sleep
    in the slot has elapsed. -/
structure Clock where
  now : Instant
  later : Instant
  elapsed : Bool
  deriving DecidableEq, Repr

/-- `FutureSlot`. -/
inductive FutureSlot (Fut : Type) where
  | polling (fut : Fut)
  | waiting (sleep : Sleep)
  | empty
  deriving DecidableEq, Repr

/-- `RepeatedActFut`, without its factory. -/
structure RepeatedActFut (Fut I : Type) where
  fut : FutureSlot Fut
  state : Option I
  retryGuard : RetryGuard
  retryInterval : Duration
  deriving DecidableEq, Repr

variable {Fut I A : Type}

/-- `RepeatedActFut::new`. -/
def RepeatedActFut.new (initialState : I) (retryGuard : RetryGuard) (retryInterval : Duration) :
    RepeatedActFut Fut I :=
  { fut := .empty, state := some initialState, retryGuard, retryInterval }

/-- `RepeatedActFut::poll`. The factory and the round's future act on the actor `srv`. -/
def RepeatedActFut.poll (factory : I → A → Fut × A)
    (pollFut : Fut → A → Poll (Option I) × Fut × A) (clock : Clock)
    (self : RepeatedActFut Fut I) (srv : A) : Option (Poll Bool × RepeatedActFut Fut I × A) :=
  match self.fut with
  | .polling fut =>
    match pollFut fut srv with
    | (.pending, fut, srv) => some (.pending, { self with fut := .polling fut }, srv)
    | (.ready (some res), fut, srv) =>
      -- the round ended and is to be repeated: the process exited
      match self.retryGuard.mark clock.now with
      | none => none
      | some (true, guard) =>
        some (.pending, { self with
          fut := .waiting ⟨clock.later + self.retryInterval⟩
          state := some res
          retryGuard := guard }, srv)
      | some (false, guard) =>
        -- retry limit exceeded; the result, and what it holds, is dropped
        some (.ready false, { self with fut := .polling fut, retryGuard := guard }, srv)
    | (.ready none, fut, srv) =>
      -- the round ended due to the termination signal
      some (.ready true, { self with fut := .polling fut }, srv)
  | .waiting _ =>
    if clock.elapsed then some (.pending, { self with fut := .empty }, srv)
    else some (.pending, self, srv)
  | .empty =>
    match self.state with
    | none => none
    | some state =>
      let (fut, srv) := factory state srv
      some (.pending, { self with fut := .polling fut, state := none }, srv)

/-- **Everything one poll does**, with the guard under which it does it. -/
inductive RepeatedActFut.Polled (factory : I → A → Fut × A)
    (pollFut : Fut → A → Poll (Option I) × Fut × A) (clock : Clock) (g : RepeatedActFut Fut I)
    (srv : A) : Poll Bool → RepeatedActFut Fut I → A → Prop where
  | busy {fut fut' srv'} (hslot : g.fut = .polling fut)
      (hp : pollFut fut srv = (.pending, fut', srv')) :
      Polled factory pollFut clock g srv .pending { g with fut := .polling fut' } srv'
  | again {fut fut' srv' res guard} (hslot : g.fut = .polling fut)
      (hp : pollFut fut srv = (.ready (some res), fut', srv'))
      (hm : g.retryGuard.mark clock.now = some (true, guard)) :
      Polled factory pollFut clock g srv .pending
        ⟨.waiting ⟨clock.later + g.retryInterval⟩, some res, guard, g.retryInterval⟩ srv'
  | giveUp {fut fut' srv' res guard} (hslot : g.fut = .polling fut)
      (hp : pollFut fut srv = (.ready (some res), fut', srv'))
      (hm : g.retryGuard.mark clock.now = some (false, guard)) :
      Polled factory pollFut clock g srv (.ready false)
        { g with fut := .polling fut', retryGuard := guard } srv'
  | stopped {fut fut' srv'} (hslot : g.fut = .polling fut)
      (hp : pollFut fut srv = (.ready none, fut', srv')) :
      Polled factory pollFut clock g srv (.ready true) { g with fut := .polling fut' } srv'
  | asleep {sleep} (hslot : g.fut = .waiting sleep) (he : clock.elapsed = false) :
      Polled factory pollFut clock g srv .pending g srv
  | woken {sleep} (hslot : g.fut = .waiting sleep) (he : clock.elapsed = true) :
      Polled factory pollFut clock g srv .pending { g with fut := .empty } srv
  | create {state} (hslot : g.fut = .empty) (hstate : g.state = some state) :
      Polled factory pollFut clock g srv .pending
        { g with fut := .polling (factory state srv).1, state := none } (factory state srv).2

theorem RepeatedActFut.polled {factory : I → A → Fut × A}
    {pollFut : Fut → A → Poll (Option I) × Fut × A} {clock : Clock} {g g' : RepeatedActFut Fut I}
    {srv srv' : A} {r : Poll Bool} (h : g.poll factory pollFut clock srv = some (r, g', srv')) :
    Polled factory pollFut clock g srv r g' srv' := by
  unfold RepeatedActFut.poll at h
  cases hslot : g.fut with
  | polling fut =>
      simp only [hslot] at h
      rcases hp : pollFut fut srv with ⟨_ | _, fut₁, srv₁⟩
      case pending =>
        simp only [hp, Option.some.injEq, Prod.mk.injEq] at h
        obtain ⟨rfl, rfl, rfl⟩ := h
        exact .busy hslot hp
      case ready res =>
        cases res with
        | none =>
            simp only [hp, Option.some.injEq, Prod.mk.injEq] at h
            obtain ⟨rfl, rfl, rfl⟩ := h
            exact .stopped hslot hp
        | some res =>
            simp only [hp] at h
            rcases hm : g.retryGuard.mark clock.now with _ | ⟨_ | _, guard⟩
            · simp [hm] at h
            · simp only [hm, Option.some.injEq, Prod.mk.injEq] at h
              obtain ⟨rfl, rfl, rfl⟩ := h
              exact .giveUp hslot hp hm
            · simp only [hm, Option.some.injEq, Prod.mk.injEq] at h
              obtain ⟨rfl, rfl, rfl⟩ := h
              exact .again hslot hp hm
  | waiting sleep =>
      simp only [hslot] at h
      cases he : clock.elapsed with
      | false =>
          simp only [he, Bool.false_eq_true, ↓reduceIte, Option.some.injEq, Prod.mk.injEq] at h
          obtain ⟨rfl, rfl, rfl⟩ := h
          exact .asleep hslot he
      | true =>
          simp only [he, ↓reduceIte, Option.some.injEq, Prod.mk.injEq] at h
          obtain ⟨rfl, rfl, rfl⟩ := h
          exact .woken hslot he
  | empty =>
      simp only [hslot] at h
      cases hstate : g.state with
      | none => simp [hstate] at h
      | some state =>
          simp only [hstate, Option.some.injEq, Prod.mk.injEq] at h
          obtain ⟨rfl, rfl, rfl⟩ := h
          exact .create hslot hstate

/-- **A poll panics only** on an empty slot without a state, or where the clock underflows. -/
theorem RepeatedActFut.poll_panics {factory : I → A → Fut × A}
    {pollFut : Fut → A → Poll (Option I) × Fut × A} {clock : Clock} {g : RepeatedActFut Fut I}
    {srv : A} (h : g.poll factory pollFut clock srv = none) :
    (g.fut = .empty ∧ g.state = none) ∨
      ∃ fut fut' res srv', g.fut = .polling fut ∧
        pollFut fut srv = (.ready (some res), fut', srv') ∧
        g.retryGuard.mark clock.now = none := by
  unfold RepeatedActFut.poll at h
  cases hslot : g.fut with
  | polling fut =>
      simp only [hslot] at h
      rcases hp : pollFut fut srv with ⟨_ | _, fut₁, srv₁⟩
      case pending => simp [hp] at h
      case ready res =>
        cases res with
        | none => simp [hp] at h
        | some res =>
            refine Or.inr ⟨fut, fut₁, res, srv₁, rfl, hp, ?_⟩
            simp only [hp] at h
            rcases hm : g.retryGuard.mark clock.now with _ | ⟨_ | _, guard⟩
            · rfl
            · simp [hm] at h
            · simp [hm] at h
  | waiting sleep =>
      simp only [hslot] at h
      cases he : clock.elapsed <;> simp [he] at h
  | empty =>
      simp only [hslot] at h
      cases hstate : g.state with
      | none => exact Or.inl ⟨rfl, rfl⟩
      | some state => simp [hstate] at h

/-! ## 2. WaitAbortFut -/

/-- `WaitAbortFut`. -/
structure WaitAbortFut where
  child : Option Child
  stopRx : Option Receiver
  unhealthyRx : Option Receiver
  deriving DecidableEq, Repr

/-- `WaitAbortFut::new`. -/
def WaitAbortFut.new (child : Child) (stopRx unhealthyRx : Receiver) : WaitAbortFut :=
  ⟨some child, some stopRx, some unhealthyRx⟩

/-- `WaitAbortResult`. -/
inductive WaitAbortResult where
  | unhealthySignalReceived (stopRx : Receiver) (child : Child)
  | stopSignalReceived (child : Child)
  | exit (stopRx : Receiver)
  | exitWithError (stopRx : Receiver) (e : SupervisorError)
  deriving DecidableEq, Repr

/-- The error of a wait status that is not a success. `signalName` is the table of signal
    names of the signal-hook crate. -/
def exitError (signalName : Nat → Option String) (status : ExitStatus) : SupervisorError :=
  match h : status.code with
  | some exitCode => .nonZeroExit exitCode
  | none => .exitBySignal ((signalName (status.signal.get (status.signaled h))).getD "UNKNOWN")

/-- What a resolved wait makes of the stop receiver. -/
def ofWait (signalName : Nat → Option String) (stopRx : Receiver) :
    Except Unit ExitStatus → WaitAbortResult
  | .ok status =>
    if status.success then .exit stopRx else .exitWithError stopRx (exitError signalName status)
  | .error _ => .exitWithError stopRx .alreadyDied

/-- `WaitAbortFut::poll`. All three handles are taken; both signals are looked at before the
    child, and only a poll that stays pending puts the handles back. -/
def WaitAbortFut.poll (signalName : Nat → Option String) (signalled : Receiver → Bool)
    (self : WaitAbortFut) (procs : List Proc) :
    Option (Poll WaitAbortResult × WaitAbortFut × List Proc) :=
  match self.child, self.stopRx, self.unhealthyRx with
  | some child, some stopRx, some unhealthyRx =>
    let taken : WaitAbortFut := ⟨none, none, none⟩
    match signalled stopRx, signalled unhealthyRx with
    | true, _ => some (.ready (.stopSignalReceived child), taken, procs)
    | _, true => some (.ready (.unhealthySignalReceived stopRx child), taken, procs)
    | false, false =>
      match child.wait procs with
      | (.ready res, procs) => some (.ready (ofWait signalName stopRx res), taken, procs)
      | (.pending, procs) => some (.pending, ⟨some child, some stopRx, some unhealthyRx⟩, procs)
  | _, _, _ => none

/-- **Everything a poll of a `WaitAbortFut` with its handles in place does.** -/
inductive WaitAbortFut.Polled (signalName : Nat → Option String) (signalled : Receiver → Bool)
    (child : Child) (stopRx unhealthyRx : Receiver) (procs : List Proc) :
    Poll WaitAbortResult → WaitAbortFut → List Proc → Prop where
  | stop (hs : signalled stopRx = true) :
      Polled signalName signalled child stopRx unhealthyRx procs
        (.ready (.stopSignalReceived child)) ⟨none, none, none⟩ procs
  | unhealthy (hs : signalled stopRx = false) (hu : signalled unhealthyRx = true) :
      Polled signalName signalled child stopRx unhealthyRx procs
        (.ready (.unhealthySignalReceived stopRx child)) ⟨none, none, none⟩ procs
  | exited {res} (hs : signalled stopRx = false) (hu : signalled unhealthyRx = false)
      (hw : child.wait procs = (.ready res, procs.set child.pid .reaped)) :
      Polled signalName signalled child stopRx unhealthyRx procs
        (.ready (ofWait signalName stopRx res)) ⟨none, none, none⟩
        (procs.set child.pid .reaped)
  | pending (hs : signalled stopRx = false) (hu : signalled unhealthyRx = false)
      (hw : child.wait procs = (.pending, procs)) :
      Polled signalName signalled child stopRx unhealthyRx procs .pending
        ⟨some child, some stopRx, some unhealthyRx⟩ procs

/-- With its handles in place a poll does not panic, and does what `Polled` lists. -/
theorem WaitAbortFut.polled (signalName : Nat → Option String) (signalled : Receiver → Bool)
    (child : Child) (stopRx unhealthyRx : Receiver) (procs : List Proc) :
    ∃ r fut' procs', (WaitAbortFut.new child stopRx unhealthyRx).poll signalName signalled procs =
        some (r, fut', procs') ∧
      Polled signalName signalled child stopRx unhealthyRx procs r fut' procs' := by
  unfold WaitAbortFut.poll WaitAbortFut.new
  cases hs : signalled stopRx with
  | true => exact ⟨_, _, _, by simp [hs], .stop hs⟩
  | false =>
      cases hu : signalled unhealthyRx with
      | true => exact ⟨_, _, _, by simp [hs, hu], .unhealthy hs hu⟩
      | false =>
          rcases hw : child.wait procs with ⟨r | _, procs'⟩
          · obtain rfl := Child.wait_ready hw
            exact ⟨_, _, _, by simp [hs, hu, hw], .exited hs hu hw⟩
          · obtain rfl := Child.wait_pending hw
            exact ⟨_, _, _, by simp [hs, hu, hw], .pending hs hu hw⟩

end Blahaj
