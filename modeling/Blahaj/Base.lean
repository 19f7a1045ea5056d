/-
  File:      Blahaj/Base.lean
  Subject:   The data of config.rs and error.rs, and the library types the modules share.

  A string is a `List Char` where the code computes with it (paths, headers); a text that is
  only ever shown is a `String`. Times are nanoseconds. Programs keep the fields a modelled
  function reads.
-/

namespace Blahaj

/-! ## 1. Library types -/

/-- A string the code computes with. -/
abbrev Str := List Char

/-- `std::time::Duration`, in nanoseconds. -/
abbrev Duration := Nat

/-- `std::time::Instant`, in nanoseconds. -/
abbrev Instant := Nat

/-- `std::task::Poll`. -/
inductive Poll (α : Type) where
  | ready (a : α)
  | pending
  deriving DecidableEq, Repr

/-- The oneshot channels of a caretaker: its stop signal, and one unhealthy signal for each
    child, numbered in the order the children are spawned. -/
inductive Chan where
  | stop
  | unhealthy (run : Nat)
  deriving DecidableEq, Repr

/-- `oneshot::Receiver<()>`: whoever holds it owns the receiving end of the channel. -/
structure Receiver where
  chan : Chan
  deriving DecidableEq, Repr

/-- `oneshot::Sender<()>`. -/
structure Sender where
  chan : Chan
  deriving DecidableEq, Repr

/-! ## 2. Errors -/

/-- `SupervisorError`. -/
inductive SupervisorError where
  | command
  | spawn (source : String)
  | alreadyDied
  | nonZeroExit (code : Int)
  | exitBySignal (signal : String)
  deriving DecidableEq, Repr

/-- The error texts. -/
def SupervisorError.display : SupervisorError → String
  | .command => "Invalid command Line"
  | .spawn source => "Unable to spawn child - " ++ source
  | .alreadyDied => "Child exited too quickly"
  | .nonZeroExit code => "Child exited with non-zero exit code - " ++ toString code
  | .exitBySignal signal => "Child terminated by signal - " ++ signal

/-! ## 3. Configuration -/

/-- `Retry`. -/
structure Retry where
  window : Duration
  count : Nat
  delay : Duration
  deriving DecidableEq, Repr

/-- `HealthCheck`. -/
structure HealthCheck where
  path : Str
  interval : Duration
  grace : Duration
  deriving DecidableEq, Repr

/-- `HttpRelay`. -/
structure HttpRelay where
  port : UInt16
  path : Str
  https : Bool
  stripPath : Bool
  healthCheck : Option HealthCheck
  deriving DecidableEq, Repr

/-- `std::net::SocketAddr`, its address as it is shown. -/
structure SocketAddr where
  ip : Str
  port : UInt16
  deriving DecidableEq, Repr

/-- `Program`: the fields a caretaker decides by. What it runs (`command`, `env`) is for the
    operating system, whose answer to a spawn is an input of the model. -/
structure Program where
  http : Option HttpRelay
  retry : Retry
  deriving DecidableEq, Repr

/-! ## 4. Child processes -/

/-- `tokio::process::Child`: the handle of the process with this number. -/
structure Child where
  pid : Nat
  deriving DecidableEq, Repr

/-- A wait status. On unix one without an exit code has a signal. -/
structure ExitStatus where
  code : Option Int
  signal : Option Nat
  signaled : code = none → signal.isSome

/-- An exit with this code. -/
def ExitStatus.exited (code : Int) : ExitStatus := ⟨some code, none, nofun⟩

/-- A death by this signal. -/
def ExitStatus.killed (signal : Nat) : ExitStatus := ⟨none, some signal, fun _ => rfl⟩

/-- `ExitStatus::success`. -/
def ExitStatus.success (st : ExitStatus) : Bool := st.code == some 0

/-- What the operating system holds of a spawned process: it runs, it has exited and waits to be
    reaped, or it is reaped (by its caretaker or by somebody else). -/
inductive Proc where
  | running
  | exited (status : ExitStatus)
  | reaped

def Proc.unreaped : Proc → Bool
  | .reaped => false
  | _ => true

/-- The process with this number is not reaped. -/
def Unreaped (procs : List Proc) (pid : Nat) : Prop :=
  ∃ p, procs[pid]? = some p ∧ p.unreaped = true

theorem getElem?_snoc {α : Type} {l : List α} {a b : α} {i : Nat} (h : (l ++ [a])[i]? = some b) :
    l[i]? = some b ∨ (i = l.length ∧ b = a) := by
  rw [List.getElem?_append] at h
  split at h
  · exact Or.inl h
  · rw [List.getElem?_singleton] at h
    split at h
    · exact Or.inr ⟨by omega, (Option.some.inj h).symm⟩
    · cases h

theorem unreaped_snoc {procs : List Proc} {p : Proc} {pid : Nat}
    (h : Unreaped (procs ++ [p]) pid) : Unreaped procs pid ∨ pid = procs.length := by
  obtain ⟨q, hget, hun⟩ := h
  rcases getElem?_snoc hget with hget | ⟨hpid, -⟩
  · exact Or.inl ⟨q, hget, hun⟩
  · exact Or.inr hpid

/-- A process that is reaped is not unreaped, and the others are what they were. -/
theorem unreaped_set_reaped {procs : List Proc} {pid pid' : Nat}
    (h : Unreaped (procs.set pid .reaped) pid') : Unreaped procs pid' ∧ pid' ≠ pid := by
  obtain ⟨q, hget, hun⟩ := h
  rw [List.getElem?_set] at hget
  split at hget
  · split at hget
    · cases hget
      cases hun
    · cases hget
  · exact ⟨⟨q, hget, hun⟩, fun heq => by omega⟩

/-- A process that changes while it is not reaped was not reaped before. -/
theorem unreaped_set {procs : List Proc} {pid pid' : Nat} {p q : Proc}
    (hp : procs[pid]? = some p) (hun : p.unreaped = true) (h : Unreaped (procs.set pid q) pid') :
    Unreaped procs pid' := by
  by_cases heq : pid' = pid
  · exact ⟨p, by rw [heq]; exact hp, hun⟩
  · obtain ⟨r, hget, hun'⟩ := h
    rw [List.getElem?_set_ne (Ne.symm heq)] at hget
    exact ⟨r, hget, hun'⟩

/-- One poll of `child.wait()`: a process that has exited is reaped, one that is already gone
    answers an error. -/
def Child.wait (child : Child) (procs : List Proc) : Poll (Except Unit ExitStatus) × List Proc :=
  match procs[child.pid]? with
  | some .running => (.pending, procs)
  | some (.exited status) => (.ready (.ok status), procs.set child.pid .reaped)
  | some .reaped | none => (.ready (.error ()), procs)

/-- A poll of `wait` that stays pending changes nothing. -/
theorem Child.wait_pending {child : Child} {procs procs' : List Proc}
    (h : child.wait procs = (.pending, procs')) : procs' = procs := by
  unfold Child.wait at h
  split at h <;> simp_all

/-- **A resolved `wait` leaves its child reaped**, and the other processes alone. -/
theorem Child.wait_ready {child : Child} {procs procs' : List Proc} {r : Except Unit ExitStatus}
    (h : child.wait procs = (.ready r, procs')) :
    procs' = procs.set child.pid .reaped := by
  unfold Child.wait at h
  split at h
  · simp at h
  · simp_all
  · rename_i hget
    simp only [Prod.mk.injEq] at h
    obtain ⟨_, rfl⟩ := h
    obtain ⟨hlt, hval⟩ := List.getElem?_eq_some_iff.mp hget
    rw [← hval, List.set_getElem_self]
  · rename_i hget
    simp only [Prod.mk.injEq] at h
    obtain ⟨_, rfl⟩ := h
    rw [List.set_eq_of_length_le (List.getElem?_eq_none_iff.mp hget)]

end Blahaj
