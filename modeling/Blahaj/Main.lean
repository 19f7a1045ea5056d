/-
  File:      Blahaj/Main.lean
  Subject:   THE PROGRAM: main.rs with its supervisor, its signal handler and its HTTP server.

  `main` starts the supervisor and with it a caretaker for each program, spawns a task that sends
  `Join` and stops the server on the reply, and waits for the server's future. A termination
  signal reaches two of the parties: the signal handler, and the server, which was not told to
  disable its own signal handling.

  * `tryJoinAll`, `Caretaker.waitReply` -- the future of `Join`;
  * `System.step` -- one step of any of the parties; the system is over when `main` returns.
-/
import Blahaj.Supervisor.Caretaker

namespace Blahaj

/-! ## 1. The supervisor -/

/-- `MailboxError`, as a request to an actor that is gone gives it. -/
inductive MailboxError where
  | closed
  deriving DecidableEq, Repr

/-- The messages of the supervisor that others wait for, or act on. -/
inductive SupervisorMsg where
  | join
  | terminateAll
  deriving DecidableEq, Repr

/-- `Supervisor` and its mailbox. Each caretaker stands with what it was given. -/
structure Supervisor where
  actors : List (Setting × Caretaker)
  mailbox : List SupervisorMsg

/-- `Supervisor::start`. -/
def Supervisor.start (programs : List Setting) : Supervisor :=
  ⟨programs.map fun S => (S, .init), []⟩

/-- A message to a caretaker, lost if the actor is gone. -/
def Caretaker.send (S : Setting) (m : Incoming) (self : Caretaker) : Caretaker :=
  (self.step S (.arrive m)).getD self

/-- The number a `Wait` gets; `none` where the actor is gone and refuses it. -/
def Caretaker.waitRequest (self : Caretaker) : Option Nat :=
  if self.crashed.isSome then none else some self.nextReq

/-- A message to every caretaker. -/
def Supervisor.sendAll (m : Incoming) (self : Supervisor) : Supervisor :=
  { self with actors := self.actors.map fun actor => (actor.1, actor.2.send actor.1 m) }

/-- What has become of a `Wait`: an error if the actor refused it, or has dropped it. -/
def Caretaker.waitReply (self : Caretaker) : Option Nat → Poll (Except MailboxError Unit)
  | none => .ready (.error .closed)
  | some req =>
    if self.waits.any fun fut => fut.req == req && fut.stoppedRx == .replied then .ready (.ok ())
    else if self.waitOver req then .ready (.error .closed)
    else .pending

/-- `try_join_all`: the first error as soon as there is one, else all the values once they are
    there. -/
def tryJoinAll {ε α : Type} : List (Poll (Except ε α)) → Poll (Except ε (List α))
  | [] => .ready (.ok [])
  | .ready (.error e) :: _ => .ready (.error e)
  | .ready (.ok a) :: futs => match tryJoinAll futs with
    | .ready (.ok as) => .ready (.ok (a :: as))
    | .ready (.error e) => .ready (.error e)
    | .pending => .pending
  | .pending :: futs => match tryJoinAll futs with
    | .ready (.error e) => .ready (.error e)
    | _ => .pending

/-- `Join`, from the task that sends it to its reply. `waiting` with the `Wait`s it has sent, one
    for each caretaker. -/
inductive JoinRequest where
  | unsent
  | sent
  | waiting (requests : List (Option Nat))
  | replied
  deriving DecidableEq, Repr

/-- The replies to the `Wait`s of a `Join`, as far as they are there. -/
def Supervisor.replies (requests : List (Option Nat)) (self : Supervisor) :
    List (Poll (Except MailboxError Unit)) :=
  List.zipWith (fun actor request => actor.2.waitReply request) self.actors requests

/-! ## 2. The signal handler -/

/-- `TERM_SIGNALS`. -/
inductive TermSignal where
  | sigterm
  | sigquit
  | sigint
  deriving DecidableEq, Repr

/-- `SignalHandler`: the signals its stream has yet to yield, each at most once, and its log. -/
structure SignalHandler where
  pending : List TermSignal
  log : List Custom

/-- A signal is delivered. -/
def SignalHandler.deliver (signal : TermSignal) (self : SignalHandler) : SignalHandler :=
  { self with pending := if signal ∈ self.pending then self.pending else self.pending ++ [signal] }

/-- `StreamHandler::handle`; the `TerminateAll` goes to the supervisor. -/
def SignalHandler.handle (signal : TermSignal) (self : SignalHandler) : SignalHandler :=
  { pending := self.pending.erase signal
    log := self.log ++ [⟨.warn, "signal", "Terminating all processes"⟩] }

/-! ## 3. The server, and `main` -/

/-- The future of `HttpServer::run`. `stopping` from a termination signal or `ServerHandle::stop`
    on. -/
inductive Server where
  | serving
  | stopping
  | completed
  | failed
  deriving DecidableEq, Repr

/-- `main`, from `server.await` on. -/
inductive MainState where
  | awaiting
  | returned (res : Except String Unit)

/-- The program. -/
structure System where
  supervisor : Supervisor
  join : JoinRequest
  signalHandler : SignalHandler
  server : Server
  main : MainState

/-- `main` up to `server.await`. -/
def System.start (programs : List Setting) : System where
  supervisor := .start programs
  join := .unsent
  signalHandler := ⟨[], []⟩
  server := .serving
  main := .awaiting

inductive Act where
  /-- a step of the caretaker with this number -/
  | caretaker (i : Nat) (e : Event)
  /-- the task spawned by `main` sends `Join` -/
  | sendJoin
  /-- the supervisor handles its oldest message -/
  | supervise
  /-- the future of `Join` resolves, and its reply is sent -/
  | pollJoin
  /-- the task spawned by `main` has the reply, and calls `server_handle.stop(true)` -/
  | stopServer
  /-- the operating system delivers a termination signal -/
  | signal (signal : TermSignal)
  | handleSignal (signal : TermSignal)
  /-- the server's future completes -/
  | serverCompletes
  | serverFails
  /-- `main` is polled, and the server's future is ready -/
  | pollMain

/-- The steps of a caretaker that its supervisor does not cause. -/
def Event.unsupervised : Event → Bool
  | .arrive .wait | .arrive .terminate => false
  | _ => true

/-- `Handler<Join>` and `Handler<TerminateAll>`. -/
def System.supervise (self : System) : SupervisorMsg → System
  | .join =>
    { self with
      join := .waiting (self.supervisor.actors.map fun actor => actor.2.waitRequest)
      supervisor := self.supervisor.sendAll .wait }
  | .terminateAll => { self with supervisor := self.supervisor.sendAll .terminate }

/-- One step, while `main` has not returned. -/
def System.advance (self : System) : Act → Option System
  | .caretaker i e => match self.supervisor.actors[i]? with
    | some (S, caretaker) =>
      if e.unsupervised then
        (caretaker.step S e).map fun caretaker =>
          { self with supervisor := { self.supervisor with
            actors := self.supervisor.actors.set i (S, caretaker) } }
      else none
    | none => none
  | .sendJoin => match self.join with
    | .unsent => some { self with
        join := .sent
        supervisor := { self.supervisor with mailbox := self.supervisor.mailbox ++ [.join] } }
    | _ => none
  | .supervise => match self.supervisor.mailbox with
    | m :: mailbox =>
      let self := { self with supervisor := { self.supervisor with mailbox } }
      some (self.supervise m)
    | [] => none
  | .pollJoin => match self.join with
    | .waiting requests => match tryJoinAll (self.supervisor.replies requests) with
      | .ready _ => some { self with join := .replied }
      | .pending => none
    | _ => none
  | .stopServer => match self.join, self.server with
    | .replied, .serving => some { self with server := .stopping }
    | _, _ => none
  | .signal signal => some { self with
      signalHandler := self.signalHandler.deliver signal
      server := if self.server = .serving then .stopping else self.server }
  | .handleSignal signal =>
    if signal ∈ self.signalHandler.pending then
      some { self with
        signalHandler := self.signalHandler.handle signal
        supervisor := { self.supervisor with
          mailbox := self.supervisor.mailbox ++ [.terminateAll] } }
    else none
  | .serverCompletes => match self.server with
    | .stopping => some { self with server := .completed }
    | _ => none
  | .serverFails => match self.server with
    | .serving | .stopping => some { self with server := .failed }
    | _ => none
  | .pollMain => match self.server with
    | .completed => some { self with main := .returned (.ok ()) }
    | .failed => some { self with main := .returned (.error "Server crashed.") }
    | _ => none

/-- **One step of the program.** -/
def System.step (self : System) (a : Act) : Option System :=
  match self.main with
  | .awaiting => self.advance a
  | .returned _ => none

end Blahaj
