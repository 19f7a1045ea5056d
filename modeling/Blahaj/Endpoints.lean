/-
  File:      Blahaj/Endpoints.lean
  Subject:   `/status` AND `/health`: endpoints.rs over `GetStatusAll` of supervisor/mod.rs.

  An endpoint asks the supervisor, the supervisor asks each caretaker, and the answers come one by
  one: a `GetStatus` is answered when it is handled, and the programs go on meanwhile. So no answer
  is a picture of one instant.

  * `Fleet.step` -- programs with their health actors, and any number of requests under way;
  * `status`, `health` -- what the endpoints make of the replies;
  * `Answered` -- what steps do to the answers of a caretaker; `fleet_run` -- what a program does in
    a run of the fleet;
  * `status_read` -- **a reply is what was read of each program on the way**;
  * `health_vouches` -- **what a 200 of `/health` says**;
  * `status_order` -- the body of `/status` does not depend on the order of the programs.
-/
import Blahaj.Main
import Blahaj.Shutdown
import Blahaj.Supervisor.Parties
import Mathlib.Data.List.Sort
import Mathlib.Data.String.Basic

namespace Blahaj

variable {S : Setting}

/-! ## 1. `GetStatusAll` -/

def Poll.map {α β : Type} (f : α → β) : Poll α → Poll β
  | .pending => .pending
  | .ready a => .ready (f a)

/-- The `GetStatus`es sent so far: they are answered, or wait in the mailbox. -/
def Caretaker.tickets (self : Caretaker) : Nat :=
  self.answers.length + self.mailbox.countP (· == .getStatus)

/-- The answer a `GetStatus` waits for, counted from the first one: the mailbox is a queue. `none`
    where the actor is gone and refuses it. -/
def Caretaker.statusRequest (self : Caretaker) : Option Nat :=
  if self.crashed.isSome then none else some self.tickets

/-- What has become of a `GetStatus`: an error if the actor refused it, or has dropped it. -/
def Caretaker.statusReply (self : Caretaker) : Option Nat → Poll (Except MailboxError Lifecycle)
  | none => .ready (.error .closed)
  | some k => match self.answers[k]? with
    | some lifecycle => .ready (.ok lifecycle)
    | none => if self.crashed.isSome then .ready (.error .closed) else .pending

/-- The programs of a supervisor, each with its health actors. -/
structure Fleet where
  actors : List (Setting × Monitored)
  /-- the `GetStatusAll`s in the supervisor's mailbox -/
  asked : Nat
  /-- the `GetStatusAll`s handled so far, each with the `GetStatus`es it has sent -/
  queries : List (List (Option Nat))

def Fleet.start (programs : List Setting) : Fleet := ⟨programs.map fun S => (S, .init), 0, []⟩

inductive FleetEvent where
  /-- a step of the program with this number; that somebody sends it a `Wait` or a `Terminate` is
      one of them -/
  | turn (i : Nat) (t : Turn)
  /-- an endpoint sends `GetStatusAll` -/
  | ask
  /-- the supervisor handles one -/
  | supervise

/-- A `GetStatus` is sent to the caretaker, and lost if that is gone. -/
def Monitored.ask (S : Setting) (self : Monitored) : Monitored :=
  (self.step S (.caretaker (.arrive .getStatus))).getD self

/-- The `GetStatus`es of a `GetStatusAll`, one for each caretaker. -/
def Fleet.requests (self : Fleet) : List (Option Nat) :=
  self.actors.map fun actor => actor.2.caretaker.statusRequest

/-- `Handler<GetStatusAll>`, up to the future it leaves. -/
def Fleet.getStatusAll (self : Fleet) : Fleet :=
  { self with
    actors := self.actors.map fun actor => (actor.1, actor.2.ask actor.1)
    queries := self.queries ++ [self.requests] }

/-- **One step of the programs and their supervisor.** -/
def Fleet.step (self : Fleet) : FleetEvent → Option Fleet
  | .turn i t => match self.actors[i]? with
    | some (S, program) => (program.step S t).map fun program =>
        { self with actors := self.actors.set i (S, program) }
    | none => none
  | .ask => some { self with asked := self.asked + 1 }
  | .supervise => match self.asked with
    | 0 => none
    | asked + 1 => some { self with asked }.getStatusAll

/-- The replies of the caretakers with their names, as far as they are there. -/
def Fleet.futures (requests : List (Option Nat)) (self : Fleet) :
    List (Poll (Except MailboxError (String × Lifecycle))) :=
  List.zipWith (fun actor request =>
    (actor.2.caretaker.statusReply request).map fun res =>
      res.map fun lifecycle => (actor.1.name, lifecycle)) self.actors requests

/-- The future of `GetStatusAll`. -/
def Fleet.reply (requests : List (Option Nat)) (self : Fleet) :
    Poll (Except MailboxError (List (String × Lifecycle))) :=
  tryJoinAll (self.futures requests)

/-! ## 2. The endpoints -/

/-- The values of `serde_json` the endpoints build. -/
inductive Json where
  | bool (b : Bool)
  | string (s : String)
  | array (items : List Json)
  | object (members : List (String × Json))

/-- `BTreeMap::insert`: the members are in the order of their keys. -/
def Json.insert (key : String) (value : Json) : List (String × Json) → List (String × Json)
  | [] => [(key, value)]
  | (k, v) :: members =>
    if key < k then (key, value) :: (k, v) :: members
    else if key = k then (key, value) :: members
    else (k, v) :: Json.insert key value members

/-- `Value::from_iter`, and the `json!` of an object. -/
def Json.collect (members : List (String × Json)) : Json :=
  .object (members.foldl (fun map member => Json.insert member.1 member.2 map) [])

/-- `{:?}` of a `HealthState`. -/
def HealthState.debug : HealthState → String
  | .healthy => "Healthy"
  | .unhealthy => "Unhealthy"
  | .unknown => "Unknown"

/-- `{:?}` of a `Lifecycle`. -/
def Lifecycle.debug : Lifecycle → String
  | .starting => "Starting"
  | .running health => "Running(" ++ health.debug ++ ")"
  | .terminating => "Terminating"
  | .terminated => "Terminated"
  | .failed => "Failed"

def StatusCode.ok : StatusCode := ⟨200, "200 OK"⟩

def StatusCode.internalServerError : StatusCode := ⟨500, "500 Internal Server Error"⟩

/-- What `supervisor.send(GetStatusAll).await` yields. -/
abbrev StatusResult := Except MailboxError (Except MailboxError (List (String × Lifecycle)))

section Handlers

-- the text a `MailboxError` is shown as
variable (display : MailboxError → String)

/-- `status`. -/
def status : StatusResult → Json × StatusCode
  | .ok (.ok status) =>
    (Json.collect (status.map fun entry => (entry.1, .string entry.2.debug)), .ok)
  | .error e | .ok (.error e) =>
    (Json.collect [("error", .string (display e))], .internalServerError)

/-- The names `health` complains about. -/
def badServices (status : List (String × Lifecycle)) : List String :=
  (status.filter fun entry => entry.2 != .running .healthy).map Prod.fst

/-- `health`. -/
def health : StatusResult → Json × StatusCode
  | .ok (.ok status) =>
    let bad := badServices status
    if bad.isEmpty then (Json.collect [("healthy", .bool true)], .ok)
    else (Json.collect [("healthy", .bool false), ("bad_services", .array (bad.map .string))],
      .internalServerError)
  | .error e | .ok (.error e) =>
    (Json.collect [("healthy", .bool false), ("error", .string (display e))],
      .internalServerError)

end Handlers

/-! ## 3. A caretaker and its answers -/

section Answers

variable {s s' : Caretaker} {st : Stage}

/-- What steps that answer `read` do: no `GetStatus` is lost, unless the actor panics, and who has
    panicked stays so. -/
structure Answered (s s' : Caretaker) (read : List Lifecycle) : Prop where
  answers : s'.answers = s.answers ++ read
  tickets : s'.crashed.isSome ∨ s.tickets ≤ s'.tickets
  crashed : s.crashed.isSome → s'.crashed.isSome

theorem Answered.refl (s : Caretaker) : Answered s s [] :=
  ⟨(List.append_nil _).symm, Or.inr (Nat.le_refl _), id⟩

theorem Answered.trans {s₁ s₂ s₃ : Caretaker} {read read' : List Lifecycle}
    (h : Answered s₁ s₂ read) (h' : Answered s₂ s₃ read') : Answered s₁ s₃ (read ++ read') where
  answers := by rw [h'.answers, h.answers, List.append_assoc]
  tickets := by
    rcases h'.tickets with hc | hle'
    · exact Or.inl hc
    · rcases h.tickets with hc | hle
      · exact Or.inl (h'.crashed hc)
      · exact Or.inr (Nat.le_trans hle hle')
  crashed hc := h'.crashed (h.crashed hc)

/-- What a step takes out of the mailbox it answers. -/
theorem reads_rest (s : Caretaker) (e : Event) :
    s.mailbox.countP (· == .getStatus) ≤
      (e.rest s.mailbox).countP (· == .getStatus) + (s.reads e).toList.length := by
  cases e with
  | handle spawn =>
      simp only [Event.rest, Caretaker.reads]
      cases s.mailbox with
      | nil => exact Nat.le_refl _
      | cons m rest => cases m <;> simp
  | _ => exact Nat.le_refl _

theorem answered_step (h : Shape S s st) {e : Event} (hs : s.step S e = some s') :
    Answered s s' (s.reads e).toList where
  answers := (recorded_step hs).answers
  tickets := by
    rcases (frame_step h hs).mailbox with ⟨-, hc⟩ | ⟨new, hm, -⟩
    · exact Or.inl hc
    · have hrest := reads_rest s e
      refine Or.inr ?_
      unfold Caretaker.tickets
      rw [(recorded_step hs).answers, hm, List.length_append, List.countP_append]
      omega
  crashed hc := by
    cases hc' : s'.crashed with
    | some _ => rfl
    | none =>
        rw [crashed_before h hs hc'] at hc
        cases hc

end Answers

/-! ## 4. A program and its answers -/

/-- The answer a step of a caretaker or of one of its health actors gives. -/
def Monitored.reads : Monitored × Turn → Option Lifecycle
  | (s, .caretaker e) => s.caretaker.reads e
  | _ => none

/-- What a health actor does answers nothing. -/
theorem receive_answered {s : Caretaker} (h : ∃ st, Shape S s st) (k : Nat) (a : HealthAction) :
    Answered s (s.receive S k a) [] ∧ ∃ st, Shape S (s.receive S k a) st := by
  rcases receive_cases (S := S) s k a with hsame | ⟨e, hs, he⟩
  · rw [hsame]
    exact ⟨.refl s, h⟩
  · have hnone : s.reads e = none := by
      rcases he with ⟨health, -, rfl⟩ | rfl <;> rfl
    obtain ⟨st, hshape⟩ := h
    have hans := answered_step hshape hs
    rw [hnone] at hans
    exact ⟨hans, shaped_step ⟨st, hshape⟩ hs⟩

theorem receives_answered (k : Nat) : ∀ (actions : List HealthAction) {s : Caretaker},
    (∃ st, Shape S s st) →
      Answered s (actions.foldl (Caretaker.receive S k) s) [] ∧
        ∃ st, Shape S (actions.foldl (Caretaker.receive S k) s) st
  | [], s, h => ⟨.refl s, h⟩
  | a :: actions, s, h => by
      obtain ⟨hans, h₁⟩ := receive_answered h k a
      obtain ⟨hans', h₂⟩ := receives_answered k actions h₁
      exact ⟨hans.trans hans', h₂⟩

theorem monitored_answered {s s' : Monitored} (h : ∃ st, Shape S s.caretaker st) {t : Turn}
    (hs : s.step S t = some s') :
    Answered s.caretaker s'.caretaker (Monitored.reads (s, t)).toList ∧
      ∃ st, Shape S s'.caretaker st := by
  cases Monitored.stepped hs with
  | caretaker _ hs₁ =>
      rw [hire_caretaker]
      obtain ⟨st, hshape⟩ := h
      exact ⟨answered_step hshape hs₁, shaped_step ⟨st, hshape⟩ hs₁⟩
  | actor hown _ _ _ _ =>
      have hnone : Monitored.reads (s, t) = none := by
        cases t with
        | caretaker e => cases (own_some hown).2
        | _ => rfl
      rw [hnone]
      exact receives_answered _ _ h

/-- **Over a run the answers are those read on the way**, in order. -/
theorem answered_run {s₀ s : Monitored} (h₀ : ∃ st, Shape S s₀.caretaker st)
    {h : List (Monitored × Turn)} (hr : Lts.Run (Monitored.step S) s₀ h s) :
    Answered s₀.caretaker s.caretaker (h.filterMap Monitored.reads) ∧
      ∃ st, Shape S s.caretaker st := by
  induction hr with
  | start => exact ⟨.refl _, h₀⟩
  | @snoc h s s' t _ hs ih =>
      obtain ⟨hans, hshape⟩ := ih
      obtain ⟨hans', hshape'⟩ := monitored_answered hshape hs
      rw [List.filterMap_append]
      have hone : [(s, t)].filterMap Monitored.reads = (Monitored.reads (s, t)).toList := by
        cases hread : Monitored.reads (s, t) <;> simp [hread]
      rw [hone]
      exact ⟨hans.trans hans', hshape'⟩

/-! ## 5. A program in a run of the fleet -/

/-- What program `i` does in a step of the fleet. -/
def Fleet.own (i : Nat) : Fleet × FleetEvent → Option (Monitored × Turn)
  | (f, .turn j t) => if j = i then (f.actors[i]?).map fun actor => (actor.2, t) else none
  | (f, .supervise) => (f.actors[i]?).bind fun actor =>
      if actor.2.caretaker.crashed.isSome then none
      else some (actor.2, .caretaker (.arrive .getStatus))
  | (_, .ask) => none

theorem own_state {i : Nat} {x : Fleet × FleetEvent} {m m' : Monitored} {t : Turn}
    (hown : Fleet.own i x = some (m, t)) (hget : x.1.actors[i]? = some (S, m')) : m = m' := by
  obtain ⟨f, e⟩ := x
  cases e with
  | turn j t' =>
      simp only [Fleet.own, hget] at hown
      split at hown
      · cases hown
        rfl
      · cases hown
  | ask => cases hown
  | supervise =>
      simp only [Fleet.own, hget, Option.bind_some] at hown
      split at hown
      · cases hown
      · cases hown
        rfl

/-- A `GetStatus` that is sent arrives, or the actor is gone. -/
theorem ask_step (S : Setting) (m : Monitored) :
    m.caretaker.crashed.isSome = true ∧ m.ask S = m ∨
      m.caretaker.crashed = none ∧
        m.step S (.caretaker (.arrive .getStatus)) = some (m.ask S) := by
  have hown : m.step S (.caretaker (.arrive .getStatus)) =
      (m.caretaker.step S (.arrive .getStatus)).map (m.hire S) := rfl
  unfold Monitored.ask
  rw [hown]
  cases hc : m.caretaker.crashed with
  | some panic =>
      have hs : m.caretaker.step S (.arrive .getStatus) = none := by simp [Caretaker.step, hc]
      rw [hs]
      exact Or.inl ⟨rfl, rfl⟩
  | none =>
      have hs : m.caretaker.step S (.arrive .getStatus) = some { m.caretaker with
          mailbox := m.caretaker.mailbox ++ [.getStatus] } := by
        simp [Caretaker.step, hc, Caretaker.arrive]
      rw [hs]
      exact Or.inr ⟨rfl, rfl⟩

/-- **A step of the fleet is a step of a program**, or none. -/
theorem fleet_step {f f' : Fleet} {e : FleetEvent} (hs : f.step e = some f') {i : Nat}
    {m : Monitored} (hget : f.actors[i]? = some (S, m)) :
    ∃ m', f'.actors[i]? = some (S, m') ∧
      (Fleet.own i (f, e) = none ∧ m' = m ∨
        ∃ t, Fleet.own i (f, e) = some (m, t) ∧ m.step S t = some m') := by
  cases e with
  | turn j t =>
      simp only [Fleet.step] at hs
      split at hs
      · rename_i S' program hprogram
        obtain ⟨program', hs', rfl⟩ := Option.map_eq_some_iff.mp hs
        by_cases hj : j = i
        · subst hj
          cases hget.symm.trans hprogram
          refine ⟨program', ?_, Or.inr ⟨t, by simp [Fleet.own, hget], hs'⟩⟩
          have hlt := (List.getElem?_eq_some_iff.mp hget).1
          show (f.actors.set j (S, program'))[j]? = _
          rw [List.getElem?_set_self hlt]
        · refine ⟨m, ?_, Or.inl ⟨by simp [Fleet.own, hj], rfl⟩⟩
          show (f.actors.set j (S', program'))[i]? = _
          rw [List.getElem?_set_ne hj, hget]
      · cases hs
  | ask =>
      cases hs
      exact ⟨m, hget, Or.inl ⟨rfl, rfl⟩⟩
  | supervise =>
      simp only [Fleet.step] at hs
      split at hs
      · cases hs
      · cases hs
        refine ⟨m.ask S, by simp [Fleet.getStatusAll, hget], ?_⟩
        rcases ask_step S m with ⟨hc, hask⟩ | ⟨hc, hask⟩
        · exact Or.inl ⟨by simp [Fleet.own, hget, hc], hask⟩
        · exact Or.inr ⟨_, by simp [Fleet.own, hget, hc], hask⟩

/-- **What a program does in a run of the fleet is a run of its own.** -/
theorem fleet_run {f₀ f : Fleet} {h : List (Fleet × FleetEvent)}
    (hr : Lts.Run Fleet.step f₀ h f) {i : Nat} {m₀ : Monitored}
    (hget : f₀.actors[i]? = some (S, m₀)) :
    ∃ m, f.actors[i]? = some (S, m) ∧
      Lts.Run (Monitored.step S) m₀ (h.filterMap (Fleet.own i)) m := by
  induction hr with
  | start => exact ⟨m₀, hget, .start⟩
  | @snoc h f f' e _ hs ih =>
      obtain ⟨m, hm, hrun⟩ := ih
      obtain ⟨m', hm', hown⟩ := fleet_step hs hm
      refine ⟨m', hm', ?_⟩
      rw [List.filterMap_append]
      rcases hown with ⟨hown, rfl⟩ | ⟨t, hown, hs'⟩
      · have hone : [(f, e)].filterMap (Fleet.own i) = [] := by simp [hown]
        rw [hone, List.append_nil]
        exact hrun
      · have hone : [(f, e)].filterMap (Fleet.own i) = [(m, t)] := by simp [hown]
        rw [hone]
        exact .snoc t hrun hs'

theorem fleet_settings {f₀ f : Fleet} {h : List (Fleet × FleetEvent)}
    (hr : Lts.Run Fleet.step f₀ h f) :
    f.actors.map Prod.fst = f₀.actors.map Prod.fst := by
  refine hr.invariant (P := fun f => f.actors.map Prod.fst = f₀.actors.map Prod.fst) rfl
    fun f e f' ih hs => ?_
  rw [← ih]
  refine List.ext_getElem? fun i => ?_
  rw [List.getElem?_map, List.getElem?_map]
  cases hget : f.actors[i]? with
  | some actor =>
      obtain ⟨m', hm', -⟩ := fleet_step hs hget
      rw [hm']
      rfl
  | none =>
      have hlen : f'.actors.length = f.actors.length := by
        cases e with
        | turn j t =>
            simp only [Fleet.step] at hs
            split at hs
            · obtain ⟨program', -, rfl⟩ := Option.map_eq_some_iff.mp hs
              exact List.length_set ..
            · cases hs
        | ask =>
            cases hs
            rfl
        | supervise =>
            simp only [Fleet.step] at hs
            split at hs
            · cases hs
            · cases hs
              exact List.length_map ..
      rw [List.getElem?_eq_none (by rw [hlen]; exact List.getElem?_eq_none_iff.mp hget)]

/-- Program `i` at the start. -/
theorem fleet_start {programs : List Setting} {i : Nat} (hi : programs[i]? = some S) :
    (Fleet.start programs).actors[i]? = some (S, .init) := by
  simp [Fleet.start, hi]

/-! ## 6. What a reply says -/

/-- The `GetStatus` sent to program `i` as the supervisor handled a `GetStatusAll` in `f` is
    answered in the step `x`. -/
def AnsweredIn (f : Fleet) (i : Nat) (x : Fleet × FleetEvent) (lifecycle : Lifecycle) : Prop :=
  ∃ (S : Setting) (m₀ m : Monitored) (t : Turn), f.actors[i]? = some (S, m₀) ∧
    Fleet.own i x = some (m, t) ∧ Monitored.reads (m, t) = some lifecycle ∧
    m₀.caretaker.statusRequest = some m.caretaker.answers.length

section Replies

variable {programs : List Setting} {f s : Fleet} {h₁ h₂ : List (Fleet × FleetEvent)}

theorem ask_tickets (S : Setting) {m : Monitored} (hlive : m.caretaker.crashed = none) :
    (m.ask S).caretaker.tickets = m.caretaker.tickets + 1 := by
  have hs : m.caretaker.step S (.arrive .getStatus) = some { m.caretaker with
      mailbox := m.caretaker.mailbox ++ [.getStatus] } := by
    simp [Caretaker.step, hlive, Caretaker.arrive]
  have hask : (m.ask S).caretaker = { m.caretaker with
      mailbox := m.caretaker.mailbox ++ [.getStatus] } := by
    have hown : m.step S (.caretaker (.arrive .getStatus)) =
        (m.caretaker.step S (.arrive .getStatus)).map (m.hire S) := rfl
    unfold Monitored.ask
    rw [hown, hs]
    exact hire_caretaker ..
  rw [hask]
  simp [Caretaker.tickets, Nat.add_assoc]

/-- A program that was asked in `f`, and what has become of it in `s`. -/
structure AskedAt (f s : Fleet) (i : Nat) (S : Setting) (m₀ m : Monitored) : Prop where
  before : f.actors[i]? = some (S, m₀)
  now : s.actors[i]? = some (S, m)
  shaped : ∃ st, Shape S m₀.caretaker st
  crashed : m₀.caretaker.crashed.isSome → m.caretaker.crashed.isSome
  /-- the `GetStatus` is not lost -/
  tickets : m₀.caretaker.crashed = none →
    m.caretaker.crashed.isSome ∨ m₀.caretaker.tickets < m.caretaker.tickets

theorem asked_at (hr : Lts.Run Fleet.step (.start programs) (h₁ ++ (f, .supervise) :: h₂) s)
    {i : Nat} (hi : programs[i]? = some S) : ∃ m₀ m, AskedAt f s i S m₀ m := by
  obtain ⟨f', hr₁, hr₂⟩ := hr.split
  obtain ⟨rfl, f₁, hs, hr₃⟩ := hr₂.head
  obtain ⟨m₀, hm₀, hrun₀⟩ := fleet_run hr₁ (fleet_start hi)
  obtain ⟨m, hm, hrun⟩ := fleet_run hr₂ hm₀
  have hshape : ∃ st, Shape S m₀.caretaker st := shape_reach (caretaker_reach hrun₀)
  refine ⟨m₀, m, hm₀, hm, hshape, (answered_run hshape hrun).1.crashed, fun hlive => ?_⟩
  have hask : f₁.actors[i]? = some (S, m₀.ask S) := by
    simp only [Fleet.step] at hs
    split at hs
    · cases hs
    · cases hs
      simp [Fleet.getStatusAll, hm₀]
  have hshape₁ : ∃ st, Shape S (m₀.ask S).caretaker st := by
    rcases ask_step S m₀ with ⟨hc, -⟩ | ⟨-, hstep⟩
    · rw [hlive] at hc
      cases hc
    · exact (monitored_answered hshape hstep).2
  obtain ⟨m', hm', hrun₃⟩ := fleet_run hr₃ hask
  cases hm.symm.trans hm'
  refine (answered_run hshape₁ hrun₃).1.tickets.imp_right fun hle => ?_
  rw [ask_tickets S hlive] at hle
  exact hle

/-- The future of program `i`. -/
theorem future_at (hr : Lts.Run Fleet.step (.start programs) (h₁ ++ (f, .supervise) :: h₂) s)
    {i : Nat} {fut : Poll (Except MailboxError (String × Lifecycle))}
    (hi : (s.futures f.requests)[i]? = some fut) :
    ∃ (S : Setting) (m₀ m : Monitored), programs[i]? = some S ∧ AskedAt f s i S m₀ m ∧
      fut = (m.caretaker.statusReply m₀.caretaker.statusRequest).map fun res =>
        res.map fun lifecycle => (S.name, lifecycle) := by
  rw [Fleet.futures, List.getElem?_zipWith_eq_some] at hi
  obtain ⟨⟨S, m⟩, request, hactor, hrequest, rfl⟩ := hi
  have hS : programs[i]? = some S := by
    have hsettings := congrArg (fun l => l[i]?) (fleet_settings hr)
    simpa [Fleet.start, hactor] using hsettings.symm
  obtain ⟨m₀, m', hat⟩ := asked_at hr hS
  cases hactor.symm.trans hat.now
  have hreq : f.requests[i]? = some m₀.caretaker.statusRequest := by
    simp [Fleet.requests, hat.before]
  cases hrequest.symm.trans hreq
  exact ⟨S, m₀, m, hS, hat, rfl⟩

theorem statusReply_ok {c : Caretaker} {request : Option Nat} {lifecycle : Lifecycle}
    (h : c.statusReply request = .ready (.ok lifecycle)) :
    ∃ k, request = some k ∧ c.answers[k]? = some lifecycle := by
  cases request with
  | none => cases h
  | some k =>
      simp only [Caretaker.statusReply] at h
      split at h
      · rename_i hget
        cases h
        exact ⟨k, rfl, hget⟩
      · split at h <;> cases h

theorem statusRequest_some {c : Caretaker} {k : Nat} (h : c.statusRequest = some k) :
    c.crashed = none ∧ k = c.tickets := by
  unfold Caretaker.statusRequest at h
  split at h
  · cases h
  · rename_i hc
    exact ⟨by simpa using hc, (Option.some.inj h).symm⟩

/-- **An answer is the status at the step that gave it.** -/
theorem AskedAt.read {i : Nat} {m₀ m : Monitored} (hat : AskedAt f s i S m₀ m)
    (hr : Lts.Run Fleet.step f ((f, .supervise) :: h₂) s) {lifecycle : Lifecycle}
    (hreply : m.caretaker.statusReply m₀.caretaker.statusRequest = .ready (.ok lifecycle)) :
    ∃ k₁ x k₂, h₂ = k₁ ++ x :: k₂ ∧ AnsweredIn f i x lifecycle := by
  obtain ⟨hm₀, hm, hshape, -, -⟩ := hat
  obtain ⟨k, hk, hget⟩ := statusReply_ok hreply
  obtain ⟨hlive, htickets⟩ := statusRequest_some hk
  obtain ⟨m', hm', hrun⟩ := fleet_run hr hm₀
  cases hm.symm.trans hm'
  -- the answer is one of those read since the request
  have hle : m₀.caretaker.answers.length ≤ k := by
    rw [htickets]
    exact Nat.le_add_right ..
  rw [(answered_run hshape hrun).1.answers, List.getElem?_append_right hle,
    List.filterMap_filterMap] at hget
  obtain ⟨l₁, x, l₂, hl, hx, hn⟩ := Lts.record_at hget
  obtain ⟨⟨mx, t⟩, hown, hread⟩ := Option.bind_eq_some_iff.mp hx
  cases l₁ with
  | nil =>
      obtain ⟨rfl, -⟩ := List.cons.inj hl
      -- the step that sends the request answers none
      simp only [Fleet.own, hm₀, Option.bind_some, hlive, Option.isSome_none] at hown
      cases hown
      cases hread
  | cons y k₁ =>
      obtain ⟨rfl, rfl⟩ := List.cons.inj hl
      refine ⟨k₁, x, l₂, rfl, S, m₀, mx, t, hm₀, hown, hread, ?_⟩
      have hbefore : Lts.Run Fleet.step f ((f, .supervise) :: k₁) x.1 :=
        Lts.Run.before (show Lts.Run Fleet.step f (((f, .supervise) :: k₁) ++ x :: l₂) s from hr)
      obtain ⟨m₁, hm₁, hrun₁⟩ := fleet_run hbefore hm₀
      obtain rfl := own_state hown hm₁
      have hlen := congrArg List.length (answered_run hshape hrun₁).1.answers
      rw [List.length_append, List.filterMap_filterMap, hn] at hlen
      rw [hk, hlen]
      congr 1
      omega

/-- A request fails where the actor has panicked. -/
theorem AskedAt.failed {i : Nat} {m₀ m : Monitored} (hat : AskedAt f s i S m₀ m)
    {e : MailboxError}
    (hreply : m.caretaker.statusReply m₀.caretaker.statusRequest = .ready (.error e)) :
    m.caretaker.crashed.isSome := by
  unfold Caretaker.statusRequest at hreply
  split at hreply
  · exact hat.crashed ‹_›
  · simp only [Caretaker.statusReply] at hreply
    split at hreply
    · cases hreply
    · split at hreply
      · assumption
      · cases hreply

/-- A request without an answer is in the mailbox of an actor that lives. -/
theorem AskedAt.pending {i : Nat} {m₀ m : Monitored} (hat : AskedAt f s i S m₀ m)
    (hreply : m.caretaker.statusReply m₀.caretaker.statusRequest = .pending) :
    m.caretaker.crashed = none ∧ .getStatus ∈ m.caretaker.mailbox := by
  unfold Caretaker.statusRequest at hreply
  split at hreply
  · cases hreply
  · rename_i hlive
    simp only [Caretaker.statusReply] at hreply
    split at hreply
    · cases hreply
    · rename_i hget
      split at hreply
      · cases hreply
      · rename_i hc
        have hlt := (hat.tickets (by simpa using hlive)).resolve_left hc
        have hlen := List.getElem?_eq_none_iff.mp hget
        have htickets : m.caretaker.tickets = m.caretaker.answers.length +
          m.caretaker.mailbox.countP (· == .getStatus) := rfl
        refine ⟨by simpa using hc, ?_⟩
        have hpos : 0 < m.caretaker.mailbox.countP (· == .getStatus) := by omega
        obtain ⟨msg, hmem, hmsg⟩ := List.countP_pos_iff.mp hpos
        rwa [← beq_iff_eq.mp hmsg]

theorem poll_map_ready {α β : Type} {g : α → β} {p : Poll α} {b : β}
    (h : p.map g = .ready b) : ∃ a, p = .ready a ∧ b = g a := by
  cases p with
  | pending => cases h
  | ready a =>
      cases h
      exact ⟨a, rfl, rfl⟩

/-- An entry of a reply. -/
theorem reply_entry (hr : Lts.Run Fleet.step (.start programs) (h₁ ++ (f, .supervise) :: h₂) s)
    {status : List (String × Lifecycle)} (hready : s.reply f.requests = .ready (.ok status))
    {i : Nat} {entry : String × Lifecycle} (hi : status[i]? = some entry) :
    (∃ S, programs[i]? = some S ∧ entry.1 = S.name) ∧
      ∃ k₁ x k₂, h₂ = k₁ ++ x :: k₂ ∧ AnsweredIn f i x entry.2 := by
  obtain ⟨f', -, hr₂⟩ := hr.split
  obtain ⟨rfl, -⟩ := hr₂.head
  have hfut : (s.futures f.requests)[i]? = some (.ready (.ok entry)) := by
    rw [tryJoinAll_values hready, List.getElem?_map, hi]
    rfl
  obtain ⟨S, m₀, m, hS, hat, hfut⟩ := future_at hr hfut
  obtain ⟨res, hreply, hres⟩ := poll_map_ready hfut.symm
  cases res with
  | error e => cases hres
  | ok lifecycle =>
      cases hres
      exact ⟨⟨S, hS, rfl⟩, hat.read hr₂ hreply⟩

/-- Every program has its entry. -/
theorem reply_total (hr : Lts.Run Fleet.step (.start programs) (h₁ ++ (f, .supervise) :: h₂) s)
    {status : List (String × Lifecycle)} (hready : s.reply f.requests = .ready (.ok status))
    {i : Nat} (hi : programs[i]? = some S) : ∃ entry, status[i]? = some entry := by
  obtain ⟨m₀, m, hat⟩ := asked_at hr hi
  have hfut : (s.futures f.requests)[i]? ≠ none := by
    simp [Fleet.futures, List.getElem?_zipWith, hat.now, Fleet.requests, hat.before]
  rw [tryJoinAll_values hready, List.getElem?_map] at hfut
  cases hentry : status[i]? with
  | some entry => exact ⟨entry, rfl⟩
  | none =>
      rw [hentry] at hfut
      exact absurd rfl hfut

/-- **A reply to `GetStatusAll` is what was read of each program on the way**, over all runs of any
    number of programs. It names the programs in their order, each with the status it had in the
    step that answered the `GetStatus` sent for this reply. It fails only where a caretaker has
    panicked, and while it is not there some caretaker that lives has a `GetStatus` in its
    mailbox. -/
theorem status_read
    (hr : Lts.Run Fleet.step (.start programs) (h₁ ++ (f, .supervise) :: h₂) s) :
    (∀ status, s.reply f.requests = .ready (.ok status) →
      status.map Prod.fst = programs.map Setting.name ∧
      ∀ (i : Nat) (entry : String × Lifecycle), status[i]? = some entry →
        ∃ k₁ x k₂, h₂ = k₁ ++ x :: k₂ ∧ AnsweredIn f i x entry.2) ∧
    (∀ e, s.reply f.requests = .ready (.error e) →
      ∃ actor ∈ s.actors, actor.2.caretaker.crashed.isSome) ∧
    (s.reply f.requests = .pending →
      ∃ actor ∈ s.actors, actor.2.caretaker.crashed = none ∧
        .getStatus ∈ actor.2.caretaker.mailbox) := by
  refine ⟨fun status hready => ?_, fun e herr => ?_, fun hpend => ?_⟩
  · refine ⟨List.ext_getElem? fun i => ?_, fun i entry hi => (reply_entry hr hready hi).2⟩
    rw [List.getElem?_map, List.getElem?_map]
    cases hi : status[i]? with
    | some entry =>
        obtain ⟨⟨S, hS, hname⟩, -⟩ := reply_entry hr hready hi
        rw [hS, Option.map_some, Option.map_some, hname]
    | none =>
        cases hS : programs[i]? with
        | none => rfl
        | some S =>
            obtain ⟨entry, hentry⟩ := reply_total hr hready hS
            cases hi.symm.trans hentry
  · obtain ⟨i, hi⟩ := List.mem_iff_getElem?.mp (tryJoinAll_error herr)
    obtain ⟨S, m₀, m, -, hat, hfut⟩ := future_at hr hi
    obtain ⟨res, hreply, hres⟩ := poll_map_ready hfut.symm
    cases res with
    | ok lifecycle => cases hres
    | error e' => exact ⟨_, List.mem_of_getElem? hat.now, hat.failed hreply⟩
  · obtain ⟨i, hi⟩ := List.mem_iff_getElem?.mp (tryJoinAll_pending hpend)
    obtain ⟨S, m₀, m, -, hat, hfut⟩ := future_at hr hi
    refine ⟨_, List.mem_of_getElem? hat.now, hat.pending ?_⟩
    cases hreply : m.caretaker.statusReply m₀.caretaker.statusRequest with
    | pending => rfl
    | ready res =>
        rw [hreply] at hfut
        cases hfut

/-- Program `b`, with the health check of `a`. -/
def settingB : Setting := { settingA with name := "b" }

/-- The child with number 0 of program `i` is spawned and has answered its first check. -/
def firstCheck (i : Nat) : List FleetEvent :=
  [.turn i (.caretaker .startDaemon), .turn i (.caretaker (.pollDaemon ⟨1, 1, false⟩)),
    .turn i (.caretaker (.handle (.ok ()))), .turn i (.started 0), .turn i (.tick 0),
    .turn i (.checked 0 0 (.ok ⟨200, "200 OK"⟩))]

/-- `a` is `Running(Healthy)`, and `b` is not yet. -/
def oneHealthy : List FleetEvent :=
  firstCheck 0 ++ firstCheck 1 ++ [.turn 0 (.caretaker (.handle (.ok ()))), .ask]

/-- `a` is read and exits, and `b` becomes `Running(Healthy)` and is read. -/
def otherHealthy : List FleetEvent :=
  [.turn 0 (.caretaker (.handle (.ok ()))), .turn 0 (.caretaker (.exit 0 (.exited 1))),
    .turn 0 (.caretaker (.pollRun 0 .underWay)), .turn 1 (.caretaker (.handle (.ok ()))),
    .turn 1 (.caretaker (.handle (.ok ())))]

/-- Both are read `Running(Healthy)`, and at no time since the request they both are. -/
theorem staggered : ∃ h₁ f h₂ s,
    Lts.Run Fleet.step (.start [settingA, settingB]) (h₁ ++ (f, .supervise) :: h₂) s ∧
      s.reply f.requests =
        .ready (.ok [("a", .running .healthy), ("b", .running .healthy)]) ∧
      (((f, .supervise) :: h₂).map Prod.fst ++ [s]).all fun f =>
        f.actors.any fun actor => actor.2.caretaker.status != .running .healthy := by
  have hex : ∃ f f₁ s, Lts.exec Fleet.step (.start [settingA, settingB]) oneHealthy = some f ∧
      f.step .supervise = some f₁ ∧ Lts.exec Fleet.step f₁ otherHealthy = some s ∧
      s.reply f.requests =
        .ready (.ok [("a", .running .healthy), ("b", .running .healthy)]) ∧
      ((((f, .supervise) :: Lts.history Fleet.step f₁ otherHealthy).map Prod.fst ++ [s]).all
        fun f => f.actors.any fun actor =>
          actor.2.caretaker.status != .running .healthy) = true :=
    ⟨_, _, _, rfl, rfl, rfl, rfl, rfl⟩
  obtain ⟨f, f₁, s, hex, hs, hex', hreply, hnever⟩ := hex
  have hr := ((Lts.run_history hex).snoc _ hs).append (Lts.run_history hex')
  rw [List.append_assoc] at hr
  exact ⟨_, f, _, s, hr, hreply, hnever⟩

theorem status_read_staggered : ∃ h₁ f h₂ s status,
    Lts.Run Fleet.step (.start [settingA, settingB]) (h₁ ++ (f, .supervise) :: h₂) s ∧
      s.reply f.requests = .ready (.ok status) ∧ status.map Prod.fst = ["a", "b"] ∧
      ∀ (i : Nat) (entry : String × Lifecycle), status[i]? = some entry →
        ∃ k₁ x k₂, h₂ = k₁ ++ x :: k₂ ∧ AnsweredIn f i x entry.2 := by
  obtain ⟨h₁, f, h₂, s, hr, hreply, -⟩ := staggered
  obtain ⟨hnames, hread⟩ := (status_read hr).1 _ hreply
  exact ⟨h₁, f, h₂, s, _, hr, hreply, hnames, hread⟩

/-! ## 7. `/health` -/

/-- `/health` answers 200 exactly where every program was read `Running(Healthy)`. -/
theorem health_ok (display : MailboxError → String)
    {res : Except MailboxError (List (String × Lifecycle))} :
    (health display (.ok res)).2 = .ok ↔
      ∃ status, res = .ok status ∧ ∀ entry ∈ status, entry.2 = .running .healthy := by
  cases res with
  | error e =>
      constructor
      · intro h
        cases h
      · rintro ⟨status, hres, -⟩
        cases hres
  | ok status =>
      have hbad : (badServices status).isEmpty = true ↔
          ∀ entry ∈ status, entry.2 = .running .healthy := by
        simp [badServices]
      simp only [health, Except.ok.injEq, exists_eq_left', ← hbad]
      split
      · rename_i hempty
        exact ⟨fun _ => hempty, fun _ => rfl⟩
      · rename_i hempty
        constructor
        · intro h
          cases h
        · exact fun h => absurd h hempty

theorem reads_some {m : Monitored} {t : Turn} {lifecycle : Lifecycle}
    (h : Monitored.reads (m, t) = some lifecycle) :
    m.caretaker.status = lifecycle ∧ ∃ rest, m.caretaker.mailbox = .getStatus :: rest := by
  cases t with
  | caretaker e =>
      cases e with
      | handle spawn =>
          simp only [Monitored.reads, Caretaker.reads] at h
          split at h
          · rename_i rest hm
            exact ⟨Option.some.inj h, rest, hm⟩
          · cases h
      | _ => cases h
  | _ => cases h

/-- **What a 200 of `/health` says**: each program was read as `Running(Healthy)` since the request,
    and where it has a health check its caretaker waited for a child then, and the report that was
    applied last of the health actor of that child was `Healthy`. -/
theorem health_vouches (display : MailboxError → String)
    (hr : Lts.Run Fleet.step (.start programs) (h₁ ++ (f, .supervise) :: h₂) s)
    {res : Except MailboxError (List (String × Lifecycle))}
    (hres : s.reply f.requests = .ready res) (hok : (health display (.ok res)).2 = .ok) :
    ∀ (i : Nat) (S : Setting), programs[i]? = some S → ∃ k₁ x k₂ m t, h₂ = k₁ ++ x :: k₂ ∧
      Fleet.own i x = some (m, t) ∧ AnsweredIn f i x (.running .healthy) ∧
      m.caretaker.status = .running .healthy ∧
      (S.program.check.isSome → ∃ req child, m.caretaker.WaitsFor req child ∧
        lastReport child.pid (((h₁ ++ (f, .supervise) :: k₁).filterMap (Fleet.own i)).filterMap
          Monitored.applied) = some .healthy) := by
  intro i S hi
  obtain ⟨status, rfl, hall⟩ := (health_ok display).mp hok
  obtain ⟨entry, hentry⟩ := reply_total hr hres hi
  obtain ⟨-, k₁, x, k₂, rfl, hans⟩ := reply_entry hr hres hentry
  rw [hall entry (List.mem_of_getElem? hentry)] at hans
  have hx : Lts.Run Fleet.step (.start programs) (h₁ ++ (f, .supervise) :: k₁) x.1 := by
    rw [← List.cons_append, ← List.append_assoc] at hr
    exact hr.before
  obtain ⟨S', m₀, m, t, hm₀, hown, hread, hticket⟩ := id hans
  obtain ⟨m', hm', hrun⟩ := fleet_run hx (fleet_start hi)
  obtain rfl := own_state hown hm'
  obtain ⟨hstatus, rest, hbox⟩ := reads_some hread
  refine ⟨k₁, x, k₂, m, t, rfl, hown, hans, hstatus, fun hcheck => ?_⟩
  obtain ⟨st, hcurrent⟩ := (monitors_run hcheck hrun).1.current
  obtain ⟨req, child, rfl, hhealth⟩ := hcurrent.running (hcurrent.shape.alive hbox) hstatus
  refine ⟨req, child, hcurrent.shape.waitsFor, ?_⟩
  cases hlast : lastReport child.pid
      (((h₁ ++ (f, .supervise) :: k₁).filterMap (Fleet.own i)).filterMap Monitored.applied) with
  | none =>
      rw [hlast] at hhealth
      cases hhealth
  | some health =>
      rw [hlast] at hhealth
      rw [hhealth]
      rfl

/-- The answer is 200, and there was no time at which both programs were healthy. -/
theorem health_vouches_staggered : ∃ h₁ f h₂ s,
    Lts.Run Fleet.step (.start [settingA, settingB]) (h₁ ++ (f, .supervise) :: h₂) s ∧
      (((f, .supervise) :: h₂).map Prod.fst ++ [s]).all (fun f =>
        f.actors.any fun actor => actor.2.caretaker.status != .running .healthy) ∧
      ∀ (i : Nat) (S : Setting), [settingA, settingB][i]? = some S →
        ∃ k₁ x k₂ m t, h₂ = k₁ ++ x :: k₂ ∧ Fleet.own i x = some (m, t) ∧
          AnsweredIn f i x (.running .healthy) ∧ m.caretaker.status = .running .healthy ∧
          (S.program.check.isSome → ∃ req child, m.caretaker.WaitsFor req child ∧
            lastReport child.pid (((h₁ ++ (f, .supervise) :: k₁).filterMap
              (Fleet.own i)).filterMap Monitored.applied) = some .healthy) := by
  obtain ⟨h₁, f, h₂, s, hr, hreply, hnever⟩ := staggered
  exact ⟨h₁, f, h₂, s, hr, hnever, health_vouches (fun _ => "Mailbox has closed") hr hreply
    ((health_ok _).mpr ⟨_, rfl, by simp⟩)⟩

end Replies

/-! ## 8. `/status` -/

/-- The keys of an object are in order, each once. -/
def Json.Ordered (members : List (String × Json)) : Prop :=
  members.Pairwise fun a b => a.1 < b.1

theorem insert_mem {key : String} {value : Json} : ∀ {members : List (String × Json)},
    key ∉ members.map Prod.fst → (Json.insert key value members).Perm ((key, value) :: members)
  | [], _ => .refl _
  | (k, v) :: members, hkey => by
      rw [Json.insert]
      split
      · exact .refl _
      · split
        · rename_i heq
          exact absurd (by simp [heq]) hkey
        · have hrest : key ∉ members.map Prod.fst := fun hmem => hkey (by simp [hmem])
          exact ((insert_mem hrest).cons _).trans (.swap ..)

theorem insert_ordered {key : String} {value : Json} : ∀ {members : List (String × Json)},
    Json.Ordered members → key ∉ members.map Prod.fst →
      Json.Ordered (Json.insert key value members)
  | [], _, _ => List.pairwise_singleton ..
  | (k, v) :: members, hord, hkey => by
      obtain ⟨hhead, htail⟩ := List.pairwise_cons.mp hord
      rw [Json.insert]
      split
      · rename_i hlt
        refine List.pairwise_cons.mpr ⟨fun member hmem => ?_, hord⟩
        rcases List.mem_cons.mp hmem with rfl | hmem
        · exact hlt
        · exact lt_trans hlt (hhead member hmem)
      · rename_i hnlt
        split
        · rename_i heq
          exact absurd (by simp [heq]) hkey
        · rename_i hne
          have hrest : key ∉ members.map Prod.fst := fun hmem => hkey (by simp [hmem])
          refine List.pairwise_cons.mpr ⟨fun member hmem => ?_, insert_ordered htail hrest⟩
          rcases List.mem_cons.mp ((insert_mem hrest).mem_iff.mp hmem) with rfl | hmem
          · exact lt_of_le_of_ne (not_lt.mp hnlt) (Ne.symm hne)
          · exact hhead member hmem

/-- An object made of members with keys of their own has these members, in the order of the
    keys. -/
theorem collected (members : List (String × Json)) (hnodup : (members.map Prod.fst).Nodup) :
    ∃ map, Json.collect members = .object map ∧ Json.Ordered map ∧ map.Perm members := by
  refine ⟨_, rfl, ?_⟩
  induction members using List.reverseRecOn with
  | nil => exact ⟨List.Pairwise.nil, .refl _⟩
  | append_singleton members member ih =>
      rw [List.map_append, List.nodup_append] at hnodup
      obtain ⟨hbefore, -, hnew⟩ := hnodup
      obtain ⟨hord, hperm⟩ := ih hbefore
      have hkey : member.1 ∉ (members.foldl (fun map member =>
          Json.insert member.1 member.2 map) []).map Prod.fst := fun hmem =>
        hnew _ ((hperm.map Prod.fst).mem_iff.mp hmem) _ (List.mem_singleton.mpr rfl) rfl
      rw [List.foldl_append]
      exact ⟨insert_ordered hord hkey,
        (insert_mem hkey).trans ((hperm.cons _).trans (List.perm_append_singleton ..).symm)⟩

/-- **The body of `/status` does not depend on the order of the programs**: that of the map they
    are read from. It is an object with an entry for each of them, in the order of the names. -/
theorem status_order (display : MailboxError → String)
    {status status' : List (String × Lifecycle)} (hnames : (status.map Prod.fst).Nodup)
    (hperm : status.Perm status') :
    Blahaj.status display (.ok (.ok status')) = Blahaj.status display (.ok (.ok status)) ∧
      ∃ map, (Blahaj.status display (.ok (.ok status))).1 = .object map ∧ Json.Ordered map ∧
        map.Perm (status.map fun entry => (entry.1, .string entry.2.debug)) := by
  have hkeys : ∀ status : List (String × Lifecycle), (status.map fun entry =>
      (entry.1, Json.string entry.2.debug)).map Prod.fst = status.map Prod.fst := fun status => by
    rw [List.map_map]
    rfl
  obtain ⟨map, hmap, hord, hmem⟩ := collected (status.map fun entry =>
    (entry.1, Json.string entry.2.debug)) (by rwa [hkeys])
  obtain ⟨map', hmap', hord', hmem'⟩ := collected (status'.map fun entry =>
    (entry.1, Json.string entry.2.debug)) (by
      rw [hkeys]
      exact (hperm.map Prod.fst).nodup_iff.mp hnames)
  have hsame : map' = map := by
    have hp : map'.Perm map := hmem'.trans ((hperm.map _).symm.trans hmem.symm)
    exact hp.eq_of_pairwise (fun a b _ _ hab hba => absurd hba (lt_asymm hab)) hord' hord
  refine ⟨?_, map, hmap, hord, hmem⟩
  simp only [Blahaj.status, hmap, hmap', hsame]

end Blahaj
