/-
  File:      Blahaj/Supervisor/Reports.lean
  Subject:   WHOSE HEALTH A STATUS SHOWS.

  `SetHealthState` carries no run identity, and a report may lie in the mailbox while one run ends
  and the next begins. What keeps it from the status of the later run is the queue: a health actor
  that was told to stop sends nothing more, so the reports of a run lie before the next `Run`.

  * `Honest` -- the assumption on the senders: a health actor that was told to stop is silent;
  * `lateReports`, `ReportsAt` -- the invariant on the mailbox: no report behind a queued `Run`,
    and only those of the current child while it is waited for;
  * `HealthAt` -- the status is `Running` with the last report of the current child;
  * `Current.report`, `Current.other` -- an honest step keeps the invariant, where it applies a
    report and where it does not.
-/
import Blahaj.Supervisor.Frame

namespace Blahaj

variable {S : Setting} {s s' : Caretaker} {st : Stage} {rs : List (Nat × HealthState)}

/-! ## 1. Reports in the mailbox -/

/-- The reports in a mailbox, with their senders. -/
def reportsOf (mailbox : List Msg) : List (Nat × HealthState) := mailbox.filterMap Msg.asReport

/-- The reports behind the first `Run`. -/
def lateReports : List Msg → List (Nat × HealthState)
  | [] => []
  | m :: rest => if m.asRun.isSome then reportsOf rest else lateReports rest

@[simp] theorem reportsOf_append (l l' : List Msg) :
    reportsOf (l ++ l') = reportsOf l ++ reportsOf l' := List.filterMap_append ..

theorem reportsOf_tail {l : List Msg} {r : Nat × HealthState} (h : r ∈ reportsOf l.tail) :
    r ∈ reportsOf l := by
  obtain ⟨m, hm, hr⟩ := List.mem_filterMap.mp h
  exact List.mem_filterMap.mpr ⟨m, List.mem_of_mem_tail hm, hr⟩

theorem late_mem {l : List Msg} {r : Nat × HealthState} (h : r ∈ lateReports l) :
    r ∈ reportsOf l := by
  induction l with
  | nil => cases h
  | cons m rest ih =>
      rw [lateReports] at h
      split at h
      · exact reportsOf_tail h
      · exact reportsOf_tail (ih h)

/-- Without late reports there are none behind any message that was taken. -/
theorem late_tail {l : List Msg} (h : lateReports l = []) : lateReports l.tail = [] := by
  cases l with
  | nil => rfl
  | cons m rest =>
      rw [lateReports] at h
      split at h
      · refine List.eq_nil_iff_forall_not_mem.mpr fun r hr => ?_
        have hmem := late_mem hr
        rw [List.tail_cons, h] at hmem
        cases hmem
      · exact h

theorem late_append {l new : List Msg} (h : lateReports l = []) (hnew : reportsOf new = []) :
    lateReports (l ++ new) = [] := by
  induction l with
  | nil =>
      refine List.eq_nil_iff_forall_not_mem.mpr fun r hr => ?_
      have hmem := late_mem hr
      rw [List.nil_append, hnew] at hmem
      cases hmem
  | cons m rest ih =>
      rw [lateReports] at h
      rw [List.cons_append, lateReports]
      split
      · rename_i hrun
        rw [if_pos hrun] at h
        rw [reportsOf_append, h, hnew]
        rfl
      · rename_i hrun
        rw [if_neg hrun] at h
        exact ih h

theorem late_of_no_run {l : List Msg} (h : l.filterMap Msg.asRun = []) : lateReports l = [] := by
  induction l with
  | nil => rfl
  | cons m rest ih =>
      have hrun : m.asRun = none := List.filterMap_eq_nil_iff.mp h m (by simp)
      rw [lateReports, hrun]
      exact ih (List.filterMap_eq_nil_iff.mpr fun m' hm' =>
        List.filterMap_eq_nil_iff.mp h m' (List.mem_cons_of_mem _ hm'))

/-- The last report of a health actor. -/
def lastReport (sender : Nat) (rs : List (Nat × HealthState)) : Option HealthState :=
  ((rs.filter (·.1 == sender)).getLast?).map Prod.snd

theorem lastReport_snoc (sender : Nat) (health : HealthState) (rs : List (Nat × HealthState)) :
    lastReport sender (rs ++ [(sender, health)]) = some health := by
  simp [lastReport]

theorem lastReport_none {sender : Nat} (h : ∀ r ∈ rs, r.1 < sender) :
    lastReport sender rs = none := by
  have hnil : rs.filter (·.1 == sender) = [] := by
    refine List.filter_eq_nil_iff.mpr fun r hr => ?_
    have hlt := h r hr
    simp only [beq_iff_eq]
    omega
  simp [lastReport, hnil]

/-! ## 2. The invariant -/

/-- A report that arrives is sent by a health actor that was not told to stop. -/
def Honest (s : Caretaker) (e : Event) : Prop :=
  ∀ sender health, e = .arrive (.setHealthState sender health) → s.told sender = some false

/-- The reports in the mailbox, by stage. -/
def ReportsAt (mailbox : List Msg) : Stage → Prop
  | .queued _ => lateReports mailbox = []
  | .up _ child => ∀ r ∈ reportsOf mailbox, r.1 = child.pid
  | .spawnFailed _ => reportsOf mailbox = []
  | _ => True

/-- The status of a child that is waited for, by the reports applied so far. -/
def HealthAt (rs : List (Nat × HealthState)) (status : Lifecycle) : Stage → Prop
  | .up _ child => status = .running ((lastReport child.pid rs).getD .unknown)
  | .spawnFailed _ => status = .starting
  | _ => True

/-- **The status shows the current child**, when `rs` are the reports applied so far. -/
structure Current (S : Setting) (rs : List (Nat × HealthState)) (s : Caretaker) (st : Stage) :
    Prop where
  shape : Shape S s st
  reports : ReportsAt s.mailbox st
  health : HealthAt rs s.status st
  senders : ∀ r ∈ rs, r.1 < s.procs.length

theorem current_init (S : Setting) : Current S [] .init .boot where
  shape := shape_init S
  reports := trivial
  health := trivial
  senders := fun _ hr => nomatch hr

/-! ## 3. A report is applied -/

/-- The step that applies a report. -/
theorem applied_step {e : Event} {r : Nat × HealthState} (ha : s.applied e = some r) :
    ∃ spawn rest, e = .handle spawn ∧ s.mailbox = .setHealthState r.1 r.2 :: rest ∧
      s.status.live = true := by
  cases e with
  | handle spawn =>
      simp only [Caretaker.applied] at ha
      cases hm : s.mailbox with
      | nil => simp [hm] at ha
      | cons m rest =>
          simp only [hm] at ha
          split at ha
          · rename_i hlive
            cases m with
            | setHealthState sender health =>
                obtain rfl := Option.some.inj ha
                exact ⟨spawn, rest, rfl, rfl, hlive⟩
            | _ => cases ha
          · cases ha
  | _ => cases ha

/-- **A report that is applied is one of the current child.** -/
theorem Current.report (h : Current S rs s st) {e : Event} {r : Nat × HealthState}
    (ha : s.applied e = some r) (hs : s.step S e = some s') :
    Current S (rs ++ [r]) s' st ∧ ∃ req child, st = .up req child ∧ child.pid = r.1 := by
  obtain ⟨sender, health⟩ := r
  obtain ⟨spawn, rest, rfl, hm, hlive⟩ := applied_step ha
  have hmem : (sender, health) ∈ reportsOf s.mailbox := by
    rw [hm]
    exact List.mem_cons_self ..
  have hrun : s.lastRun.isSome := by
    cases hl : s.lastRun with
    | some _ => rfl
    | none =>
        have hno := h.shape.watch.reports hl (.setHealthState sender health) (by rw [hm]; simp)
        cases hno
  have hout : Caretaker.handleSetHealthState health { s with mailbox := rest } =
      { s with mailbox := rest, status := .running health } :=
    Caretaker.report_applied health hlive
  have hstep : s.step S (.handle spawn) =
      some { s with mailbox := rest, status := .running health } := by
    simp only [Caretaker.step, hm, Caretaker.handle, hout, Caretaker.settle]
  obtain rfl := Option.some.inj (hstep.symm.trans hs)
  have hshape := (h.shape.handled_report hm spawn).1
  rw [hout] at hshape
  rcases h.shape.live_stage hrun hlive with ⟨req, child, rfl⟩ | ⟨req, rfl⟩ | rfl
  · have hpid : sender = child.pid := h.reports _ hmem
    refine ⟨?_, req, child, rfl, hpid.symm⟩
    exact {
      shape := hshape
      reports := fun r hr => h.reports r (by rw [hm]; exact reportsOf_tail hr)
      health := by
        show Lifecycle.running health = _
        rw [hpid, lastReport_snoc]
        rfl
      senders := fun r hr => by
        rcases List.mem_append.mp hr with hr | hr
        · exact h.senders r hr
        · have hlast := h.shape.procs.last child.pid rfl
          rw [List.mem_singleton.mp hr]
          show sender < s.procs.length
          omega }
  · rw [show reportsOf s.mailbox = [] from h.reports] at hmem
    cases hmem
  · have hcrash := h.shape.token.crashed
    obtain ⟨panic, hp, -⟩ := hcrash
    rw [h.shape.alive hm] at hp
    cases hp

/-! ## 4. The other steps -/

/-- The mailbox after an honest step: what is new holds reports of the watched child only. -/
theorem mailbox_step (h : Shape S s st) {e : Event} (hh : Honest s e)
    (hs : s.step S e = some s') :
    s'.mailbox = [] ∨ ∃ new, s'.mailbox = e.rest s.mailbox ++ new ∧
      ∀ r ∈ reportsOf new, st.watched = some r.1 := by
  refine (frame_step h hs).mailbox.imp And.left fun ⟨new, hbox, hnew⟩ =>
    ⟨new, hbox, fun r hr => ?_⟩
  have he := hnew r hr
  obtain ⟨handle, hhandle, hstopped⟩ := Option.map_eq_some_iff.mp (hh r.1 r.2 he)
  refine h.watch.stopped ?_ r.1 handle hhandle hstopped
  rw [he] at hs
  cases Caretaker.stepped hs with
  | arrive hlive _ => exact hlive

theorem rest_cases (e : Event) (mailbox : List Msg) :
    e.rest mailbox = mailbox ∨ e.rest mailbox = mailbox.tail := by
  cases e with
  | handle spawn => exact Or.inr rfl
  | _ => exact Or.inl rfl

theorem reportsOf_rest {e : Event} {mailbox : List Msg} {r : Nat × HealthState}
    (h : r ∈ reportsOf (e.rest mailbox)) : r ∈ reportsOf mailbox := by
  rcases rest_cases e mailbox with hrest | hrest
  · rwa [hrest] at h
  · rw [hrest] at h
    exact reportsOf_tail h

/-- No health actor may report at a stage that watches none. -/
theorem no_new {new : List Msg} (hst : st.watched = none)
    (h : ∀ r ∈ reportsOf new, st.watched = some r.1) : reportsOf new = [] := by
  refine List.eq_nil_iff_forall_not_mem.mpr fun r hr => ?_
  have hwatched := h r hr
  rw [hst] at hwatched
  cases hwatched

/-- No report gets behind a `Run` while no health actor may send one. -/
theorem late_step (h : Shape S s st) (hst : st.watched = none) (hlate : lateReports s.mailbox = [])
    {e : Event} (hh : Honest s e) (hs : s.step S e = some s') : lateReports s'.mailbox = [] := by
  rcases mailbox_step h hh hs with hnil | ⟨new, hbox, hnew⟩
  · rw [hnil]
    rfl
  · rw [hbox]
    refine late_append ?_ (no_new hst hnew)
    rcases rest_cases e s.mailbox with hrest | hrest
    · rw [hrest]
      exact hlate
    · rw [hrest]
      exact late_tail hlate

/-- An honest step that leaves the daemon where it stands keeps the order of the mailbox. -/
theorem ReportsAt.kept (h : Shape S s st) (hr : ReportsAt s.mailbox st) {e : Event}
    (hh : Honest s e) (hs : s.step S e = some s') : ReportsAt s'.mailbox st := by
  have hmem : ∀ r ∈ reportsOf s'.mailbox, r ∈ reportsOf s.mailbox ∨ st.watched = some r.1 := by
    intro r hr'
    rcases mailbox_step h hh hs with hnil | ⟨new, hbox, hnew⟩
    · rw [hnil] at hr'
      cases hr'
    · rw [hbox, reportsOf_append] at hr'
      exact (List.mem_append.mp hr').imp reportsOf_rest (hnew r)
  cases st with
  | queued req => exact late_step h rfl hr hh hs
  | up req child =>
      intro r hr'
      rcases hmem r hr' with hold | hwatched
      · exact hr r hold
      · exact (Option.some.inj hwatched).symm
  | spawnFailed req =>
      refine List.eq_nil_iff_forall_not_mem.mpr fun r hr' => ?_
      rcases hmem r hr' with hold | hwatched
      · rw [show reportsOf s.mailbox = [] from hr] at hold
        cases hold
      · cases hwatched
  | _ => trivial

/-- **Behind a `Run` that is handled there is no report.** -/
theorem no_report_behind {req : Nat} (h : Shape S s (.queued req))
    (hr : lateReports s.mailbox = []) {e : Event} (hb : BuildsChild s e) (hh : Honest s e)
    (hs : s.step S e = some s') : reportsOf s'.mailbox = [] := by
  obtain ⟨spawn, m, rest, rfl, hm, hrun⟩ := handles_iff.mp hb
  rcases mailbox_step h hh hs with hnil | ⟨new, hbox, hnew⟩
  · rw [hnil]
    rfl
  · rw [hm, lateReports, if_pos hrun] at hr
    have hrest : Event.rest (.handle spawn) s.mailbox = rest := by
      rw [hm]
      rfl
    rw [hbox, hrest, reportsOf_append, hr, no_new rfl hnew]
    rfl

/-- **An honest step that applies no report keeps the invariant.** -/
theorem Current.other (hcheck : S.program.check.isSome) (h : Current S rs s st) {e : Event}
    (ha : s.applied e = none) (hh : Honest s e) (hs : s.step S e = some s') :
    ∃ st', Current S rs s' st' := by
  obtain ⟨st', hshape', hn⟩ := shape_step h.shape hs
  have hsenders : ∀ r ∈ rs, r.1 < s'.procs.length := fun r hr =>
    Nat.lt_of_lt_of_le (h.senders r hr) (frame_step h.shape hs).procs
  refine ⟨st', hshape', ?_, ?_, hsenders⟩
  · cases hn with
    | quiet _ _ _ => exact h.reports.kept h.shape hh hs
    | report _ _ _ _ _ => exact h.reports.kept h.shape hh hs
    | send req _ =>
        -- before the `Run` is sent there is none in the mailbox
        exact late_step h.shape rfl (late_of_no_run h.shape.token.msgs) hh hs
    | spawned req hb _ =>
        intro r hr
        rw [no_report_behind h.shape h.reports hb hh hs] at hr
        cases hr
    | spawnError req hb _ => exact no_report_behind h.shape h.reports hb hh hs
    | giveUp req res _ _ hst _ => rcases hst with rfl | rfl <;> trivial
    | finish req res _ _ hst _ => rcases hst with rfl | rfl <;> trivial
    | _ => trivial
  · cases hn with
    | quiet _ hsame _ =>
        rw [hsame]
        exact h.health
    | report _ health _ _ happlied =>
        obtain ⟨sender, happlied⟩ := happlied
        rw [ha] at happlied
        cases happlied
    | spawned req _ hstatus =>
        show s'.status = _
        rw [hstatus, if_pos hcheck, lastReport_none h.senders]
        rfl
    | spawnError req _ hstatus => exact hstatus
    | giveUp req res _ _ hst _ => rcases hst with rfl | rfl <;> trivial
    | finish req res _ _ hst _ => rcases hst with rfl | rfl <;> trivial
    | _ => trivial

end Blahaj
