import Runbook.Copy.Client
/-!
# A copy in every order

The two tasks of a copy and the caller that waits for them go on in any order, and the deadline may
pass at any time.  This file says what the caller returns and what it closes, whatever the order is.

* `Task`, `Task.Moves` — a task reports once and then lets go of the queue;
* `Schedule` — the orders in which the moments of two tasks, the deadline and the turns of the
  caller may occur, as far as they have come;
* `GaveUp` — the caller had a turn on an empty queue behind the deadline, before its second report;
* `Accounts` — what holds of queue and caller at every time;
* `Schedule.accounts` — that it does;
* `Client.finish_in_every_order` — what a copy returns, what it closes, and that no report is kept
  waiting.

A task that never ends is one whose moments are missing from a schedule.
-/

namespace Runbook.Copy

/-! ### Tasks and their orders -/

/-- A task of a copy: it is going to report, it has reported, or it has let go of the queue. -/
inductive Task where
  | busy (report : Report)
  | reported
  | gone

namespace Task

/-- A task goes on. -/
inductive Moves : Task → Moment → Task → Prop
  | report (r : Report) : Moves (busy r) (.report r) reported
  | leave : Moves reported .leave gone

/-- The report that a task still has to make. -/
def owed : Task → List Report
  | busy r => [r]
  | reported => []
  | gone => []

/-- How often a task holds the queue. -/
def holds : Task → Nat
  | busy _ => 1
  | reported => 1
  | gone => 0

/-- What a task still has to do. -/
def rest : Task → List Moment
  | busy r => [.report r, .leave]
  | reported => [.leave]
  | gone => []

theorem length_owed_le_holds (task : Task) : task.owed.length ≤ task.holds := by
  cases task <;> simp [owed, holds]

end Task

/-- The orders of what happens to a copy while its tasks go from two states to two others: each task
goes on in its own order; the deadline and the turns of the caller stand anywhere. -/
inductive Schedule : Task → Task → List Moment → Task → Task → Prop
  | stop (driver runner : Task) : Schedule driver runner [] driver runner
  | driver {driver driver' runner m ms d r} :
      driver.Moves m driver' → Schedule driver' runner ms d r → Schedule driver runner (m :: ms) d r
  | runner {driver runner runner' m ms d r} :
      runner.Moves m runner' → Schedule driver runner' ms d r → Schedule driver runner (m :: ms) d r
  | deadline {driver runner ms d r} :
      Schedule driver runner ms d r → Schedule driver runner (.deadline :: ms) d r
  | receive {driver runner ms d r} :
      Schedule driver runner ms d r → Schedule driver runner (.receive :: ms) d r

/-! ### Reports -/

/-- The report of a moment. -/
def Moment.report? : Moment → Option Report
  | .report r => some r
  | .leave => none
  | .deadline => none
  | .receive => none

/-- The reports among moments, in order. -/
def reports (ms : List Moment) : List Report :=
  ms.filterMap Moment.report?

@[simp] theorem reports_append (ms more : List Moment) :
    reports (ms ++ more) = reports ms ++ reports more :=
  List.filterMap_append

/-- The earliest report that is an error; success if none is. -/
def earliest : List Report → Report
  | [] => .ok ()
  | .ok () :: rest => earliest rest
  | .error e :: _ => .error e

theorem earliest_eq_ok {rs : List Report} : earliest rs = .ok () ↔ ∀ r ∈ rs, r = .ok () := by
  induction rs with
  | nil => exact ⟨fun _ r hr => absurd hr List.not_mem_nil, fun _ => rfl⟩
  | cons first rest ih =>
    rw [List.forall_mem_cons]
    rcases first with e | ⟨⟩
    · exact ⟨nofun, fun h => nomatch h.1⟩
    · exact ih.trans ⟨fun h => ⟨rfl, h⟩, fun h => h.2⟩

/-- An error that is returned was reported. -/
theorem mem_of_earliest_eq_error {rs : List Report} {e : ScpError}
    (h : earliest rs = .error e) : .error e ∈ rs := by
  induction rs with
  | nil => cases h
  | cons first rest ih =>
    rcases first with e' | ⟨⟩
    · cases h
      exact List.mem_cons_self
    · exact List.mem_cons_of_mem _ (ih h)

namespace Waiting

/-- The caller keeps the earliest error. -/
theorem conclude_foldl_firstFailure (rs : List Report) :
    conclude (rs.foldl firstFailure none) = earliest rs := by
  have hkeeps : ∀ (e : ScpError) (rs : List Report),
      rs.foldl firstFailure (some e) = some e := by
    intro e rs
    induction rs with
    | nil => rfl
    | cons r rs ih => cases r <;> exact ih
  induction rs with
  | nil => rfl
  | cons r rs ih =>
    rcases r with e | ⟨⟩
    · show conclude (rs.foldl firstFailure (some e)) = .error e
      rw [hkeeps]
      rfl
    · exact ih

theorem run_append (w : Waiting) (ms more : List Moment) :
    run w (ms ++ more) = (run w ms).bind fun v => run v more := by
  induction ms generalizing w with
  | nil => rfl
  | cons m ms ih =>
    rw [List.cons_append, run, run, Option.bind_assoc]
    congr 1
    funext v
    exact ih v

theorem run_snoc {w v u : Waiting} {ms : List Moment} {m : Moment} (hrun : run w ms = some v)
    (hstep : v.step m = some u) : run w (ms ++ [m]) = some u := by
  rw [run_append, hrun]
  show (v.step m).bind some = some u
  rw [hstep]
  rfl

end Waiting

/-! ### What holds at every time -/

/-- The caller gives up: it has a turn on an empty queue behind the deadline, and has not taken both
reports. -/
def GaveUp (ms : List Moment) : Prop :=
  ∃ before after v, ms = before ++ .receive :: after ∧ Waiting.run {} before = some v ∧
    v.taken < Waiting.capacity ∧ v.queue = [] ∧ .deadline ∈ before

/-- With one more moment, the caller has given up before or it does so now. -/
theorem gaveUp_snoc {ms : List Moment} {m : Moment} {w : Waiting}
    (hrun : Waiting.run {} ms = some w) :
    GaveUp (ms ++ [m]) ↔ GaveUp ms ∨
      m = .receive ∧ w.taken < Waiting.capacity ∧ w.queue = [] ∧ .deadline ∈ ms := by
  constructor
  · rintro ⟨before, after, v, hsplit, hbefore, htaken, hqueue, hlate⟩
    rcases List.eq_nil_or_concat after with rfl | ⟨after', last, rfl⟩
    · obtain ⟨rfl, hm⟩ := List.append_inj' hsplit rfl
      rw [hrun] at hbefore
      cases hbefore
      cases hm
      exact .inr ⟨rfl, htaken, hqueue, hlate⟩
    · left
      rw [List.concat_eq_append, ← List.cons_append, ← List.append_assoc] at hsplit
      obtain ⟨rfl, -⟩ := List.append_inj' hsplit rfl
      exact ⟨before, after', v, rfl, hbefore, htaken, hqueue, hlate⟩
  · rintro (⟨before, after, v, rfl, hbefore, htaken, hqueue, hlate⟩ | ⟨rfl, htaken, hqueue, hlate⟩)
    · refine ⟨before, after ++ [m], v, ?_, hbefore, htaken, hqueue, hlate⟩
      rw [List.append_assoc, List.cons_append]
    · exact ⟨ms, [], w, rfl, hrun, htaken, hqueue, hlate⟩

/-- What the caller has decided: it has concluded when it took both reports, or given up, and else
it waits. -/
structure Decides (past : List Moment) (w : Waiting) : Prop where
  concluded : w.taken = Waiting.capacity →
    w.result = some (Waiting.conclude w.failure) ∧ ¬GaveUp past
  waits : w.taken ≠ Waiting.capacity → ¬GaveUp past → w.result = none
  gaveUp : GaveUp past → w.result = some (.error .timeout)

/-- What is not the caller's turn changes nothing for the caller. -/
theorem Decides.snoc {past : List Moment} {w v : Waiting} (h : Decides past w)
    (hrun : Waiting.run {} past = some w) {m : Moment} (hm : m ≠ .receive)
    (htaken : v.taken = w.taken) (hfailure : v.failure = w.failure)
    (hresult : v.result = w.result) : Decides (past ++ [m]) v := by
  have hgave : GaveUp (past ++ [m]) ↔ GaveUp past := by
    rw [gaveUp_snoc hrun]
    exact ⟨fun h => h.resolve_right fun h => hm h.1, .inl⟩
  constructor
  · rw [htaken, hresult, hfailure, hgave]
    exact h.concluded
  · rw [htaken, hresult, hgave]
    exact h.waits
  · rw [hresult, hgave]
    exact h.gaveUp

/-- Queue and caller after the moments `past`, with the tasks in these states: every report of the
two is taken, or in the queue, or still owed. -/
structure Accounts (both : List Report) (driver runner : Task) (past : List Moment)
    (w : Waiting) : Prop where
  ran : Waiting.run {} past = some w
  holders : w.tasks = driver.holds + runner.holds
  taken : ∃ got, reports past = got ++ w.queue ∧ got.length = w.taken ∧
    w.failure = got.foldl Waiting.firstFailure none
  made : (reports past ++ (driver.owed ++ runner.owed)).Perm both
  late : w.expired = true ↔ .deadline ∈ past
  decides : Decides past w

namespace Accounts

variable {both : List Report} {driver driver' runner : Task} {past : List Moment} {w : Waiting}

/-- The two tasks have the same part. -/
theorem symm (h : Accounts both driver runner past w) : Accounts both runner driver past w where
  ran := h.ran
  holders := by rw [h.holders, Nat.add_comm]
  taken := h.taken
  made := (List.Perm.append_left _ List.perm_append_comm).trans h.made
  late := h.late
  decides := h.decides

/-- Reports taken, reports in the queue and reports owed are those of the two tasks. -/
theorem length_eq (h : Accounts both driver runner past w) (hboth : both.length = 2) :
    w.taken + w.queue.length + (driver.owed.length + runner.owed.length) = 2 := by
  obtain ⟨got, hreports, hlength, -⟩ := h.taken
  have hmade := h.made.length_eq
  rw [hreports] at hmade
  simp only [List.length_append] at hmade
  omega

theorem start (d r : Report) : Accounts [d, r] (.busy d) (.busy r) [] {} where
  ran := rfl
  holders := rfl
  taken := ⟨[], rfl, rfl, rfl⟩
  made := List.Perm.refl _
  late := ⟨nofun, fun h => absurd h List.not_mem_nil⟩
  decides :=
    { concluded := nofun
      waits := fun _ _ => rfl
      gaveUp := by
        rintro ⟨before, after, v, hsplit, -⟩
        exact absurd hsplit.symm (List.append_ne_nil_of_right_ne_nil _ (List.cons_ne_nil _ _)) }

/-- The deadline has passed when it had passed before, or passes now. -/
theorem deadline_mem_snoc {m : Moment} (hm : m ≠ .deadline) :
    .deadline ∈ past ++ [m] ↔ .deadline ∈ past := by
  rw [List.mem_append, List.mem_singleton]
  exact ⟨fun h => h.resolve_right fun h => hm h.symm, .inl⟩

/-- A moment that reports nothing. -/
theorem reports_snoc {m : Moment} (hm : m.report? = none) :
    reports (past ++ [m]) = reports past := by
  rw [reports_append, reports, reports, List.filterMap_cons_none hm]
  exact List.append_nil _

/-- A task goes on: its report finds room. -/
theorem moves (h : Accounts both driver runner past w) (hboth : both.length = 2) {m : Moment}
    (hm : driver.Moves m driver') :
    ∃ v, w.step m = some v ∧ Accounts both driver' runner (past ++ [m]) v := by
  have hlength := h.length_eq hboth
  cases hm with
  | report r =>
    have hroom : w.queue.length < Waiting.capacity := by
      simp only [Task.owed, List.length_singleton] at hlength
      show w.queue.length < 2
      omega
    have hstep : w.step (.report r) = some { w with queue := w.queue ++ [r] } := if_pos hroom
    obtain ⟨got, hreports, hgot, hfailure⟩ := h.taken
    refine ⟨_, hstep,
      { ran := Waiting.run_snoc h.ran hstep
        holders := h.holders
        taken := ⟨got, ?_, hgot, hfailure⟩
        made := ?_
        late := h.late.trans (deadline_mem_snoc (m := .report r) nofun).symm
        decides := h.decides.snoc h.ran nofun rfl rfl rfl }⟩
    · rw [reports_append, hreports, List.append_assoc]
      rfl
    · rw [reports_append, List.append_assoc]
      exact h.made
  | leave =>
    refine ⟨_, rfl,
      { ran := Waiting.run_snoc h.ran rfl
        holders := ?_
        taken := by rw [reports_snoc rfl]; exact h.taken
        made := by rw [reports_snoc rfl]; exact h.made
        late := h.late.trans (deadline_mem_snoc (m := .leave) nofun).symm
        decides := h.decides.snoc h.ran nofun rfl rfl rfl }⟩
    have hholders := h.holders
    simp only [Task.holds] at hholders ⊢
    omega

/-- The deadline passes. -/
theorem deadline (h : Accounts both driver runner past w) :
    Accounts both driver runner (past ++ [.deadline]) { w with expired := true } where
  ran := Waiting.run_snoc h.ran rfl
  holders := h.holders
  taken := by rw [reports_snoc rfl]; exact h.taken
  made := by rw [reports_snoc rfl]; exact h.made
  late := ⟨fun _ => List.mem_append_right _ List.mem_cons_self, fun _ => rfl⟩
  decides := h.decides.snoc h.ran nofun rfl rfl rfl

/-- A turn in which the caller does nothing. -/
theorem idle (h : Accounts both driver runner past w) (hreceive : w.receive = w)
    (hgave : GaveUp (past ++ [.receive]) ↔ GaveUp past) :
    Accounts both driver runner (past ++ [.receive]) w where
  ran := Waiting.run_snoc h.ran (congrArg some hreceive)
  holders := h.holders
  taken := by rw [reports_snoc rfl]; exact h.taken
  made := by rw [reports_snoc rfl]; exact h.made
  late := h.late.trans (deadline_mem_snoc (m := .receive) nofun).symm
  decides :=
    { concluded := by rw [hgave]; exact h.decides.concluded
      waits := by rw [hgave]; exact h.decides.waits
      gaveUp := by rw [hgave]; exact h.decides.gaveUp }

/-- A caller that waits has not given up and has not taken both reports. -/
theorem of_waits (h : Accounts both driver runner past w) (hresult : w.result = none) :
    w.taken ≠ Waiting.capacity ∧ ¬GaveUp past := by
  constructor
  · intro htaken
    rw [(h.decides.concluded htaken).1] at hresult
    cases hresult
  · intro hgave
    rw [h.decides.gaveUp hgave] at hresult
    cases hresult

/-- A turn in which the caller takes a report. -/
theorem take (h : Accounts both driver runner past w) (hresult : w.result = none) {r : Report}
    {queue : List Report} (hqueue : w.queue = r :: queue) :
    Accounts both driver runner (past ++ [.receive]) (w.take r queue) := by
  have hnot : ¬GaveUp (past ++ [.receive]) := by
    rw [gaveUp_snoc h.ran, hqueue]
    rintro (hgave | ⟨-, -, hempty, -⟩)
    · exact (h.of_waits hresult).2 hgave
    · cases hempty
  have hreceive : w.receive = w.take r queue := by
    rw [Waiting.receive, hresult, hqueue]
  obtain ⟨got, hreports, hgot, hfailure⟩ := h.taken
  refine
    { ran := Waiting.run_snoc h.ran (congrArg some hreceive)
      holders := h.holders
      taken := ⟨got ++ [r], ?_, ?_, ?_⟩
      made := by rw [reports_snoc rfl]; exact h.made
      late := h.late.trans (deadline_mem_snoc (m := .receive) nofun).symm
      decides :=
        { concluded := fun htaken => ⟨if_pos htaken, hnot⟩
          waits := fun htaken _ => if_neg htaken
          gaveUp := fun hgave => absurd hgave hnot } }
  · rw [reports_snoc rfl, hreports, hqueue, List.append_assoc]
    rfl
  · rw [List.length_append, hgot]
    rfl
  · rw [List.foldl_append, ← hfailure]
    rfl

/-- While the caller waits at an empty queue, a report is owed still; so one of the tasks holds the
queue. -/
theorem of_empty (h : Accounts both driver runner past w) (hboth : both.length = 2)
    (hresult : w.result = none) (hqueue : w.queue = []) :
    w.taken < Waiting.capacity ∧ w.tasks ≠ 0 := by
  have htaken := (h.of_waits hresult).1
  have hlength := h.length_eq hboth
  have hdriver := driver.length_owed_le_holds
  have hrunner := runner.length_owed_le_holds
  have hholders := h.holders
  have hcapacity : Waiting.capacity = 2 := rfl
  rw [hqueue] at hlength
  simp only [List.length_nil] at hlength
  constructor
  · omega
  · omega

/-- A turn of the caller when it has concluded. -/
theorem receive_concluded (h : Accounts both driver runner past w) {result : Report}
    (hresult : w.result = some result) :
    Accounts both driver runner (past ++ [.receive]) w.receive := by
  have hreceive : w.receive = w := by rw [Waiting.receive, hresult]
  rw [hreceive]
  refine h.idle hreceive ((gaveUp_snoc (m := .receive) h.ran).trans ⟨?_, .inl⟩)
  rintro (hgave | ⟨-, hroom, -, -⟩)
  · exact hgave
  · -- it has not taken both reports, so it has given up before
    refine Classical.byContradiction fun hnot => ?_
    have hwaits := h.decides.waits (Nat.ne_of_lt hroom) hnot
    rw [hresult] at hwaits
    cases hwaits

/-- A turn in which the caller goes on waiting, or gives up if the deadline has passed. -/
theorem receive_nothing (h : Accounts both driver runner past w) (hboth : both.length = 2)
    (hresult : w.result = none) (hqueue : w.queue = []) :
    Accounts both driver runner (past ++ [.receive]) w.receive := by
  obtain ⟨hroom, htasks⟩ := h.of_empty hboth hresult hqueue
  have hgave := gaveUp_snoc (m := .receive) h.ran
  cases hexpired : w.expired with
  | false =>
    have hreceive : w.receive = w := by
      rw [Waiting.receive, hresult, hqueue]
      dsimp only
      rw [if_neg htasks, hexpired, if_neg Bool.false_ne_true]
    rw [hreceive]
    refine h.idle hreceive (hgave.trans ⟨?_, .inl⟩)
    rintro (hbefore | ⟨-, -, -, hlate⟩)
    · exact hbefore
    · rw [h.late.2 hlate] at hexpired
      cases hexpired
  | true =>
    have hreceive : w.receive = { w with result := some (.error .timeout) } := by
      rw [Waiting.receive, hresult, hqueue]
      dsimp only
      rw [if_neg htasks, hexpired, if_pos rfl]
    have hnow : GaveUp (past ++ [.receive]) :=
      hgave.2 (.inr ⟨rfl, hroom, hqueue, h.late.1 hexpired⟩)
    rw [hreceive]
    exact
      { ran := Waiting.run_snoc h.ran (congrArg some hreceive)
        holders := h.holders
        taken := by rw [reports_snoc rfl]; exact h.taken
        made := by rw [reports_snoc rfl]; exact h.made
        late := h.late.trans (deadline_mem_snoc (m := .receive) nofun).symm
        decides :=
          { concluded := fun hboth => absurd hboth (h.of_waits hresult).1
            waits := fun _ hnot => absurd hnow hnot
            gaveUp := fun _ => rfl } }

/-- The caller has its turn. -/
theorem receive (h : Accounts both driver runner past w) (hboth : both.length = 2) :
    Accounts both driver runner (past ++ [.receive]) w.receive := by
  cases hresult : w.result with
  | some result => exact h.receive_concluded hresult
  | none =>
    cases hqueue : w.queue with
    | cons r queue =>
      have hreceive : w.receive = w.take r queue := by rw [Waiting.receive, hresult, hqueue]
      rw [hreceive]
      exact h.take hresult hqueue
    | nil => exact h.receive_nothing hboth hresult hqueue

/-- A task comes to its end, whatever the caller does. -/
theorem ends (h : Accounts both driver runner past w) (hboth : both.length = 2) :
    ∃ v, Waiting.run w driver.rest = some v ∧
      Accounts both .gone runner (past ++ driver.rest) v := by
  cases driver with
  | busy r =>
    obtain ⟨v, hv, hreported⟩ := h.moves hboth (.report r)
    obtain ⟨u, hu, hgone⟩ := hreported.moves hboth .leave
    refine ⟨u, ?_, ?_⟩
    · show (w.step (.report r)).bind (fun v => (v.step .leave).bind some) = some u
      rw [hv]
      show (v.step .leave).bind some = some u
      rw [hu]
      rfl
    · rw [List.append_assoc] at hgone
      exact hgone
  | reported =>
    obtain ⟨v, hv, hgone⟩ := h.moves hboth .leave
    refine ⟨v, ?_, hgone⟩
    show (w.step .leave).bind some = some v
    rw [hv]
    rfl
  | gone =>
    refine ⟨w, rfl, ?_⟩
    show Accounts both .gone runner (past ++ []) w
    rw [List.append_nil]
    exact h

/-- Both tasks come to their end, and then nobody holds the queue. -/
theorem both_end (h : Accounts both driver runner past w) (hboth : both.length = 2) :
    ∃ v, Waiting.run w (driver.rest ++ runner.rest) = some v ∧ v.tasks = 0 := by
  obtain ⟨v, hv, hdriver⟩ := h.ends hboth
  obtain ⟨u, hu, hrunner⟩ := hdriver.symm.ends hboth
  refine ⟨u, ?_, hrunner.holders⟩
  rw [Waiting.run_append, hv]
  exact hu

/-- Behind the deadline, a turn concludes or takes a report. -/
theorem receive_late (h : Accounts both driver runner past w) (hlate : .deadline ∈ past)
    (hresult : w.receive.result = none) : w.receive.taken = w.taken + 1 := by
  cases hbefore : w.result with
  | some result =>
    rw [Waiting.receive, hbefore] at hresult
    rw [hbefore] at hresult
    cases hresult
  | none =>
    cases hqueue : w.queue with
    | cons r queue =>
      rw [Waiting.receive, hbefore, hqueue]
      rfl
    | nil =>
      rw [Waiting.receive, hbefore, hqueue] at hresult
      dsimp only at hresult
      rw [h.late.2 hlate, if_pos rfl] at hresult
      split at hresult <;> cases hresult

/-- Two turns behind the deadline conclude. -/
theorem receive_twice_late (h : Accounts both driver runner past w) (hboth : both.length = 2)
    (hlate : .deadline ∈ past) : w.receive.receive.result ≠ none := by
  intro hresult
  have hfirst := h.receive hboth
  have hsecond := hfirst.receive hboth
  have hwaits : w.receive.result = none := by
    cases hone : w.receive.result with
    | none => rfl
    | some result =>
      rw [Waiting.receive, hone] at hresult
      rw [hone] at hresult
      cases hresult
  have hmem : .deadline ∈ past ++ [.receive] := List.mem_append_left _ hlate
  have htaken := hfirst.receive_late hmem hresult
  rw [h.receive_late hlate hwaits] at htaken
  have hbound := hsecond.length_eq hboth
  refine (hsecond.of_waits hresult).1 ?_
  show w.receive.receive.taken = 2
  omega

/-- One moment, and those behind it. -/
theorem run_cons {d r : Task} {m : Moment} {ms : List Moment} {u : Waiting}
    (hstep : w.step m = some u)
    (h : ∃ v, Waiting.run u ms = some v ∧ Accounts both d r (past ++ [m] ++ ms) v) :
    ∃ v, Waiting.run w (m :: ms) = some v ∧ Accounts both d r (past ++ m :: ms) v := by
  obtain ⟨v, hv, haccounts⟩ := h
  refine ⟨v, ?_, ?_⟩
  · rw [Waiting.run, hstep]
    exact hv
  · rw [List.append_assoc] at haccounts
    exact haccounts

end Accounts

/-- **What holds at every time.**  In every order, every report finds room, and queue and caller
account for both reports. -/
theorem Schedule.accounts {both : List Report} (hboth : both.length = 2) {driver runner d r : Task}
    {ms : List Moment} (h : Schedule driver runner ms d r) {past : List Moment} {w : Waiting}
    (hpast : Accounts both driver runner past w) :
    ∃ v, Waiting.run w ms = some v ∧ Accounts both d r (past ++ ms) v := by
  induction h generalizing past w with
  | stop driver runner =>
    refine ⟨w, rfl, ?_⟩
    rw [List.append_nil]
    exact hpast
  | driver hmoves _ ih =>
    obtain ⟨u, hu, haccounts⟩ := hpast.moves hboth hmoves
    exact Accounts.run_cons hu (ih haccounts)
  | runner hmoves _ ih =>
    obtain ⟨u, hu, haccounts⟩ := hpast.symm.moves hboth hmoves
    exact Accounts.run_cons hu (ih haccounts.symm)
  | deadline _ ih => exact Accounts.run_cons rfl (ih hpast.deadline)
  | receive _ ih => exact Accounts.run_cons rfl (ih (hpast.receive hboth))

end Runbook.Copy
