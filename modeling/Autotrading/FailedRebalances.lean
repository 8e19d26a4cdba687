import Autotrading.RebalanceRecords

/-!
# The record of a run that failed

`submit` records a failure on the session of the run, without a rollback. A flush or commit
that failed, or a query that aborted the transaction, leaves that session unusable: the
`UPDATE` raises, what it raises is ignored, and the row stays RUNNING. In every other case the
row is FAILED with the message.
-/
namespace Autotrading

open Machine Prog
open Machine.Sys (start)

variable {settings : Settings} {env : Env} {s s' : System} {e : Event} {w : World} {h : Calls}

/-! ## The calls of a run, and its end -/

/-- The run has recorded its end or told of it. -/
def ends : Entry → Bool
  | (_, ⟨.completeRebalance _, .ok _⟩) => true
  | (_, ⟨.failRebalance _ _, .ok _⟩) => true
  | (_, ⟨.rebalanceAlert _ _ _, _⟩) => true
  | _ => false

/-- The run has told of its failure: `submit` returns with `success=False`. -/
def tellsFailure : Entry → Bool
  | (_, ⟨.rebalanceAlert _ false _, _⟩) => true
  | _ => false

/-- The record of a failure has failed in its turn. -/
def recordFailed : Entry → Bool
  | (_, ⟨.failRebalance _ _, .error _⟩) => true
  | _ => false

/-- The run goes on. -/
def Running (h : Calls) : Prop := h.any ends = false

/-- A call has left the session of the run unusable. -/
def sessionBroken (settings : Settings) (h : Calls) : Bool :=
  h.any fun x => failedWith (RebalanceRun.breaksSession settings.aborts) x.2.1 x.2.2

namespace RebalanceRun

/-- The run has come to tell of its failure: it has tried to record it just now, or it could
not. -/
inductive Reports (settings : Settings) (x : RebalanceRun) : Calls → Prop
  | tried {h₀ n msg r} (running : Running h₀) (sound : sessionBroken settings h₀ = false) :
      Reports settings x (h₀ ++ [(n, ⟨.failRebalance x.rebalanceId msg, r⟩)])
  | broken {h₀} (running : Running h₀) (broken : sessionBroken settings h₀ = true) :
      Reports settings x h₀

/-- When a run writes its record, uses its session and tells of a failure. -/
def Records (settings : Settings) (x : RebalanceRun) (h : Calls) : Op → Prop
  | .flushRebalance rid _ => rid = x.rebalanceId ∧ Running h
  | .flushOrder _ => Running h
  | .insertOrders _ => Running h
  | .ordersByIds _ => Running h
  | .completeRebalance rid => rid = x.rebalanceId ∧ Running h
  | .failRebalance rid _ => rid = x.rebalanceId ∧ Running h ∧ sessionBroken settings h = false
  | .rebalanceAlert _ success _ => success = false → Reports settings x h
  | _ => True

/-- The calls of a run before its end. -/
def Goes (x : RebalanceRun) : Op → Prop
  | .flushRebalance rid _ => rid = x.rebalanceId
  | .completeRebalance _ => False
  | .failRebalance _ _ => False
  | .rebalanceAlert _ _ _ => False
  | _ => True

variable {x : RebalanceRun}

theorem Goes.running {o : Op} (ho : x.Goes o) (hr : Running h) (n : ℕ) (r : Except PyExc (Ans o)) :
    Running (h ++ [(n, ⟨o, r⟩)]) := by
  have hend : ends (n, ⟨o, r⟩) = false := by
    cases o
    all_goals first | exact False.elim ho | rfl
  unfold Running at *
  rw [List.any_append, hr]
  simp [hend]

theorem Goes.records {o : Op} (ho : x.Goes o) (hr : Running h) : x.Records settings h o := by
  cases o
  case flushRebalance rid dryRun => exact ⟨ho, hr⟩
  all_goals first | exact False.elim ho | exact hr | exact trivial

theorem along_goes {α : Type} {p : Program α} {post : Calls → Except PyExc α → Prop}
    (hp : Along (fun _ o => x.Goes o) post h p) (hr : Running h) :
    Along (x.Records settings) (fun h' r => Running h' ∧ post h' r) h p := by
  have hkeep := hp.keeping (P := Running) (fun _ o n r hr (ho : x.Goes o) => ho.running hr n r) hr
  refine hkeep.mono ?_ fun _ _ hr => hr
  exact fun h₁ o ho => ho.2.records ho.1

theorem allowsWait_goes (g : OrderGenerator) : g.AllowsWait fun _ o => x.Goes o where
  plain := by
    intro h o ho
    cases o
    all_goals first | exact False.elim ho | exact trivial
  cancel := fun _ _ _ _ => trivial
  queue := fun _ _ _ _ _ => trivial

theorem allows_goes (g : OrderGenerator) (plan : RebalancePlan) :
    g.Allows (fun _ o => x.Goes o) plan where
  toAllowsWait := allowsWait_goes g
  insert := fun _ _ _ => trivial
  cash := fun _ => trivial

/-- The handler records the failure where the session lets it. -/
theorem records_fail {soFar : RebalanceResult} {e : PyExc} (hr : Running h) :
    Safe (x.Records settings) h (x.fail soFar (sessionBroken settings h) e) := by
  have halert : ∀ h', Reports settings x h' → Safe (x.Records settings) h' (do
      Op.perform (.rebalanceAlert x.rebalanceId false e.text)
      pure { soFar with errorMessage := e.text } : Program RebalanceResult) := by
    intro h' hreports
    refine Safe.bind ?_ fun _ _ _ => safe_pure _
    exact safe_perform (o := Op.rebalanceAlert x.rebalanceId false e.text) fun _ => hreports
  unfold fail
  split
  · cases hbroken : sessionBroken settings h with
    | true => exact halert h (.broken hr hbroken)
    | false =>
      have hfail : Along (x.Records settings) (fun h' _ => Reports settings x h') h
          (Op.perform (.failRebalance x.rebalanceId e.text)) :=
        .perform ⟨rfl, hr, hbroken⟩ fun n r => .tried hr hbroken
      have htry : Along (x.Records settings) (fun h' _ => Reports settings x h') h
          (Prog.tryExcept (Op.perform (.failRebalance x.rebalanceId e.text)) fun e' =>
            if e'.isException then pure () else Prog.raise e') := by
        refine hfail.catch fun h' e' _ hreports => ?_
        split
        · exact (along_pure _).mpr hreports
        · exact (along_raise _).mpr hreports
      exact htry.bind_safe fun h₁ _ _ hreports => halert h₁ hreports
  · exact safe_raise _

theorem records_submitAndComplete {d : DiffResult} {sells buys : List OrderRequest}
    (hr : Running h) (hs : ∀ r ∈ sells, OrderGenerator.Made x.rebalanceId h r)
    (hb : ∀ r ∈ buys, OrderGenerator.Made x.rebalanceId h r) :
    Along (x.Records settings) (fun h' r => ∀ e, r = .error e → Running h') h
      (x.submitAndComplete d sells buys) := by
  have horders : Along (fun _ o => x.Goes o) (fun _ _ => True) h
      (x.executor.orderGenerator.submitOrders (x.plan d) sells buys) :=
    OrderGenerator.safe_submitOrders (allows_goes _ (x.plan d)) hs hb
  refine (along_goes horders hr).bind (fun h₁ _ _ hr₁ => ?_) fun h₁ _ _ hr₁ _ _ => hr₁.1
  refine .perform (o := Op.completeRebalance x.rebalanceId) ⟨rfl, hr₁.1⟩ ?_
  rintro n r e rfl
  have hrun := hr₁.1
  unfold Running at *
  rw [List.any_append, hrun]
  rfl

theorem records_submit (hr : Running h) (hsound : sessionBroken settings h = false) :
    Safe (x.Records settings) h (x.submit settings.aborts) := by
  have hdiff : Along (fun _ o => x.Goes o) (fun _ _ => True) h x.positionDiff :=
    safe_positionDiff trivial fun _ => trivial
  unfold submit
  refine Along.watch_seen_bind hsound.symm (along_goes hdiff hr) fun h₁ outcome _ hr₁ => ?_
  cases outcome with
  | error e => exact records_fail hr₁.1
  | ok d =>
    cases hdry : x.dryRun with
    | true => exact safe_pure _
    | false =>
      have hgenerate := along_generate (h := h₁) (d := d)
        (rfl : x.Goes (.flushRebalance x.rebalanceId x.dryRun)) (allowsWait_goes _)
      refine Along.watch_seen_bind rfl (along_goes hgenerate hr₁.1) fun h₂ outcome _ hmade => ?_
      cases outcome with
      | error e => exact records_fail hmade.1
      | ok orders =>
        obtain ⟨hs, hb⟩ := hmade.2 _ _ rfl
        refine Along.watch_seen_bind rfl (records_submitAndComplete hmade.1 hs hb)
          fun h₃ outcome _ hr₃ => ?_
        cases outcome with
        | error e => exact records_fail (hr₃ e rfl)
        | ok _ =>
          have hsuccess : Safe (x.Records settings) h₃
              (Op.perform (.rebalanceAlert x.rebalanceId true "")) :=
            safe_perform (o := Op.rebalanceAlert x.rebalanceId true "") nofun
          exact Safe.bind hsuccess fun _ _ _ => safe_pure _

theorem records_run (hr : Running h) (hsound : sessionBroken settings h = false) :
    Safe (x.Records settings) h (x.run settings.aborts) := by
  refine safe_perform_bind (o := Op.executeStrategy) trivial fun n a => ?_
  have hgoes : x.Goes .executeStrategy := trivial
  refine records_submit (hgoes.running hr n (.ok a)) ?_
  unfold sessionBroken at *
  rw [List.any_append, hsound]
  rfl

/-- The gates end no run and break no session. -/
theorem running_of_gated {force : Bool} (hg : Gated settings force h) :
    Running h ∧ sessionBroken settings h = false := by
  have hdue : ∀ {h₀ : Calls}, Due settings h₀ → Running h₀ ∧ sessionBroken settings h₀ = false := by
    rintro h₀ ⟨⟩
    exact ⟨rfl, rfl⟩
  cases hg with
  | forced due => exact hdue due
  | checked due =>
    obtain ⟨hr, hs⟩ := hdue due
    unfold Running sessionBroken at *
    simp only [List.any_append, hr, hs]
    exact ⟨rfl, rfl⟩

end RebalanceRun

/-- A run keeps its record, and no other task touches one. -/
structure KeepsRecord (settings : Settings) (l : Label) (h : Calls) (o : Op) : Prop where
  run : ∀ x, l.rebalanceRun = some x → x.Records settings h o
  other : l.rebalanceRun = none → ¬ RunCall o

theorem keepsRecord_of_records {α : Type} {l : Label} {x : RebalanceRun} {p : Program α}
    (hl : l.rebalanceRun = some x) (hp : Safe (x.Records settings) h p) :
    Safe (KeepsRecord settings l) h p := by
  refine hp.mono (fun h₁ o ho => ⟨fun x' hx' => ?_, fun hnone => ?_⟩) fun _ _ hr => hr
  · obtain rfl := Option.some.inj (hl.symm.trans hx')
    exact ho
  · rw [hl] at hnone
    cases hnone

theorem program_keepsRecord (l : Label) : Safe (KeepsRecord settings l) [] (l.program settings) := by
  cases hl : l.rebalanceRun with
  | none =>
    refine (program_not_runCall hl).mono (fun h o ho => ⟨fun x hx => ?_, fun _ => ho⟩)
      fun _ _ hr => hr
    rw [hl] at hx
    cases hx
  | some x =>
    refine keepsRecord_of_records hl ?_
    cases l with
    | runRebalance x' =>
      obtain rfl := Option.some.inj hl
      exact RebalanceRun.safe_runRebalance (RebalanceRun.records_run rfl rfl)
    | executeRebalance x' force =>
      obtain rfl := Option.some.inj hl
      refine RebalanceRun.safe_executeRebalance ?_ (fun h hg => ?_) fun _ _ => trivial
      · intro h o ho
        cases o
        all_goals first | exact False.elim ho | exact trivial
      · obtain ⟨hr, hsound⟩ := RebalanceRun.running_of_gated hg
        exact RebalanceRun.records_run hr hsound
    | _ => cases hl

/-! ## The row of a run -/

/-- The record of the end among the calls of a run, RUNNING before there is one. -/
def outcome (h : Calls) : RebalanceStatus × Option String :=
  ((h.filterMap conclusion).getLast?.map (·.2)).getD (.running, none)

theorem outcome_append {y : Entry} :
    outcome (h ++ [y]) = ((conclusion y).map (·.2)).getD (outcome h) := by
  cases hy : conclusion y <;> simp [outcome, hy]

/-- A run that goes on has recorded no end. -/
theorem outcome_of_running (hr : Running h) : outcome h = (.running, none) := by
  have hnone : h.filterMap conclusion = [] := by
    rw [List.filterMap_eq_nil_iff]
    intro y hy
    have hends : ends y = false := by simpa using List.any_eq_false.mp hr y hy
    obtain ⟨n, o, r⟩ := y
    cases o
    case completeRebalance rid =>
      cases r with
      | error e => rfl
      | ok a => cases hends
    case failRebalance rid msg =>
      cases r with
      | error e => rfl
      | ok a => cases hends
    all_goals rfl
  simp [outcome, hnone]

/-- The row of every run reads what the run has recorded. -/
structure Tallied (settings : Settings) (s : System) : Prop where
  kept : Kept (KeepsRecord settings) s
  drawn : Drawn s
  tally : ∀ t ∈ s.tasks, ∀ x, t.label.rebalanceRun = some x → ∀ r ∈ s.state.records,
    r.id = x.rebalanceId → (r.status, r.errorMessage) = outcome t.history

/-- A task that records an end is the run of that row. -/
theorem KeepsRecord.of_conclusion {l : Label} {n : ℕ} {o : Op} {a : Except PyExc (Ans o)}
    {rid : RebalanceId} {read : RebalanceStatus × Option String} (hk : KeepsRecord settings l h o)
    (hc : conclusion (n, ⟨o, a⟩) = some (rid, read)) :
    ∃ x, l.rebalanceRun = some x ∧ rid = x.rebalanceId := by
  cases hl : l.rebalanceRun with
  | none =>
    have hother := hk.other hl
    cases o
    case completeRebalance => exact absurd trivial hother
    case failRebalance => exact absurd trivial hother
    all_goals cases hc
  | some x =>
    have hrun := hk.run x hl
    refine ⟨x, rfl, ?_⟩
    cases o
    case completeRebalance rid' =>
      cases a with
      | error e => cases hc
      | ok a =>
        obtain rfl : rid' = rid := (Prod.mk.inj (Option.some.inj hc)).1
        exact hrun.1
    case failRebalance rid' msg =>
      cases a with
      | error e => cases hc
      | ok a =>
        obtain rfl : rid' = rid := (Prod.mk.inj (Option.some.inj hc)).1
        exact hrun.1
    all_goals cases hc

/-- A task that flushes a row is the run of it, before its end. -/
theorem KeepsRecord.of_flush {l : Label} {rid : RebalanceId} {dryRun : Bool}
    (hk : KeepsRecord settings l h (.flushRebalance rid dryRun)) :
    ∃ x, l.rebalanceRun = some x ∧ rid = x.rebalanceId ∧ Running h := by
  cases hl : l.rebalanceRun with
  | none => exact absurd trivial (hk.other hl)
  | some x => exact ⟨x, rfl, (hk.run x hl).1, (hk.run x hl).2⟩

/-- The tally of a task after a step of its own or of another task. -/
theorem Tallied.step (h : Tallied settings s) {i j : ℕ} {t u : Task} {o : Op} {k}
    (ht : s.tasks[i]? = some t) (hp : t.prog = .call o k) (hu : s.tasks[j]? = some u)
    {x : RebalanceRun} (hx : u.label.rebalanceRun = some x) {r' : Rebalance}
    (hr' : r' ∈ (World.handle env o s.state).2.records) (hid : r'.id = x.rebalanceId) :
    (r'.status, r'.errorMessage) = if i = j
      then outcome (t.history ++ [(s.state.tick, ⟨o, (World.handle env o s.state).1⟩)])
      else outcome u.history := by
  have hkeeps := h.kept.obeys.call ht hp
  have hsame : ∀ x', t.label.rebalanceRun = some x' → x'.rebalanceId = x.rebalanceId → i = j := by
    intro x' hx' hids
    refine h.drawn.once i j t u x.rebalanceId ht hu ?_ (rebalanceId_of_run hx)
    rw [rebalanceId_of_run hx', hids]
  have htally := h.tally u (List.mem_of_getElem? hu) x hx
  rcases World.mem_records_handle hr' with ⟨r, hr, hfollows⟩ | hflushed
  · have hrid : r.id = x.rebalanceId := hfollows.id.symm.trans hid
    have hbefore := htally r hr hrid
    rw [hfollows.read]
    cases hc : conclusion (s.state.tick, ⟨o, (World.handle env o s.state).1⟩) with
    | none =>
      by_cases hij : i = j
      · subst hij
        obtain rfl := Option.some.inj (ht.symm.trans hu)
        rw [if_pos rfl, outcome_append, hc]
        exact hbefore
      · rw [if_neg hij]
        exact hbefore
    | some c =>
      obtain ⟨rid, read⟩ := c
      obtain ⟨x', hx', hrid'⟩ := hkeeps.of_conclusion hc
      by_cases hij : i = j
      · subst hij
        obtain rfl := Option.some.inj (ht.symm.trans hu)
        obtain rfl := Option.some.inj (hx.symm.trans hx')
        rw [if_pos rfl, outcome_append, hc]
        simp [Rebalance.after, hrid, hrid']
      · have hother : r.id ≠ rid := fun heq => hij (hsame x' hx' (by rw [← hrid', ← heq, hrid]))
        rw [if_neg hij]
        simpa [Rebalance.after, hother] using hbefore
  · rw [hflushed.call] at hkeeps
    obtain ⟨x', hx', hrid', hrunning⟩ := hkeeps.of_flush
    have hij := hsame x' hx' (hrid'.symm.trans hid)
    have hnone : conclusion (s.state.tick, ⟨o, (World.handle env o s.state).1⟩) = none := by
      rw [hflushed.call]
      rfl
    rw [if_pos hij, outcome_append, hnone, outcome_of_running hrunning]
    exact hflushed.status

theorem Tallied.change (h : Tallied settings s)
    (hc : Change (autotrading settings env) s e s') : Tallied settings s' where
  kept := h.kept.change program_keepsRecord hc
  drawn := h.drawn.change hc
  tally := by
    intro u' hu' x hx r' hr' hid
    cases hc with
    | idle => exact h.tally u' hu' x hx r' hr' hid
    | launched l state hl =>
      rw [(launch_fields hl).1] at hr'
      rcases List.mem_append.mp hu' with hold | hnew
      · exact h.tally u' hold x hx r' hr' hid
      · obtain rfl := List.mem_singleton.mp hnew
        exact absurd hid (((launch_drawn hl).2 _ (rebalanceId_of_run hx)).2.2 r' hr')
    | stepped i t o k ht hp =>
      obtain ⟨j, hj⟩ := List.getElem?_of_mem hu'
      by_cases hij : i = j
      · subst hij
        rw [List.getElem?_set_self (List.getElem?_eq_some_iff.mp ht).1] at hj
        obtain rfl := Option.some.inj hj
        have hstep := h.step ht hp ht hx hr' hid
        rw [if_pos rfl] at hstep
        exact hstep
      · rw [List.getElem?_set_ne hij] at hj
        have hstep := h.step ht hp hj hx hr' hid
        rw [if_neg hij] at hstep
        exact hstep
    | crashed i t ht =>
      rcases List.mem_or_eq_of_mem_set hu' with hold | rfl
      · exact h.tally u' hold x hx r' hr' hid
      · exact h.tally t (List.mem_of_getElem? ht) x hx r' hr' hid
    | moved a =>
      have hr : r' ∈ (World.ambient a s.state).records := hr'
      rw [(ambient_fields a s.state).1] at hr
      exact h.tally u' hu' x hx r' hr hid

theorem tallied_run (settings : Settings) (env : Env) (w : World) (es : List Event) :
    Tallied settings ((autotrading settings env).run (start w) es) := by
  refine run_invariant (fun s e s' h hc => h.change hc) es ⟨⟨?_, ?_⟩, drawn_start w, ?_⟩
  · intro t ht
    cases ht
  · intro t ht
    cases ht
  · intro t ht
    cases ht

/-! ## Every run -/

/-- After its end a run stores nothing and uses its session no more. -/
theorem RebalanceRun.Records.after_end {x : RebalanceRun} {o : Op}
    (hk : x.Records settings h o) (hend : ¬ Running h) (n : ℕ) (a : Except PyExc (Ans o)) :
    conclusion (n, ⟨o, a⟩) = none ∧
      failedWith (RebalanceRun.breaksSession settings.aborts) o a = false := by
  cases o
  case flushRebalance rid dryRun => exact absurd hk.2 hend
  case completeRebalance rid => exact absurd hk.2 hend
  case failRebalance rid msg => exact absurd hk.2.1 hend
  case flushOrder o => exact absurd hk hend
  case insertOrders os => exact absurd hk hend
  case ordersByIds ids => exact absurd hk hend
  all_goals
    refine ⟨rfl, ?_⟩
    cases a <;> rfl

/-- What a run has recorded when it tells of a failure, and whether its session was broken,
stay as they are. -/
theorem Tallied.at_alert (h : Tallied settings s) {t : Task} (ht : t ∈ s.tasks)
    {x : RebalanceRun} (hx : t.label.rebalanceRun = some x) {h₁ h₂ : Calls} {n : ℕ}
    {rid : RebalanceId} {msg : String} {a : Except PyExc Unit}
    (hh : t.history = h₁ ++ (n, ⟨.rebalanceAlert rid false msg, a⟩) :: h₂) :
    RebalanceRun.Reports settings x h₁ ∧ outcome t.history = outcome h₁ ∧
      sessionBroken settings t.history = sessionBroken settings h₁ := by
  have hafter : ∀ y ∈ h₂, conclusion y = none ∧
      failedWith (RebalanceRun.breaksSession settings.aborts) y.2.1 y.2.2 = false := by
    intro y hy
    obtain ⟨h₃, h₄, rfl⟩ := List.append_of_mem hy
    have hsplit : t.history = (h₁ ++ (n, ⟨.rebalanceAlert rid false msg, a⟩) :: h₃) ++ y :: h₄ := by
      rw [hh, List.append_assoc, List.cons_append]
    have hrecords := (h.kept.recorded t ht _ y h₄ hsplit).run x hx
    refine hrecords.after_end ?_ y.1 y.2.2
    unfold Running
    rw [List.any_append, List.any_cons]
    simp [ends]
  have hreports := (h.kept.recorded t ht h₁ _ h₂ hh).run x hx
  refine ⟨hreports rfl, ?_, ?_⟩
  · have hnone : h₂.filterMap conclusion = [] :=
      List.filterMap_eq_nil_iff.mpr fun y hy => (hafter y hy).1
    have hcalls : t.history.filterMap conclusion = h₁.filterMap conclusion := by
      rw [hh, List.filterMap_append, List.filterMap_cons, hnone]
      simp [conclusion]
    rw [outcome, hcalls, outcome]
  · have hfine : sessionBroken settings h₂ = false := by
      rw [sessionBroken, List.any_eq_false]
      intro y hy
      simp [(hafter y hy).2]
    have hquiet : sessionBroken settings [(n, ⟨.rebalanceAlert rid false msg, a⟩)] = false := by
      cases a <;> rfl
    have hsplit : t.history = h₁ ++ [(n, ⟨.rebalanceAlert rid false msg, a⟩)] ++ h₂ := by simp [hh]
    unfold sessionBroken at *
    rw [hsplit, List.any_append, List.any_append, hfine, hquiet, Bool.or_false, Bool.or_false]

theorem exists_of_tellsFailure (hh : h.any tellsFailure = true) :
    ∃ n rid msg a h₁ h₂, h = h₁ ++ (n, ⟨.rebalanceAlert rid false msg, a⟩) :: h₂ := by
  obtain ⟨⟨n, o, a⟩, hmem, htells⟩ := List.any_eq_true.mp hh
  obtain ⟨h₁, h₂, hsplit⟩ := List.append_of_mem hmem
  cases o
  case rebalanceAlert rid success msg =>
    cases success with
    | true => cases htells
    | false => exact ⟨n, rid, msg, a, h₁, h₂, hsplit⟩
  all_goals cases htells

/-- In every run of the system, when the run of a rebalance has told of its failure, and the
record of it, where it was tried, did not fail in its turn: the row is FAILED with a message
exactly when no call had left the session unusable. -/
theorem failed_iff_session_sound (settings : Settings) (env : Env) (w : World) (es : List Event)
    {t : Task} (ht : t ∈ ((autotrading settings env).run (start w) es).tasks) {x : RebalanceRun}
    (hx : t.label.rebalanceRun = some x) (htold : t.history.any tellsFailure = true)
    (hback : t.history.any recordFailed = false) {r : Rebalance}
    (hr : r ∈ ((autotrading settings env).run (start w) es).state.records)
    (hid : r.id = x.rebalanceId) :
    (r.status = .failed ∧ r.errorMessage.isSome = true) ↔
      sessionBroken settings t.history = false := by
  have htallied := tallied_run settings env w es
  have hread := htallied.tally t ht x hx r hr hid
  obtain ⟨n, rid, msg, a, h₁, h₂, hh⟩ := exists_of_tellsFailure htold
  obtain ⟨hreports, houtcome, hbroken⟩ := htallied.at_alert ht hx hh
  rw [houtcome] at hread
  rw [hbroken]
  cases hreports with
  | broken hrunning hbroken =>
    rw [outcome_of_running hrunning] at hread
    have hstatus : r.status = .running := (Prod.mk.inj hread).1
    simp [hstatus, hbroken]
  | @tried h₀ m msg' b hrunning hsound =>
    cases b with
    | error e =>
      rw [hh] at hback
      simp [recordFailed] at hback
    | ok b =>
      rw [outcome_append] at hread
      obtain ⟨hstatus, hmessage⟩ := Prod.mk.inj hread
      have hfine : sessionBroken settings
          (h₀ ++ [(m, ⟨.failRebalance x.rebalanceId msg', .ok b⟩)]) = false := by
        unfold sessionBroken at *
        rw [List.any_append, hsound]
        rfl
      simp [hstatus, hmessage, hfine]

/-! ## Two failures -/

/-- A run that buys two stocks with 1000 in cash, whose call at tick `n` fails. -/
def failingAt (n : ℕ) : System :=
  (autotrading .sample { Env.quiet with
    availableBuy := fun _ => 1000
    fault := fun m _ => if m = n then some (.other "DBAPIError" "connection reset") else none }).run
  (start (.holding [] [])) (.launch (.runRebalance (.sample 1 [("005930", 100), ("000660", 100)])) ::
    List.replicate 15 (.step 0))

/-- The first task is the run of a rebalance with the property. -/
theorem exists_rebalanceRun {s : System} {p : Task → RebalanceRun → Bool}
    (h : (s.tasks[0]?.any fun t => t.label.rebalanceRun.any (p t)) = true) :
    ∃ t ∈ s.tasks, ∃ x, t.label.rebalanceRun = some x ∧ p t x = true := by
  obtain ⟨t, ht, htask⟩ := (Option.any_eq_true _ _).mp h
  obtain ⟨x, hx, hrun⟩ := (Option.any_eq_true _ _).mp htask
  exact ⟨t, List.mem_of_getElem? ht, x, hx, hrun⟩

/-- The message to the queue for the second order fails: the failure is recorded. -/
theorem failed_iff_session_sound_sample : ∃ t ∈ (failingAt 12).tasks, ∃ x, t.label.rebalanceRun = some x ∧
    ∃ r ∈ (failingAt 12).state.records, r.committed = true ∧
      ((r.status = .failed ∧ r.errorMessage.isSome = true) ↔
        sessionBroken .sample t.history = false) := by
  have hfailed : ((failingAt 12).tasks[0]?.any fun t => t.label.rebalanceRun.any fun x =>
      t.history.any tellsFailure && !t.history.any recordFailed &&
        (failingAt 12).state.records.any fun r => r.committed && r.id = x.rebalanceId) = true := by
    decide +kernel
  obtain ⟨t, hmem, x, hx, hrun⟩ := exists_rebalanceRun hfailed
  simp only [Bool.and_eq_true, Bool.not_eq_true'] at hrun
  obtain ⟨⟨htold, hback⟩, hrecord⟩ := hrun
  obtain ⟨r, hr, hrow⟩ := List.any_eq_true.mp hrecord
  rw [Bool.and_eq_true, decide_eq_true_iff] at hrow
  exact ⟨t, hmem, x, hx, r, hr, hrow.1,
    failed_iff_session_sound _ _ _ _ hmem hx htold hback hr hrow.2⟩

/-- The commit of the second order fails, and only that call: the run ends with
`success=False`, and its row, committed with the first order, stays RUNNING. -/
theorem failed_rebalance_left_running : ∃ t ∈ (failingAt 11).tasks, ∃ x,
    t.label.rebalanceRun = some x ∧ x.dryRun = false ∧ t.history.any tellsFailure = true ∧
      t.prog.isEnded = true ∧ ∃ r ∈ (failingAt 11).state.records, r.id = x.rebalanceId ∧
        r.committed = true ∧ r.status = .running := by
  have hfailed : ((failingAt 11).tasks[0]?.any fun t => t.label.rebalanceRun.any fun x =>
      !x.dryRun && t.history.any tellsFailure && t.prog.isEnded &&
        (failingAt 11).state.records.any fun r =>
          decide (r.id = x.rebalanceId ∧ r.committed = true ∧ r.status = .running)) = true := by
    decide +kernel
  obtain ⟨t, hmem, x, hx, hrun⟩ := exists_rebalanceRun hfailed
  simp only [Bool.and_eq_true, Bool.not_eq_true'] at hrun
  obtain ⟨⟨⟨hdry, htold⟩, hended⟩, hrecord⟩ := hrun
  obtain ⟨r, hr, hrow⟩ := List.any_eq_true.mp hrecord
  exact ⟨t, hmem, x, hx, hdry, htold, hended, r, hr, of_decide_eq_true hrow⟩

end Autotrading
