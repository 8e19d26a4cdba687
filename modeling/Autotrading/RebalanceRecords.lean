import Autotrading.SystemRules
import Autotrading.TrackingCalls

/-!
# The records of rebalances

Only the runs of a rebalance write `rebalances`, each the row under the id it drew, and no
two tasks draw one id. What one call does to the rows is an insert that is flushed, the
commit that shows it, or the record of the end.
-/
namespace Autotrading

open Machine Prog
open Machine.Sys (start)

variable {settings : Settings} {env : Env} {s s' : System} {e : Event} {w : World} {h : Calls}

/-! ## Who makes the calls of a run -/

/-- The calls that only a run of a rebalance and its entries make. -/
def RunCall : Op → Prop
  | .executeStrategy => True
  | .flushRebalance _ _ => True
  | .completeRebalance _ => True
  | .failRebalance _ _ => True
  | .rebalanceAlert _ _ _ => True
  | .lastCompletedRebalance => True
  | .rebalanceInMonth _ => True
  | .acquireRebalanceLock _ => True
  | .releaseRebalanceLock => True
  | _ => False

theorem not_runCall_processOrder (id : OrderId) :
    Safe (fun _ o => ¬ RunCall o) h (ProcessOrder.processOrder settings id) := by
  refine ProcessOrder.safe_processOrder ?_
  constructor
  case submits =>
    intro h order _ hpast
    refine ProcessOrder.safe_submission_of_submits (fun h o _ ho => ?_) hpast
    cases o
    all_goals first | exact False.elim ho | exact fun hrun => hrun
  all_goals
    intros
    exact fun hrun => hrun

/-- The other tasks make none of them. -/
theorem program_not_runCall {l : Label} (hl : l.rebalanceRun = none) :
    Safe (fun _ o => ¬ RunCall o) [] (l.program settings) := by
  cases l with
  | api r =>
    refine OrderRouter.safe_apiProgram ⟨fun h o ho => ?_, fun _ _ _ => id, fun _ _ _ _ => id⟩
    cases o
    all_goals first | exact False.elim ho | exact fun hrun => hrun
  | rebalance g plan =>
    refine OrderGenerator.safe_rebalance ⟨⟨fun h o ho => ?_, fun _ _ _ _ => id, fun _ _ _ _ _ => id⟩,
      fun _ _ _ => id, fun _ => id⟩
    cases o
    all_goals first | exact False.elim ho | exact fun hrun => hrun
  | runRebalance x => cases hl
  | executeRebalance x force => cases hl
  | processOrder id => exact not_runCall_processOrder id
  | processOrderStatus k attempt first =>
    refine ProcessOrderStatus.safe_processOrderStatus (fun h o ho => ?_) (fun _ _ _ _ _ => id)
      k attempt first fun _ _ _ => id
    cases o
    all_goals first | exact False.elim ho | exact fun hrun => hrun
  | captureRebalanceSnapshot rid =>
    refine PortfolioSnapshotService.safe_captureRebalanceSnapshot (fun h o ho => ?_) fun _ _ _ => id
    cases o
    all_goals first | exact False.elim ho | exact fun hrun => hrun
  | recoverOrders =>
    refine Recovery.safe_recoverAllOrders ⟨fun h o ho => ?_, fun _ _ _ _ _ => id, fun _ _ => id⟩
    cases o
    all_goals first | exact False.elim ho | exact fun hrun => hrun

/-! ## One task for a rebalance -/

theorem rebalanceId_of_run {l : Label} {x : RebalanceRun} (hx : l.rebalanceRun = some x) :
    l.rebalanceId = some x.rebalanceId := by
  cases l with
  | runRebalance x' =>
    obtain rfl := Option.some.inj hx
    rfl
  | executeRebalance x' force =>
    obtain rfl := Option.some.inj hx
    rfl
  | _ => cases hx

/-- Every task of a rebalance drew its id, and no two drew the same. -/
structure Drawn (s : System) : Prop where
  stored : ∀ t ∈ s.tasks, ∀ rid, t.label.rebalanceId = some rid → rid ∈ s.state.rebalances
  once : ∀ (i j : ℕ) (t t' : Task) (rid : RebalanceId), s.tasks[i]? = some t →
    s.tasks[j]? = some t' → t.label.rebalanceId = some rid → t'.label.rebalanceId = some rid → i = j

theorem drawn_start (w : World) : Drawn (start w) where
  stored := by intro t ht; cases ht
  once := by
    intro i j t t' rid ht
    cases ht

/-- A launch draws an id, or leaves the ids alone. -/
theorem launch_drawn {l : Label} {w' : World} (hl : World.launch l w = some w') :
    (∀ rid ∈ w.rebalances, rid ∈ w'.rebalances) ∧
      ∀ rid, l.rebalanceId = some rid → rid ∈ w'.rebalances ∧ rid ∉ w.rebalances ∧
        ∀ r ∈ w.records, r.id ≠ rid := by
  unfold World.launch at hl
  split at hl
  · next rid hrid =>
    split at hl
    · next hfresh =>
      obtain rfl := Option.some.inj hl
      refine ⟨fun rid' hrid' => List.mem_cons_of_mem _ hrid', fun rid' hrid' => ?_⟩
      obtain rfl := Option.some.inj (hrid.symm.trans hrid')
      simp only [World.freshRebalance, Bool.and_eq_true, List.all_eq_true, decide_eq_true_eq]
        at hfresh
      exact ⟨List.mem_cons_self, hfresh.1.1, hfresh.2⟩
    · cases hl
  · next hnone =>
    have hsame : w'.rebalances = w.rebalances := by
      split at hl
      · split at hl
        · obtain rfl := Option.some.inj hl
          rfl
        · cases hl
      · obtain rfl := Option.some.inj hl
        rfl
    refine ⟨fun rid hrid => by rwa [hsame], fun rid hrid => ?_⟩
    rw [hnone] at hrid
    cases hrid

/-- Nothing else changes the ids drawn. -/
theorem rebalances_change (hc : Change (autotrading settings env) s e s') {rid : RebalanceId}
    (h : rid ∈ s.state.rebalances) : rid ∈ s'.state.rebalances := by
  cases hc with
  | idle => exact h
  | launched l state hl => exact (launch_drawn hl).1 rid h
  | stepped i t o k ht hp =>
    show rid ∈ (World.handle env o s.state).2.rebalances
    rw [World.rebalances_handle]
    exact h
  | crashed i t ht => exact h
  | moved a =>
    cases a with
    | redeliver m =>
      show rid ∈ (World.ambient (.redeliver m) s.state).rebalances
      simp only [World.ambient]
      split <;> exact h
    | expireRecoveryLock => exact h

theorem Drawn.change (h : Drawn s) (hc : Change (autotrading settings env) s e s') : Drawn s' where
  stored := by
    intro t' ht' rid hrid
    obtain ⟨i, hi⟩ := List.getElem?_of_mem ht'
    rcases hc.label_at hi with ⟨t, ht, hl⟩ | ⟨-, hlaunch, -, -⟩
    · exact rebalances_change hc (h.stored t (List.mem_of_getElem? ht) rid (by rw [hl, hrid]))
    · exact ((launch_drawn hlaunch).2 rid hrid).1
  once := by
    intro i j t t' rid ht ht' hrid hrid'
    rcases hc.label_at ht with ⟨u, hu, hl⟩ | ⟨-, hlaunch, hi, -⟩
    · rcases hc.label_at ht' with ⟨u', hu', hl'⟩ | ⟨-, hlaunch, hj, -⟩
      · exact h.once i j u u' rid hu hu' (by rw [hl, hrid]) (by rw [hl', hrid'])
      · -- the id of the task just launched is fresh
        have hold := h.stored u (List.mem_of_getElem? hu) rid (by rw [hl, hrid])
        exact absurd hold ((launch_drawn hlaunch).2 rid hrid').2.1
    · rcases hc.label_at ht' with ⟨u', hu', hl'⟩ | ⟨-, -, hj, -⟩
      · have hold := h.stored u' (List.mem_of_getElem? hu') rid (by rw [hl', hrid'])
        exact absurd hold ((launch_drawn hlaunch).2 rid hrid).2.1
      · rw [hi, hj]

/-! ## What one event does to the rows -/

/-- Launches and ambient moves leave the rows, the lock and the switch alone. -/
theorem launch_fields {l : Label} {w' : World} (hl : World.launch l w = some w') :
    w'.records = w.records ∧ w'.rebalanceLock = w.rebalanceLock ∧ w'.killSwitch = w.killSwitch := by
  unfold World.launch at hl
  split at hl
  · split at hl
    · obtain rfl := Option.some.inj hl
      exact ⟨rfl, rfl, rfl⟩
    · cases hl
  · split at hl
    · split at hl
      · obtain rfl := Option.some.inj hl
        exact ⟨rfl, rfl, rfl⟩
      · cases hl
    · obtain rfl := Option.some.inj hl
      exact ⟨rfl, rfl, rfl⟩

theorem ambient_fields (m : Move) (w : World) :
    (w.ambient m).records = w.records ∧ (w.ambient m).rebalanceLock = w.rebalanceLock ∧
      (w.ambient m).killSwitch = w.killSwitch := by
  cases m with
  | redeliver m =>
    simp only [World.ambient]
    split <;> exact ⟨rfl, rfl, rfl⟩
  | expireRecoveryLock => exact ⟨rfl, rfl, rfl⟩

/-- The record of the end that a call has stored. -/
def conclusion : Entry → Option (RebalanceId × RebalanceStatus × Option String)
  | (_, ⟨.completeRebalance rid, .ok _⟩) => some (rid, .completed, none)
  | (_, ⟨.failRebalance rid msg, .ok _⟩) => some (rid, .failed, some msg)
  | _ => none

/-- What a row reads after a call with this conclusion. -/
def Rebalance.after (r : Rebalance) :
    Option (RebalanceId × RebalanceStatus × Option String) → RebalanceStatus × Option String
  | some (rid, status, errorMessage) =>
    if r.id = rid then (status, errorMessage) else (r.status, r.errorMessage)
  | none => (r.status, r.errorMessage)

/-- A row after a call: the row before it, with the conclusion of the call. -/
structure Rebalance.Follows (r r' : Rebalance) (c : Option (RebalanceId × RebalanceStatus × Option String)) :
    Prop where
  id : r'.id = r.id
  executedAt : r'.executedAt = r.executedAt
  dryRun : r'.dryRun = r.dryRun
  read : (r'.status, r'.errorMessage) = r.after c

/-- A row that a call has just flushed. -/
structure Rebalance.Flushed (env : Env) (w : World) (o : Op) (r : Rebalance) : Prop where
  call : o = .flushRebalance r.id r.dryRun
  answer : (World.handle env o w).1.isOk = true
  status : (r.status, r.errorMessage) = (.running, none)
  executedAt : r.executedAt = env.transactionStart w.tick

theorem Rebalance.follows_self (r : Rebalance) : r.Follows r none := ⟨rfl, rfl, rfl, rfl⟩

/-- The record of the end is for the row under its id. -/
theorem Rebalance.follows_conclude (r : Rebalance) (rid : RebalanceId) (status : RebalanceStatus)
    (errorMessage : Option String) :
    r.Follows (r.conclude rid status errorMessage) (some (rid, status, errorMessage)) := by
  unfold Rebalance.conclude
  by_cases hid : r.id = rid
  · rw [if_pos hid]
    refine ⟨rfl, rfl, rfl, ?_⟩
    simp [Rebalance.after, hid]
  · rw [if_neg hid]
    refine ⟨rfl, rfl, rfl, ?_⟩
    simp [Rebalance.after, hid]

/-- A commit shows a row and changes nothing else of it. -/
theorem Rebalance.follows_commitWith (r : Rebalance) (os : List Order) :
    r.Follows (r.commitWith os) none := by
  unfold Rebalance.commitWith
  split
  · exact ⟨rfl, rfl, rfl, rfl⟩
  · exact r.follows_self

theorem World.mem_records_handle {o : Op} {r' : Rebalance}
    (hr' : r' ∈ (World.handle env o w).2.records) :
    (∃ r ∈ w.records, r.Follows r' (conclusion (w.tick, ⟨o, (World.handle env o w).1⟩))) ∨
      r'.Flushed env w o := by
  rcases World.handle_cases env w o with ⟨e, he⟩ | he
  · rw [he] at hr' ⊢
    have hnone : conclusion (w.tick, ⟨o, .error e⟩) = none := by cases o <;> rfl
    rw [hnone]
    exact .inl ⟨r', hr', r'.follows_self⟩
  · cases o
    case insertOrders os =>
      rw [he] at hr'
      simp only [World.effect] at hr'
      split at hr'
      · obtain ⟨r, hr, rfl⟩ := List.mem_map.mp hr'
        exact .inl ⟨r, hr, r.follows_commitWith os⟩
      · exact .inl ⟨r', hr', r'.follows_self⟩
    case flushRebalance rid dryRun =>
      rw [he] at hr'
      simp only [World.effect] at hr'
      split at hr'
      · exact .inl ⟨r', hr', r'.follows_self⟩
      · next hnew =>
        rcases List.mem_append.mp hr' with hold | hflushed
        · exact .inl ⟨r', hold, r'.follows_self⟩
        · obtain rfl := List.mem_singleton.mp hflushed
          refine .inr ⟨rfl, ?_, rfl, rfl⟩
          rw [he]
          simp only [World.effect, if_neg hnew]
          rfl
    case completeRebalance rid =>
      rw [he] at hr' ⊢
      obtain ⟨r, hr, rfl⟩ := List.mem_map.mp hr'
      exact .inl ⟨r, hr, r.follows_conclude rid .completed none⟩
    case failRebalance rid msg =>
      rw [he] at hr' ⊢
      obtain ⟨r, hr, rfl⟩ := List.mem_map.mp hr'
      exact .inl ⟨r, hr, r.follows_conclude rid .failed (some msg)⟩
    case selectOrder k =>
      rw [he] at hr'
      cases k <;> exact .inl ⟨r', hr', r'.follows_self⟩
    all_goals
      rw [he] at hr'
      simp only [World.effect] at hr'
      refine .inl ⟨r', ?_, r'.follows_self⟩
      first | exact hr' | (split at hr' <;> exact hr')

end Autotrading
