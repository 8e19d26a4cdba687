import Autotrading.BrokerReports
import Autotrading.TrackingEnds

/-!
# Looks at a rebalance

A cycle that ends its order looks at the orders of the rebalance before it returns, and queues a
capture unless it sees one of them open. It sees the stored rows, but an object that its session
has read before hides the row under its id.
-/
namespace Autotrading.ProcessOrderStatus

open Prog OrderState OrderRepository TrackingSnapshot

variable {h h' : Calls} {cycle : Cycle} {order o : Order} {snapshot : Snapshot}
  {loaded : List Order} {rid : RebalanceId} {x : Entry}

/-- The call stored a result that ends an order. -/
def endsOrder : Entry → Bool
  | (_, ⟨.updateOrder u, .ok true⟩) =>
    storesTracking u.set && decide (u.set.nextStatus ∈ terminalStates)
  | _ => false

/-- The call queued a capture of the rebalance. -/
def captures (rid : RebalanceId) : Entry → Bool
  | (_, ⟨.enqueue (.captureRebalanceSnapshot k) _, .ok _⟩) => k = rid
  | _ => false

/-- With these rows in front of it the cycle sees no order, or one that is open: a row, or an object
read before under the id of another order than its own. -/
def SeesOpen (order : Order) (h : Calls) (rows : List Order) : Prop :=
  rows = [] ∨ ∃ r ∈ rows, ¬ Terminal r.status ∨ ∃ k o, Answered h (.selectOrder k) (some o) ∧
    o.id = r.id ∧ o.id ≠ order.id ∧ ¬ Terminal o.status

/-- After the call `x` a capture is queued, or a look finds an order open. -/
def LookedAfter (rid : RebalanceId) (order : Order) (h₁ : Calls) (x : Entry) (h₂ : Calls) : Prop :=
  h₂.any (captures rid) = true ∨ ∃ h₃ n rows h₄,
    h₂ = h₃ ++ (n, ⟨.ordersByRebalanceId rid, .ok rows⟩) :: h₄ ∧ SeesOpen order (h₁ ++ x :: h₃) rows

/-- So after every call that ends an order. -/
def Looks (rid : RebalanceId) (order : Order) (h : Calls) : Prop :=
  ∀ h₁ x h₂, h = h₁ ++ x :: h₂ → endsOrder x = true → LookedAfter rid order h₁ x h₂

/-! ## Where an order ends -/

theorem looks_of_none (hnone : h.any endsOrder = false) : Looks rid order h := by
  intro h₁ x h₂ hh hx
  rw [hh] at hnone
  simp [hx] at hnone

/-- A single call that ends an order. -/
theorem looks_of_single {h₁ h₂ : Calls} (hbefore : h₁.any endsOrder = false)
    (hafter : h₂.any endsOrder = false) (hlooked : LookedAfter rid order h₁ x h₂) :
    Looks rid order (h₁ ++ x :: h₂) := by
  intro h₃ y h₄ hh hy
  rcases List.append_eq_append_iff.mp hh with ⟨mid, rfl, heq⟩ | ⟨mid, rfl, heq⟩
  · cases mid with
    | nil =>
      obtain ⟨rfl, rfl⟩ := List.cons.inj heq
      rw [List.append_nil]
      exact hlooked
    | cons z mid =>
      obtain ⟨-, rfl⟩ := List.cons.inj heq
      simp [hy] at hafter
  · cases mid with
    | nil =>
      obtain ⟨rfl, rfl⟩ := List.cons.inj heq
      rw [List.append_nil] at hlooked
      exact hlooked
    | cons z mid =>
      obtain ⟨rfl, -⟩ := List.cons.inj heq
      simp [hy] at hbefore

/-- The call is no statement. -/
def NoStatement (o : Op) : Prop := ∀ u, o ≠ .updateOrder u

theorem not_endsOrder (hx : NoStatement x.2.1) : endsOrder x = false := by
  obtain ⟨n, o, r⟩ := x
  cases o
  case updateOrder u => exact absurd rfl (hx u)
  all_goals rfl

theorem noStatement_of_loads {o : Op} (ho : Loads o) : NoStatement o := by
  rintro u rfl
  exact ho

/-- A part without statements ends no order. -/
theorem Along.ends_none {α : Type} {post : Calls → Except PyExc α → Prop} {p : Program α}
    (hp : Along (fun _ o => NoStatement o) post h p) :
    Along (fun _ _ => True)
      (fun h' r => (∃ c, h' = h ++ c ∧ c.any endsOrder = false) ∧ post h' r) h p := by
  refine (hp.entries fun _ _ ho => ho).mono (fun _ _ _ => trivial) ?_
  rintro h' r ⟨⟨c, hh, hall⟩, hpost⟩
  refine ⟨⟨c, hh, ?_⟩, hpost⟩
  rw [List.any_eq_false]
  intro y hy
  simp [not_endsOrder (hall y hy)]

/-! ## The look -/

/-- A look through the session at what the rebalance's rows show: an order is open, or a capture
is queued. -/
def Looked (rid : RebalanceId) (loaded : List Order) (h h' : Calls) : Prop :=
  ∃ n rows, (h' = h ++ [(n, ⟨.ordersByRebalanceId rid, .ok rows⟩)] ∧
      (rows = [] ∨ ∃ r ∈ rows, ¬ Terminal ((loaded.find? fun o => o.id = r.id).getD r).status)) ∨
    ∃ m, h' = h ++ [(n, ⟨.ordersByRebalanceId rid, .ok rows⟩),
      (m, ⟨.enqueue (.captureRebalanceSnapshot rid) 0, .ok ()⟩)]

theorem along_trigger (hrid : o.rebalanceId = some rid) :
    Along (fun _ _ => True) (fun h' r => r = .ok () → Looked rid loaded h h') h
      (triggerRebalanceSnapshotIfCompleted o loaded) := by
  unfold triggerRebalanceSnapshotIfCompleted getOrdersByRebalanceId
  simp only [hrid]
  refine Along.catch ?_ ?_
  · have hread : Along (fun _ _ => True)
        (fun h' r => ∃ n, h' = h ++ [(n, ⟨.ordersByRebalanceId rid, r⟩)]) h
        (Op.perform (.ordersByRebalanceId rid)) := along_perform_true fun n r => ⟨n, rfl⟩
    refine hread.bind ?_ ?_
    · rintro h₁ rows - ⟨n, rfl⟩
      split
      · refine along_perform_true (o := Op.enqueue _ _) ?_
        intro m r hr
        rw [hr]
        exact ⟨n, rows, .inr ⟨m, by simp⟩⟩
      · next hnot =>
        rw [along_pure]
        intro _
        refine ⟨n, rows, .inl ⟨rfl, ?_⟩⟩
        by_contra hall
        push Not at hall
        refine hnot ⟨by simpa using hall.1, ?_⟩
        intro o ho
        obtain ⟨r, hr, rfl⟩ := List.mem_map.mp ho
        exact (mem_terminalStatuses _).mpr (hall.2 r hr)
    · intro h₁ e _ _ he
      cases he
  · intro h₁ e _ _
    refine (along_true _).bind ?_ ?_
    · intro h₂ a _ _
      simp
    · intro h₂ e _ _ he
      cases he

/-- A look by a cycle whose own object shows the end. -/
theorem along_trigger_looks {h₁ c : Calls} (hrid : o.rebalanceId = some rid) (ho : o.id = order.id)
    (hend : Terminal o.status) (hbefore : h₁.any endsOrder = false) (hc : c.any endsOrder = false)
    (hloaded : ReadIn (h₁ ++ x :: c) loaded) :
    Along (fun _ _ => True) (fun h' r => r = .ok () → Looks rid order h') (h₁ ++ x :: c)
      (triggerRebalanceSnapshotIfCompleted o (o :: loaded)) := by
  refine (along_trigger hrid).mono (fun _ _ hq => hq) ?_
  intro h' r hlooked hr
  obtain ⟨n, rows, ⟨rfl, hopen⟩ | ⟨m, rfl⟩⟩ := hlooked hr
  · rw [List.append_assoc, List.cons_append]
    refine looks_of_single hbefore (by simp [hc, endsOrder]) (.inr ⟨c, n, rows, [], rfl, ?_⟩)
    refine hopen.imp id ?_
    rintro ⟨r, hr, hlive⟩
    refine ⟨r, hr, ?_⟩
    cases hf : (o :: loaded).find? fun o => o.id = r.id with
    | none =>
      rw [hf] at hlive
      exact .inl hlive
    | some p =>
      rw [hf] at hlive
      have hid : p.id = r.id := by simpa using List.find?_some hf
      have hother : p.id ≠ order.id := by
        intro hown
        have hfirst : (o :: loaded).find? (fun o => o.id = r.id) = some o :=
          List.find?_cons_of_pos (by simp [ho, ← hown, hid])
        rw [hfirst] at hf
        obtain rfl := Option.some.inj hf
        exact hlive hend
      have hmem := List.mem_of_find?_eq_some hf
      obtain rfl | hmem := List.mem_cons.mp hmem
      · exact absurd ho hother
      · obtain ⟨k, hread⟩ := hloaded p hmem
        exact .inr ⟨k, p, hread, hid, hother, hlive⟩
  · rw [List.append_assoc, List.cons_append]
    exact looks_of_single hbefore (by simp [hc, endsOrder]) (.inl (by simp [captures]))

/-- A look by a cycle that has ended nothing. -/
theorem along_trigger_none (hrid : o.rebalanceId = some rid) (hnone : h.any endsOrder = false) :
    Along (fun _ _ => True) (fun h' r => r = .ok () → Looks rid order h') h
      (triggerRebalanceSnapshotIfCompleted o loaded) := by
  refine (along_trigger hrid).mono (fun _ _ hq => hq) ?_
  intro h' r hlooked hr
  refine looks_of_none ?_
  obtain ⟨n, rows, ⟨rfl, -⟩ | ⟨m, rfl⟩⟩ := hlooked hr
  · simp [hnone, endsOrder]
  · simp [hnone, endsOrder]

/-! ## The cycle -/

theorem along_publish_none :
    Along (fun _ _ => True) (fun h' r => (∃ c, h' = h ++ c ∧ c.any endsOrder = false) ∧
      ∀ os, r = .ok os → ReadIn h' os) h (publishOrderUpdate order) :=
  Along.ends_none (along_publishOrderUpdate fun _ _ ho => noStatement_of_loads ho)

theorem along_adjustParent_none (hfilled : order.filledQty = snapshot.result.filledQty) :
    Along (fun _ _ => True) (fun h' r => (∃ c, h' = h ++ c ∧ c.any endsOrder = false) ∧
      ∀ os, r = .ok (some os) → ReadIn h' os) h (adjustParent order snapshot) :=
  Along.ends_none (along_adjustParent (fun _ _ ho => noStatement_of_loads ho) hfilled)

/-- A cycle that gives its order the status TIMEOUT. -/
theorem along_timeoutOrder_looks (hrid : o.rebalanceId = some rid) (ho : o.id = order.id)
    (htracked : o.status ∈ trackingTargetStatuses) (hnone : h.any endsOrder = false)
    (hloaded : ReadIn h loaded) :
    Along (fun _ _ => True) (fun h' r => r = .ok () → Looks rid order h') h
      (timeoutOrder cycle o snapshot loaded) := by
  have hselects : (trackingUpdate o.id trackingTargetStatuses
      (timeoutResult cycle snapshot.result)).selects o = true := by
    rw [OrderUpdate.selects_iff]
    refine ⟨rfl, ?_⟩
    rintro statuses ⟨⟩
    exact htracked
  have hupdate : Along (fun _ _ => True) (fun h' r => ∃ n, h' = h ++ [(n, ⟨.updateOrder
      (trackingUpdate o.id trackingTargetStatuses (timeoutResult cycle snapshot.result)), r⟩)]) h
      (Op.perform (.updateOrder (trackingUpdate o.id trackingTargetStatuses
        (timeoutResult cycle snapshot.result)))) := along_perform_true fun n r => ⟨n, rfl⟩
  unfold timeoutOrder updateOrderTrackingResult cancelAfterTimeout newCancelOrderId
  simp only [OrderUpdate.refresh, hselects, if_true, raise_bind]
  refine hupdate.bind ?_ ?_
  · rintro h₁ matched - ⟨n, rfl⟩
    refine along_publish_none.bind ?_ ?_
    · rintro h₂ published hh₂ ⟨⟨c, rfl, hc⟩, hpublished⟩
      have hread : ReadIn (h ++ [(n, ⟨.updateOrder (trackingUpdate o.id trackingTargetStatuses
          (timeoutResult cycle snapshot.result)), .ok matched⟩)] ++ c) (loaded ++ published) :=
        (hloaded.mono ((List.prefix_append _ _).trans hh₂)).append (hpublished _ rfl)
      have hlook : Along (fun _ _ => True) (fun h' r => r = .ok () → Looks rid order h')
          (h ++ [(n, ⟨.updateOrder (trackingUpdate o.id trackingTargetStatuses
            (timeoutResult cycle snapshot.result)), .ok matched⟩)] ++ c)
          (triggerRebalanceSnapshotIfCompleted ((trackingUpdate o.id trackingTargetStatuses
            (timeoutResult cycle snapshot.result)).set.apply o)
            ((trackingUpdate o.id trackingTargetStatuses
              (timeoutResult cycle snapshot.result)).set.apply o :: (loaded ++ published))) := by
        cases matched with
        | true =>
          rw [List.append_assoc, List.singleton_append] at hread ⊢
          refine along_trigger_looks (by simpa using hrid) (by simpa using ho) ?_ hnone hc hread
          rw [SetClause.apply_status]
          exact show Terminal .timeout by decide
        | false => exact along_trigger_none (by simpa using hrid) (by simp [hnone, hc, endsOrder])
      split
      · exact hlook
      · exact hlook
    · intro h₂ e _ _ he
      cases he
  · intro h₁ e _ _ he
    cases he

/-- Step 9 of an order that has not ended. -/
theorem along_retrack_looks (hrid : o.rebalanceId = some rid) (ho : o.id = order.id)
    (htracked : o.status ∈ trackingTargetStatuses) (hnone : h.any endsOrder = false)
    (hloaded : ReadIn h loaded) :
    Along (fun _ _ => True) (fun h' r => r = .ok () → Looks rid order h') h
      (retrack cycle o snapshot loaded) := by
  unfold retrack
  split
  · rw [along_pure]
    intro _
    exact looks_of_none hnone
  · split
    · exact along_timeoutOrder_looks hrid ho htracked hnone hloaded
    · refine along_perform_true (o := Op.enqueue _ _) ?_
      intro n r _
      refine looks_of_none ?_
      simp [hnone, endsOrder]

/-- A status that the state machine allows and that is not the end is a tracked one. -/
theorem tracked_of_live {status : OrderStatus} (htracked : order.status ∈ trackingTargetStatuses)
    (hallowed : canTransition order.status status = true) (hlive : ¬ Terminal status) :
    status ∈ trackingTargetStatuses := by
  revert htracked hallowed hlive
  cases order.status <;> cases status <;> decide

theorem along_storeSnapshot_looks (hrid : order.rebalanceId = some rid)
    (htracked : order.status ∈ trackingTargetStatuses) (hnone : h.any endsOrder = false) :
    Along (fun _ _ => True) (fun h' r => r = .ok () → Looks rid order h') h
      (storeSnapshot cycle order snapshot) := by
  unfold storeSnapshot updateOrderTrackingResult
  have hrollback : ∀ h' : Calls, h'.any endsOrder = false →
      Along (fun _ _ => True) (fun h' r => r = .ok () → Looks rid order h') h'
        (Op.perform .rollback) := by
    intro h' hnone'
    refine along_perform_true (o := Op.rollback) ?_
    intro n r _
    refine looks_of_none ?_
    simp [hnone', endsOrder]
  by_cases hallowed : canTransition order.status snapshot.result.nextStatus = true
  case neg =>
    rw [if_pos (by simp [hallowed])]
    exact hrollback h hnone
  rw [if_neg (by simp [hallowed])]
  have hupdate : Along (fun _ _ => True) (fun h' r => ∃ n, h' = h ++ [(n, ⟨.updateOrder
      (trackingUpdate order.id (expectedStatuses order.status) snapshot.result), r⟩)]) h
      (Op.perform (.updateOrder (trackingUpdate order.id (expectedStatuses order.status)
        snapshot.result))) := along_perform_true fun n r => ⟨n, rfl⟩
  have hraised : ∀ (h' : Calls) (e : PyExc),
      (.error e : Except PyExc Unit) = .ok () → Looks rid order h' := by
    intro h' e he
    cases he
  refine hupdate.bind ?_ fun h₁ e _ _ => hraised h₁ e
  rintro h₁ updated - ⟨n, rfl⟩
  cases updated with
  | false => exact hrollback _ (by simp [hnone, endsOrder])
  | true =>
    have hselects := expectedStatuses_selects htracked snapshot.result
    simp only [OrderUpdate.refresh, hselects, if_true, Bool.not_true, Bool.false_eq_true, if_false]
    refine ((along_adjustParent_none rfl).and_post (along_adjustParent_returns rfl)).bind ?_
      fun h₂ e _ _ => hraised h₂ e
    rintro h₂ loaded - ⟨⟨⟨c, rfl, hc⟩, hloaded⟩, hsome⟩
    cases loaded with
    | none => exact absurd rfl hsome
    | some loaded =>
      have hcommit : ∀ h' : Calls, Along (fun _ _ => True)
          (fun h₃ r => ∃ m, h₃ = h' ++ [(m, ⟨.commit, r⟩)]) h' (Op.perform .commit) :=
        fun h' => along_perform_true fun m r => ⟨m, rfl⟩
      refine (hcommit _).bind ?_ fun h₃ e _ _ => hraised h₃ e
      rintro h₃ ⟨⟩ - ⟨m, rfl⟩
      refine along_publish_none.bind ?_ fun h₄ e _ _ => hraised h₄ e
      rintro h₄ published hh₄ ⟨⟨c', rfl, hc'⟩, hpublished⟩
      have hread := ((hloaded _ rfl).mono ((List.prefix_append _ _).trans hh₄)).append
        (hpublished _ rfl)
      simp only [List.append_assoc, List.singleton_append] at hread ⊢
      have hquiet : (c ++ (m, (⟨.commit, .ok ()⟩ : (o : Op) × Except PyExc (Ans o))) :: c').any
          endsOrder = false := by
        simp [hc, hc', endsOrder]
      by_cases hend : snapshot.result.nextStatus ∈ terminalStatuses
      · rw [if_pos hend]
        have hterminal := (mem_terminalStatuses _).mp hend
        have hid : ((trackingUpdate order.id (expectedStatuses order.status)
            snapshot.result).set.apply order).id = order.id := by simp
        refine (along_trigger_looks (by simpa using hrid) hid ?_ hnone hquiet hread).bind ?_
          fun h₅ e _ _ => hraised h₅ e
        · rw [SetClause.apply_status]
          exact hterminal
        · intro h₅ _ _ hlooks
          rw [retrack, if_pos hend, along_pure]
          exact fun _ => hlooks rfl
      · rw [if_neg hend]
        have hlive := fun hterminal => hend ((mem_terminalStatuses _).mpr hterminal)
        refine along_retrack_looks (by simpa using hrid) (by simp) ?_ ?_ hread
        · rw [SetClause.apply_status]
          exact tracked_of_live htracked hallowed hlive
        · have hstored : snapshot.result.nextStatus ∉ terminalStates := hlive
          simp [hnone, hc, hc', endsOrder, hstored, trackingUpdate, SetClause.nextStatus]

/-- What a cycle observes of its order it asks for without a statement. -/
theorem noStatement_observe : Safe (fun _ o => NoStatement o) h (observe order) := by
  have hquiet : ∀ (h' : Calls) (o : Op), NoStatement o →
      Safe (fun _ o => NoStatement o) h' o.perform := fun h' o ho => safe_perform ho
  unfold observe TradeService.getDailyOrderExecutions KisOrder.getDailyOrderExecutions
    existsChildOrders
  refine Safe.bind (hquiet h _ fun u => by simp) fun h₁ _ _ => ?_
  refine Safe.bind (safe_dailyOrderExecutions _ fun h' _ u => by simp) fun h₂ answer _ => ?_
  dsimp only
  split
  · exact Safe.bind (hquiet h₂ _ fun u => by simp) fun h₃ _ _ => safe_ofExcept _
  · exact Safe.bind (safe_pure false) fun h₃ _ _ => safe_ofExcept _

/-- A cycle that returns has looked at the rebalance after it ended the order. -/
theorem along_trackOrder_looks (cycle : Cycle) (hrid : order.rebalanceId = some rid)
    (hnone : h.any endsOrder = false) :
    Along (fun _ _ => True) (fun h' r => r = .ok () → Looks rid order h') h
      (trackOrder cycle order) := by
  by_cases htracked : order.status ∈ trackingTargetStatuses
  case neg =>
    rw [trackOrder, if_pos htracked, along_pure]
    exact fun _ => looks_of_none hnone
  by_cases hnumber : Python.truthy order.brokerOrderNo = true
  case neg =>
    rw [trackOrder, if_neg (not_not.mpr htracked), if_pos (by simp [hnumber]), along_pure]
    exact fun _ => looks_of_none hnone
  rw [trackOrder_eq cycle htracked hnumber]
  refine (Along.ends_none noStatement_observe).bind ?_ ?_
  · rintro h₁ snapshot - ⟨⟨c, rfl, hc⟩, -⟩
    exact along_storeSnapshot_looks hrid htracked (by simp [hnone, hc])
  · intro h₁ e _ _ he
    cases he

/-! ## The whole execution -/

/-- Behind the read of its order the cycle raises an exception, which its handlers then meet. -/
def trackingRaises : Label → Calls → Bool
  | .processOrderStatus _ attempt first,
      (_, ⟨.now, .ok now⟩) :: (_, ⟨.selectOrder _, .ok (some order)⟩) :: calls =>
    match (replay (trackOrder (cycleAt attempt first now) order) calls).1 with
    | .raise _ => true
    | _ => false
  | _, _ => false

/-- A cycle at its end that has ended its order and has raised nothing looked at the rebalance. -/
def LooksBack (rid : RebalanceId) (l : Label) (h : Calls) : Prop :=
  ∀ id attempt first, l = .processOrderStatus id attempt first → h.any endsOrder = true →
    trackingRaises l h = false → ∃ order, Answered h (.selectOrder id) (some order) ∧
      (order.rebalanceId = some rid → Looks rid order h)

theorem noStatement_handleError {e : PyExc} :
    Safe (fun _ o => NoStatement o) h (handleError cycle none e) := by
  have hrollback : Safe (fun _ o => NoStatement o) h (Op.perform .rollback) :=
    safe_perform fun u => by simp
  have hrequeue : ∀ h' : Calls, Safe (fun _ o => NoStatement o) h'
      (requeueOrderTracking none cycle) := by
    intro h'
    unfold requeueOrderTracking
    split
    · exact safe_pure ()
    · exact safe_perform fun u => by simp
  unfold handleError handleKisOrderError handleException
  split
  · refine Safe.bind hrollback fun h₁ _ _ => ?_
    split
    · exact hrequeue h₁
    · exact safe_raise _
  · refine Safe.bind hrollback fun h₁ _ _ => ?_
    split
    · exact hrequeue h₁
    · exact safe_raise _

theorem along_processOrderStatus_looks (rid : RebalanceId) (id : Option OrderId) (attempt : ℕ)
    (first : Option Instant) :
    Along (fun _ _ => True) (fun h _ => LooksBack rid (.processOrderStatus id attempt first) h) []
      (processOrderStatus id attempt first) := by
  have hquiet : ∀ h : Calls, h.any endsOrder = false →
      LooksBack rid (.processOrderStatus id attempt first) h := by
    intro h hnone id attempt first _ hends
    rw [hnone] at hends
    cases hends
  unfold processOrderStatus getOrderById
  have hnow : Along (fun _ _ => True) (fun h r => ∃ n, h = [(n, ⟨.now, r⟩)]) []
      (Op.perform .now) := along_perform_true fun n r => ⟨n, rfl⟩
  refine hnow.bind ?_ ?_
  case refine_2 =>
    rintro h e - ⟨n, rfl⟩
    exact hquiet _ rfl
  rintro h now - ⟨n, rfl⟩
  have hselect : Along (fun _ _ => True) (fun h r => ∃ m, h = [(n, ⟨.now, .ok now⟩),
      (m, ⟨.selectOrder id, r⟩)]) [(n, ⟨.now, .ok now⟩)] (Op.perform (.selectOrder id)) :=
    along_perform_true fun m r => ⟨m, rfl⟩
  refine hselect.attempt ?_
  rintro h r - ⟨m, rfl⟩
  cases r with
  | error e =>
    refine (Along.ends_none noStatement_handleError).mono (fun _ _ hq => hq) ?_
    rintro h' r ⟨⟨c, rfl, hc⟩, -⟩
    exact hquiet _ (by simp [hc, endsOrder])
  | ok found =>
    cases found with
    | none => exact (along_pure ()).mpr (hquiet _ rfl)
    | some order =>
      have hread : ∀ c : Calls, Answered ([(n, ⟨.now, .ok now⟩),
          (m, ⟨.selectOrder id, .ok (some order)⟩)] ++ c : Calls) (.selectOrder id) (some order) :=
        fun c => ⟨m, by simp⟩
      by_cases hrid : order.rebalanceId = some rid
      case neg =>
        refine along_kept ?_ _
        rintro h' _ ⟨c, rfl⟩ id' attempt' first' ⟨⟩ _ _
        exact ⟨order, hread c, fun hrid' => absurd hrid' hrid⟩
      refine (along_trackOrder_looks (cycleAt attempt first now) hrid rfl).replayed.attempt ?_
      rintro h₁ r - ⟨⟨c, rfl, hreplay⟩, hlooks⟩
      cases r with
      | ok _ =>
        refine (along_ret ()).mpr ?_
        rintro id' attempt' first' ⟨⟩ _ _
        exact ⟨order, hread c, fun _ => hlooks rfl⟩
      | error e =>
        refine along_kept ?_ _
        rintro h' _ ⟨c', rfl⟩ id' attempt' first' ⟨⟩ _ hraises
        have hraised : (replay (trackOrder (cycleAt attempt first now) order) (c ++ c')).1 =
            .raise e := by
          rw [replay_append hreplay c']
          rfl
        simp [trackingRaises, hraised] at hraises

theorem looksBack_program {settings : Settings} (rid : RebalanceId) (l : Label) :
    Along (fun _ _ => True) (fun h _ => LooksBack rid l h) [] (l.program settings) := by
  by_cases hl : ∃ id attempt first, l = .processOrderStatus id attempt first
  · obtain ⟨id, attempt, first, rfl⟩ := hl
    exact along_processOrderStatus_looks rid id attempt first
  · refine along_kept ?_ _
    intro h _ _ id attempt first hl'
    exact absurd ⟨id, attempt, first, hl'⟩ hl

end Autotrading.ProcessOrderStatus
