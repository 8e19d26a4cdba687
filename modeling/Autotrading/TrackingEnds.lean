import Autotrading.EndedOrders
import Autotrading.TrackingChains

/-!
# The last cycle of a chain

A cycle that ends without queuing a further one has stored a terminal status, or it has
given its order up: it could not read it, found no broker number, met a status the state
machine refuses, an exception its handlers do not survive, or a passing error when the
window was over. The handlers end such a chain without a word on the order.
-/
namespace Autotrading.ProcessOrderStatus

open Machine Prog OrderState OrderRepository TrackingSnapshot
open Machine.Sys (start)

variable {h : Calls} {id : OrderId} {attempt : ℕ} {first : Option Instant} {cycle : Cycle}
  {order : Order}

/-- Steps 4 to 6: what the broker's answer says of the order. -/
def observe (order : Order) : Program Snapshot := do
  let _accessToken ← Op.perform .accessToken
  let answer ← TradeService.getDailyOrderExecutions (executionsRequest order)
  let hasChildOrders ←
    if order.orderKind = .new then existsChildOrders order.id else pure false
  ofExcept (extractOrderTrackingSnapshot order answer hasChildOrders)

theorem trackOrder_eq (cycle : Cycle) (htracked : order.status ∈ trackingTargetStatuses)
    (hnumber : Python.truthy order.brokerOrderNo = true) :
    trackOrder cycle order = observe order >>= storeSnapshot cycle order := by
  unfold trackOrder observe
  rw [if_neg (not_not.mpr htracked), hnumber]
  simp only [Bool.not_true, Bool.false_eq_true, if_false, bind_assoc]
  by_cases hkind : order.orderKind = .new
  · simp only [hkind, if_true, bind_assoc]
  · simp only [hkind, if_false]
    rfl

/-! ## How a chain is given up -/

/-- The call failed. -/
def failed : Entry → Bool
  | (_, ⟨_, .error _⟩) => true
  | _ => false

/-- The statement ended the order, or came too late to. -/
def storesEnd (id : OrderId) : Entry → Bool
  | (_, ⟨.updateOrder u, .ok matched⟩) =>
    u.id = id && decide (u.set.nextStatus ∈ terminalStates) &&
      (matched || u.expected = some trackingTargetStatuses)
  | _ => false

/-- The handlers neither queue a further cycle on the exception nor store the order as
FAILED. -/
def unhandled (cycle : Cycle) (e : PyExc) : Bool :=
  if isRetryableTrackingError e then
    (resolveRetrackingDelay cycle.attempt cycle.elapsed).isNone
  else
    match e with
    | .kisOrder _ => false
    | _ => true

/-- The state machine refuses the status the answer gives. -/
def refused (order : Order) (calls : Calls) : Bool :=
  match (replay (observe order) calls).1 with
  | .ret snapshot => !canTransition order.status snapshot.result.nextStatus
  | _ => false

/-- A cycle gives its order up; `calls` are those behind the read of the order. -/
def cycleGivesUp (cycle : Cycle) (order : Order) (calls : Calls) : Bool :=
  if order.status ∈ terminalStates then false
  else if order.status ∉ trackingTargetStatuses then true
  else if !Python.truthy order.brokerOrderNo then true
  else if calls.any (storesEnd order.id) then false
  else
    match replay (trackOrder cycle order) calls with
    | (.raise e, handled) => unhandled cycle e || handled.any failed
    | (.ret _, _) => refused order calls
    | (.call .., _) => false

def cycleAt (attempt : ℕ) (first : Option Instant) (now : Instant) : Cycle :=
  ⟨attempt, first.getD now, max (now - first.getD now) 0⟩

/-- The execution with these calls gives its order up. -/
def givesUp (attempt : ℕ) (first : Option Instant) : Calls → Bool
  | (_, ⟨.now, .error _⟩) :: _ => true
  | (_, ⟨.now, .ok now⟩) :: (_, ⟨.selectOrder _, found⟩) :: calls =>
    match found with
    | .ok (some order) => cycleGivesUp (cycleAt attempt first now) order calls
    | _ => true
  | _ => false

/-- The cycle read the order in a tracked status, and a statement of it matched no row. -/
def Overtaken (h : Calls) (id : OrderId) : Prop :=
  ∃ h₁ n u h₂ k order, h = h₁ ++ (n, ⟨.updateOrder u, .ok false⟩) :: h₂ ∧ u.id = id ∧
    Answered h₁ (.selectOrder k) (some order) ∧ order.id = id ∧
    order.status ∈ trackingTargetStatuses

/-- The order was seen to end, a further cycle is queued, or the cycle was overtaken. -/
def Left (h : Calls) (id : OrderId) : Prop :=
  EndSeen h id ∨ h.any requeues = true ∨ Overtaken h id

/-- What the record of a whole cycle shows. -/
def Ends (id : OrderId) (attempt : ℕ) (first : Option Instant) (h : Calls) : Prop :=
  (∃ order, Answered h (.selectOrder (some id)) (some order) ∧ Left h order.id) ∨
    givesUp attempt first h = true

theorem Left.mono {h' : Calls} (hl : Left h id) (hh : h <+: h') : Left h' id := by
  obtain ⟨h₃, rfl⟩ := hh
  rcases hl with hseen | hsent | ⟨h₁, n, u, h₂, k, order, rfl, hrest⟩
  · exact .inl (hseen.mono (List.prefix_append _ _))
  · exact .inr (.inl (by simp [hsent]))
  · exact .inr (.inr ⟨h₁, n, u, h₂ ++ h₃, k, order, by simp, hrest⟩)

theorem endSeen_of_storesEnd {k : Option OrderId} {calls : Calls}
    (hread : Answered h (.selectOrder k) (some order))
    (htracked : order.status ∈ trackingTargetStatuses)
    (hend : calls.any (storesEnd order.id) = true) : EndSeen (h ++ calls) order.id := by
  obtain ⟨⟨n, o, r⟩, hx, hstored⟩ := List.any_eq_true.mp hend
  obtain ⟨h₁, h₂, hh⟩ := List.append_of_mem hx
  cases o
  case updateOrder u =>
    cases r with
    | error e => cases hstored
    | ok matched =>
      simp only [storesEnd, Bool.and_eq_true, Bool.or_eq_true, decide_eq_true_eq] at hstored
      obtain ⟨⟨hid, hterminal⟩, hmatched | hexpected⟩ := hstored
      · rw [← hid]
        refine .wrote (u := u) ⟨n, ?_⟩ hterminal
        rw [hh, ← hmatched]
        simp
      · rw [← hid]
        have hsplit : h ++ calls = (h ++ h₁) ++ (n, ⟨.updateOrder u, .ok matched⟩) :: h₂ := by
          rw [hh, List.append_assoc]
        exact .late hsplit (hread.append h₁) hid.symm htracked hexpected hterminal
  all_goals cases hstored

/-! ## The end of a cycle that raises nothing -/

section Returns
variable {k : Option OrderId} {snapshot : Snapshot} {loaded : List Order} {o : Order}

theorem along_timeoutOrder_ends (hread : Answered h (.selectOrder k) (some order))
    (htracked : order.status ∈ trackingTargetStatuses) (ho : o.id = order.id) :
    Along (fun _ _ => True) (fun h' r => r = .ok () → EndSeen h' order.id) h
      (timeoutOrder cycle o snapshot loaded) := by
  unfold timeoutOrder updateOrderTrackingResult
  have hupdate : Along (fun _ _ => True) (fun h' r => ∀ matched, r = .ok matched →
      EndSeen h' order.id) h (Op.perform (.updateOrder (trackingUpdate o.id trackingTargetStatuses
        (timeoutResult cycle snapshot.result)))) := by
    refine along_perform_true ?_
    intro n r matched hr
    rw [hr, ← ho]
    exact .late rfl hread ho.symm htracked rfl (show Terminal .timeout by decide)
  refine hupdate.bind ?_ ?_
  · intro h₁ matched hh₁ hseen
    refine along_kept ?_ _
    intro h' r hh' _
    exact (hseen matched rfl).mono hh'
  · intro h₁ e _ _ he
    cases he

theorem along_retrack_ends (hread : Answered h (.selectOrder k) (some order))
    (htracked : order.status ∈ trackingTargetStatuses) (ho : o.id = order.id)
    (hend : Terminal snapshot.result.nextStatus → EndSeen h order.id) :
    Along (fun _ _ => True) (fun h' r => r = .ok () → Left h' order.id) h
      (retrack cycle o snapshot loaded) := by
  unfold retrack
  split
  · next hterminal =>
    rw [along_pure]
    intro _
    exact .inl (hend ((mem_terminalStatuses _).mp hterminal))
  · split
    · exact (along_timeoutOrder_ends hread htracked ho).mono (fun _ _ hq => hq)
        fun h' r hseen hr => .inl (hseen hr)
    · refine along_perform_true (o := Op.enqueue _ _) ?_
      intro n r hr
      rw [hr]
      exact .inr (.inl (by simp [requeues]))

/-- Step 8 does not end the cycle: the object it is made for shows the quantity stored. -/
theorem along_adjustParent_returns (hfilled : o.filledQty = snapshot.result.filledQty) :
    Along (fun _ _ => True) (fun _ r => r ≠ .ok none) h (adjustParent o snapshot) := by
  have hdelta : ¬ 0 < max (snapshot.result.filledQty - o.filledQty) 0 := by
    rw [hfilled]
    simp
  unfold adjustParent adjustCanceledParent adjustModifiedParent
  simp only [updateParentOrderAfterChild_raises, hdelta, if_false]
  split
  · simp
  · split
    · refine (along_true _).bind ?_ (by simp)
      intro h₁ parent _ _
      cases parent with
      | none => simp
      | some parent =>
        cases snapshot.row with
        | none => simp
        | some row =>
          simp only [raise_bind]
          split <;> simp
    · split
      · refine (along_true _).bind ?_ (by simp)
        intro h₁ parent _ _
        cases parent with
        | none => simp
        | some parent => simp
      · simp

theorem along_storeSnapshot_ends (hread : Answered h (.selectOrder k) (some order))
    (htracked : order.status ∈ trackingTargetStatuses) :
    Along (fun _ _ => True) (fun h' r => r = .ok () → Left h' order.id ∨
      canTransition order.status snapshot.result.nextStatus = false) h
      (storeSnapshot cycle order snapshot) := by
  unfold storeSnapshot updateOrderTrackingResult
  by_cases hallowed : canTransition order.status snapshot.result.nextStatus = true
  case neg =>
    rw [if_pos (by simp [hallowed])]
    refine along_perform_true (o := Op.rollback) ?_
    intro n r _
    exact .inr (Bool.eq_false_iff.mpr hallowed)
  have hsel := expectedStatuses_selects htracked snapshot.result
  have hupdate : Along (fun _ _ => True) (fun h' r =>
      (r = .ok false → Overtaken h' order.id) ∧ (r = .ok true → Terminal snapshot.result.nextStatus →
        EndSeen h' order.id)) h (Op.perform (.updateOrder (trackingUpdate order.id
          (expectedStatuses order.status) snapshot.result))) := by
    refine along_perform_true (o := Op.updateOrder _) ?_
    intro n r
    constructor
    · intro hr
      rw [hr]
      exact ⟨h, n, _, [], k, order, rfl, rfl, hread, rfl, htracked⟩
    · intro hr hterminal
      rw [hr]
      exact .wrote (u := trackingUpdate order.id (expectedStatuses order.status) snapshot.result)
        answered_append hterminal
  -- an exception is no return
  have hnot : ∀ (h' : Calls) (e : PyExc), (.error e : Except PyExc Unit) = .ok () →
      Left h' order.id ∨ canTransition order.status snapshot.result.nextStatus = false := by
    intro h' e he
    cases he
  rw [if_neg (by simp [hallowed])]
  refine hupdate.bind ?_ fun h₁ e _ _ => hnot h₁ e
  intro h₁ updated hh₁ hupdated
  cases updated with
  | false =>
    have hleft : Left h₁ order.id := .inr (.inr (hupdated.1 rfl))
    refine along_kept ?_ _
    intro h' r hh' _
    exact .inl (hleft.mono hh')
  | true =>
    simp only [OrderUpdate.refresh, hsel, if_true, Bool.not_true, Bool.false_eq_true, if_false]
    refine (along_adjustParent_returns rfl).bind ?_ fun h₂ e _ _ => hnot h₂ e
    intro h₂ loaded hh₂ hloaded
    cases loaded with
    | none => exact absurd rfl hloaded
    | some loaded =>
      have hrest : ∀ (h' : Calls) (loaded : List Order), h₂ <+: h' →
          Along (fun _ _ => True) (fun h' r => r = .ok () → Left h' order.id ∨
            canTransition order.status snapshot.result.nextStatus = false) h'
            (retrack cycle ((trackingUpdate order.id (expectedStatuses order.status)
              snapshot.result).set.apply order) snapshot loaded) := by
        intro h' loaded hh'
        have hpre : h₁ <+: h' := hh₂.trans hh'
        have hend : Terminal snapshot.result.nextStatus → EndSeen h' order.id :=
          fun hterminal => (hupdated.2 rfl hterminal).mono hpre
        exact (along_retrack_ends (hread.mono (hh₁.trans hpre)) htracked (by simp) hend).mono
          (fun _ _ hq => hq) fun _ _ hleft hr => .inl (hleft hr)
      refine (along_true _).bind ?_ fun h₃ e _ _ => hnot h₃ e
      intro h₃ _ hh₃ _
      refine (along_true _).bind ?_ fun h₄ e _ _ => hnot h₄ e
      intro h₄ published hh₄ _
      split
      · refine (along_true _).bind ?_ fun h₅ e _ _ => hnot h₅ e
        intro h₅ _ hh₅ _
        exact hrest h₅ _ (hh₃.trans (hh₄.trans hh₅))
      · exact hrest h₄ _ (hh₃.trans hh₄)

/-- A cycle that returns has left its order or was refused its status. -/
theorem along_trackOrder_ends (cycle : Cycle) (hread : Answered h (.selectOrder k) (some order))
    (htracked : order.status ∈ trackingTargetStatuses)
    (hnumber : Python.truthy order.brokerOrderNo = true) :
    Along (fun _ _ => True) (fun h' r => r = .ok () → Left h' order.id ∨
      ∃ calls, h' = h ++ calls ∧ refused order calls = true) h (trackOrder cycle order) := by
  rw [trackOrder_eq cycle htracked hnumber]
  refine (along_true (observe order)).replayed.bind ?_ ?_
  · intro h₁ snapshot hh₁ hobserved
    obtain ⟨⟨calls, hcalls, hreplay⟩, -⟩ := hobserved
    refine (along_storeSnapshot_ends (hread.mono hh₁) htracked).extends.mono (fun _ _ hq => hq) ?_
    intro h₂ r hpost hr
    obtain ⟨⟨later, hlater⟩, hpost⟩ := hpost
    rcases hpost hr with hleft | hrefused
    · exact .inl hleft
    · refine .inr ⟨calls ++ later, by rw [← hlater, hcalls, List.append_assoc], ?_⟩
      simp [refused, replay_append hreplay, Prog.ofExcept, hrefused]
  · intro h₁ e _ _ he
    cases he

end Returns

/-! ## The handlers -/

/-- A handled exception ends the order, queues a further cycle or gives the order up. -/
theorem along_handleError_ends {k : Option OrderId} {e : PyExc}
    (hread : Answered h (.selectOrder k) (some order))
    (htracked : order.status ∈ trackingTargetStatuses) :
    Along (fun _ _ => True) (fun h' _ => Left h' order.id ∨ unhandled cycle e = true ∨
      ∃ calls, h' = h ++ calls ∧ calls.any failed = true) h (handleError cycle (some order) e) := by
  have hfailed : ∀ {o : Op} (h' : Calls) (n : ℕ) (e' : PyExc), h <+: h' →
      ∃ calls, h' ++ [(n, ⟨o, .error e'⟩)] = h ++ calls ∧ calls.any failed = true := by
    intro o h' n e' hh'
    obtain ⟨calls, rfl⟩ := hh'
    exact ⟨calls ++ [(n, ⟨o, .error e'⟩)], by simp, by simp [failed]⟩
  have hrequeue : ∀ h', h <+: h' → isRetryableTrackingError e = true →
      Along (fun _ _ => True) (fun h' _ => Left h' order.id ∨ unhandled cycle e = true ∨
        ∃ calls, h' = h ++ calls ∧ calls.any failed = true) h'
        (requeueOrderTracking (some order.id) cycle) := by
    intro h' hh' hretry
    unfold requeueOrderTracking
    split
    · next hdelay =>
      rw [along_pure]
      exact .inr (.inl (by simp [unhandled, hretry, hdelay]))
    · refine along_perform_true (o := Op.enqueue _ _) ?_
      intro n r
      cases r with
      | error e' => exact .inr (.inr (hfailed h' n e' hh'))
      | ok _ => exact .inl (.inr (.inl (by simp [requeues])))
  have hrollback : Along (fun _ _ => True) (fun h' r => ∀ e' : PyExc, r = .error e' →
      ∃ calls, h' = h ++ calls ∧ calls.any failed = true) h (Op.perform .rollback) := by
    refine along_perform_true ?_
    intro n r e' hr
    rw [hr]
    exact hfailed h n e' (List.prefix_refl h)
  unfold handleError handleKisOrderError handleException
  simp only [updateOrderFailureResult_raises, updateOrderFailureResult_binds]
  split
  · next e =>
    refine hrollback.bind ?_ fun h₁ e' _ hpost => .inr (.inr (hpost e' rfl))
    intro h₁ _ hh₁ _
    split
    · next hretry => exact hrequeue h₁ hh₁ hretry
    · have hupdate : ∀ u : OrderUpdate, u.id = order.id → u.expected = some trackingTargetStatuses →
          Terminal u.set.nextStatus → Along (fun _ _ => True) (fun h' r =>
            (∀ matched, r = .ok matched → EndSeen h' order.id) ∧ ∀ e' : PyExc, r = .error e' →
              ∃ calls, h' = h ++ calls ∧ calls.any failed = true) h₁ (Op.perform (.updateOrder u)) := by
        intro u hid hexpected hterminal
        refine along_perform_true ?_
        intro n r
        constructor
        · intro matched hr
          rw [hr, ← hid]
          exact .late rfl (hread.mono hh₁) hid.symm htracked hexpected hterminal
        · intro e' hr
          rw [hr]
          exact hfailed h₁ n e' hh₁
      refine (hupdate ⟨order.id, some trackingTargetStatuses, .failure _ _ _ .failed none none⟩ rfl rfl
        (show Terminal .failed by decide)).bind ?_
        fun h₂ e' _ hpost => .inr (.inr (hpost.2 e' rfl))
      intro h₂ matched _ hpost
      rw [along_raise]
      exact .inl (.inl (hpost.1 matched rfl))
  · next hkind =>
    refine hrollback.bind ?_ fun h₁ e' _ hpost => .inr (.inr (hpost e' rfl))
    intro h₁ _ hh₁ _
    split
    · next hretry => exact hrequeue h₁ hh₁ hretry
    · next hretry =>
      rw [raise_bind, along_raise]
      refine .inr (.inl ?_)
      simp only [unhandled, hretry]
      cases e with
      | kisOrder e => exact absurd rfl (hkind e)
      | kisAuth e => rfl
      | other type text => rfl

/-- Behind the read of a tracked order with a broker number: unless the order was seen
to end, the calls decide whether it is given up. -/
theorem along_tracked_ends {k : Option OrderId} (cycle : Cycle)
    (hread : Answered h (.selectOrder k) (some order))
    (htracked : order.status ∈ trackingTargetStatuses)
    (hnumber : Python.truthy order.brokerOrderNo = true) :
    Along (fun _ _ => True) (fun h' _ => Left h' order.id ∨
      ∃ calls, h' = h ++ calls ∧ cycleGivesUp cycle order calls = true) h
      ((trackOrder cycle order).tryExcept (handleError cycle (some order))) := by
  have hlive : order.status ∉ terminalStates := not_terminal_of_tracked htracked
  have hdecide : ∀ calls : Calls, EndSeen (h ++ calls) order.id ∨
      cycleGivesUp cycle order calls = match replay (trackOrder cycle order) calls with
        | (.raise e, handled) => unhandled cycle e || handled.any failed
        | (.ret _, _) => refused order calls
        | (.call .., _) => false := by
    intro calls
    by_cases hend : calls.any (storesEnd order.id) = true
    · exact .inl (endSeen_of_storesEnd hread htracked hend)
    · refine .inr ?_
      rw [cycleGivesUp, if_neg hlive, if_neg (not_not.mpr htracked), if_neg (by simp [hnumber]),
        if_neg hend]
  refine (along_trackOrder_ends cycle hread htracked hnumber).replayed.attempt ?_
  intro h₁ r hh₁ hpost
  obtain ⟨⟨calls, rfl, hreplay⟩, hreturns⟩ := hpost
  cases r with
  | ok _ =>
    refine (along_ret ()).mpr ?_
    rcases hreturns rfl with hleft | ⟨calls', hcalls', hrefused⟩
    · exact .inl hleft
    · obtain rfl : calls = calls' := List.append_cancel_left hcalls'
      rcases hdecide calls with hseen | hgives
      · exact .inl (.inl hseen)
      · refine .inr ⟨calls, rfl, ?_⟩
        rw [hgives, hreplay]
        exact hrefused
  | error e =>
    refine (along_handleError_ends (hread.mono hh₁) htracked).extends.mono (fun _ _ hq => hq) ?_
    intro h' r hpost
    obtain ⟨⟨later, rfl⟩, hpost⟩ := hpost
    have hraised := replay_append hreplay later
    rcases hdecide (calls ++ later) with hseen | hgives
    · exact .inl (.inl (by rwa [← List.append_assoc] at hseen))
    · rw [hraised] at hgives
      rcases hpost with hleft | hunhandled | ⟨handled, hhandled, hfailed⟩
      · exact .inl hleft
      · refine .inr ⟨calls ++ later, List.append_assoc .., ?_⟩
        rw [hgives, Prog.ofExcept]
        simp [hunhandled]
      · obtain rfl := List.append_cancel_left hhandled
        refine .inr ⟨calls ++ later, List.append_assoc .., ?_⟩
        rw [hgives, Prog.ofExcept]
        simp [hfailed]

/-- The record of a cycle that has come to its end. -/
theorem ends_processOrderStatus (id : OrderId) (attempt : ℕ) (first : Option Instant) :
    Along (fun _ _ => True) (fun h _ => Ends id attempt first h) []
      (processOrderStatus (some id) attempt first) := by
  unfold processOrderStatus getOrderById
  have hnow : Along (fun _ _ => True) (fun h r => ∃ n, h = [(n, ⟨.now, r⟩)]) []
      (Op.perform .now) := along_perform_true fun n r => ⟨n, rfl⟩
  refine hnow.bind ?_ ?_
  case refine_2 =>
    intro h e _ hpost
    obtain ⟨n, rfl⟩ := hpost
    exact .inr rfl
  intro h now _ hpost
  obtain ⟨n, rfl⟩ := hpost
  have hselect : Along (fun _ _ => True) (fun h r => ∃ m, h = [(n, ⟨.now, .ok now⟩),
      (m, ⟨.selectOrder (some id), r⟩)]) [(n, ⟨.now, .ok now⟩)]
      (Op.perform (.selectOrder (some id))) := along_perform_true fun m r => ⟨m, rfl⟩
  refine hselect.attempt ?_
  intro h r _ hpost
  obtain ⟨m, rfl⟩ := hpost
  cases r with
  | error e =>
    refine along_kept ?_ _
    rintro h' _ ⟨calls, rfl⟩
    exact .inr rfl
  | ok found =>
    cases found with
    | none =>
      refine along_kept ?_ _
      rintro h' _ ⟨calls, rfl⟩
      exact .inr rfl
    | some order =>
      have hread : Answered ([(n, ⟨.now, .ok now⟩), (m, ⟨.selectOrder (some id), .ok (some order)⟩)] :
          Calls) (.selectOrder (some id)) (some order) := ⟨m, by simp⟩
      by_cases htracked : order.status ∈ trackingTargetStatuses
      case neg =>
        refine along_kept ?_ _
        rintro h' _ ⟨calls, rfl⟩
        by_cases hend : order.status ∈ terminalStates
        · exact .inl ⟨order, hread.append calls, .inl (.read (hread.append calls) hend)⟩
        · refine .inr ?_
          show cycleGivesUp (cycleAt attempt first now) order calls = true
          rw [cycleGivesUp, if_neg hend, if_pos htracked]
      case pos =>
        have hlive : order.status ∉ terminalStates := not_terminal_of_tracked htracked
        by_cases hnumber : Python.truthy order.brokerOrderNo = true
        case neg =>
          refine along_kept ?_ _
          rintro h' _ ⟨calls, rfl⟩
          refine .inr ?_
          show cycleGivesUp (cycleAt attempt first now) order calls = true
          rw [cycleGivesUp, if_neg hlive, if_neg (not_not.mpr htracked), if_pos (by simp [hnumber])]
        case pos =>
          refine (along_tracked_ends (cycleAt attempt first now) hread htracked
            hnumber).extends.mono (fun _ _ hq => hq) ?_
          intro h' r hpost
          obtain ⟨hh', hleft | ⟨calls, rfl, hgives⟩⟩ := hpost
          · exact .inl ⟨order, hread.mono hh', hleft⟩
          · exact .inr hgives

/-! ## Runs -/

section Runs
variable {settings : Settings} {env : Env} {s s' : System} {e : Event} {w : World}

/-- The task with this label and these calls gives its order up. -/
def gaveUp (l : Label) (h : Calls) : Bool :=
  match l with
  | .processOrderStatus _ attempt first => givesUp attempt first h
  | _ => false

/-- The statement matches no row although its order has not ended. -/
def overtakes (w : World) : Entry → Bool
  | (_, ⟨.updateOrder u, .ok false⟩) =>
    (w.orders.get? u.id).any fun r => r.status ∉ terminalStates
  | _ => false

def isTrackingTask : Label → Bool
  | .processOrderStatus _ _ _ => true
  | _ => false

/-- A crash cuts a cycle off, or with its next call a cycle gives its order up or is
overtaken by a cycle that has not ended the order. -/
def lapses (env : Env) (s : System) : Event → Bool
  | .step i => s.tasks[i]?.any fun t => isTrackingTask t.label &&
      match t.prog with
      | .call o _ =>
        let x : Entry := (s.state.tick, ⟨o, (World.handle env o s.state).1⟩)
        gaveUp t.label (t.history ++ [x]) || overtakes s.state x
      | _ => false
  | .crash i => s.tasks[i]?.any fun t => isTrackingTask t.label && !t.prog.isEnded
  | _ => false

/-- What the record of a task shows when it has come to its end. -/
def Concluded (l : Label) (h : Calls) : Prop :=
  ∀ id attempt first, l = .processOrderStatus (some id) attempt first → Ends id attempt first h

/-- In a run without lapses: nothing has been given up, and what overtook a cycle has
ended the order. -/
structure Followed (env : Env) (s : System) : Prop where
  sound : Sound env s
  witnessed : Witnessed s
  concludes : Concludes Concluded s
  kept : ∀ t ∈ s.tasks, gaveUp t.label t.history = false
  overtaken : ∀ t ∈ s.tasks, isTrackingTask t.label = true → ∀ k, Overtaken t.history k →
    RowEnded k s.state

theorem followed_start (w : World) : Followed env (start w) where
  sound := sound_start w
  witnessed := witnessed_start w
  concludes := by intro t ht; cases ht
  kept := by intro t ht; cases ht
  overtaken := by intro t ht; cases ht

theorem concluded_program (l : Label) :
    Along (fun _ _ => True) (fun h _ => Concluded l h) [] (l.program settings) := by
  by_cases hl : ∃ id attempt first, l = .processOrderStatus (some id) attempt first
  · obtain ⟨id, attempt, first, rfl⟩ := hl
    refine (ends_processOrderStatus id attempt first).mono (fun _ _ hq => hq) ?_
    intro h _ hends id' attempt' first' hl
    cases hl
    exact hends
  · refine along_kept ?_ _
    intro h _ _ id attempt first hl'
    exact absurd ⟨id, attempt, first, hl'⟩ hl

/-- The step of a tracking task in a run without lapses. -/
theorem step_of_not_lapses {i : ℕ} {t : Task} {o : Op} {k : Except PyExc (Ans o) → Program Unit}
    (hnot : lapses env s (.step i) = false) (ht : s.tasks[i]? = some t) (hp : t.prog = .call o k)
    (hl : isTrackingTask t.label = true) :
    gaveUp t.label (t.history ++ [(s.state.tick, ⟨o, (World.handle env o s.state).1⟩)]) = false ∧
      overtakes s.state (s.state.tick, ⟨o, (World.handle env o s.state).1⟩) = false := by
  simp only [lapses, ht, Option.any_some, hl, hp, Bool.true_and, Bool.or_eq_false_iff] at hnot
  exact hnot

theorem gaveUp_nil (l : Label) : gaveUp l [] = false := by
  cases l <;> rfl

theorem gaveUp_of_not_tracking {l : Label} (hl : isTrackingTask l = false) (h : Calls) :
    gaveUp l h = false := by
  cases l <;> first | rfl | cases hl

theorem Followed.change (h : Followed env s) (hnot : lapses env s e = false)
    (hc : Change (autotrading settings env) s e s') : Followed env s' where
  sound := h.sound.change hc
  witnessed := h.witnessed.change h.sound hc
  concludes := by
    refine h.concludes.change concluded_program hc ?_
    rintro i t rfl ht id attempt first hl
    have hended : t.prog.isEnded = true := by
      simpa [lapses, ht, hl, isTrackingTask] using hnot
    exact h.concludes.ended (List.mem_of_getElem? ht) hended id attempt first hl
  kept := by
    intro t' ht'
    cases hc with
    | idle => exact h.kept t' ht'
    | launched l state hl =>
      rcases List.mem_append.mp ht' with ht' | ht'
      · exact h.kept t' ht'
      · rw [List.mem_singleton.mp ht']
        exact gaveUp_nil l
    | stepped i t o k ht hp =>
      rcases List.mem_or_eq_of_mem_set ht' with ht' | ht'
      · exact h.kept t' ht'
      · rw [ht']
        cases hl : isTrackingTask t.label with
        | true => exact (step_of_not_lapses hnot ht hp hl).1
        | false => exact gaveUp_of_not_tracking hl _
    | crashed i t ht =>
      rcases List.mem_or_eq_of_mem_set ht' with ht' | ht'
      · exact h.kept t' ht'
      · rw [ht']
        exact h.kept t (List.mem_of_getElem? ht)
    | moved a => exact h.kept t' ht'
  overtaken := by
    rintro t' ht' hl' k ⟨h₁, n, u, h₂, k', order, hh, hu, hread, hid, htracked⟩
    rcases hc.split ht' hh with ⟨t, ht, hl, h₃, hh⟩ | ⟨i, t, o, kont, he, ht, hl, hp, -, hx, rfl⟩
    · rw [← hl] at hl'
      exact (h.overtaken t ht hl' k ⟨h₁, n, u, h₃, k', order, hh, hu, hread, hid, htracked⟩).change
        h.sound hc
    · -- the row is tracked still or has ended, and a row that has not ended makes a lapse
      obtain ⟨m, hm⟩ := hread
      obtain ⟨r, hr, -⟩ := h.witnessed.ahead t (List.mem_of_getElem? ht) _ hm htracked
      rw [hid] at hr
      have hlive : r.status ∈ terminalStates := by
        have hstep : overtakes s.state (n, ⟨.updateOrder u, .ok false⟩) = false := by
          rw [hx]
          subst he
          exact (step_of_not_lapses hnot ht hp (hl ▸ hl')).2
        have hrow : s.state.orders.get? u.id = some r := by rw [hu]; exact hr
        simpa [overtakes, hrow] using hstep
      exact RowEnded.change ⟨r, hr, hlive⟩ h.sound hc

/-- In every run without lapses, a tracking task that has come to its end without
queuing a further cycle leaves its order in a terminal status. -/
theorem tracking_ends_terminal (settings : Settings) {env : Env} {w : World} {es : List Event}
    (hes : Meets (autotrading settings env) (fun s e => lapses env s e = false) (start w) es)
    {t : Task} (ht : t ∈ ((autotrading settings env).run (start w) es).tasks) {id : OrderId}
    {attempt : ℕ} {first : Option Instant}
    (hl : t.label = .processOrderStatus (some id) attempt first) (hend : t.prog.isEnded = true)
    (hlast : t.history.any requeues = false) :
    ∃ r, ((autotrading settings env).run (start w) es).state.orders.get? id = some r ∧
      Terminal r.status := by
  have hstep : ∀ s e s', Followed env s → lapses env s e = false →
      Change (autotrading settings env) s e s' → Followed env s' :=
    fun s e s' h hnot hc => h.change hnot hc
  have h := hes.invariant hstep (followed_start w)
  rcases h.concludes.ended ht hend id attempt first hl with ⟨order, hread, hleft⟩ | hgives
  · have hid : id = order.id := Option.some.inj (h.sound.read_id ht hread)
    rw [hid]
    rcases hleft with hseen | hsent | hovertaken
    · exact h.witnessed.endSeen ht hseen
    · rw [hlast] at hsent
      cases hsent
    · exact h.overtaken t ht (by rw [hl]; rfl) order.id hovertaken
  · have hkept := h.kept t ht
    rw [hl] at hkept
    exact absurd (hgives.symm.trans hkept) (by simp)

/-- Surroundings in which every execution query times out, and half an hour goes by
with the first eight calls. -/
def timingOut : Env :=
  { Env.quiet with
    get := fun _ _ => .requestError "timeout"
    now := fun n => if n < 8 then 0 else 1800000000 }

/-- The run of two cycles for order 1. -/
def overdueRun : System :=
  (autotrading .sample timingOut).run
    (start (.holding [Order.sample 1 .accepted] [.processOrderStatus (some 1) 0 none]))
    (.launch (.processOrderStatus (some 1) 0 none) :: List.replicate 8 (.step 0) ++
      .launch (.processOrderStatus (some 1) 1 (some 0)) :: List.replicate 7 (.step 1))

/-- Two cycles meet a passing error, the second one when the window is over: the chain
ends and order 1 stays ACCEPTED. -/
theorem overdue_error_ends_chain :
    (∀ t ∈ overdueRun.tasks, t.label.tracks = some 1 ∧ t.prog.isEnded = true) ∧
    (∃ t ∈ overdueRun.tasks, t.history.any requeues = false) ∧
    overdueRun.state.orders.get? 1 = some (Order.sample 1 .accepted) := by
  decide +kernel

/-- Surroundings in which the broker reports order 1 as filled. -/
def filling : Env :=
  { Env.quiet with get := fun _ _ => ExecutionAnswer.ofRows [⟨"91252", "7", "10", "0", "0", "0", "100", "10"⟩] }

/-- The run of one cycle for order 1. -/
def oneCycle (env : Env) : System :=
  (autotrading .sample env).run
    (start (.holding [Order.sample 1 .accepted] [.processOrderStatus (some 1) 0 none]))
    (.launch (.processOrderStatus (some 1) 0 none) :: List.replicate 12 (.step 0))

theorem tracking_ends_terminal_sample :
    ∃ r, (oneCycle filling).state.orders.get? 1 = some r ∧ Terminal r.status := by
  have hlen : 0 < (oneCycle filling).tasks.length := by decide +kernel
  have hall : ∀ t ∈ (oneCycle filling).tasks, t.label.tracks = some 1 ∧ t.prog.isEnded = true ∧
      t.history.any requeues = false := by decide +kernel
  obtain ⟨t, ht⟩ := List.exists_mem_of_length_pos hlen
  obtain ⟨hl, hend, hlast⟩ := hall t ht
  obtain ⟨attempt, first, hl⟩ := exists_cycle_of_tracks hl
  exact tracking_ends_terminal .sample (by decide +kernel) ht hl hend hlast

end Runs

end Autotrading.ProcessOrderStatus
