import Autotrading.TrackingCycle

/-!
# An answer without the row of the order

A cycle whose answer has no row of its order stores what the order held, and the steps behind
that were written for a snapshot with a row. Here such a cycle is followed to its end.
-/
namespace Autotrading

open Prog OrderState OrderRepository TrackingSnapshot

/-! ## Errors that end a cycle -/

namespace Python

theorem mem_of_isSub {sub cs : List Char} (h : isSub sub cs = true) {c : Char} (hc : c ∈ sub) :
    c ∈ cs := by
  induction cs with
  | nil =>
    rw [isSub, List.isEmpty_iff] at h
    rw [h] at hc
    cases hc
  | cons d cs ih =>
    rw [isSub, Bool.or_eq_true, List.isPrefixOf_iff_prefix] at h
    rcases h with hprefix | hrest
    · exact hprefix.subset hc
    · exact List.mem_cons_of_mem _ (ih hrest)

/-- The letters and digits of the text of a UUID, and the hyphen. -/
def uuidChars : List Char := "0123456789abcdef-".toList

theorem digitChar_mem_uuidChars : ∀ d < 16, Nat.digitChar d ∈ uuidChars := by decide

theorem mem_uuidChars_of_mem_toDigits {n : ℕ} {c : Char} (h : c ∈ Nat.toDigits 16 n) :
    c ∈ uuidChars := by
  induction n using Nat.strongRecOn with
  | ind n ih =>
    rw [Nat.toDigits_eq_if (by decide)] at h
    split at h
    · next hlt =>
      rw [List.mem_singleton.mp h]
      exact digitChar_mem_uuidChars n hlt
    · next hge =>
      rcases List.mem_append.mp h with h | h
      · exact ih (n / 16) (by omega) h
      · rw [List.mem_singleton.mp h]
        exact digitChar_mem_uuidChars (n % 16) (Nat.mod_lt _ (by decide))

theorem mem_uuidChars {n : ℕ} {c : Char} (h : c ∈ (uuidText n).toList) : c ∈ uuidChars := by
  have hpart : ∀ i k, ∀ d ∈ ((((Nat.toDigits 16 n).leftpad 32 '0').drop i).take k), d ∈ uuidChars := by
    intro i k d hd
    have hmem := List.mem_of_mem_drop (List.mem_of_mem_take hd)
    rw [List.leftpad, List.mem_append] at hmem
    rcases hmem with hzero | hdigit
    · rw [List.eq_of_mem_replicate hzero]
      decide
    · exact mem_uuidChars_of_mem_toDigits hdigit
  unfold uuidText at h
  simp only [String.intercalate_cons_cons, String.intercalate_singleton, String.toList_append,
    String.toList_ofList, List.mem_append] at h
  have hsep (d : Char) (hd : d ∈ "-".toList) : d ∈ uuidChars := by
    obtain rfl : d = '-' := List.mem_singleton.mp hd
    decide
  rcases h with (h | h) | (h | h) | (h | h) | (h | h) | h
  all_goals first | exact hpart _ _ c h | exact hsep c h

end Python

namespace TrackingSnapshot

/-- Every reason for which a cycle repeats has one of two letters. -/
def Unlettered (text : String) : Bool :=
  text.toList.all fun c => c.toLower ≠ 's' && c.toLower ≠ 't'

theorem unlettered_iff {text : String} :
    Unlettered text = true ↔ ∀ c ∈ text.toList, c.toLower ≠ 's' ∧ c.toLower ≠ 't' := by
  simp [Unlettered]

theorem unlettered_uuidText (id : OrderId) : Unlettered (Python.uuidText id) = true := by
  have huuid : (Python.uuidChars.all fun c => c.toLower ≠ 's' && c.toLower ≠ 't') = true := by
    decide
  rw [List.all_eq_true] at huuid
  exact List.all_eq_true.mpr fun c hc => huuid c (Python.mem_uuidChars hc)

theorem not_retryable_of_unlettered {type text : String} (htext : Unlettered text = true) :
    isRetryableTrackingError (.other type text) = false := by
  rw [unlettered_iff] at htext
  have hword : ∀ sub : String, ('s' ∈ sub.toList ∨ 't' ∈ sub.toList) →
      Python.inLower sub text = false := by
    intro sub hletter
    rw [Python.inLower, Bool.eq_false_iff]
    intro hsub
    rcases hletter with hs | ht
    · obtain ⟨c, hc, hlower⟩ := List.mem_map.mp (Python.mem_of_isSub hsub hs)
      exact (htext c hc).1 hlower
    · obtain ⟨c, hc, hlower⟩ := List.mem_map.mp (Python.mem_of_isSub hsub ht)
      exact (htext c hc).2 hlower
  have hserver := hword "server error: 500" (.inl (by decide))
  have htimeout := hword "timeout" (.inr (by decide))
  have hconnection := hword "connection" (.inr (by decide))
  have hunavailable := hword "temporarily unavailable" (.inr (by decide))
  simp [isRetryableTrackingError, PyExc.text, hserver, htimeout, hconnection, hunavailable]

/-- An error that names an order by its id behind such a text. -/
theorem not_retryable_of_uuid {type text : String} {id : OrderId} (htext : Unlettered text = true) :
    isRetryableTrackingError (.other type (text ++ Python.uuidText id)) = false := by
  have huuid := unlettered_uuidText id
  refine not_retryable_of_unlettered ?_
  unfold Unlettered at *
  rw [String.toList_append, List.all_append, htext, huuid, Bool.and_self]

end TrackingSnapshot

/-! ## Behind the statement of a cycle -/

namespace ProcessOrderStatus

variable {env : Env} {w : World} {order : Order} {cycle : Cycle} {snapshot : Snapshot}
  {answer : DailyOrderExecutionResponse}

/-- The calls behind the statement of a cycle change no order, and all but one no message. -/
theorem quiet_shown (hup : Available env) {o : Op} (ho : followsUp o = true)
    (hsend : ∀ m d, o ≠ .enqueue m d) :
    Quiet (World.handle env) (fun w => (w.orders, w.queue)) (Op.perform o) := by
  intro w
  obtain ⟨a, w', hrun, horders⟩ := quiet_followsUp hup ho w
  have hqueue : (World.handle env o w).2.queue = w.queue := World.queue_handle hsend
  rw [run_perform] at hrun
  rw [hrun] at hqueue
  refine ⟨a, w', by rw [run_perform, hrun], ?_⟩
  show (w'.orders, w'.queue) = (w.orders, w.queue)
  rw [horders, hqueue]

theorem handle_selectOrder (hup : Available env) (id : OrderId) (w : World) :
    World.handle env (.selectOrder (some id)) w = (.ok (w.orders.get? id), w.next) := by
  simp [World.handle, hup w.tick (.selectOrder _) (by simp), World.effect]

/-- Step 8 comes to an error without a row: a CANCEL order in PARTIAL_FILLED needs its row, a
MODIFY order in PARTIAL_FILLED its original order. -/
def Stuck (w : World) (order : Order) : Prop :=
  order.status = .partialFilled ∧ ∃ parentId, order.originalOrderId = some parentId ∧
    (order.orderKind = .cancel ∨ order.orderKind = .modify ∧ w.orders.get? parentId = none)

/-- Step 8 for a snapshot without a row. -/
theorem run_adjustParent_kept (hup : Available env) (hrow : snapshot.row = none)
    (hstatus : snapshot.result.nextStatus = order.status)
    (hfilled : snapshot.result.filledQty = order.filledQty)
    (htracked : order.status ∈ trackingTargetStatuses) :
    (¬Stuck w order ∧ ∃ loaded w', w'.orders = w.orders ∧ w'.queue = w.queue ∧
        run (World.handle env) (adjustParent order snapshot) w = (.ok (some loaded), w')) ∨
      (Stuck w order ∧ ∃ e w', isRetryableTrackingError e = false ∧
        run (World.handle env) (adjustParent order snapshot) w = (.error e, w')) := by
  cases hparent : order.originalOrderId with
  | none =>
    refine .inl ⟨?_, [], w, rfl, rfl, ?_⟩
    · rintro ⟨-, parentId, hid, -⟩
      rw [hparent] at hid
      cases hid
    · simp [adjustParent, hparent]
  | some parentId =>
    have hselect := handle_selectOrder hup parentId w
    by_cases hpartly : order.status = .partialFilled
    swap
    · -- of the statuses that are tracked no other one leads into step 8
      have hout : order.status ∉ [OrderStatus.canceled, .filled, .partialFilled] ∧
          order.status ∉ [OrderStatus.partialFilled, .filled] := by
        revert htracked hpartly
        cases order.status <;> decide
      refine .inl ⟨fun hstuck => hpartly hstuck.1, [], w, rfl, rfl, ?_⟩
      simp only [adjustParent, hparent, hstatus]
      rw [if_neg fun h => hout.1 h.2, if_neg fun h => hout.2 h.2]
      rfl
    cases hkind : order.orderKind with
    | new =>
      refine .inl ⟨?_, [], w, rfl, rfl, ?_⟩
      · rintro ⟨-, id, -, hcancel | ⟨hmodify, -⟩⟩
        · rw [hkind] at hcancel
          cases hcancel
        · rw [hkind] at hmodify
          cases hmodify
      · rw [adjustParent_new hkind]
        rfl
    | cancel =>
      refine .inr ⟨⟨hpartly, parentId, hparent, .inl hkind⟩, ?_⟩
      have hadjust : adjustParent order snapshot = adjustCanceledParent order parentId snapshot := by
        simp [adjustParent, hparent, hkind, hstatus, hpartly]
      rw [hadjust, adjustCanceledParent, getOrderById, run_bind, run_perform, hselect]
      simp only
      cases hget : w.orders.get? parentId with
      | none =>
        refine ⟨_, w.next, ?_, rfl⟩
        exact @not_retryable_of_uuid _ "원주문을 찾을 수 없습니다. original_order_id=" _ (by decide)
      | some parent =>
        refine ⟨.other "KeyError" "'order_qty'", w.next, by decide +kernel, ?_⟩
        simp only [hrow]
        rfl
    | modify =>
      have hadjust : adjustParent order snapshot = adjustModifiedParent order parentId snapshot := by
        simp [adjustParent, hparent, hkind, hstatus, hpartly]
      cases hget : w.orders.get? parentId with
      | none =>
        refine .inr ⟨⟨hpartly, parentId, hparent, .inr ⟨hkind, hget⟩⟩, ?_⟩
        rw [hadjust, adjustModifiedParent, getOrderById, run_bind, run_perform, hselect, hget]
        refine ⟨_, w.next, ?_, rfl⟩
        exact @not_retryable_of_uuid _ "[정정] 원주문을 찾을 수 없습니다. original_order_id=" _ (by decide)
      | some parent =>
        refine .inl ⟨?_, [parent], w.next, rfl, rfl, ?_⟩
        · rintro ⟨-, id, hid, hcancel | ⟨-, hnone⟩⟩
          · rw [hkind] at hcancel
            cases hcancel
          · obtain rfl := Option.some.inj (hparent.symm.trans hid)
            rw [hget] at hnone
            cases hnone
        · -- nothing has been filled since the order was read
          rw [hadjust, adjustModifiedParent, getOrderById, run_bind, run_perform, hselect, hget]
          simp [hfilled]

/-! ## The statement of a cycle -/

theorem fits_kept_iff (hfit : order.Fits) :
    ((tracked order (keptSnapshot order answer)).set.apply order).Fits ↔
      Order.fitsText 8 answer.rtCd = true ∧ Order.fitsText 32 answer.msgCd = true := by
  simp only [Order.Fits, Order.fits, tracked, trackingUpdate, keptSnapshot, SetClause.apply,
    Order.fitsOptional, Bool.and_eq_true] at hfit ⊢
  tauto

/-- The cycle that follows. -/
def nextCycle (cycle : Cycle) (id : OrderId) : Message :=
  .processOrderStatus (some id) (cycle.attempt + 1) (some cycle.firstTrackedAt)

/-- The statement changes nothing that step 8 looks at. -/
theorem stuck_tracked {w' : World}
    (hw' : ∀ k, w'.orders.get? k =
      (w.orders.get? k).map (tracked order (keptSnapshot order answer)).refresh) :
    Stuck w' ((tracked order (keptSnapshot order answer)).set.apply order) ↔ Stuck w order := by
  unfold Stuck
  simp only [SetClause.apply_orderKind, SetClause.apply_originalOrderId, hw', Option.map_eq_none_iff]
  rfl

/-- Behind step 8 the cycle of an order that has not ended queues the next one. -/
theorem run_concludes (hup : Available env) (hopen : snapshot.result.nextStatus ∉ terminalStatuses)
    (hwindow : (resolveRetrackingDelay cycle.attempt cycle.elapsed).isSome = true)
    (loaded : List Order) (w : World) :
    ∃ w', w'.orders = w.orders ∧ w'.queue = w.queue ++ [nextCycle cycle order.id] ∧
      run (World.handle env) (do
        Op.perform .commit
        let published ← publishOrderUpdate order
        if snapshot.result.nextStatus ∈ terminalStatuses then
          triggerRebalanceSnapshotIfCompleted order (order :: loaded ++ published)
        retrack cycle order snapshot (loaded ++ published)) w = (.ok (), w') := by
  obtain ⟨delay, hdelay⟩ := Option.isSome_iff_exists.mp hwindow
  obtain ⟨_, w₁, hcommit, hw₁⟩ := quiet_shown hup (o := .commit) rfl (by simp) w
  obtain ⟨published, w₂, hpublished, hw₂⟩ :=
    quiet_publish_of (fun id => quiet_shown hup (o := .selectOrder (some id)) rfl (by simp))
      (quiet_shown hup (o := .publish) rfl (by simp)) order w₁
  have hshown := hw₂.trans hw₁
  simp only [Prod.mk.injEq] at hshown
  have hsend := World.handle_enqueue (m := nextCycle cycle order.id) (d := delay)
    (hup w₂.tick (.enqueue (nextCycle cycle order.id) delay) (by simp))
  refine ⟨{ w₂.next with
    queue := w₂.queue ++ [nextCycle cycle order.id]
    sent := w₂.sent ++ [nextCycle cycle order.id] }, hshown.1, ?_, ?_⟩
  · show w₂.queue ++ _ = _
    rw [hshown.2]
  · rw [run_bind, hcommit]
    simp only
    rw [run_bind, hpublished]
    simp only
    rw [if_neg hopen, retrack, if_neg hopen, hdelay]
    simp only [run_perform]
    exact hsend

/-- Steps 7 to 9 for an answer without a row. -/
theorem run_storeSnapshot_kept (hup : Available env)
    (hrefused : ∀ n, isRetryableTrackingError (env.refused n) = false)
    (hr : w.orders.get? order.id = some order) (htracked : order.status ∈ trackingTargetStatuses)
    (hwindow : (resolveRetrackingDelay cycle.attempt cycle.elapsed).isSome = true) :
    (((Order.fitsText 8 answer.rtCd = true ∧ Order.fitsText 32 answer.msgCd = true) ∧
        ¬Stuck w order) ∧ ∃ w',
        (∀ k, w'.orders.get? k =
          (w.orders.get? k).map (tracked order (keptSnapshot order answer)).refresh) ∧
        w'.queue = w.queue ++ [nextCycle cycle order.id] ∧
        run (World.handle env) (storeSnapshot cycle order (keptSnapshot order answer)) w =
          (.ok (), w')) ∨
      (¬((Order.fitsText 8 answer.rtCd = true ∧ Order.fitsText 32 answer.msgCd = true) ∧
        ¬Stuck w order) ∧ ∃ e w', isRetryableTrackingError e = false ∧
        run (World.handle env) (storeSnapshot cycle order (keptSnapshot order answer)) w =
          (.error e, w')) := by
  have hfits := @fits_kept_iff order answer (KeyedTable.fits_of_get? hr)
  have hsel : (tracked order (keptSnapshot order answer)).selects order = true :=
    expectedStatuses_selects htracked _
  have hended := not_terminal_of_tracked htracked
  have hopen : (keptSnapshot order answer).result.nextStatus ∉ terminalStatuses :=
    (mem_terminalStatuses _).not.mpr hended
  have hallowed : canTransition order.status (keptSnapshot order answer).result.nextStatus = true :=
    canTransition_self hended
  unfold storeSnapshot updateOrderTrackingResult
  rw [if_neg (by simp [hallowed]), run_bind, run_perform]
  by_cases hfit : ((tracked order (keptSnapshot order answer)).set.apply order).Fits
  · obtain ⟨t, hstore, -⟩ := World.handle_updateOrder_fits
      (hup w.tick (.updateOrder _) (by simp)) hr hsel hfit
    have hget := fun k => (@World.updateOrder_ok env w (tracked order (keptSnapshot order answer))
      true (by rw [hstore]) k).1
    rw [hstore] at hget
    have hrefresh : (tracked order (keptSnapshot order answer)).refresh order =
        (tracked order (keptSnapshot order answer)).set.apply order := by
      rw [OrderUpdate.refresh, if_pos hsel]
    have hstuck := @stuck_tracked w order answer _ hget
    rw [tracked] at hstore hrefresh hget hstuck ⊢
    rw [hstore]
    simp only [Bool.not_true, Bool.false_eq_true, if_false, hrefresh]
    have hstep := @run_adjustParent_kept env { w.next with orders := t }
      ((trackingUpdate order.id (expectedStatuses order.status)
        (keptSnapshot order answer).result).set.apply order) (keptSnapshot order answer) hup rfl rfl
      rfl htracked
    rw [run_bind]
    rcases hstep with ⟨hfree, loaded, w₁, horders, hqueue, hadjust⟩ |
      ⟨hheld, e, w₁, hretry, hadjust⟩
    · obtain ⟨w₂, horders₂, hqueue₂, hrun⟩ := @run_concludes env
        ((trackingUpdate order.id (expectedStatuses order.status)
          (keptSnapshot order answer).result).set.apply order) cycle (keptSnapshot order answer) hup
        hopen hwindow loaded w₁
      refine .inl ⟨⟨hfits.mp hfit, fun h => hfree (hstuck.mpr h)⟩, w₂, ?_, ?_, ?_⟩
      · intro k
        rw [horders₂, horders]
        exact hget k
      · rw [hqueue₂, hqueue]
        rfl
      · rw [hadjust]
        exact hrun
    · refine .inr ⟨fun h => h.2 (hstuck.mp hheld), e, w₁, hretry, ?_⟩
      rw [hadjust]
  · refine .inr ⟨fun h => hfit (hfits.mpr h.1), env.refused w.tick, w.next, hrefused _, ?_⟩
    have hrefuse := World.handle_updateOrder_refused (hup w.tick (.updateOrder _) (by simp)) hr hsel
      hfit
    rw [tracked] at hrefuse
    rw [hrefuse]

/-! ## The whole cycle -/

/-- Any other error ends a cycle with an error of its own. -/
theorem run_handleError_raises (hup : Available env) {e : PyExc}
    (hretry : isRetryableTrackingError e = false) (w : World) :
    ∃ e', (run (World.handle env) (handleError cycle (some order) e) w).1 = .error e' := by
  have hrollback : World.handle env .rollback w = (.ok (), w.next) := by
    simp [World.handle, hup w.tick .rollback (by simp), World.effect]
  have hother : ∃ e', (run (World.handle env) (handleException cycle (some order) e) w).1 =
      .error e' := by
    unfold handleException
    simp only [updateOrderFailureResult_raises]
    rw [run_bind, run_perform, hrollback]
    simp only [hretry, Bool.false_eq_true, if_false]
    exact ⟨_, rfl⟩
  cases e with
  | kisOrder e =>
    unfold handleError handleKisOrderError
    simp only [updateOrderFailureResult_binds]
    rw [run_bind, run_perform, hrollback]
    simp only [hretry, Bool.false_eq_true, if_false]
    rw [run_bind, run_perform]
    split
    · exact ⟨_, rfl⟩
    · exact ⟨_, rfl⟩
  | kisAuth => exact hother
  | other => exact hother

/-- The status and the quantities of an order. -/
def standing (r : Order) : OrderStatus × ℤ × ℤ × ℤ :=
  (r.status, r.orderQty, r.filledQty, r.remainingQty)

theorem standing_refresh (hr : w.orders.get? order.id = some order) {k : OrderId} {r : Order}
    (hk : w.orders.get? k = some r) :
    standing ((tracked order (keptSnapshot order answer)).refresh r) = standing r := by
  rw [OrderUpdate.refresh]
  split
  · next hsel =>
    have hid : r.id = order.id := (OrderUpdate.selects_iff.mp hsel).1
    rw [(KeyedTable.get?_eq_some.mp hk).2.symm, hid, hr] at hk
    rw [← Option.some.inj hk]
    rfl
  · rfl

/-- The cycle leaves every order where it stood, ends without an error and queues the next. -/
structure Undisturbed (env : Env) (w : World) (id : OrderId) (attempt : ℕ) (first : Option Instant) :
    Prop where
  returns : (run (World.handle env) (processOrderStatus (some id) attempt first) w).1 = .ok ()
  kept : ∀ k, ((run (World.handle env) (processOrderStatus (some id) attempt first) w).2.orders.get?
    k).map standing = (w.orders.get? k).map standing
  requeued : (run (World.handle env) (processOrderStatus (some id) attempt first) w).2.queue =
    w.queue ++ [nextCycle (cycleAt attempt first (env.now w.tick)) id]

/-- When nothing but the query to the broker can fail: a cycle whose answer has no row of its
order is harmless exactly when the answer has rows at all and its codes fit their columns, and
the order is no CANCEL order in PARTIAL_FILLED with an original, nor a MODIFY order in
PARTIAL_FILLED whose original is gone. -/
theorem missing_row_harmless_iff {attempt : ℕ} {first : Option Instant} (hup : Available env)
    (hrefused : ∀ n, isRetryableTrackingError (env.refused n) = false)
    (hr : w.orders.get? order.id = some order) (htracked : order.status ∈ trackingTargetStatuses)
    (hnumber : Python.truthy order.brokerOrderNo = true)
    (hwindow : (resolveRetrackingDelay attempt
      (cycleAt attempt first (env.now w.tick)).elapsed).isSome = true)
    (hanswer : queried env w order = .ok answer)
    (hmissing : ∀ rows, answer.output1 = some rows → matchedRow order.brokerOrderNo rows = none) :
    Undisturbed env w order.id attempt first ↔
      answer.output1.isSome = true ∧
        (Order.fitsText 8 answer.rtCd = true ∧ Order.fitsText 32 answer.msgCd = true) ∧
        ¬Stuck w order := by
  have hbegins := @run_begins env w order attempt first hup hr
  rw [trackOrder_eq _ htracked hnumber, run_tryExcept, run_bind] at hbegins
  obtain ⟨hasChildOrders, w₁, hobserve, horders, hqueue, -⟩ := run_observe hup hanswer
  rw [hobserve] at hbegins
  cases hout : answer.output1 with
  | none =>
    have hextract : extractOrderTrackingSnapshot order answer hasChildOrders =
        .error (.other "TypeError" "'NoneType' object is not iterable") := by
      simp only [extractOrderTrackingSnapshot, hout]
    rw [hextract] at hbegins
    obtain ⟨e, he⟩ := @run_handleError_raises env order
      (cycleAt attempt first (env.now w.tick)) hup
      (.other "TypeError" "'NoneType' object is not iterable") (by decide +kernel) w₁
    refine ⟨fun h => ?_, fun h => absurd h.1 (by simp)⟩
    have hreturns := h.returns
    rw [hbegins] at hreturns
    rw [he] at hreturns
    cases hreturns
  | some rows =>
    rw [extractOrderTrackingSnapshot_kept hout (hmissing rows hout)] at hbegins
    have hr₁ : w₁.orders.get? order.id = some order := by
      rw [horders]
      exact hr
    have hstuck : Stuck w₁ order ↔ Stuck w order := by
      unfold Stuck
      rw [horders]
    rcases @run_storeSnapshot_kept env w₁ order (cycleAt attempt first (env.now w.tick)) answer hup
      hrefused hr₁ htracked hwindow with ⟨hholds, w₂, hget, hqueue₂, hrun⟩ | ⟨hfails, e, w₂, hretry, hrun⟩
    · rw [hstuck] at hholds
      simp only [hrun] at hbegins
      refine ⟨fun _ => ⟨rfl, hholds⟩, fun _ => ⟨?_, ?_, ?_⟩⟩
      · rw [hbegins]
      · intro k
        rw [hbegins]
        simp only
        rw [hget, horders]
        cases hk : w.orders.get? k with
        | none => rfl
        | some r => exact congrArg some (standing_refresh hr hk)
      · rw [hbegins]
        simp only
        rw [hqueue₂, hqueue]
    · rw [hstuck] at hfails
      simp only [hrun] at hbegins
      obtain ⟨e', he⟩ := @run_handleError_raises env order
        (cycleAt attempt first (env.now w.tick)) hup e hretry w₂
      refine ⟨fun h => ?_, fun h => absurd h.2 hfails⟩
      have hreturns := h.returns
      rw [hbegins] at hreturns
      rw [he] at hreturns
      cases hreturns

/-- The broker answers, and has no row of any order. -/
def answeringNothing : Env := { Env.quiet with get := fun _ _ => ExecutionAnswer.ofRows [] }

/-- A CANCEL order that is open. -/
theorem missing_row_harmless_iff_sample :
    Undisturbed answeringNothing
      (.holding [Order.sample 1 .accepted, Order.childSample 2 .cancel] []) 2 0 none := by
  have hanswer : queried answeringNothing
      (.holding [Order.sample 1 .accepted, Order.childSample 2 .cancel] [])
      (Order.childSample 2 .cancel) = .ok ⟨"0", "OK", "", some []⟩ := by decide +kernel
  refine (@missing_row_harmless_iff answeringNothing _ (Order.childSample 2 .cancel) _ 0 none ?_ ?_
    (by decide +kernel) (by decide) (by decide) (by decide) hanswer ?_).mpr ⟨rfl, ⟨?_, ?_⟩, ?_⟩
  · intro n o _
    rfl
  · intro n
    show isRetryableTrackingError (.other "DBAPIError" "refused") = false
    decide +kernel
  · intro rows hrows
    obtain rfl := Option.some.inj hrows
    rfl
  · decide
  · decide
  · rintro ⟨hpartly, -⟩
    cases hpartly

/-- Four of the ten shares of CANCEL order 2 are cancelled, and the next answer has no row of it:
the cycle ends with an error and queues nothing. -/
theorem partial_cancel_disturbed :
    let w := World.holding [Order.sample 1 .accepted, { Order.childSample 2 .cancel with
      status := .partialFilled, filledQty := 4, remainingQty := 6 }] []
    (run (World.handle answeringNothing) (processOrderStatus (some 2) 0 none) w).2.queue = [] ∧
      ¬Undisturbed answeringNothing w 2 0 none := by
  have hqueue : (run (World.handle answeringNothing) (processOrderStatus (some 2) 0 none)
      (.holding [Order.sample 1 .accepted, { Order.childSample 2 .cancel with
        status := .partialFilled, filledQty := 4, remainingQty := 6 }] [])).2.queue = [] := by
    decide +kernel
  refine ⟨hqueue, fun h => ?_⟩
  have hrequeued := h.requeued
  rw [hqueue] at hrequeued
  cases hrequeued

end ProcessOrderStatus

end Autotrading
