import Autotrading.Conduct

/-!
# The conduct of worker 2

Each function of `_process_order_status` keeps to `Conduct`. The objects a session
holds are followed by `Held`: a loaded order that shows a terminal status was seen
to end.
-/
namespace Autotrading

open Prog OrderState OrderRepository TrackingSnapshot

variable {l : Label} {h h' : Calls}

/-- The loaded objects that show an end are of orders seen to end. -/
def Held (h : Calls) (loaded : List Order) : Prop :=
  ∀ o ∈ loaded, Terminal o.status → EndSeen h o.id

theorem Held.mono {loaded : List Order} (hl : Held h loaded) (hh : h <+: h') : Held h' loaded :=
  fun o ho ht => (hl o ho ht).mono hh

theorem held_cons {o : Order} {loaded : List Order} :
    Held h (o :: loaded) ↔ (Terminal o.status → EndSeen h o.id) ∧ Held h loaded := by
  simp [Held]

theorem Held.append {xs ys : List Order} (hx : Held h xs) (hy : Held h ys) :
    Held h (xs ++ ys) := by
  intro o ho
  rcases List.mem_append.mp ho with ho | ho
  · exact hx o ho
  · exact hy o ho

/-- The objects are answers to reads. -/
def ReadIn (h : Calls) (loaded : List Order) : Prop :=
  ∀ o ∈ loaded, ∃ k, Answered h (.selectOrder k) (some o)

theorem readIn_nil : ReadIn h [] := by
  intro o ho
  cases ho

theorem readIn_singleton {k : Option OrderId} {o : Order}
    (ha : Answered h (.selectOrder k) (some o)) : ReadIn h [o] := by
  intro p hp
  obtain rfl := List.mem_singleton.mp hp
  exact ⟨k, ha⟩

theorem ReadIn.mono {loaded : List Order} (hl : ReadIn h loaded) (hh : h <+: h') :
    ReadIn h' loaded := by
  intro o ho
  obtain ⟨k, ha⟩ := hl o ho
  exact ⟨k, ha.mono hh⟩

theorem ReadIn.append {xs ys : List Order} (hx : ReadIn h xs) (hy : ReadIn h ys) :
    ReadIn h (xs ++ ys) := by
  intro o ho
  rcases List.mem_append.mp ho with ho | ho
  · exact hx o ho
  · exact hy o ho

theorem ReadIn.held {loaded : List Order} (hl : ReadIn h loaded) : Held h loaded := by
  intro o ho ht
  obtain ⟨k, ha⟩ := hl o ho
  exact .read ha ht

/-! ## Parts of a cycle -/

/-- The calls that load orders and publish them. -/
def Loads : Op → Prop
  | .selectOrder _ => True
  | .publish => True
  | _ => False

theorem conduct_of_loads (h : Calls) (o : Op) (ho : Loads o) : Conduct l h o := by
  cases o
  all_goals first | exact trivial | exact ho.elim

section Loading
variable {Q : Calls → Op → Prop} (hQ : ∀ h o, Loads o → Q h o)

include hQ

theorem along_publishOrderUpdate {order : Order} :
    Along Q (fun h' r => ∀ os, r = .ok os → ReadIn h' os) h
      (ProcessOrderStatus.publishOrderUpdate order) := by
  have hnil : ∀ h' : Calls, Along Q (fun h' r => ∀ os, r = .ok os → ReadIn h' os) h'
      (pure [] : Program (List Order)) := by
    intro h'
    rw [along_pure]
    rintro os ⟨⟩
    exact readIn_nil
  have hpublish : ∀ h' : Calls, Safe Q h' (Op.perform .publish) :=
    fun h' => safe_perform (hQ h' _ trivial)
  unfold ProcessOrderStatus.publishOrderUpdate getOrderById
  refine Along.catch ?_ fun h' _ _ _ => hnil h'
  refine (along_answered (o := Op.selectOrder (some order.id)) (hQ h _ trivial)).bind ?_
    (by rintro _ _ _ _ _ ⟨⟩)
  rintro h₁ (_ | self) - -
  · exact hnil h₁
  refine Along.bind (hpublish h₁) ?_ (by rintro _ _ _ _ _ ⟨⟩)
  rintro h₂ - - -
  split
  · refine (along_answered (o := Op.selectOrder (some _)) (hQ h₂ _ trivial)).bind ?_
      (by rintro _ _ _ _ _ ⟨⟩)
    rintro h₃ (_ | parent) - hread
    · exact hnil h₃
    refine Along.bind (hpublish h₃) ?_ (by rintro _ _ _ _ _ ⟨⟩)
    rintro h₄ - hh -
    rw [along_pure]
    rintro os ⟨⟩
    exact readIn_singleton ((hread _ rfl).mono hh)
  · exact hnil h₂

/-- After the refresh the object shows the quantity just stored, so nothing is left
to add to the parent: the statement on the parent is never issued. -/
theorem along_adjustModifiedParent {order : Order} {parentId : OrderId} {snapshot : Snapshot}
    (hfilled : order.filledQty = snapshot.result.filledQty) :
    Along Q (fun h' r => ∀ os, r = .ok (some os) → ReadIn h' os) h
      (ProcessOrderStatus.adjustModifiedParent order parentId snapshot) := by
  unfold ProcessOrderStatus.adjustModifiedParent getOrderById
  refine (along_answered (o := Op.selectOrder (some parentId)) (hQ h _ trivial)).bind ?_
    (by rintro _ _ _ _ _ ⟨⟩)
  rintro h₁ (_ | parent) - hread
  · rw [along_raise]
    rintro _ ⟨⟩
  · have hdelta : ¬ 0 < max (snapshot.result.filledQty - order.filledQty) 0 := by
      rw [hfilled]
      simp
    simp only [hdelta, if_false, along_pure]
    rintro os ⟨⟩
    exact readIn_singleton (hread _ rfl)

/-- The statement on the parent of a CANCEL order is never issued: its call raises. -/
theorem along_adjustCanceledParent {order : Order} {parentId : OrderId} {snapshot : Snapshot} :
    Along Q (fun h' r => ∀ os, r = .ok (some os) → ReadIn h' os) h
      (ProcessOrderStatus.adjustCanceledParent order parentId snapshot) := by
  unfold ProcessOrderStatus.adjustCanceledParent getOrderById
  simp only [updateParentOrderAfterChild_raises]
  refine (along_answered (o := Op.selectOrder (some parentId)) (hQ h _ trivial)).bind ?_
    (by rintro _ _ _ _ _ ⟨⟩)
  rintro h₁ (_ | parent) - hread
  · rw [along_raise]
    rintro _ ⟨⟩
  · cases snapshot.row with
    | none =>
      rw [along_raise]
      rintro _ ⟨⟩
    | some row =>
      simp only
      split
      · rw [raise_bind, along_raise]
        rintro _ ⟨⟩
      · rw [along_pure]
        rintro os ⟨⟩
        exact readIn_singleton (hread _ rfl)

theorem along_adjustParent {order : Order} {snapshot : Snapshot}
    (hfilled : order.filledQty = snapshot.result.filledQty) :
    Along Q (fun h' r => ∀ os, r = .ok (some os) → ReadIn h' os) h
      (ProcessOrderStatus.adjustParent order snapshot) := by
  have hnil : Along Q (fun h' r => ∀ os, r = .ok (some os) → ReadIn h' os) h
      (pure (some []) : Program (Option (List Order))) := by
    rw [along_pure]
    rintro os ⟨⟩
    exact readIn_nil
  unfold ProcessOrderStatus.adjustParent
  split
  · exact hnil
  · split
    · exact along_adjustCanceledParent hQ
    · split
      · exact along_adjustModifiedParent hQ hfilled
      · exact hnil

end Loading

/-- A capture is queued when the rows read, seen through the session, have ended. -/
theorem conduct_triggerRebalanceSnapshot {order : Order} {loaded : List Order}
    (hl : Held h loaded) :
    Safe (Conduct l) h (ProcessOrderStatus.triggerRebalanceSnapshotIfCompleted order loaded) := by
  unfold ProcessOrderStatus.triggerRebalanceSnapshotIfCompleted getOrdersByRebalanceId
  split
  · exact safe_pure _
  refine Safe.tryExcept ?_ fun h' _ _ => Safe.bind (safe_perform trivial) fun _ _ _ => safe_raise _
  refine safe_perform_bind trivial fun n rows => ?_
  simp only
  split
  · next hall =>
    obtain ⟨hsome, hended⟩ := hall
    refine safe_perform (Send.capture rfl ?_ ?_)
    · rintro rfl
      exact hsome rfl
    · intro r hr
      have ht := (mem_terminalStatuses _).mp (hended _ (List.mem_map_of_mem hr))
      cases hf : loaded.find? (fun o => o.id = r.id) with
      | none => exact .inl (by simpa [hf] using ht)
      | some o =>
        have hid : o.id = r.id := by simpa using List.find?_some hf
        refine .inr (hid ▸ hl o (List.mem_of_find?_eq_some hf) ?_)
        simpa [hf] using ht
  · exact safe_pure _

/-- The query is repeated until it is answered. -/
theorem along_dailyOrderExecutions {request : ExecutionsRequest} (n : ℕ)
    (hfirst : ∀ x ∈ h, fetches x = false) :
    Along (Conduct l) (fun h' r => ∀ answer, r = .ok answer → ∃ k, FetchedAt h' k request answer) h
      (KisOrder.dailyOrderExecutionsAttempts request n) := by
  induction n generalizing h with
  | zero =>
    rw [KisOrder.dailyOrderExecutionsAttempts, along_raise]
    rintro _ ⟨⟩
  | succ n ih =>
    have hraise : ∀ (h' : Calls) (e : PyExc), Along (Conduct l)
        (fun h' r => ∀ answer, r = .ok answer → ∃ k, FetchedAt h' k request answer) h'
        (raise e : Program DailyOrderExecutionResponse) := by
      intro h' e
      rw [along_raise]
      rintro _ ⟨⟩
    rw [KisOrder.dailyOrderExecutionsAttempts]
    have hget : Along (Conduct l) (fun h' r => ∃ k, h' = h ++ [(k, ⟨.get request, r⟩)]) h
        (Op.perform (.get request)) := .perform hfirst fun k r => ⟨k, rfl⟩
    -- an attempt without an answer leaves the query unanswered
    have hagain : ∀ x : Entry, fetches x = false → ∀ y ∈ h ++ [x], fetches y = false := by
      intro x hx y hy
      rcases List.mem_append.mp hy with hy | hy
      · exact hfirst y hy
      · obtain rfl := List.mem_singleton.mp hy
        exact hx
    refine hget.bind ?_ (by rintro _ _ _ _ _ ⟨⟩)
    rintro h' reply - ⟨k, rfl⟩
    cases reply with
    | requestError e =>
      simp only
      split
      · exact hraise _ _
      · exact ih (hagain _ rfl)
    | response statusCode body statusText =>
      simp only
      split
      · next hstatus =>
        rw [along_ofExcept]
        intro answer hparse
        exact ⟨k, statusCode, body, statusText, by simp, hstatus, hparse⟩
      · next hstatus =>
        split
        · exact hraise _ _
        · split
          · exact hraise _ _
          · exact ih (hagain _ (by simpa [fetches] using hstatus))

theorem conduct_cancelAfterTimeout {order : Order} {remainingQty : ℤ} :
    Safe (Conduct l) h (ProcessOrderStatus.cancelAfterTimeout order remainingQty) := by
  unfold ProcessOrderStatus.cancelAfterTimeout ProcessOrderStatus.newCancelOrderId
  rw [raise_bind]
  exact Safe.tryExcept (safe_raise _) fun _ _ _ => safe_pure _

/-! ## The cycle -/

section Cycle
variable {id : Option OrderId} {attempt : ℕ} {first : Option Instant} {order : Order} {n : ℕ}
  {snapshot : Snapshot} {cycle : ProcessOrderStatus.Cycle}

theorem FetchedAt.mono {request : ExecutionsRequest} {answer : DailyOrderExecutionResponse}
    (hf : FetchedAt h n request answer) (hh : h <+: h') : FetchedAt h' n request answer := by
  obtain ⟨code, body, text, hmem, hstatus, hparse⟩ := hf
  exact ⟨code, body, text, hh.subset hmem, hstatus, hparse⟩

theorem Snapshotted.mono (hs : Snapshotted h id order n snapshot) (hh : h <+: h') :
    Snapshotted h' id order n snapshot := by
  obtain ⟨answer, hasChildOrders, hfetched, hsnap⟩ := hs.derived
  exact ⟨hs.read.mono hh, hs.tracked, ⟨answer, hasChildOrders, hfetched.mono hh, hsnap⟩,
    hs.allowed⟩

/-- An object whose end was seen, or an object in a tracked status that a statement
on all tracked statuses was issued for. -/
theorem endSeen_refresh {o : Order} {u : OrderUpdate} {matched : Bool}
    (hread : Answered h (.selectOrder id) (some order)) (hid : order.id = u.id) (ho : o.id = u.id)
    (htracked : order.status ∈ trackingTargetStatuses)
    (hexp : u.expected = some trackingTargetStatuses) (hend : Terminal u.set.nextStatus)
    (hl : Terminal o.status → EndSeen (h ++ [(n, ⟨.updateOrder u, .ok matched⟩)]) o.id) :
    Terminal (u.refresh o).status →
      EndSeen (h ++ [(n, ⟨.updateOrder u, .ok matched⟩)]) (u.refresh o).id := by
  intro ht
  rw [OrderUpdate.refresh_id]
  by_cases hsel : u.selects o = true
  · rw [ho]
    exact .late rfl hread hid htracked hexp hend
  · rw [OrderUpdate.refresh, if_neg hsel] at ht
    exact hl ht

theorem conduct_timeoutOrder {o : Order} {loaded : List Order}
    (hs : Snapshotted h id order n snapshot) (ho : o.id = order.id)
    (hl : Held h (o :: loaded)) :
    Safe (Conduct (.processOrderStatus id attempt first)) h
      (ProcessOrderStatus.timeoutOrder cycle o snapshot loaded) := by
  have hwrite : Write (.processOrderStatus id attempt first) h (trackingUpdate o.id
      trackingTargetStatuses (ProcessOrderStatus.timeoutResult cycle snapshot.result)) := by
    rw [ho]
    exact .timeout hs
  unfold ProcessOrderStatus.timeoutOrder updateOrderTrackingResult
  refine safe_perform_bind hwrite fun k matched => ?_
  have hh := List.prefix_append h [(k, ⟨.updateOrder (trackingUpdate o.id
    trackingTargetStatuses (ProcessOrderStatus.timeoutResult cycle snapshot.result)), .ok matched⟩)]
  have hl' := held_cons.mp (hl.mono hh)
  have hheld := endSeen_refresh hs.read ho.symm rfl hs.tracked rfl
    (by simp [trackingUpdate, ProcessOrderStatus.timeoutResult, SetClause.nextStatus, Terminal,
      terminalStates]) hl'.1
  refine (along_publishOrderUpdate conduct_of_loads).bind_safe fun h₁ published hh₁ hpub => ?_
  have hall : Held h₁ ((trackingUpdate o.id trackingTargetStatuses
      (ProcessOrderStatus.timeoutResult cycle snapshot.result)).refresh o ::
      loaded ++ published) := by
    refine Held.append (held_cons.mpr ⟨fun ht => (hheld ht).mono hh₁, hl'.2.mono hh₁⟩) ?_
    exact (hpub _ rfl).held
  simp only
  split
  · exact Safe.bind conduct_cancelAfterTimeout fun h₂ _ hh₂ =>
      conduct_triggerRebalanceSnapshot (hall.mono hh₂)
  · exact conduct_triggerRebalanceSnapshot hall

theorem conduct_retrack {o : Order} {loaded : List Order}
    (hs : Snapshotted h id order n snapshot) (ho : o.id = order.id)
    (hl : Held h (o :: loaded)) :
    Safe (Conduct (.processOrderStatus id attempt first)) h
      (ProcessOrderStatus.retrack cycle o snapshot loaded) := by
  unfold ProcessOrderStatus.retrack
  split
  · exact safe_pure _
  · split
    · exact conduct_timeoutOrder hs ho hl
    · exact safe_perform Send.track

/-- The statement of step 7 matches the object it was made of. -/
theorem expectedStatuses_selects (htracked : order.status ∈ trackingTargetStatuses)
    (r : TrackingResult) :
    (trackingUpdate order.id (ProcessOrderStatus.expectedStatuses order.status) r).selects order =
      true := by
  rw [OrderUpdate.selects_iff]
  refine ⟨rfl, ?_⟩
  rintro statuses ⟨⟩
  rw [ProcessOrderStatus.expectedStatuses, List.mem_filter]
  exact ⟨htracked, canTransition_self (not_terminal_of_tracked htracked)⟩

theorem conduct_storeSnapshot
    (hs : canTransition order.status snapshot.result.nextStatus = true →
      Snapshotted h id order n snapshot) :
    Safe (Conduct (.processOrderStatus id attempt first)) h
      (ProcessOrderStatus.storeSnapshot cycle order snapshot) := by
  unfold ProcessOrderStatus.storeSnapshot updateOrderTrackingResult
  by_cases hallowed : canTransition order.status snapshot.result.nextStatus = true
  case neg =>
    simp only [hallowed, Bool.not_false, if_true]
    exact safe_perform trivial
  have hs := hs hallowed
  have hsel := expectedStatuses_selects hs.tracked snapshot.result
  simp only [hallowed, Bool.not_true, Bool.false_eq_true, if_false]
  refine safe_perform_bind (Write.track hs) fun k updated => ?_
  cases updated with
  | false => exact safe_perform trivial
  | true =>
    simp only [OrderUpdate.refresh, hsel, if_true, Bool.not_true, Bool.false_eq_true, if_false]
    have hh := List.prefix_append h [(k, ⟨.updateOrder (trackingUpdate order.id
      (ProcessOrderStatus.expectedStatuses order.status) snapshot.result), .ok true⟩)]
    -- the object now shows what was stored
    have hheld : ∀ h', h ++ [(k, ⟨.updateOrder (trackingUpdate order.id
        (ProcessOrderStatus.expectedStatuses order.status) snapshot.result), .ok true⟩)] <+: h' →
        ∀ o : Order, o.id = order.id → o.status = snapshot.result.nextStatus →
        Terminal o.status → EndSeen h' o.id := by
      intro h' hh' o ho hst ht
      rw [ho]
      refine (EndSeen.wrote answered_append ?_).mono hh'
      rwa [hst] at ht
    refine (along_adjustParent conduct_of_loads rfl).bind_safe fun h₁ loaded hh₁ hloaded => ?_
    cases loaded with
    | none => exact safe_pure _
    | some loaded =>
      refine Safe.bind (safe_perform trivial) fun h₂ _ hh₂ => ?_
      refine (along_publishOrderUpdate conduct_of_loads).bind_safe fun h₃ published hh₃ hpub => ?_
      have hrest : Held h₃ (loaded ++ published) :=
        (((hloaded _ rfl).mono (hh₂.trans hh₃)).append (hpub _ rfl)).held
      have hord : Held h₃ ((trackingUpdate order.id
          (ProcessOrderStatus.expectedStatuses order.status) snapshot.result).set.apply order ::
          (loaded ++ published)) := by
        rw [held_cons]
        exact ⟨hheld _ (hh₁.trans (hh₂.trans hh₃)) _ (by simp) (by simp [trackingUpdate,
          SetClause.nextStatus]), hrest⟩
      have hs' : ∀ h', h₃ <+: h' → Snapshotted h' id order n snapshot := fun h' hh' =>
        hs.mono (hh.trans (hh₁.trans (hh₂.trans (hh₃.trans hh'))))
      split
      · exact Safe.bind (conduct_triggerRebalanceSnapshot hord) fun h₄ _ hh₄ =>
          conduct_retrack (hs' _ hh₄) (by simp) (hord.mono hh₄)
      · exact conduct_retrack (hs' _ (List.prefix_refl _)) (by simp) hord

theorem conduct_trackOrder (hread : Answered h (.selectOrder id) (some order))
    (hfirst : ∀ x ∈ h, fetches x = false) :
    Safe (Conduct (.processOrderStatus id attempt first)) h
      (ProcessOrderStatus.trackOrder cycle order) := by
  unfold ProcessOrderStatus.trackOrder TradeService.getDailyOrderExecutions
    KisOrder.getDailyOrderExecutions
  split
  · exact safe_pure _
  next htracked =>
  rw [not_not] at htracked
  split
  · exact safe_pure _
  refine safe_perform_bind trivial fun m token => ?_
  have hfirst₁ : ∀ x ∈ h ++ [(m, (⟨.accessToken, .ok token⟩ : (o : Op) × Except PyExc (Ans o)))],
      fetches x = false := by
    simpa [or_imp, forall_and, fetches] using hfirst
  have hh₁ := List.prefix_append h
    [(m, (⟨.accessToken, .ok token⟩ : (o : Op) × Except PyExc (Ans o)))]
  refine (along_dailyOrderExecutions _ hfirst₁).bind_safe fun h₂ answer hh₂ hanswer => ?_
  obtain ⟨k, hfetched⟩ := hanswer answer rfl
  have hrest : ∀ hasChildOrders (h' : Calls), h₂ <+: h' →
      Safe (Conduct (.processOrderStatus id attempt first)) h' (do
        let snapshot ← ofExcept (extractOrderTrackingSnapshot order answer hasChildOrders)
        ProcessOrderStatus.storeSnapshot cycle order snapshot) := by
    intro hasChildOrders h' hh'
    have hok : Along (Conduct (.processOrderStatus id attempt first))
        (fun _ r => extractOrderTrackingSnapshot order answer hasChildOrders = r) h'
        (ofExcept (extractOrderTrackingSnapshot order answer hasChildOrders)) := by
      rw [along_ofExcept]
    refine hok.bind_safe fun h₃ snapshot hh₃ hsnapshot => ?_
    refine conduct_storeSnapshot fun hallowed => (?_ : Snapshotted h₃ id order k snapshot)
    exact ⟨hread.mono (hh₁.trans (hh₂.trans (hh'.trans hh₃))), htracked,
      ⟨answer, hasChildOrders, hfetched.mono (hh'.trans hh₃), hsnapshot⟩, hallowed⟩
  split
  · exact Safe.bind (safe_perform trivial) fun h₃ hasChildOrders hh₃ => hrest _ _ hh₃
  · exact hrest false h₂ (List.prefix_refl _)

theorem conduct_requeueOrderTracking {orderPk : Option OrderId} :
    Safe (Conduct l) h (ProcessOrderStatus.requeueOrderTracking orderPk cycle) := by
  unfold ProcessOrderStatus.requeueOrderTracking
  split
  · exact safe_pure _
  · exact safe_perform Send.track

theorem conduct_handleTrackingError {order : Option Order} {e : PyExc}
    (hread : ∀ o, order = some o → Answered h (.selectOrder id) (some o)) :
    Safe (Conduct (.processOrderStatus id attempt first)) h
      (ProcessOrderStatus.handleError cycle order e) := by
  unfold ProcessOrderStatus.handleError ProcessOrderStatus.handleKisOrderError
    ProcessOrderStatus.handleException
  simp only [updateOrderFailureResult_raises, updateOrderFailureResult_binds]
  split
  · refine Safe.bind (safe_perform trivial) fun h₁ _ hh₁ => ?_
    split
    · exact conduct_requeueOrderTracking
    · cases order with
      | none => exact safe_raise _
      | some o =>
        refine Safe.bind (safe_perform ?_) fun _ _ _ => safe_raise _
        exact Write.fail ((hread o rfl).mono hh₁)
  · refine Safe.bind (safe_perform trivial) fun h₁ _ hh₁ => ?_
    split
    · exact conduct_requeueOrderTracking
    · split
      · exact safe_raise _
      · exact safe_raise _

theorem conduct_processOrderStatus (id : Option OrderId) (attempt : ℕ) (first : Option Instant) :
    Safe (Conduct (.processOrderStatus id attempt first)) []
      (ProcessOrderStatus.processOrderStatus id attempt first) := by
  unfold ProcessOrderStatus.processOrderStatus getOrderById
  refine safe_perform_bind trivial fun m nowUtc => ?_
  have hselect : Along (Conduct (.processOrderStatus id attempt first))
      (fun h' r => ∃ k, h' = [(m, ⟨.now, .ok nowUtc⟩), (k, ⟨.selectOrder id, r⟩)])
      [(m, ⟨.now, .ok nowUtc⟩)] (Op.perform (.selectOrder id)) := .perform trivial fun k r => ⟨k, rfl⟩
  refine hselect.attempt ?_
  rintro h₂ r - ⟨k, rfl⟩
  cases r with
  | error e => exact conduct_handleTrackingError fun o ho => by cases ho
  | ok found =>
    cases found with
    | none => exact safe_pure _
    | some order =>
      have hid : Answered ([(m, ⟨.now, .ok nowUtc⟩),
          (k, ⟨.selectOrder id, .ok (some order)⟩)] : Calls) (.selectOrder id) (some order) :=
        ⟨k, by simp⟩
      have hfirst : ∀ x ∈ ([(m, ⟨.now, .ok nowUtc⟩),
          (k, ⟨.selectOrder id, .ok (some order)⟩)] : Calls), fetches x = false := by
        simp [fetches]
      refine Safe.tryExcept (conduct_trackOrder hid hfirst) fun h₃ e hh₃ => ?_
      refine conduct_handleTrackingError fun o ho => ?_
      obtain rfl := Option.some.inj ho
      exact hid.mono hh₃

end Cycle

end Autotrading
