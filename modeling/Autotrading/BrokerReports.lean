import Autotrading.SystemRules

/-!
# What the broker reports of an order

The row of an order in the answer to its execution query, the rows the cycles of an
order were told, and how the statements of worker 2 depend on them.
-/
namespace Autotrading

open Machine Prog OrderState OrderRepository TrackingSnapshot

/-- A quantity of an order, zero where there is no such order. -/
def World.quantity (f : Order → ℤ) (id : OrderId) (w : World) : ℤ :=
  ((w.orders.get? id).map f).getD 0

/-- The quantities of the row that carries the order number asked for. -/
def reportedRow (request : ExecutionsRequest) : HttpReply ExecutionAnswer → Option RowQuantities
  | .response statusCode body _ =>
    match KisOrder.parseExecutions body with
    | .ok answer =>
      if KisOrder.is2xx statusCode then
        (answer.output1.bind (matchedRow request.odno)).bind fun row => (rowQuantities row).toOption
      else none
    | .error _ => none
  | .requestError _ => none

/-- The row a call was told. -/
def toldRow : Entry → Option RowQuantities
  | (_, ⟨.get request, .ok reply⟩) => reportedRow request reply
  | _ => none

/-- The rows that the cycles of an order were told, in no particular order. -/
def reports (s : System) (id : OrderId) : List RowQuantities :=
  (s.tasks.filter fun t => t.label.tracks = some id).flatMap fun t => t.history.filterMap toldRow

theorem mem_reports {s : System} {id : OrderId} {q : RowQuantities} :
    q ∈ reports s id ↔
      ∃ t ∈ s.tasks, t.label.tracks = some id ∧ ∃ x ∈ t.history, toldRow x = some q := by
  simp [reports, and_assoc]

/-- The event tells a cycle of the order this row. -/
def Told (env : Env) (id : OrderId) (s : System) (e : Event) (q : RowQuantities) : Prop :=
  ∃ i t o k, e = .step i ∧ s.tasks[i]? = some t ∧ t.label.tracks = some id ∧ t.prog = .call o k ∧
    toldRow (s.state.tick, ⟨o, (World.handle env o s.state).1⟩) = some q

/-- The row the event tells a cycle of the order. -/
def told? (env : Env) (id : OrderId) (s : System) : Event → Option RowQuantities
  | .step i => s.tasks[i]?.bind fun t =>
    match t.prog with
    | .call o _ =>
      if t.label.tracks = some id then
        toldRow (s.state.tick, ⟨o, (World.handle env o s.state).1⟩)
      else none
    | _ => none
  | _ => none

theorem told_iff {env : Env} {id : OrderId} {s : System} {e : Event} {q : RowQuantities} :
    Told env id s e q ↔ told? env id s e = some q := by
  constructor
  · rintro ⟨i, t, o, k, rfl, ht, htracks, hp, htold⟩
    simp [told?, ht, hp, htracks, htold]
  · intro h
    cases e with
    | step i =>
      simp only [told?, Option.bind_eq_some_iff] at h
      obtain ⟨t, ht, h⟩ := h
      split at h
      · next o k hp =>
        split at h
        · next htracks => exact ⟨i, t, o, k, rfl, ht, htracks, hp, h⟩
        · cases h
      · cases h
    | launch l => cases h
    | crash i => cases h
    | ambient a => cases h

/-- The rows told so far are those of the events. -/
theorem reports_change {settings : Settings} {env : Env} {s s' : System} {e : Event} {id : OrderId}
    {q : RowQuantities} (hc : Change (autotrading settings env) s e s') (hq : q ∈ reports s' id) :
    q ∈ reports s id ∨ Told env id s e q := by
  rw [mem_reports] at hq
  obtain ⟨t, ht, htracks, x, hx, htold⟩ := hq
  rcases hc.entry ht hx with ⟨u, hu, hl, hx⟩ | ⟨i, u, o, k, he, hu, hl, hp, -, rfl⟩
  · rw [← hl] at htracks
    exact .inl (mem_reports.mpr ⟨u, hu, htracks, x, hx, htold⟩)
  · rw [← hl] at htracks
    exact .inr ⟨i, u, o, k, he, hu, htracks, hp, htold⟩

section Runs
variable {settings : Settings} {env : Env} {s s' : System} {e : Event} {id : OrderId}
  {q : RowQuantities}

/-- A row told stays among the reports. -/
theorem reports_mono (hc : Change (autotrading settings env) s e s') (hq : q ∈ reports s id) :
    q ∈ reports s' id := by
  rw [mem_reports] at hq ⊢
  obtain ⟨t, ht, htracks, x, hx, htold⟩ := hq
  -- a task that was there before is there after, with a longer history
  suffices hafter : ∃ u ∈ s'.tasks, u.label = t.label ∧ t.history <+: u.history by
    obtain ⟨u, hu, hlabel, hh⟩ := hafter
    exact ⟨u, hu, hlabel ▸ htracks, x, hh.subset hx, htold⟩
  exact hc.task_after ht

theorem Told.mem_reports (ht : Told env id s e q) :
    q ∈ reports ((autotrading settings env).next s e) id := by
  obtain ⟨i, t, o, k, rfl, hi, htracks, hp, htold⟩ := ht
  rw [Autotrading.mem_reports]
  have hnext : (autotrading settings env).next s (.step i) =
      ⟨(World.handle env o s.state).2, s.tasks.set i (t.advance s.state.tick o
        (World.handle env o s.state).1 k)⟩ := by
    simp only [next, hi, hp]
    rfl
  have hlen := (List.getElem?_eq_some_iff.mp hi).1
  rw [hnext]
  refine ⟨_, List.mem_of_getElem? (List.getElem?_set_self hlen), htracks, _, ?_, htold⟩
  exact List.mem_append_right _ (List.mem_singleton.mpr rfl)

/-- All rows told in a run have a property exactly when every event tells such rows. -/
theorem meets_told_iff {P : RowQuantities → Prop} (es : List Event) (s : System) :
    ((∀ q ∈ reports s id, P q) ∧
        Meets (autotrading settings env) (fun s e => ∀ q, Told env id s e q → P q) s es) ↔
      ∀ q ∈ reports ((autotrading settings env).run s es) id, P q := by
  induction es generalizing s with
  | nil => simp [Meets]
  | cons e es ih =>
    have hc := next_change (autotrading settings env) s e
    rw [run_cons, ← ih, Meets]
    constructor
    · rintro ⟨hreports, htold, hmeets⟩
      refine ⟨fun q hq => ?_, hmeets⟩
      rcases reports_change hc hq with hq | hq
      · exact hreports q hq
      · exact htold q hq
    · rintro ⟨hreports, hmeets⟩
      exact ⟨fun q hq => hreports q (reports_mono hc hq), fun q hq => hreports q hq.mem_reports, hmeets⟩

end Runs

/-- The statement stores a tracking result. -/
def storesTracking : SetClause → Bool
  | .tracking .. => true
  | _ => false

/-- The call stored a tracking result. -/
def storesResult : Entry → Bool
  | (_, ⟨.updateOrder u, .ok true⟩) => storesTracking u.set
  | _ => false

/-- The cycles of an order that stored a result. -/
def storingCycles (s : System) (id : OrderId) : List Task :=
  s.tasks.filter fun t => t.label.tracks = some id && t.history.any storesResult

/-- The rows told to those cycles. -/
def storedReports (s : System) (id : OrderId) : List RowQuantities :=
  (storingCycles s id).flatMap fun t => t.history.filterMap toldRow

/-! ## Snapshots and rows -/

/-- A snapshot keeps the order read when the answer has no row of the order, and else
is made of the row that was told. -/
theorem Snapshotted.told {h : Calls} {id : Option OrderId} {order : Order} {n : ℕ}
    {snapshot : Snapshot} (hs : Snapshotted h id order n snapshot) :
    ∃ x ∈ h, fetches x = true ∧ ∃ answer,
      ((toldRow x = none ∧ snapshot = keptSnapshot order answer) ∨
        ∃ row q hasChildOrders, toldRow x = some q ∧
          snapshot = rowSnapshot order answer row q hasChildOrders) := by
  obtain ⟨answer, hasChildOrders, ⟨code, body, text, hmem, hstatus, hparse⟩, hsnap⟩ := hs.derived
  refine ⟨_, hmem, hstatus, answer, ?_⟩
  obtain ⟨output1, hout, hcases⟩ := extractOrderTrackingSnapshot_cases hsnap
  have hodno : (ProcessOrderStatus.executionsRequest order).odno = order.brokerOrderNo := rfl
  rcases hcases with ⟨hnone, hkept⟩ | ⟨row, q, hrow, hq, hrowed⟩
  · refine .inl ⟨?_, hkept⟩
    simp [toldRow, reportedRow, hparse, hstatus, hout, hodno, hnone]
  · refine .inr ⟨row, q, hasChildOrders, ?_, hrowed⟩
    simp [toldRow, reportedRow, hparse, hstatus, hout, hodno, hrow, hq, Except.toOption]

/-- What a snapshot holds: what the order read held when the answer has no row of the
order, and else what its row says. -/
theorem Snapshotted.cases {h : Calls} {id : Option OrderId} {order : Order} {n : ℕ}
    {snapshot : Snapshot} (hs : Snapshotted h id order n snapshot) :
    ∃ x ∈ h, fetches x = true ∧
      ((toldRow x = none ∧ snapshot.result.filledQty = order.filledQty ∧
          snapshot.result.nextStatus = order.status) ∨
        ∃ q, toldRow x = some q ∧ snapshot.result.filledQty = q.filledQty ∧
          Derived q snapshot.result.nextStatus) := by
  obtain ⟨x, hx, hfetches, answer, ⟨hnone, rfl⟩ | ⟨row, q, hasChildOrders, htold, rfl⟩⟩ := hs.told
  · exact ⟨x, hx, hfetches, .inl ⟨hnone, rfl, rfl⟩⟩
  · exact ⟨x, hx, hfetches, .inr ⟨q, htold, rfl, derived_rowSnapshot⟩⟩

/-- Both quantities of a snapshot come from the order read, or both from one row. -/
theorem Snapshotted.quantities {h : Calls} {id : Option OrderId} {order : Order} {n : ℕ}
    {snapshot : Snapshot} (hs : Snapshotted h id order n snapshot) :
    (snapshot.result.filledQty = order.filledQty ∧
        snapshot.result.remainingQty = order.remainingQty) ∨
      ∃ x ∈ h, ∃ q, toldRow x = some q ∧ snapshot.result.filledQty = q.filledQty ∧
        snapshot.result.remainingQty = q.remainingQty := by
  obtain ⟨x, hx, -, answer, ⟨-, rfl⟩ | ⟨row, q, hasChildOrders, htold, rfl⟩⟩ := hs.told
  · exact .inl ⟨rfl, rfl⟩
  · exact .inr ⟨x, hx, q, htold, rfl, rfl⟩

/-- The two statements of worker 2 that store a snapshot. -/
structure Stores (l : Label) (h : Calls) (u : OrderUpdate) (order : Order) (n : ℕ)
    (snapshot : Snapshot) : Prop where
  made : ∃ id attempt first, l = .processOrderStatus id attempt first ∧
    Snapshotted h id order n snapshot
  target : u.id = order.id
  tracking : storesTracking u.set = true
  form : (u.expected = some (ProcessOrderStatus.expectedStatuses order.status) ∧
      u.set.nextStatus = snapshot.result.nextStatus) ∨
    (u.expected = some trackingTargetStatuses ∧ u.set.nextStatus = .timeout)

/-- The statement keeps the quantity filled, and moves an order as the status machine
allows it. -/
structure Keeps (u : OrderUpdate) : Prop where
  filledQty : ∀ r, (u.set.apply r).filledQty = r.filledQty
  allowed : ∀ r, u.selects r = true → canTransition r.status u.set.nextStatus = true
  other : u.set.nextStatus ≠ .partialFilled

/-- A statement with a guard on which the status machine allows what it stores. -/
theorem keeps_of_allowed {u : OrderUpdate} {statuses : List OrderStatus} (status : OrderStatus)
    (hfilled : ∀ r, (u.set.apply r).filledQty = r.filledQty) (hexp : u.expected = some statuses)
    (hnext : u.set.nextStatus = status) (hall : ∀ s ∈ statuses, canTransition s status = true)
    (hother : status ≠ .partialFilled) : Keeps u where
  filledQty := hfilled
  allowed := by
    intro r hsel
    rw [hnext]
    exact hall _ ((OrderUpdate.selects_iff.mp hsel).2 statuses hexp)
  other := by
    rw [hnext]
    exact hother

/-- A statement keeps the quantity filled, or stores that of a snapshot. -/
theorem Write.filledQty {l : Label} {h : Calls} {u : OrderUpdate} (hw : Write l h u) :
    Keeps u ∨ ∃ order n snapshot, Stores l h u order n snapshot ∧
      ∀ r, (u.set.apply r).filledQty = snapshot.result.filledQty := by
  cases hw with
  | gate => exact .inl (keeps_of_allowed .processing (fun _ => rfl) rfl rfl (by decide) (by decide))
  | release => exact .inl (keeps_of_allowed .pending (fun _ => rfl) rfl rfl (by decide) (by decide))
  | @submit id h order rtCd msgCd msg1 brokerOrgNo brokerOrderNo nextStatus remainingQty read next =>
    have hallowed : canTransition .processing nextStatus = true ∧ nextStatus ≠ .partialFilled := by
      revert next
      cases nextStatus <;> decide
    refine .inl (keeps_of_allowed nextStatus (fun _ => rfl) rfl rfl ?_ hallowed.2)
    intro s hs
    obtain rfl := List.mem_singleton.mp hs
    exact hallowed.1
  | fail => exact .inl (keeps_of_allowed .failed (fun _ => rfl) rfl rfl (by decide) (by decide))
  | track made =>
    exact .inr ⟨_, _, _, ⟨⟨_, _, _, rfl, made⟩, rfl, rfl, .inl ⟨rfl, rfl⟩⟩, fun _ => rfl⟩
  | timeout made =>
    exact .inr ⟨_, _, _, ⟨⟨_, _, _, rfl, made⟩, rfl, rfl, .inr ⟨rfl, rfl⟩⟩, fun _ => rfl⟩

/-- The statements of worker 2 are on the order its task tracks. -/
theorem Sound.write_tracks {env : Env} {s : System} (hs : Sound env s) {t : Task}
    (ht : t ∈ s.tasks) {u : OrderUpdate} (hw : Write t.label t.history u) {id : OrderId}
    (hid : t.label.tracks = some id) : u.id = id := by
  have hread : ∀ {l : Label} {k : Option OrderId} {order : Order}, t.label = l →
      l.tracks = k → Answered t.history (.selectOrder k) (some order) → order.id = id := by
    intro l k order hl hk hr
    have hsame := hs.read_id ht hr
    rw [← hk, ← hl, hid] at hsame
    exact (Option.some.inj hsame).symm
  generalize hl : t.label = l at hw
  cases hw with
  | gate => rw [hl] at hid; cases hid
  | release => rw [hl] at hid; cases hid
  | submit => rw [hl] at hid; cases hid
  | track made => exact hread hl rfl made.read
  | timeout made => exact hread hl rfl made.read
  | fail read => exact hread hl rfl read

/-- A stored snapshot is of the order the task tracks. -/
theorem Sound.stores_tracks {env : Env} {s : System} (hs : Sound env s) {t : Task}
    (ht : t ∈ s.tasks) {u : OrderUpdate} {order : Order} {n : ℕ} {snapshot : Snapshot}
    (hst : Stores t.label t.history u order n snapshot) : t.label.tracks = some u.id := by
  obtain ⟨id, attempt, first, hl, hmade⟩ := hst.made
  rw [hl, hst.target]
  exact hs.read_id ht hmade.read

end Autotrading
