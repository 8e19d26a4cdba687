import Autotrading.BrokerReports

/-!
# Stale tracking cycles

A cycle checks its transition against the status it read before it asked the broker,
and its statement accepts every tracked status that can follow that one. A cycle that
was overtaken can so take an order back. It cannot as long as no cycle stores an
answer that another cycle has made out of date: then the status only moves as the
status machine allows from the status stored, and the quantity filled never falls.
-/
namespace Autotrading

open Machine Prog OrderState OrderRepository TrackingSnapshot
open Machine.Sys (start)

variable {settings : Settings} {env : Env} {s s' : System} {e : Event} {w : World} {id : OrderId}
  {b : ℤ}

/-- Between two states the order moves as the status machine allows and loses no fill. -/
def Progresses (id : OrderId) (s s' : System) : Prop :=
  ∀ r ∈ s.state.orders.get? id, ∀ r' ∈ s'.state.orders.get? id,
    (r'.status ≠ r.status → canTransition r.status r'.status = true) ∧ r.filledQty ≤ r'.filledQty

instance : Decidable (Progresses id s s') :=
  inferInstanceAs (Decidable (∀ r ∈ s.state.orders.get? id, ∀ r' ∈ s'.state.orders.get? id, _ ∧ _))

/-- What the broker tells of an order shows at least `b` shares filled and never fewer
than it told before. -/
def FillsGrow (env : Env) (id : OrderId) (b : ℤ) (s : System) (e : Event) : Prop :=
  ∀ q, Told env id s e q → b ≤ q.filledQty ∧ ∀ q' ∈ reports s id, q'.filledQty ≤ q.filledQty

instance : Decidable (FillsGrow env id b s e) :=
  decidable_of_iff (∀ q ∈ told? env id s e, b ≤ q.filledQty ∧
    ∀ q' ∈ reports s id, q'.filledQty ≤ q.filledQty) (by simp only [FillsGrow, told_iff, Option.mem_def])

/-- The tracking result the program is about to store. -/
def trackingStatement : Program Unit → Option OrderUpdate
  | .call (.updateOrder u) _ => if storesTracking u.set then some u else none
  | _ => none

/-- The order a call read. -/
def readRow : Entry → Option Order
  | (_, ⟨.selectOrder _, .ok (some r)⟩) => some r
  | _ => none

/-- The answer `x` of a cycle about to store `u` over the row `r` is out of date:
another cycle has stored a later answer that shows more, or, when `x` has no row of
the order, what the cycle read is no longer what is stored. -/
def OutOfDate (s : System) (id : OrderId) (t : Task) (u : OrderUpdate) (r : Order) (x : Entry) :
    Prop :=
  (∃ q ∈ toldRow x, ∃ t' ∈ storingCycles s id, ∃ y ∈ t'.history, x.1 < y.1 ∧
    ∃ q' ∈ toldRow y, q.filledQty < q'.filledQty) ∨
  ((toldRow x).isNone = true ∧ ∃ o ∈ t.history.filterMap readRow, o.id = id ∧
    (o.filledQty ≠ r.filledQty ∨ o.status ≠ r.status ∧ u.set.nextStatus ≠ .timeout))

instance {t : Task} {u : OrderUpdate} {r : Order} {x : Entry} : Decidable (OutOfDate s id t u r x) :=
  inferInstanceAs (Decidable (_ ∨ _))

/-- The event stores a tracking result over the row of the order, made of an answer
that is out of date. -/
def Overtaken (s : System) (id : OrderId) : Event → Prop
  | .step i => ∃ t ∈ s.tasks[i]?, ∃ u ∈ trackingStatement t.prog, ∃ r ∈ s.state.orders.get? id,
      u.selects r = true ∧ ∃ x ∈ t.history, fetches x = true ∧ OutOfDate s id t u r x
  | _ => False

instance : ∀ e, Decidable (Overtaken s id e)
  | .step i => inferInstanceAs (Decidable (∃ t ∈ s.tasks[i]?, ∃ u ∈ trackingStatement t.prog,
      ∃ r ∈ s.state.orders.get? id, _ ∧ ∃ x ∈ t.history, _ ∧ OutOfDate s id t u r x))
  | .launch _ => inferInstanceAs (Decidable False)
  | .crash _ => inferInstanceAs (Decidable False)
  | .ambient _ => inferInstanceAs (Decidable False)

/-! ## What is stored was told -/

/-- The quantity `x` has been there from the start, or a stored answer shows it. -/
def Attained (id : OrderId) (b : ℤ) (s : System) (x : ℤ) : Prop :=
  x ≤ max b 0 ∨ ∃ q ∈ storedReports s id, x ≤ q.filledQty

theorem mem_storedReports {q : RowQuantities} :
    q ∈ storedReports s id ↔ ∃ t ∈ s.tasks, t.label.tracks = some id ∧
      t.history.any storesResult = true ∧ ∃ x ∈ t.history, toldRow x = some q := by
  simp [storedReports, storingCycles, and_assoc]

theorem storedReports_mono (hc : Change (autotrading settings env) s e s') {q : RowQuantities}
    (hq : q ∈ storedReports s id) : q ∈ storedReports s' id := by
  rw [mem_storedReports] at hq ⊢
  obtain ⟨t, ht, htracks, hany, x, hx, htold⟩ := hq
  obtain ⟨y, hy, hstores⟩ := List.any_eq_true.mp hany
  obtain ⟨u, hu, hl, hh⟩ := hc.task_after ht
  have hany' : u.history.any storesResult = true :=
    List.any_eq_true.mpr ⟨y, hh.subset hy, hstores⟩
  exact ⟨u, hu, hl ▸ htracks, hany', x, hh.subset hx, htold⟩

theorem Attained.change {x : ℤ} (h : Attained id b s x)
    (hc : Change (autotrading settings env) s e s') : Attained id b s' x := by
  rcases h with hstart | ⟨q, hq, hle⟩
  · exact .inl hstart
  · exact .inr ⟨q, storedReports_mono hc hq, hle⟩

/-- What the row shows is attained. -/
structure Shown (id : OrderId) (b : ℤ) (s : System) (r : Order) : Prop where
  filled : Attained id b s r.filledQty
  partialFilled : r.status = .partialFilled → Attained id b s 1

theorem Shown.change {r : Order} (h : Shown id b s r)
    (hc : Change (autotrading settings env) s e s') : Shown id b s' r where
  filled := h.filled.change hc
  partialFilled := fun hs => (h.partialFilled hs).change hc

/-- A run in which fills grow and no cycle is overtaken, so far. -/
structure Current (env : Env) (id : OrderId) (b : ℤ) (s : System) : Prop where
  sound : Sound env s
  started : ∀ q ∈ reports s id, b ≤ q.filledQty
  grown : ∀ t ∈ s.tasks, ∀ t' ∈ s.tasks, t.label.tracks = some id → t'.label.tracks = some id →
    ∀ x ∈ t.history, ∀ x' ∈ t'.history, ∀ q q', toldRow x = some q → toldRow x' = some q' →
      x.1 ≤ x'.1 → q.filledQty ≤ q'.filledQty
  shown : ∀ r, s.state.orders.get? id = some r → Shown id b s r

/-- An answer that is not out of date shows everything attained. -/
theorem Current.attained_le (h : Current env id b s) {t : Task} (ht : t ∈ s.tasks)
    (htracks : t.label.tracks = some id) {x : Entry} (hx : x ∈ t.history) {q : RowQuantities}
    (htold : toldRow x = some q)
    (hfresh : ∀ t' ∈ storingCycles s id, ∀ y ∈ t'.history, x.1 < y.1 → ∀ q' ∈ toldRow y,
      q'.filledQty ≤ q.filledQty) {y : ℤ} (hy : Attained id b s y) : y ≤ q.filledQty := by
  rcases hy with hstart | ⟨q', hq', hle⟩
  · have hb := h.started q (mem_reports.mpr ⟨t, ht, htracks, x, hx, htold⟩)
    have hzero := q.filledQty_nonneg
    omega
  · obtain ⟨t', ht', htracks', hany, z, hz, htold'⟩ := mem_storedReports.mp hq'
    by_cases hlt : x.1 < z.1
    · have hstoring : t' ∈ storingCycles s id := by simp [storingCycles, ht', htracks', hany]
      exact hle.trans (hfresh t' hstoring z hz hlt q' htold')
    · have hgrown := h.grown t' ht' t ht htracks' htracks z hz x hx q' q htold' htold (not_lt.mp hlt)
      exact hle.trans hgrown

/-- The status derived from such an answer can follow the one stored. -/
theorem Current.allowed (h : Current env id b s) {r : Order}
    (hr : s.state.orders.get? id = some r) (htracked : r.status ∈ trackingTargetStatuses)
    {q : RowQuantities} (hle : ∀ y, Attained id b s y → y ≤ q.filledQty) {status : OrderStatus}
    (hd : Derived q status) : canTransition r.status status = true := by
  have houtcome := hd.outcome
  have hto : status ∈ trackingTargetStatuses ∨ Terminal status := by
    revert houtcome
    cases status <;> decide
  rw [canTransition_of_tracked htracked hto]
  by_cases haccepted : status = .accepted
  · -- the answer shows no fill, so none is stored
    have hzero := hd.accepted haccepted
    have hnot : r.status ≠ .partialFilled := by
      intro hs
      have hone := hle 1 ((h.shown r hr).partialFilled hs)
      omega
    rw [haccepted]
    revert htracked hnot
    cases r.status <;> decide
  · revert htracked houtcome haccepted
    cases r.status <;> cases status <;> decide

/-! ## Steps and runs -/

theorem canTransition_timeout {status : OrderStatus} (h : status ∈ trackingTargetStatuses) :
    canTransition status .timeout = true := by
  rw [canTransition_of_tracked h (.inr (by decide))]
  cases status <;> decide

namespace Stores

variable {l : Label} {h : Calls} {u : OrderUpdate} {order : Order} {n : ℕ} {snapshot : Snapshot}

/-- What is stored may follow if what the snapshot says may; a timeout always may. -/
theorem allowed (hst : Stores l h u order n snapshot) {status : OrderStatus}
    (htracked : status ∈ trackingTargetStatuses)
    (hnext : u.set.nextStatus = snapshot.result.nextStatus →
      canTransition status u.set.nextStatus = true) :
    canTransition status u.set.nextStatus = true := by
  rcases hst.form with ⟨-, hform⟩ | ⟨-, hform⟩
  · exact hnext hform
  · rw [hform]
    exact canTransition_timeout htracked

/-- A partial fill is stored only if the snapshot says so. -/
theorem partialFilled (hst : Stores l h u order n snapshot)
    (hs : u.set.nextStatus = .partialFilled) : snapshot.result.nextStatus = .partialFilled := by
  rcases hst.form with ⟨-, hform⟩ | ⟨-, hform⟩
  · rw [← hform, hs]
  · rw [hform] at hs
    cases hs

/-- The row that a tracking result selects is tracked. -/
theorem tracked (hst : Stores l h u order n snapshot) {r : Order} (hsel : u.selects r = true) :
    r.status ∈ trackingTargetStatuses := by
  have hexp := (OrderUpdate.selects_iff.mp hsel).2
  rcases hst.form with ⟨hform, -⟩ | ⟨hform, -⟩
  · exact expectedStatuses_tracked (hexp _ hform)
  · exact hexp _ hform

end Stores

/-- A tracking result that overtakes nothing is made of answers that are not out of date. -/
theorem fresh_of_written {r : Order} {i : ℕ} {t : Task} {u : OrderUpdate}
    (hr : s.state.orders.get? id = some r) (hw : Written s s' e id r i t u)
    (hsafe : ¬ Overtaken s id e) (htracking : storesTracking u.set = true) {x : Entry}
    (hx : x ∈ t.history) (hfetches : fetches x = true) : ¬ OutOfDate s id t u r x := by
  intro hold
  obtain ⟨kont, hp⟩ := hw.prog
  have hstatement : u ∈ trackingStatement t.prog := by
    simp [trackingStatement, hp, htracking]
  rw [hw.event] at hsafe
  exact hsafe ⟨t, hw.task, u, hstatement, r, hr, hw.selects, x, hx, hfetches, hold⟩

section Written

variable {r order : Order} {i n : ℕ} {t : Task} {u : OrderUpdate} {snapshot : Snapshot} {x : Entry}

/-- The answer has no row of the order: what was read is stored, and it is what is stored. -/
theorem Current.written_without_row (h : Current env id b s)
    (hc : Change (autotrading settings env) s e s') (hr : s.state.orders.get? id = some r)
    (hw : Written s s' e id r i t u) (hst : Stores t.label t.history u order n snapshot)
    (hid : u.id = id) (hset : (u.set.apply r).filledQty = snapshot.result.filledQty)
    (hread : order ∈ t.history.filterMap readRow) (hfresh : ¬ OutOfDate s id t u r x)
    (hnone : toldRow x = none) (hfilled : snapshot.result.filledQty = order.filledQty)
    (hnext : snapshot.result.nextStatus = order.status) :
    canTransition r.status u.set.nextStatus = true ∧
      r.filledQty ≤ (u.set.apply r).filledQty ∧ Shown id b s' (u.set.apply r) := by
  have htracked := hst.tracked hw.selects
  have hshown := h.shown r hr
  have hsame : order.filledQty = r.filledQty ∧
      (order.status = r.status ∨ u.set.nextStatus = .timeout) := by
    by_contra hne
    refine hfresh (.inr ⟨by simp [hnone], order, hread, hst.target.symm.trans hid, ?_⟩)
    tauto
  have hkeeps : (u.set.apply r).filledQty = r.filledQty := by
    rw [hset, hfilled, hsame.1]
  refine ⟨hst.allowed htracked fun hform => ?_, hkeeps.ge, ?_, fun hs => ?_⟩
  · rcases hsame.2 with hstatus | hstatus
    · rw [hform, hnext, hstatus]
      exact canTransition_self (not_terminal_of_tracked htracked)
    · rw [hstatus]
      exact canTransition_timeout htracked
  · rw [hkeeps]
    exact hshown.filled.change hc
  · rw [SetClause.apply_status] at hs
    rcases hsame.2 with hstatus | hstatus
    · have hpartial : r.status = .partialFilled := by
        rw [← hstatus, ← hnext, hst.partialFilled hs]
      exact (hshown.partialFilled hpartial).change hc
    · rw [hstatus] at hs
      cases hs

/-- The answer has a row of the order: what it shows is stored, and it is at least what is
stored. -/
theorem Current.written_with_row (h : Current env id b s) (hr : s.state.orders.get? id = some r)
    (hw : Written s s' e id r i t u) (hst : Stores t.label t.history u order n snapshot)
    (htracks : t.label.tracks = some id)
    (hset : (u.set.apply r).filledQty = snapshot.result.filledQty) (hx : x ∈ t.history)
    (hfresh : ¬ OutOfDate s id t u r x) {q : RowQuantities} (htold : toldRow x = some q)
    (hfilled : snapshot.result.filledQty = q.filledQty)
    (hderived : Derived q snapshot.result.nextStatus) :
    canTransition r.status u.set.nextStatus = true ∧
      r.filledQty ≤ (u.set.apply r).filledQty ∧ Shown id b s' (u.set.apply r) := by
  have hle : ∀ y, Attained id b s y → y ≤ q.filledQty := by
    intro y hy
    refine h.attained_le (List.mem_of_getElem? hw.task) htracks hx htold
      (fun t' ht' z hz hlt q' htold' => ?_) hy
    by_contra hmore
    exact hfresh (.inl ⟨q, htold, t', ht', z, hz, hlt, q', htold', not_le.mp hmore⟩)
  have hstored : q ∈ storedReports s' id := by
    obtain ⟨t', ht', hl', hh⟩ := hw.after
    refine mem_storedReports.mpr ⟨t', ht', hl' ▸ htracks, ?_, x, ?_, htold⟩
    · simp [hh, storesResult, hst.tracking]
    · rw [hh]
      exact List.mem_append_left _ hx
  have hshows : (u.set.apply r).filledQty = q.filledQty := hset.trans hfilled
  refine ⟨hst.allowed (hst.tracked hw.selects) fun hform => ?_, ?_, ?_, fun hs => ?_⟩
  · rw [hform]
    exact h.allowed hr (hst.tracked hw.selects) hle hderived
  · rw [hshows]
    exact hle _ (h.shown r hr).filled
  · rw [hshows]
    exact .inr ⟨q, hstored, le_refl _⟩
  · rw [SetClause.apply_status] at hs
    exact .inr ⟨q, hstored, hderived.partialFilled (hst.partialFilled hs)⟩

/-- The stored row after a statement follows the row before and shows what was told. -/
theorem Current.written (h : Current env id b s) (hsafe : ¬ Overtaken s id e)
    (hc : Change (autotrading settings env) s e s') (hr : s.state.orders.get? id = some r)
    (hw : Written s s' e id r i t u) :
    canTransition r.status u.set.nextStatus = true ∧
      r.filledQty ≤ (u.set.apply r).filledQty ∧ Shown id b s' (u.set.apply r) := by
  rcases hw.write.filledQty with hkeeps | ⟨order, n, snapshot, hst, hset⟩
  · refine ⟨hkeeps.allowed r hw.selects, (hkeeps.filledQty r).ge, ?_, fun hs => ?_⟩
    · rw [hkeeps.filledQty]
      exact (h.shown r hr).filled.change hc
    · rw [SetClause.apply_status] at hs
      exact absurd hs hkeeps.other
  · -- a cycle of the order stores its snapshot
    have hid : u.id = id :=
      (OrderUpdate.selects_iff.mp hw.selects).1.symm.trans (KeyedTable.key_of_get? hr)
    obtain ⟨l, attempt, first, hl, hmade⟩ := hst.made
    obtain ⟨x, hx, hfetches, hcases⟩ := hmade.cases
    have hfresh := fresh_of_written hr hw hsafe hst.tracking hx hfetches
    rcases hcases with ⟨hnone, hfilled, hnext⟩ | ⟨q, htold, hfilled, hderived⟩
    · have hread : order ∈ t.history.filterMap readRow := by
        obtain ⟨k, hk⟩ := hmade.read
        exact List.mem_filterMap.mpr ⟨_, hk, rfl⟩
      exact h.written_without_row hc hr hw hst hid (hset r) hread hfresh hnone hfilled hnext
    · have htracks : t.label.tracks = some id :=
        hid ▸ h.sound.stores_tracks (List.mem_of_getElem? hw.task) hst
      exact h.written_with_row hr hw hst htracks (hset r) hx hfresh htold hfilled hderived

end Written

theorem Current.change (h : Current env id b s) (hgrow : FillsGrow env id b s e)
    (hsafe : ¬ Overtaken s id e) (hc : Change (autotrading settings env) s e s') :
    Current env id b s' where
  sound := h.sound.change hc
  started := by
    intro q hq
    rcases reports_change hc hq with hq | hq
    · exact h.started q hq
    · exact (hgrow q hq).1
  grown := by
    intro t ht t' ht' htracks htracks' x hx x' hx' q q' htold htold' hle
    rcases hc.entry ht hx with ⟨u, hu, hl, hx⟩ | ⟨i, u, o, k, he, hu, hl, hp, -, rfl⟩
    · rcases hc.entry ht' hx' with ⟨u', hu', hl', hx'⟩ | ⟨i', u', o', k', he', hu', hl', hp', -, rfl⟩
      · exact h.grown u hu u' hu' (hl ▸ htracks) (hl' ▸ htracks') x hx x' hx' q q' htold htold' hle
      · have hnew : Told env id s e q' := ⟨i', u', o', k', he', hu', hl' ▸ htracks', hp', htold'⟩
        exact (hgrow q' hnew).2 q (mem_reports.mpr ⟨u, hu, hl ▸ htracks, x, hx, htold⟩)
    · rcases hc.entry ht' hx' with ⟨u', hu', -, hx'⟩ | ⟨i', u', o', k', he', hu', -, hp', -, rfl⟩
      · have hlt := h.sound.stamped u' hu' x' hx'
        exact absurd (lt_of_le_of_lt hle hlt) (lt_irrefl _)
      · -- one call tells one row
        rw [he] at he'
        cases he'
        obtain rfl := Option.some.inj (hu.symm.trans hu')
        obtain rfl : o = o' := (Prog.call.inj (hp.symm.trans hp')).1
        obtain rfl := Option.some.inj (htold.symm.trans htold')
        exact le_refl _
  shown := by
    intro r' hr'
    cases hold : s.state.orders.get? id with
    | none =>
      obtain ⟨i, t, os, o, -, -, -, -, hins, rfl⟩ := row_new h.sound hc hold hr'
      refine ⟨.inl ?_, ?_⟩
      · have hzero : (s.state.stamp env o).filledQty = 0 := hins.unfilled
        omega
      · intro hs
        have hpending : (s.state.stamp env o).status = .pending := hins.pending
        rw [hpending] at hs
        cases hs
    | some r =>
      rcases row_change h.sound hc hold with hkeep | ⟨i, t, u, hw⟩
      · obtain rfl := Option.some.inj (hkeep.symm.trans hr')
        exact (h.shown r hold).change hc
      · obtain rfl := Option.some.inj (hw.row.symm.trans hr')
        exact (h.written hsafe hc hold hw).2.2

theorem Current.progresses (h : Current env id b s) (hsafe : ¬ Overtaken s id e)
    (hc : Change (autotrading settings env) s e s') : Progresses id s s' := by
  intro r hr r' hr'
  rcases row_change h.sound hc hr with hkeep | ⟨i, t, u, hw⟩
  · obtain rfl := Option.some.inj (hkeep.symm.trans hr')
    exact ⟨fun hne => absurd rfl hne, le_refl _⟩
  · obtain rfl := Option.some.inj (hw.row.symm.trans hr')
    obtain ⟨hallowed, hfilled, -⟩ := h.written hsafe hc hr hw
    exact ⟨fun _ => by rw [SetClause.apply_status]; exact hallowed, hfilled⟩

/-- In every run in which the fills the broker tells grow and no cycle stores an answer
that is out of date, every event moves the order as the status machine allows from the
status stored, and the quantity filled never falls. -/
theorem tracking_progresses (settings : Settings) (env : Env) {w : World} {id : OrderId}
    (hw : ∀ r ∈ w.orders.get? id, r.status = .partialFilled → 0 < r.filledQty)
    (es : List Event)
    (hes : Meets (autotrading settings env) (fun s e =>
      FillsGrow env id (w.quantity Order.filledQty id) s e ∧ ¬ Overtaken s id e) (start w) es) :
    Meets (autotrading settings env)
      (fun s e => Progresses id s ((autotrading settings env).next s e)) (start w) es := by
  have hstart : Current env id (w.quantity Order.filledQty id) (start w) := by
    refine ⟨sound_start w, ?_, ?_, ?_⟩
    · intro q hq
      cases hq
    · intro t ht
      cases ht
    · intro r hr
      have hr' : w.orders.get? id = some r := hr
      have hquantity : w.quantity Order.filledQty id = r.filledQty := by simp [World.quantity, hr']
      refine ⟨.inl ?_, fun hs => .inl ?_⟩
      · omega
      · have hpos := hw r hr' hs
        omega
  refine hes.implies (fun s e h hC => ?_) hstart
  have hc := next_change (autotrading settings env) s e
  exact ⟨h.progresses hC.2 hc, h.change hC.1 hC.2 hc⟩

/-- Two cycles of order 1, which is open. -/
def World.twoCycles : World :=
  .holding [Order.sample 1 .accepted]
    [.processOrderStatus (some 1) 0 none, .processOrderStatus (some 1) 0 none]

/-- The broker tells five shares filled from tick 7 on. -/
def Env.filling : Env :=
  { Env.quiet with
    get := fun n _ => ExecutionAnswer.ofRows
      [⟨"91252", "7", "10", if n < 7 then "10" else "5", "0", "0", "100", if n < 7 then "0" else "5"⟩] }

/-- Both cycles are started, the first one is told no fill and the second one five
shares; `later` is what follows. -/
def bothTold (later : List Event) : List Event :=
  .launch (.processOrderStatus (some 1) 0 none) :: .launch (.processOrderStatus (some 1) 0 none) ::
    (List.replicate 4 (.step 0) ++ List.replicate 4 (.step 1) ++ later)

/-- The second cycle stores PARTIAL_FILLED with five shares, and the first one then
ACCEPTED with none. -/
theorem overtaken_cycle_goes_back :
    Meets (autotrading .sample .filling) (FillsGrow .filling 1 0) (start .twoCycles)
        (bothTold [.step 1, .step 1, .step 0, .step 0]) ∧
      ¬ Meets (autotrading .sample .filling)
        (fun s e => Progresses 1 s ((autotrading .sample .filling).next s e)) (start .twoCycles)
        (bothTold [.step 1, .step 1, .step 0, .step 0]) := by
  decide +kernel

/-- The cycles store in the order they were told. -/
theorem tracking_progresses_sample :
    Meets (autotrading .sample .filling)
      (fun s e => Progresses 1 s ((autotrading .sample .filling).next s e)) (start .twoCycles)
      (bothTold [.step 0, .step 0, .step 1, .step 1]) :=
  tracking_progresses _ _ (by decide +kernel) _ (by decide +kernel)

end Autotrading
