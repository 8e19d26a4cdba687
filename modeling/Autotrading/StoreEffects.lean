import Autotrading.World

/-!
# What one call does to the stores

For each store the calls that write it, and for the table of orders the form of
the change: a statement or an insert that went through.
-/
namespace Autotrading.World

variable {env : Env} {w : World}

/-- A call that fails has no effect; another one has its own. -/
theorem handle_cases (env : Env) (w : World) (o : Op) :
    (∃ e, handle env o w = (.error e, w.next)) ∨
      handle env o w = ((w.effect env o).1, (w.effect env o).2.next) := by
  cases hf : env.fault w.tick o with
  | some e => exact .inl ⟨e, by simp [handle, hf]⟩
  | none => exact .inr (by simp [handle, hf])

/-- A call raises a fault of the surroundings, or what the driver raises for a refused
statement, or what SQLAlchemy raises for an ambiguous row. -/
theorem handle_error {o : Op} {e : PyExc} (he : (handle env o w).1 = .error e) :
    env.fault w.tick o = some e ∨ e = env.refused w.tick ∨ ∃ type text, e = .other type text := by
  cases hf : env.fault w.tick o with
  | some e' =>
    simp only [handle, hf] at he
    obtain rfl := Except.error.inj he
    exact .inl rfl
  | none =>
    refine .inr ?_
    simp only [handle, hf] at he
    cases o
    case selectOrder k =>
      cases k with
      | none => exact .inl (Except.error.inj he).symm
      | some id => cases he
    case snapshotIdByRebalance rid =>
      simp only [effect] at he
      split at he
      · cases he
      · cases he
      · exact .inr ⟨_, _, (Except.error.inj he).symm⟩
    all_goals simp only [effect] at he
    case flushOrder | insertOrders | updateOrder | insertSnapshot =>
      split at he
      · cases he
      · exact .inl (Except.error.inj he).symm
    case flushRebalance =>
      split at he
      · exact .inl (Except.error.inj he).symm
      · cases he
    case acquireRebalanceLock => split at he <;> cases he
    all_goals cases he

/-- The call that an entry shows has just been made, with this answer. -/
theorem handle_of_entry {o o' : Op} {r : Except PyExc (Ans o')}
    (h : (⟨o, (handle env o w).1⟩ : (o : Op) × Except PyExc (Ans o)) = ⟨o', r⟩) :
    o = o' ∧ (handle env o' w).1 = r := by
  obtain ⟨rfl, hr⟩ := Sigma.mk.inj h
  exact ⟨rfl, eq_of_heq hr⟩

/-- What a call can leave of the world. -/
inductive Leaves (w : World) : Op → World → Prop
  | same (o) : Leaves w o w
  | updateOrder (u t) : Leaves w (.updateOrder u) { w with orders := t }
  | insertOrders (os t) : Leaves w (.insertOrders os)
      { w with orders := t, records := w.records.map (.commitWith os) }
  | insertSnapshot (s t) : Leaves w (.insertSnapshot s) { w with snapshots := t }
  | setKillSwitch (value) : Leaves w (.setKillSwitch value) { w with killSwitch := some value }
  | recoveryLock (o held) : Leaves w o { w with recoveryLock := held }
  | enqueue (m n) : Leaves w (.enqueue m n)
      { w with queue := w.queue ++ [m], sent := w.sent ++ [m] }
  | post (r outcome) : Leaves w (.post r) { w with requests := w.requests ++ [(r, outcome)] }
  | records (o records) : Leaves w o { w with records }
  | acquireRebalanceLock (ttlSeconds lock) : Leaves w (.acquireRebalanceLock ttlSeconds)
      { w with rebalanceLock := lock }
  | releaseRebalanceLock : Leaves w .releaseRebalanceLock { w with rebalanceLock := none }

theorem leaves_effect (env : Env) (w : World) (o : Op) : Leaves w o (w.effect env o).2 := by
  cases o
  case selectOrder k => cases k <;> exact .same _
  case setKillSwitch value => exact .setKillSwitch value
  case acquireRecoveryLock => exact .recoveryLock _ _
  case releaseRecoveryLock => exact .recoveryLock _ _
  case enqueue m n => exact .enqueue m n
  case post r => exact .post r _
  case completeRebalance rid => exact .records _ _
  case failRebalance rid text => exact .records _ _
  case releaseRebalanceLock => exact .releaseRebalanceLock
  all_goals simp only [effect]
  case updateOrder u =>
    split
    · exact .updateOrder u _
    · exact .same _
  case insertOrders os =>
    split
    · exact .insertOrders os _
    · exact .same _
  case insertSnapshot p =>
    split
    · exact .insertSnapshot p _
    · exact .same _
  case flushRebalance rid dryRun =>
    split
    · exact .same _
    · exact .records _ _
  case acquireRebalanceLock ttlSeconds =>
    split
    · exact .same _
    · exact .acquireRebalanceLock ttlSeconds _
  case flushOrder | snapshotIdByRebalance => split <;> exact .same _
  all_goals exact .same _

/-- One call leaves that, and one more on the clock. -/
theorem leaves_handle (env : Env) (w : World) (o : Op) :
    ∃ w', Leaves w o w' ∧ (handle env o w).2 = w'.next := by
  rcases handle_cases env w o with ⟨e, he⟩ | he
  · exact ⟨w, .same o, by rw [he]⟩
  · exact ⟨_, leaves_effect env w o, by rw [he]⟩

/-! ## The stores a call leaves alone -/

theorem orders_handle {o : Op} (hu : ∀ u, o ≠ .updateOrder u) (hi : ∀ os, o ≠ .insertOrders os) :
    (handle env o w).2.orders = w.orders := by
  obtain ⟨w', hw, he⟩ := leaves_handle env w o
  rw [he]
  cases hw with
  | updateOrder u => exact absurd rfl (hu u)
  | insertOrders os => exact absurd rfl (hi os)
  | _ => rfl

theorem snapshots_handle {o : Op} (hi : ∀ s, o ≠ .insertSnapshot s) :
    (handle env o w).2.snapshots = w.snapshots := by
  obtain ⟨w', hw, he⟩ := leaves_handle env w o
  rw [he]
  cases hw with
  | insertSnapshot s => exact absurd rfl (hi s)
  | _ => rfl

theorem sent_handle {o : Op} (hq : ∀ m n, o ≠ .enqueue m n) :
    (handle env o w).2.sent = w.sent := by
  obtain ⟨w', hw, he⟩ := leaves_handle env w o
  rw [he]
  cases hw with
  | enqueue m n => exact absurd rfl (hq m n)
  | _ => rfl

theorem queue_handle {o : Op} (hq : ∀ m n, o ≠ .enqueue m n) :
    (handle env o w).2.queue = w.queue := by
  obtain ⟨w', hw, he⟩ := leaves_handle env w o
  rw [he]
  cases hw with
  | enqueue m n => exact absurd rfl (hq m n)
  | _ => rfl

theorem requests_handle {o : Op} (hp : ∀ r, o ≠ .post r) :
    (handle env o w).2.requests = w.requests := by
  obtain ⟨w', hw, he⟩ := leaves_handle env w o
  rw [he]
  cases hw with
  | post r => exact absurd rfl (hp r)
  | _ => rfl

theorem killSwitch_handle {o : Op} (hs : ∀ v, o ≠ .setKillSwitch v) :
    (handle env o w).2.killSwitch = w.killSwitch := by
  obtain ⟨w', hw, he⟩ := leaves_handle env w o
  rw [he]
  cases hw with
  | setKillSwitch v => exact absurd rfl (hs v)
  | _ => rfl

theorem rebalanceLock_handle {o : Op} (ha : ∀ ttl, o ≠ .acquireRebalanceLock ttl)
    (hr : o ≠ .releaseRebalanceLock) : (handle env o w).2.rebalanceLock = w.rebalanceLock := by
  obtain ⟨w', hw, he⟩ := leaves_handle env w o
  rw [he]
  cases hw with
  | acquireRebalanceLock ttl => exact absurd rfl (ha ttl)
  | releaseRebalanceLock => exact absurd rfl hr
  | _ => rfl

@[simp] theorem rebalances_handle {o : Op} : (handle env o w).2.rebalances = w.rebalances := by
  obtain ⟨w', hw, he⟩ := leaves_handle env w o
  rw [he]
  cases hw
  all_goals rfl

@[simp] theorem tick_handle {o : Op} : (handle env o w).2.tick = w.tick + 1 := by
  obtain ⟨w', hw, he⟩ := leaves_handle env w o
  rw [he]
  cases hw
  all_goals rfl

theorem handle_rollback (hf : env.fault w.tick .rollback = none) :
    handle env .rollback w = (.ok (), w.next) := by
  simp [handle, hf, effect]

theorem handle_enqueue {m : Message} {d : ℕ} (hf : env.fault w.tick (.enqueue m d) = none) :
    handle env (.enqueue m d) w =
      (.ok (), { w.next with queue := w.queue ++ [m], sent := w.sent ++ [m] }) := by
  simp [handle, hf, effect, next]

/-- A message that went out was sent. -/
theorem enqueue_ok {m : Message} {d : ℕ} (h : (handle env (.enqueue m d) w).1 = .ok ()) :
    m ∈ (handle env (.enqueue m d) w).2.sent := by
  rcases handle_cases env w (.enqueue m d) with ⟨e, he⟩ | he
  · rw [he] at h
    cases h
  · rw [he]
    exact List.mem_append_right _ (List.mem_singleton_self m)

/-- What a call can add to the messages sent is the message it sends. -/
theorem mem_sent_handle {o : Op} {m : Message} (hm : m ∈ (handle env o w).2.sent) :
    m ∈ w.sent ∨ ∃ n, o = .enqueue m n := by
  by_cases he : ∃ m' n, o = .enqueue m' n
  · obtain ⟨m', n, rfl⟩ := he
    rcases handle_cases env w (.enqueue m' n) with ⟨e, hr⟩ | hr
    · rw [hr] at hm
      exact .inl hm
    · rw [hr] at hm
      rcases List.mem_append.mp hm with hold | hnew
      · exact .inl hold
      · obtain rfl := List.mem_singleton.mp hnew
        exact .inr ⟨n, rfl⟩
  · rw [sent_handle fun m' n h => he ⟨m', n, h⟩] at hm
    exact .inl hm

theorem sent_handle_mono {o : Op} {m : Message} (hm : m ∈ w.sent) :
    m ∈ (handle env o w).2.sent := by
  by_cases he : ∃ m' n, o = .enqueue m' n
  · obtain ⟨m', n, rfl⟩ := he
    rcases handle_cases env w (.enqueue m' n) with ⟨e, hr⟩ | hr
    · rw [hr]
      exact hm
    · rw [hr]
      exact List.mem_append_left _ hm
  · rw [sent_handle fun m' n h => he ⟨m', n, h⟩]
    exact hm

/-- What a call puts into the queue it also sends. -/
theorem queue_sent_handle {o : Op} (hq : ∀ m ∈ w.queue, m ∈ w.sent) :
    ∀ m ∈ (handle env o w).2.queue, m ∈ (handle env o w).2.sent := by
  intro m hm
  by_cases he : ∃ m' n, o = .enqueue m' n
  · obtain ⟨m', n, rfl⟩ := he
    rcases handle_cases env w (.enqueue m' n) with ⟨e, hr⟩ | hr
    · rw [hr] at hm ⊢
      exact hq m hm
    · rw [hr] at hm ⊢
      rcases List.mem_append.mp hm with hold | hnew
      · exact List.mem_append_left _ (hq m hold)
      · exact List.mem_append_right _ hnew
  · rw [queue_handle fun m' n h => he ⟨m', n, h⟩] at hm
    exact sent_handle_mono (hq m hm)

theorem handle_post (env : Env) (w : World) (r : BrokerRequest) :
    (∃ e, handle env (.post r) w = (.error e, w.next)) ∨
      handle env (.post r) w = (.ok (env.post w.tick r).reply,
        { w.next with requests := w.requests ++ [(r, env.post w.tick r)] }) :=
  handle_cases env w (.post r)

theorem handle_post_ok {r : BrokerRequest} (hf : env.fault w.tick (.post r) = none) :
    handle env (.post r) w = (.ok (env.post w.tick r).reply,
      { w.next with requests := w.requests ++ [(r, env.post w.tick r)] }) := by
  simp [handle, hf, effect, next]

/-- A snapshot is stored by the call that inserts it. -/
theorem mem_snapshots_handle {o : Op} {p : PortfolioSnapshot}
    (hp : p ∈ (handle env o w).2.snapshots.rows) :
    p ∈ w.snapshots.rows ∨ o = .insertSnapshot p := by
  by_cases hi : ∃ q, o = .insertSnapshot q
  · obtain ⟨q, rfl⟩ := hi
    rcases handle_cases env w (.insertSnapshot q) with ⟨e, he⟩ | heff
    · rw [he] at hp
      exact .inl hp
    · rw [heff] at hp
      cases hx : w.snapshots.insert q with
      | none =>
        simp only [effect, hx] at hp
        exact .inl hp
      | some t =>
        simp only [effect, hx, next] at hp
        rw [(KeyedTable.rows_insert hx).1, List.mem_append, List.mem_singleton] at hp
        rcases hp with hold | rfl
        · exact .inl hold
        · exact .inr rfl
  · rw [snapshots_handle fun q h => hi ⟨q, h⟩] at hp
    exact .inl hp

/-! ## The table of orders -/

theorem handle_updateOrder (env : Env) (w : World) (u : OrderUpdate) :
    (∃ e, handle env (.updateOrder u) w = (.error e, w.next)) ∨
      ∃ matched t, w.orders.execute u = some (matched, t) ∧
        handle env (.updateOrder u) w = (.ok matched, { w.next with orders := t }) := by
  rcases handle_cases env w (.updateOrder u) with ⟨e, he⟩ | heff
  · exact .inl ⟨e, he⟩
  · rw [heff]
    cases hx : w.orders.execute u with
    | none => exact .inl ⟨env.refused w.tick, by simp [effect, hx]⟩
    | some r => exact .inr ⟨r.1, r.2, rfl, by simp [effect, hx, next]⟩

/-- A statement on a row it selects goes through when the row fits afterwards. -/
theorem handle_updateOrder_fits {u : OrderUpdate} {r : Order}
    (hf : env.fault w.tick (.updateOrder u) = none) (hr : w.orders.get? u.id = some r)
    (hsel : u.selects r = true) (hfit : (u.set.apply r).Fits) :
    ∃ t, handle env (.updateOrder u) w = (.ok true, { w.next with orders := t }) ∧
      t.get? u.id = some (u.set.apply r) := by
  have hid : ∀ q : Order, u.selects q = true → q.id = u.id :=
    fun q hq => (OrderUpdate.selects_iff.mp hq).1
  obtain ⟨t, ht⟩ : ∃ t, w.orders.update u.selects u.set.apply u.set.apply_id = some t := by
    refine KeyedTable.update_isSome hid fun q hq _ => ?_
    obtain rfl := Option.some.inj (hr.symm.trans hq)
    exact hfit
  have hx : w.orders.execute u = some (w.orders.rows.any u.selects, t) := by
    simp [OrderTable.execute, ht]
  have hmatched := (OrderTable.execute_matched hx).mpr ⟨r, hr, hsel⟩
  refine ⟨t, ?_, ?_⟩
  · simp [handle, hf, effect, hx, hmatched, next]
  · rw [OrderTable.get?_execute hx, hr, Option.map_some, OrderUpdate.refresh, if_pos hsel]

/-- It is refused when the row would not fit. -/
theorem handle_updateOrder_refused {u : OrderUpdate} {r : Order}
    (hf : env.fault w.tick (.updateOrder u) = none) (hr : w.orders.get? u.id = some r)
    (hsel : u.selects r = true) (hfit : ¬ (u.set.apply r).Fits) :
    handle env (.updateOrder u) w = (.error (env.refused w.tick), w.next) := by
  have hx : w.orders.execute u = none := by
    have hnone : w.orders.update u.selects u.set.apply u.set.apply_id = none := by
      rw [KeyedTable.update, dif_neg]
      intro hall
      exact hfit (hall r (KeyedTable.get?_eq_some.mp hr).1 hsel)
    simp [OrderTable.execute, hnone]
  simp [handle, hf, effect, hx]

theorem handle_insertOrders (env : Env) (w : World) (os : List Order) :
    (∃ e, handle env (.insertOrders os) w = (.error e, w.next)) ∨
      ∃ t, w.orders.insertAll (os.map (w.stamp env)) = some t ∧
        handle env (.insertOrders os) w =
          (.ok (), { w.next with orders := t, records := w.records.map (.commitWith os) }) := by
  rcases handle_cases env w (.insertOrders os) with ⟨e, he⟩ | heff
  · exact .inl ⟨e, he⟩
  · rw [heff]
    cases hx : w.orders.insertAll (os.map (w.stamp env)) with
    | none => exact .inl ⟨env.refused w.tick, by simp [effect, hx]⟩
    | some t => exact .inr ⟨t, rfl, by simp [effect, hx, next]⟩

/-- An insert that went through stored rows under new ids. -/
theorem insertOrders_ok {os : List Order} (h : (handle env (.insertOrders os) w).1 = .ok ())
    {o : Order} (ho : o ∈ os) :
    w.orders.get? o.id = none ∧
      (handle env (.insertOrders os) w).2.orders.get? o.id = some (w.stamp env o) := by
  rcases handle_insertOrders env w os with ⟨e, he⟩ | ⟨t, hx, he⟩
  · rw [he] at h
    cases h
  · have hstamped : w.stamp env o ∈ os.map (w.stamp env) := List.mem_map_of_mem ho
    have hnone := KeyedTable.get?_none_of_insertAll hx hstamped
    rw [he]
    refine ⟨hnone, ?_⟩
    have hrow : w.stamp env o ∈ t.rows := by
      rw [KeyedTable.rows_insertAll hx]
      exact List.mem_append_right _ hstamped
    exact KeyedTable.get?_of_mem hrow

/-- A stored row stays, unless a statement that selects it goes through. -/
theorem get?_handle {k : OrderId} {r : Order} (hr : w.orders.get? k = some r) (o : Op) :
    (handle env o w).2.orders.get? k = some r ∨
      ∃ u, o = .updateOrder u ∧ u.selects r = true ∧
        (handle env (.updateOrder u) w).1 = .ok true ∧
        (handle env o w).2.orders.get? k = some (u.set.apply r) := by
  by_cases hu : ∃ u, o = .updateOrder u
  · obtain ⟨u, rfl⟩ := hu
    rcases handle_updateOrder env w u with ⟨e, he⟩ | ⟨matched, t, hx, he⟩
    · rw [he]
      exact .inl hr
    · rw [he]
      have hget := OrderTable.get?_execute hx k
      rw [hr, Option.map_some, OrderUpdate.refresh] at hget
      by_cases hsel : u.selects r = true
      · rw [if_pos hsel] at hget
        have hkey : u.id = k :=
          (OrderUpdate.selects_iff.mp hsel).1.symm.trans (KeyedTable.key_of_get? hr)
        have hmatched : matched = true :=
          (OrderTable.execute_matched hx).mpr ⟨r, by rw [hkey, hr], hsel⟩
        exact .inr ⟨u, rfl, hsel, by rw [he, hmatched], hget⟩
      · rw [if_neg hsel] at hget
        exact .inl hget
  · by_cases hi : ∃ os, o = .insertOrders os
    · obtain ⟨os, rfl⟩ := hi
      rcases handle_insertOrders env w os with ⟨e, he⟩ | ⟨t, hx, he⟩
      · rw [he]
        exact .inl hr
      · rw [he]
        exact .inl (KeyedTable.get?_insertAll_of_some hx hr)
    · rw [orders_handle (fun u h => hu ⟨u, h⟩) fun os h => hi ⟨os, h⟩]
      exact .inl hr

/-- A row under a new id was inserted. -/
theorem get?_handle_new {k : OrderId} {r : Order} {o : Op} (hnone : w.orders.get? k = none)
    (hr : (handle env o w).2.orders.get? k = some r) :
    ∃ os, o = .insertOrders os ∧ ∃ o' ∈ os, r = w.stamp env o' := by
  by_cases hi : ∃ os, o = .insertOrders os
  · obtain ⟨os, rfl⟩ := hi
    rcases handle_insertOrders env w os with ⟨e, he⟩ | ⟨t, hx, he⟩
    · rw [he] at hr
      exact absurd (hnone.symm.trans hr) (by simp)
    · rw [he] at hr
      obtain ⟨hmem, hkey⟩ := KeyedTable.get?_eq_some.mp hr
      have hrows : r ∈ t.rows := hmem
      rw [KeyedTable.rows_insertAll hx, List.mem_append, List.mem_map] at hrows
      rcases hrows with hold | ⟨o', ho', rfl⟩
      · exact absurd hkey (KeyedTable.get?_eq_none.mp hnone r hold)
      · exact ⟨os, rfl, o', ho', rfl⟩
  · by_cases hu : ∃ u, o = .updateOrder u
    · obtain ⟨u, rfl⟩ := hu
      rcases handle_updateOrder env w u with ⟨e, he⟩ | ⟨matched, t, hx, he⟩
      · rw [he] at hr
        exact absurd (hnone.symm.trans hr) (by simp)
      · rw [he] at hr
        have hget := OrderTable.get?_execute hx k
        rw [hnone] at hget
        exact absurd (hget.symm.trans hr) (by simp)
    · rw [orders_handle (fun u h => hu ⟨u, h⟩) fun os h => hi ⟨os, h⟩] at hr
      exact absurd (hnone.symm.trans hr) (by simp)

/-- Where a stored row comes from: it was there, was inserted, or was changed by a
statement. -/
theorem row_cases {k : OrderId} {r' : Order} {o : Op}
    (hr' : (handle env o w).2.orders.get? k = some r') :
    w.orders.get? k = some r' ∨
      (∃ os, o = .insertOrders os ∧ ∃ o' ∈ os, r' = w.stamp env o') ∨
      ∃ u r, o = .updateOrder u ∧ u.id = k ∧ (handle env (.updateOrder u) w).1 = .ok true ∧
        w.orders.get? k = some r ∧ u.selects r = true ∧ r' = u.set.apply r := by
  cases hr : w.orders.get? k with
  | none => exact .inr (.inl (get?_handle_new hr hr'))
  | some r =>
    rcases @get?_handle env w k r hr o with hkeep | ⟨u, ho, hsel, hok, hnew⟩
    · rw [hkeep] at hr'
      exact .inl hr'
    · rw [hnew] at hr'
      have hid : u.id = k := (OrderUpdate.selects_iff.mp hsel).1.symm.trans (KeyedTable.key_of_get? hr)
      exact .inr (.inr ⟨u, r, ho, hid, hok, rfl, hsel, (Option.some.inj hr').symm⟩)

/-- The call is a statement that matched its row. -/
def matched : ℕ × (o : Op) × Except PyExc (Ans o) → Bool
  | (_, ⟨.updateOrder _, .ok true⟩) => true
  | _ => false

/-- A call keeps every row, or is a statement that matched one and changed it alone. -/
theorem rows_handle (env : Env) (w : World) (o : Op) :
    (matched (w.tick, ⟨o, (handle env o w).1⟩) = false ∧ ∀ k r, w.orders.get? k = some r →
      (handle env o w).2.orders.get? k = some r) ∨
    ∃ u r, o = .updateOrder u ∧ (handle env (.updateOrder u) w).1 = .ok true ∧
      w.orders.get? u.id = some r ∧ u.selects r = true ∧
      (handle env o w).2.orders.get? u.id = some (u.set.apply r) ∧
      ∀ k r', k ≠ u.id → w.orders.get? k = some r' → (handle env o w).2.orders.get? k = some r' := by
  by_cases hu : ∃ u, o = .updateOrder u
  · obtain ⟨u, rfl⟩ := hu
    rcases handle_updateOrder env w u with ⟨e, he⟩ | ⟨b, t, hx, he⟩
    · rw [he]
      exact .inl ⟨rfl, fun k r hr => hr⟩
    · have hget := OrderTable.get?_execute hx
      have hmatched := OrderTable.execute_matched hx
      have hkeep : ∀ k r', u.selects r' = false → w.orders.get? k = some r' → t.get? k = some r' := by
        intro k r' hsel hr'
        rw [hget, hr', Option.map_some, OrderUpdate.refresh, hsel]
        rfl
      rw [he]
      cases b with
      | false =>
        refine .inl ⟨rfl, fun k r hr => hkeep k r ?_ hr⟩
        by_contra hsel
        rw [Bool.not_eq_false] at hsel
        have hid : u.id = k := (OrderUpdate.selects_iff.mp hsel).1.symm.trans (KeyedTable.key_of_get? hr)
        have hyes := hmatched.mpr ⟨r, by rw [hid, hr], hsel⟩
        cases hyes
      | true =>
        obtain ⟨r, hr, hsel⟩ := hmatched.mp rfl
        refine .inr ⟨u, r, rfl, by rw [he], hr, hsel, ?_, fun k r' hk hr' => hkeep k r' ?_ hr'⟩
        · rw [hget, hr, Option.map_some, OrderUpdate.refresh, if_pos hsel]
        · by_contra hsel'
          rw [Bool.not_eq_false] at hsel'
          exact hk ((KeyedTable.key_of_get? hr').symm.trans (OrderUpdate.selects_iff.mp hsel').1)
  · refine .inl ⟨?_, fun k r hr => ?_⟩
    · cases o
      case updateOrder u => exact absurd ⟨u, rfl⟩ hu
      all_goals rfl
    · rcases get?_handle hr o with hkeep | ⟨u, rfl, -⟩
      · exact hkeep
      · exact absurd ⟨u, rfl⟩ hu

/-! ## What calls answer -/

/-- The answers of the calls whose answer the proofs look into. -/
def Honest (env : Env) : ℕ × (o : Op) × Except PyExc (Ans o) → Prop
  | (_, ⟨.selectOrder k, .ok (some r)⟩) => k = some r.id
  | (_, ⟨.ordersByRebalanceId rid, .ok rows⟩) => ∀ r ∈ rows, r.rebalanceId = some rid
  | (n, ⟨.uuid4, .ok k⟩) => k = env.uuid4 n
  | (n, ⟨.get q, .ok reply⟩) => reply = env.get n q
  | _ => True

theorem honest_handle (env : Env) (w : World) (o : Op) :
    Honest env (w.tick, ⟨o, (handle env o w).1⟩) := by
  rcases handle_cases env w o with ⟨e, he⟩ | heff
  · rw [he]
    cases o <;> trivial
  · rw [heff]
    cases o
    case selectOrder k =>
      cases k with
      | none => trivial
      | some id =>
        simp only [effect]
        cases hget : w.orders.get? id with
        | none => trivial
        | some r => exact congrArg some (KeyedTable.key_of_get? hget).symm
    case ordersByRebalanceId rid =>
      intro r hr
      simpa using (List.mem_filter.mp hr).2
    case uuid4 => rfl
    case get q => rfl
    all_goals trivial

/-- The recovery selects rows that are PENDING. -/
theorem recoverable_ok {os : List Order} (h : (handle env .recoverableSubmitOrders w).1 = .ok os)
    {o : Order} (ho : o ∈ os) : w.orders.get? o.id = some o ∧ o.status = .pending := by
  rcases handle_cases env w .recoverableSubmitOrders with ⟨e, he⟩ | heff
  · rw [he] at h
    cases h
  · rw [heff] at h
    obtain rfl := Except.ok.inj h
    obtain ⟨hmem, hstatus⟩ := List.mem_filter.mp ho
    exact ⟨KeyedTable.get?_of_mem hmem, of_decide_eq_true hstatus⟩

/-- The rows of a rebalance. -/
theorem ordersByRebalanceId_ok {rid : RebalanceId} {rows : List Order}
    (h : (handle env (.ordersByRebalanceId rid) w).1 = .ok rows) :
    rows = w.orders.rows.filter fun o => o.rebalanceId = some rid := by
  rcases handle_cases env w (.ordersByRebalanceId rid) with ⟨e, he⟩ | heff
  · rw [he] at h
    cases h
  · rw [heff] at h
    exact (Except.ok.inj h).symm

/-- The rows under these ids. -/
theorem ordersByIds_ok {ids : List OrderId} {rows : List Order}
    (h : (handle env (.ordersByIds ids) w).1 = .ok rows) :
    rows = w.orders.rows.filter fun o => o.id ∈ ids := by
  rcases handle_cases env w (.ordersByIds ids) with ⟨e, he⟩ | heff
  · rw [he] at h
    cases h
  · rw [heff] at h
    exact (Except.ok.inj h).symm

/-- A statement that matched has changed its row. -/
theorem updateOrder_ok {u : OrderUpdate} {matched : Bool}
    (h : (handle env (.updateOrder u) w).1 = .ok matched) (k : OrderId) :
    (handle env (.updateOrder u) w).2.orders.get? k = (w.orders.get? k).map u.refresh ∧
      (matched = true ↔ ∃ o, w.orders.get? u.id = some o ∧ u.selects o = true) := by
  rcases handle_updateOrder env w u with ⟨e, he⟩ | ⟨matched', t, hx, he⟩
  · rw [he] at h
    cases h
  · rw [he] at h ⊢
    obtain rfl := Except.ok.inj h
    exact ⟨OrderTable.get?_execute hx k, OrderTable.execute_matched hx⟩

/-- A call that reads a row reads one with the property `P`. -/
def ReadOf (P : Order → Prop) : ℕ × (o : Op) × Except PyExc (Ans o) → Prop
  | (_, ⟨.selectOrder _, .ok (some r)⟩) => P r
  | _ => True

theorem ReadOf.mono {P P' : Order → Prop} (hP : ∀ r, P r → P' r)
    {x : ℕ × (o : Op) × Except PyExc (Ans o)} (hx : ReadOf P x) : ReadOf P' x := by
  obtain ⟨n, o, r⟩ := x
  cases o
  case selectOrder k =>
    cases r with
    | error e => trivial
    | ok found =>
      cases found with
      | none => trivial
      | some r => exact hP r hx
  all_goals trivial

theorem readOf_handle {P : Order → Prop} (hP : ∀ k r, w.orders.get? k = some r → P r) (n : ℕ)
    (o : Op) : ReadOf P (n, ⟨o, (handle env o w).1⟩) := by
  rcases handle_cases env w o with ⟨e, he⟩ | heff
  · rw [he]
    cases o <;> trivial
  · rw [heff]
    cases o
    case selectOrder k =>
      cases k with
      | none => trivial
      | some id =>
        simp only [effect]
        cases hget : w.orders.get? id with
        | none => trivial
        | some r => exact hP id r hget
    all_goals trivial

end Autotrading.World
