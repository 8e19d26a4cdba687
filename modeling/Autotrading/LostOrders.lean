import Autotrading.GateExclusion

/-!
# No order is lost

An order that has not ended is PENDING or tracked under a broker number, where the
next recovery finds it, unless an execution of `_process_order` leaves it in PROCESSING
or stores a result without a number.
-/
namespace Autotrading.ProcessOrder

open Machine Prog OrderState OrderRepository
open Machine.Sys (start)

variable {settings : Settings} {env : Env} {s s' : System} {e : Event} {id : OrderId}
  {h : Calls} {x : Entry} {order : Order} {calls : Calls}

/-! ## Where an execution leaves its order -/

/-- A statement or a rollback failed. -/
def fails : Entry → Bool
  | (_, ⟨.updateOrder _, .error _⟩) => true
  | (_, ⟨.rollback, .error _⟩) => true
  | _ => false

/-- A statement matched no row. -/
def unmatched : Entry → Bool
  | (_, ⟨.updateOrder _, .ok false⟩) => true
  | _ => false

/-- Steps 3 and 4, answered by these calls, end in an exception that is no rate limit. -/
def submissionRaises (settings : Settings) (order : Order) (calls : Calls) : Bool :=
  match (replay (submission settings order) calls).1 with
  | .raise e => !rateLimited e
  | _ => false

/-- The execution has taken its order to PROCESSING and will not take it out again. -/
def abandons (settings : Settings) (h : Calls) : Bool :=
  (behindGate h).any fun b =>
    !b.2.any settles && (submissionRaises settings b.1 b.2 || b.2.any fails)

/-- The execution has settled its order or abandoned it, or a statement of it came too
late, or it read its order out of date. -/
def Over (settings : Settings) (h : Calls) : Prop :=
  ∃ order calls, behindGate h = some (order, calls) ∧
    (calls.any settles = true ∨ submissionRaises settings order calls = true ∨
      calls.any fails = true ∨ calls.any unmatched = true ∨ order.status ≠ .processing)

/-- What holds at the end of an execution. -/
def Left (settings : Settings) (h : Calls) : Prop := passedGate h = true → Over settings h

theorem submissionRaises_append (hr : submissionRaises settings order calls = true) (h' : Calls) :
    submissionRaises settings order (calls ++ h') = true := by
  unfold submissionRaises at hr
  cases hp : replay (submission settings order) calls with
  | mk p rest =>
    rw [hp] at hr
    cases p with
    | ret a => cases hr
    | call o k => cases hr
    | raise e =>
      have hraise : replay (submission settings order) calls = (ofExcept (.error e), rest) := hp
      unfold submissionRaises
      rw [replay_append hraise h']
      exact hr

theorem Over.append (ho : Over settings h) (h' : Calls) : Over settings (h ++ h') := by
  obtain ⟨order, calls, hb, hcases⟩ := ho
  refine ⟨order, calls ++ h', behindGate_append hb h', ?_⟩
  simp only [List.any_append, Bool.or_eq_true]
  rcases hcases with hs | hr | hf | hu | hn
  · exact .inl (.inl hs)
  · exact .inr (.inl (submissionRaises_append hr h'))
  · exact .inr (.inr (.inl (.inl hf)))
  · exact .inr (.inr (.inr (.inl (.inl hu))))
  · exact .inr (.inr (.inr (.inr hn)))

/-- Whatever an execution does when its order is out of its hands. -/
theorem along_of_over {α : Type} (ho : Over settings h) (p : Program α) :
    Along (fun _ _ => True) (fun h' _ => Left settings h') h p :=
  (along_of_mono (fun _ h₂ hover => hover.append h₂) ho p).mono (fun _ _ hq => hq)
    fun _ _ hover _ => hover

/-- A statement on an order behind the gate settles it, fails, or matches no row. -/
theorem over_update {n : ℕ} {u : OrderUpdate} {r : Except PyExc Bool}
    (hb : behindGate h = some (order, calls)) (hexpected : u.expected = some [.processing]) :
    Over settings (h ++ [(n, ⟨.updateOrder u, r⟩)]) := by
  refine ⟨order, calls ++ [(n, ⟨.updateOrder u, r⟩)], behindGate_append hb _, ?_⟩
  simp only [List.any_append, Bool.or_eq_true]
  cases r with
  | error e => exact .inr (.inr (.inl (.inr rfl)))
  | ok b =>
    cases b with
    | true => exact .inl (.inr (by simp [settles, hexpected]))
    | false => exact .inr (.inr (.inr (.inl (.inr rfl))))

/-- The handler behind the gate: an exception that is no rate limit has abandoned the
order, and otherwise the order is given back. -/
theorem along_handleError_left {e : PyExc} (hb : behindGate h = some (order, calls))
    {rest : Calls} (hraised : replay (submission settings order) calls = (ofExcept (.error e), rest))
    (o : Order) :
    Along (fun _ _ => True) (fun h' _ => Left settings h') h (handleError id (some o) e) := by
  by_cases hlimit : rateLimited e = true
  · cases e with
    | kisAuth e => cases hlimit
    | other type text => cases hlimit
    | kisOrder e =>
      have hlimit' : isRateLimitError e = true := hlimit
      unfold handleError handleKisOrderError
      simp only [hlimit', if_true]
      have hrollback : Along (fun _ _ => True)
          (fun h' r => ∃ n, h' = h ++ [(n, ⟨.rollback, r⟩)]) h (Op.perform .rollback) :=
        along_perform_true (o := Op.rollback) fun n r => ⟨n, rfl⟩
      refine hrollback.bind ?_ ?_
      · rintro h₁ - - ⟨n, rfl⟩
        have hb' := behindGate_append hb [(n, ⟨.rollback, .ok ()⟩)]
        have hrelease : Along (fun _ _ => True) (fun h' _ => Over settings h')
            (h ++ [(n, ⟨.rollback, .ok ()⟩)]) (releaseOrder (some o)) := by
          have hupdate : Along (fun _ _ => True) (fun h' _ => Over settings h')
              (h ++ [(n, ⟨.rollback, .ok ()⟩)])
              (Op.perform (.updateOrder ⟨o.id, some [.processing], .status .pending⟩)) :=
            along_perform_true (o := Op.updateOrder _) fun m r => over_update hb' rfl
          unfold releaseOrder updateOrderStatus
          refine hupdate.bind (fun h₂ _ _ hover => ?_) fun _ _ _ hover => hover
          rw [along_pure]
          exact hover
        refine hrelease.bind (fun h₂ _ _ hover => along_of_over hover _) ?_
        exact fun h₂ e _ hover _ => hover
      · rintro h₁ e' - ⟨n, rfl⟩ -
        exact ⟨order, _, behindGate_append hb _, .inr (.inr (.inl (by simp [fails])))⟩
  · refine along_of_over ⟨order, calls, hb, .inr (.inl ?_)⟩ _
    simpa [submissionRaises, hraised, Prog.ofExcept] using hlimit

/-- Steps 5 to 7. -/
theorem along_storeResult_over {response : OrderResponse}
    (hb : behindGate h = some (order, calls)) :
    Along (fun _ _ => True) (fun h' _ => Over settings h') h (storeResult order response) := by
  have hkeep : ∀ {α : Type} {h' : Calls} (p : Program α), Over settings h' →
      Along (fun _ _ => True) (fun h'' _ => Over settings h'') h' p :=
    fun p hover => along_of_mono (fun _ h₂ ho => ho.append h₂) hover p
  by_cases hprocessing : order.status = .processing
  · have hnext := extractOrderSnapshot_nextStatus response order.orderQty
    have hallowed : canTransition order.status
        (extractOrderSnapshot response order.orderQty).nextStatus = true := by
      rw [hprocessing]
      revert hnext
      cases (extractOrderSnapshot response order.orderQty).nextStatus <;> decide
    have hupdate : ∀ u : OrderUpdate, u.expected = some [.processing] →
        Along (fun _ _ => True) (fun h' _ => Over settings h') h (Op.perform (.updateOrder u)) :=
      fun u hexpected => along_perform_true (o := Op.updateOrder u) fun n r => over_update hb hexpected
    unfold storeResult updateOrderSubmitResult
    simp only [hallowed, Bool.not_true, Bool.false_eq_true, if_false]
    exact (hupdate ⟨_, _, .submit _ _ _ _ _ _ _⟩ rfl).bind (fun h₁ updated _ hover => hkeep _ hover)
      fun _ _ _ hover => hover
  · exact hkeep _ ⟨order, calls, hb, .inr (.inr (.inr (.inr hprocessing)))⟩

/-- The first two calls decide whether an execution is past the gate. -/
theorem passedGate_cons_cons (x y : Entry) (h : Calls) :
    passedGate (x :: y :: h) = passedGate [x, y] := by
  cases hxy : passedGate [x, y] with
  | true => exact passedGate_mono hxy h
  | false =>
    by_contra hpassed
    rw [Bool.not_eq_false] at hpassed
    obtain ⟨⟨order, calls⟩, hb⟩ := Option.isSome_iff_exists.mp hpassed
    obtain ⟨n, k, read, m, u, hh, -⟩ := behindGate_iff.mp hb
    obtain ⟨rfl, hrest⟩ := List.cons.inj hh
    obtain ⟨rfl, -⟩ := List.cons.inj hrest
    cases hxy

theorem along_of_not_passed {α : Type} {y : Entry} (hn : passedGate [x, y] = false)
    (p : Program α) :
    Along (fun _ _ => True) (fun h' _ => Left settings h') [x, y] p := by
  refine along_kept (fun h' r hh => ?_) p
  obtain ⟨h₂, rfl⟩ := hh
  intro hpassed
  have hsame : passedGate ([x, y] ++ h₂) = passedGate [x, y] := passedGate_cons_cons x y h₂
  rw [hsame, hn] at hpassed
  cases hpassed

theorem along_submitOrder_left {n : ℕ} :
    Along (fun _ _ => True) (fun h' _ => Left settings h')
      [(n, ⟨.selectOrder (some id), .ok (some order)⟩)]
      ((submitOrder settings order).tryExcept (handleError id (some order))) := by
  have hgate : Along (fun _ _ => True) (fun h' r => ∃ m, h' =
      [(n, ⟨.selectOrder (some id), .ok (some order)⟩), (m, ⟨.updateOrder (gate order), r⟩)])
      [(n, ⟨.selectOrder (some id), .ok (some order)⟩)] (Op.perform (.updateOrder (gate order))) :=
    along_perform_true (o := Op.updateOrder (gate order)) fun m r => ⟨m, rfl⟩
  -- each exception has the rest of the execution decided
  have hsubmit : Along (fun _ _ => True) (fun h' r => match r with
      | .ok _ => Left settings h'
      | .error e => Along (fun _ _ => True) (fun h'' _ => Left settings h'') h'
          (handleError id (some order) e))
      [(n, ⟨.selectOrder (some id), .ok (some order)⟩)] (submitOrder settings order) := by
    unfold submitOrder updateOrderStatus
    refine hgate.bind ?_ ?_
    · rintro h₁ updated - ⟨m, rfl⟩
      split
      · next hupdated =>
        subst hupdated
        have hb : behindGate [(n, ⟨.selectOrder (some id), .ok (some order)⟩),
            (m, ⟨.updateOrder (gate order), .ok true⟩)] =
              some ((gate order).refresh order, []) := rfl
        refine (along_true (submission settings _)).replayed.bind ?_ ?_
        · intro h₂ response _ hsent
          obtain ⟨⟨calls, rfl, -⟩, -⟩ := hsent
          have hstored : Along (fun _ _ => True) (fun h' _ => Over settings h') _
              (storeResult ((gate order).refresh order) response) :=
            along_storeResult_over (behindGate_append hb calls)
          refine hstored.mono (fun _ _ hq => hq) ?_
          intro h₃ r hover
          cases r with
          | ok a => exact fun _ => hover
          | error e => exact along_of_over hover _
        · intro h₂ e _ hsent
          obtain ⟨⟨calls, rfl, hreplay⟩, -⟩ := hsent
          exact along_handleError_left (by simpa using behindGate_append hb calls) hreplay order
      · next hmissed =>
        rw [Bool.not_eq_true] at hmissed
        subst hmissed
        rw [along_pure]
        intro hpassed
        cases hpassed
    · rintro h₁ e - ⟨m, rfl⟩
      exact along_of_not_passed rfl _
  refine hsubmit.tryExcept ?_ ?_
  · exact fun _ _ _ hleft => hleft
  · exact fun _ _ _ hleft => hleft

theorem along_processOrder_left (id : OrderId) :
    Along (fun _ _ => True) (fun h' _ => Left settings h') [] (processOrder settings id) := by
  have hread : Along (fun _ _ => True) (fun h' r => ∃ n, h' = [(n, ⟨.selectOrder (some id), r⟩)]) []
      (Op.perform (.selectOrder (some id))) :=
    along_perform_true (o := Op.selectOrder (some id)) fun n r => ⟨n, rfl⟩
  unfold processOrder getOrderById
  refine hread.attempt ?_
  rintro h₁ r - ⟨n, rfl⟩
  cases r with
  | error e =>
    refine along_kept (fun h' r hh => ?_) _
    obtain ⟨h₂, rfl⟩ := hh
    intro hpassed
    obtain ⟨⟨order, calls⟩, hb⟩ := Option.isSome_iff_exists.mp hpassed
    obtain ⟨m, k, read, m', u, hh, -⟩ := behindGate_iff.mp hb
    cases (List.cons.inj hh).1
  | ok found =>
    cases found with
    | none =>
      rw [along_pure]
      intro hpassed
      cases hpassed
    | some order => exact along_submitOrder_left

/-! ## Steps that lose an order -/

/-- The task is an execution that has abandoned its order. -/
def lost (settings : Settings) : Label → Calls → Bool
  | .processOrder _, h => abandons settings h
  | _, _ => false

/-- The task is an execution under way that holds its order. -/
def holding (t : Task) : Bool :=
  match t.label with
  | .processOrder _ => holds t.history && !t.prog.isEnded
  | _ => false

/-- The call stored the result of an order that is to be tracked, without a number. -/
def unnumbered : Entry → Bool
  | (_, ⟨.updateOrder u, .ok true⟩) =>
    match u.set with
    | .submit _ _ _ _ brokerOrderNo nextStatus _ =>
      nextStatus ∈ trackingTargetStatuses && brokerOrderNo.isNone
    | _ => false
  | _ => false

/-- The event makes an execution abandon its order, crashes one that holds its order, or
stores a result without a number. -/
def loses (settings : Settings) (env : Env) (s : System) : Event → Bool
  | .step i =>
    match s.tasks[i]? with
    | some ⟨l, h, .call o _⟩ =>
      let x : Entry := (s.state.tick, ⟨o, (World.handle env o s.state).1⟩)
      lost settings l (h ++ [x]) || unnumbered x
    | _ => false
  | .crash i => s.tasks[i]?.any holding
  | _ => false

/-- A message for the order is in the queue. -/
def queued (w : World) (id : OrderId) : Bool :=
  w.queue.any fun
    | .processOrder k => k = id
    | .processOrderStatus k _ _ => k = some id
    | .captureRebalanceSnapshot _ => false

/-- The orders that the two queries of the next recovery select. -/
def recoverable (w : World) : List Order :=
  (w.orders.rows.filter fun o => o.status = .pending) ++
    w.orders.rows.filter fun o =>
      o.status ∈ [OrderStatus.requested, .accepted, .partialFilled] && o.brokerOrderNo.isSome

/-- Every order that has not ended has a message or is selected by the next recovery. -/
def NoOrderLost (w : World) : Prop :=
  ∀ r ∈ w.orders.rows, ¬ Terminal r.status → queued w r.id = true ∨ r ∈ recoverable w

theorem recoverable_eq (env : Env) (w : World) :
    ∃ os os', (w.effect env .recoverableSubmitOrders).1 = .ok os ∧
      (w.effect env .recoverableTrackingOrders).1 = .ok os' ∧ recoverable w = os ++ os' :=
  ⟨_, _, rfl, rfl, rfl⟩

/-! ## The invariant -/

/-- The broker number of a tracked order is known. -/
def Numbered (r : Order) : Prop := r.status ∈ trackingTargetStatuses → r.brokerOrderNo.isSome = true

/-- The statuses in front of the broker. -/
def early : List OrderStatus := [.pending, .processing]

/-- The order read is stored, and past the statuses in front of the broker if it was
read so. -/
def StillPast (w : World) (read : Order) : Prop :=
  ∃ r, w.orders.get? read.id = some r ∧ (read.status ∉ early → r.status ∉ early)

/-- The execution holds its order, and every statement of it has matched. -/
def Unsettled (h : Calls) : Prop :=
  ∃ order calls, behindGate h = some (order, calls) ∧ calls.any settles = false ∧
    calls.any unmatched = false

/-- What the executions know of the orders while none has been lost. -/
structure Safekept (settings : Settings) (env : Env) (s : System) : Prop where
  sound : Sound env s
  gating : Obeys (Gating settings) s
  left : Concludes (fun l h => ∀ id, l = .processOrder id → holds h = true → Over settings h) s
  kept : ∀ t ∈ s.tasks, lost settings t.label t.history = false
  held : ∀ id r, s.state.orders.get? id = some r → r.status = .processing →
    ∃ t ∈ s.tasks, t.label = .processOrder id ∧ Unsettled t.history
  past : Known (fun w _ x => World.ReadOf (StillPast w) x) s
  numbered : ∀ id r, s.state.orders.get? id = some r → Numbered r
  read : Known (fun _ _ x => World.ReadOf Numbered x) s

/-- No order of the start is in the hands of an execution, or tracked without a number. -/
def Fresh (w : World) : Prop := ∀ r ∈ w.orders.rows, r.status ≠ .processing ∧ Numbered r

theorem safekept_start {w : World} (hw : Fresh w) : Safekept settings env (start w) where
  sound := sound_start w
  gating := by intro t ht; cases ht
  left := by intro t ht; cases ht
  kept := by intro t ht; cases ht
  held := by
    intro id r hr hprocessing
    exact absurd hprocessing (hw r (KeyedTable.get?_eq_some.mp hr).1).1
  past := by intro t ht; cases ht
  numbered := fun id r hr => (hw r (KeyedTable.get?_eq_some.mp hr).1).2
  read := by intro t ht; cases ht

theorem Unsettled.holds (hu : Unsettled h) : holds h = true := by
  obtain ⟨order, calls, hb, hs, -⟩ := hu
  exact holds_iff.mpr ⟨order, calls, hb, hs⟩

theorem Unsettled.concat (hu : Unsettled h) (hs : settles x = false) (hx : unmatched x = false) :
    Unsettled (h ++ [x]) := by
  obtain ⟨order, calls, hb, hsettles, hunmatched⟩ := hu
  refine ⟨order, calls ++ [x], behindGate_append hb [x], ?_, ?_⟩
  · simp [hsettles, hs]
  · simp [hunmatched, hx]

section Step
variable {i : ℕ} {t : Task} {u : OrderUpdate} {k : Except PyExc Bool → Program Unit} {r : Order}

theorem Safekept.statement (hk : Safekept settings env s) (ht : s.tasks[i]? = some t)
    (hp : t.prog = .call (.updateOrder u) k) : Statement settings t.label t.history u :=
  statement_of_write hk.sound (List.mem_of_getElem? ht) (hk.sound.write ht hp)
    (hk.gating.call ht hp)

/-- A statement stores no early status for an order that has left them. -/
theorem Safekept.not_early (hk : Safekept settings env s) (ht : s.tasks[i]? = some t)
    (hp : t.prog = .call (.updateOrder u) k) (hsel : u.selects r = true)
    (hr : r.status ∉ early) : u.set.nextStatus ∉ early := by
  have hstatus := (OrderUpdate.selects_iff.mp hsel).2
  rcases hk.statement ht hp with ⟨n, order, -, -, hu⟩ | ⟨-, hexpected, -, -⟩ |
    ⟨statuses, -, -, -, hnext⟩
  · have hpending : r.status ∈ [OrderStatus.pending] := hstatus _ (by rw [hu]; rfl)
    rw [List.mem_singleton.mp hpending] at hr
    exact absurd (by decide) hr
  · rw [List.mem_singleton.mp (hstatus _ hexpected)] at hr
    exact absurd (by decide) hr
  · simp [early, hnext.1, hnext.2]

theorem Safekept.still_past (hk : Safekept settings env s)
    (hc : Change (autotrading settings env) s e s') {read : Order}
    (hpast : StillPast s.state read) : StillPast s'.state read := by
  obtain ⟨r, hr, hearly⟩ := hpast
  rcases row_change hk.sound hc hr with hsame | ⟨i, t, u, hw⟩
  · exact ⟨r, hsame, hearly⟩
  · obtain ⟨kont, hp⟩ := hw.prog
    refine ⟨_, hw.row, fun hread => ?_⟩
    rw [SetClause.apply_status]
    exact hk.not_early hw.task hp hw.selects (hearly hread)

/-- What a statement stores for a tracked order has a number. -/
theorem Safekept.numbered_apply (hk : Safekept settings env s) (ht : s.tasks[i]? = some t)
    (hp : t.prog = .call (.updateOrder u) k) {n : ℕ}
    (hx : unnumbered (n, ⟨.updateOrder u, .ok true⟩) = false) (r : Order) :
    Numbered (u.set.apply r) := by
  intro htracked
  rw [SetClause.apply_status] at htracked
  have hmem := List.mem_of_getElem? ht
  have hread : ∀ {k : Option OrderId} {o : Order}, Answered t.history (.selectOrder k) (some o) →
      Numbered o := by
    intro k o hr
    obtain ⟨n, hn⟩ := hr
    exact hk.read t hmem _ hn
  have hw := hk.sound.write ht hp
  generalize t.label = l at hw
  generalize t.history = h at hw hread
  cases hw with
  | gate =>
    have hprocessing : OrderStatus.processing ∈ trackingTargetStatuses := htracked
    exact absurd hprocessing (by decide)
  | release =>
    have hpending : OrderStatus.pending ∈ trackingTargetStatuses := htracked
    exact absurd hpending (by decide)
  | @submit id h order rtCd msgCd msg1 brokerOrgNo brokerOrderNo nextStatus remainingQty =>
    have hnext : nextStatus ∈ trackingTargetStatuses := htracked
    show brokerOrderNo.isSome = true
    simpa [unnumbered, hnext, Option.isSome_iff_ne_none] using hx
  | track made =>
    obtain ⟨answer, hasChildOrders, -, hsnap⟩ := made.derived
    obtain ⟨output1, -, hcases⟩ := TrackingSnapshot.extractOrderTrackingSnapshot_cases hsnap
    rcases hcases with ⟨-, rfl⟩ | ⟨row, q, -, -, rfl⟩
    · have hnumbered := hread made.read
      exact hnumbered made.tracked
    · rfl
  | timeout made =>
    have hlate : OrderStatus.timeout ∈ trackingTargetStatuses := htracked
    exact absurd hlate (by decide)
  | fail read =>
    have hfailed : OrderStatus.failed ∈ trackingTargetStatuses := htracked
    exact absurd hfailed (by decide)

/-- An execution that holds its order, still PROCESSING after its call, does so further. -/
theorem Safekept.unsettled_own (hk : Safekept settings env s) {o : Op}
    {k : Except PyExc (Ans o) → Program Unit} (ht : s.tasks[i]? = some t)
    (hp : t.prog = .call o k) (hl : t.label = .processOrder id) (hu : Unsettled t.history)
    (hr : s.state.orders.get? id = some r) (hprocessing : r.status = .processing)
    (hsame : (World.handle env o s.state).2.orders.get? id = some r) :
    Unsettled (t.history ++ [(s.state.tick, ⟨o, (World.handle env o s.state).1⟩)]) := by
  by_cases hupdate : ∃ u, o = .updateOrder u
  · obtain ⟨u, rfl⟩ := hupdate
    rcases hk.statement ht hp with ⟨n, order, -, hh, -⟩ | ⟨hlabel, hexpected, hnext, -⟩ |
      ⟨statuses, hother, -⟩
    · -- it is past the gate already
      obtain ⟨order', calls, hb, -⟩ := hu
      rw [hh] at hb
      cases hb
    · obtain rfl : id = u.id := by
        rw [hl] at hlabel
        cases hlabel
        rfl
      cases hanswer : (World.handle env (.updateOrder u) s.state).1 with
      | error e => exact hu.concat rfl rfl
      | ok b =>
        -- the statement has matched the row
        obtain ⟨hget, -⟩ := World.updateOrder_ok hanswer u.id
        have hsel : u.selects r = true := by
          rw [OrderUpdate.selects_iff]
          refine ⟨KeyedTable.key_of_get? hr, fun statuses hs => ?_⟩
          obtain rfl := Option.some.inj (hexpected.symm.trans hs)
          simp [hprocessing]
        rw [hsame, hr, Option.map_some, OrderUpdate.refresh, if_pos hsel] at hget
        have hstatus := congrArg Order.status (Option.some.inj hget)
        rw [SetClause.apply_status, hprocessing] at hstatus
        exact absurd hstatus.symm hnext
    · exact absurd hl (hother id)
  · refine hu.concat ?_ ?_
    · cases o
      case updateOrder u => exact absurd ⟨u, rfl⟩ hupdate
      all_goals rfl
    · cases o
      case updateOrder u => exact absurd ⟨u, rfl⟩ hupdate
      all_goals rfl

/-- A row in PROCESSING is held after a call as well. -/
theorem Safekept.held_step (hk : Safekept settings env s) {o : Op}
    {k : Except PyExc (Ans o) → Program Unit} (ht : s.tasks[i]? = some t)
    (hp : t.prog = .call o k) (hr : (World.handle env o s.state).2.orders.get? id = some r)
    (hprocessing : r.status = .processing) :
    ∃ t' ∈ s.tasks.set i (t.advance s.state.tick o (World.handle env o s.state).1 k),
      t'.label = .processOrder id ∧ Unsettled t'.history := by
  have hnew : t.advance s.state.tick o (World.handle env o s.state).1 k ∈
      s.tasks.set i (t.advance s.state.tick o (World.handle env o s.state).1 k) :=
    List.mem_of_getElem? (List.getElem?_set_self (List.getElem?_eq_some_iff.mp ht).1)
  rcases World.row_cases hr with hold | ⟨os, rfl, o', ho', rfl⟩ | ⟨u, r₀, rfl, rfl, hok, hr₀, hsel, rfl⟩
  · obtain ⟨t', ht', hl, hu⟩ := hk.held id r hold hprocessing
    obtain ⟨j, hj⟩ := List.getElem?_of_mem ht'
    by_cases hij : i = j
    · subst hij
      obtain rfl := Option.some.inj (ht.symm.trans hj)
      exact ⟨_, hnew, hl, hk.unsettled_own ht hp hl hu hold hprocessing hr⟩
    · refine ⟨t', List.mem_of_getElem? (i := j) ?_, hl, hu⟩
      rw [List.getElem?_set_ne hij, hj]
  · -- an order is inserted in PENDING
    have hinsert : Insert t.label t.history o' := hk.sound.obeys.call ht hp o' ho'
    have hstatus : o'.status = .processing := hprocessing
    rw [hinsert.pending] at hstatus
    cases hstatus
  · rw [SetClause.apply_status] at hprocessing
    rcases hk.statement ht hp with ⟨n, order, hl, hh, -⟩ | ⟨-, -, hnext, -⟩ |
      ⟨statuses, -, -, -, hnext⟩
    · refine ⟨_, hnew, hl, ?_⟩
      show Unsettled (t.history ++ [(s.state.tick, ⟨.updateOrder u,
        (World.handle env (.updateOrder u) s.state).1⟩)])
      rw [hok, hh]
      exact ⟨_, [], rfl, rfl, rfl⟩
    · exact absurd hprocessing hnext
    · exact absurd hprocessing hnext.2

end Step

/-- The end of every task. -/
theorem left_program (l : Label) :
    Along (fun _ _ => True) (fun h _ => ∀ id, l = .processOrder id → holds h = true →
      Over settings h) [] (l.program settings) := by
  have hother : (∀ id, l ≠ .processOrder id) → Along (fun _ _ => True) (fun h _ => ∀ id,
      l = .processOrder id → holds h = true → Over settings h) [] (l.program settings) := by
    intro hl
    exact along_kept (fun h' r _ id hid => absurd hid (hl id)) _
  cases l with
  | processOrder id =>
    refine (along_processOrder_left id).mono (fun _ _ hq => hq) ?_
    intro h r hleft id' _ hholds
    exact hleft (passedGate_of_holds hholds)
  | _ => exact hother (by simp)

theorem step_of_not_loses {i : ℕ} {t : Task} {o : Op} {k : Except PyExc (Ans o) → Program Unit}
    (hnot : loses settings env s (.step i) = false) (ht : s.tasks[i]? = some t)
    (hp : t.prog = .call o k) :
    lost settings t.label
        (t.history ++ [(s.state.tick, ⟨o, (World.handle env o s.state).1⟩)]) = false ∧
      unnumbered (s.state.tick, ⟨o, (World.handle env o s.state).1⟩) = false := by
  obtain ⟨l, h, p⟩ := t
  obtain rfl : p = .call o k := hp
  simpa [loses, ht] using hnot

theorem lost_nil (l : Label) : lost settings l [] = false := by
  cases l <;> rfl

/-- After a change an order in processing is still in the hands of an execution. -/
theorem Safekept.held_change (hk : Safekept settings env s)
    (hc : Change (autotrading settings env) s e s') {r : Order}
    (hr : s'.state.orders.get? id = some r) (hprocessing : r.status = .processing) :
    ∃ t ∈ s'.tasks, t.label = .processOrder id ∧ Unsettled t.history := by
  cases hc with
  | idle => exact hk.held id r hr hprocessing
  | launched l state hlaunch =>
    rw [(launch_stores hlaunch).1] at hr
    obtain ⟨t, ht, hboth⟩ := hk.held id r hr hprocessing
    exact ⟨t, List.mem_append_left _ ht, hboth⟩
  | stepped i t o k ht hp => exact hk.held_step ht hp hr hprocessing
  | crashed i t ht =>
    obtain ⟨t', ht', hl, hu⟩ := hk.held id r hr hprocessing
    obtain ⟨j, hj⟩ := List.getElem?_of_mem ht'
    by_cases hij : i = j
    · subst hij
      obtain rfl := Option.some.inj (ht.symm.trans hj)
      have hlen := (List.getElem?_eq_some_iff.mp ht).1
      exact ⟨_, List.mem_of_getElem? (List.getElem?_set_self hlen), hl, hu⟩
    · refine ⟨t', List.mem_of_getElem? (i := j) ?_, hl, hu⟩
      rw [List.getElem?_set_ne hij, hj]
  | moved a =>
    have hr' : (World.ambient a s.state).orders.get? id = some r := hr
    rw [(ambient_stores a s.state).1] at hr'
    exact hk.held id r hr' hprocessing

/-- After a change that loses no order every tracked order still has a number. -/
theorem Safekept.numbered_change (hk : Safekept settings env s)
    (hnot : loses settings env s e = false) (hc : Change (autotrading settings env) s e s')
    {r : Order} (hr : s'.state.orders.get? id = some r) : Numbered r := by
  cases hc with
  | idle => exact hk.numbered id r hr
  | launched l state hlaunch =>
    rw [(launch_stores hlaunch).1] at hr
    exact hk.numbered id r hr
  | stepped i t o k ht hp =>
    rcases World.row_cases hr with hold | ⟨os, rfl, o', ho', rfl⟩ |
      ⟨u, r₀, rfl, -, hok, -, -, rfl⟩
    · exact hk.numbered id r hold
    · have hinsert : Insert t.label t.history o' := hk.sound.obeys.call ht hp o' ho'
      intro htracked
      have hstatus : o'.status ∈ trackingTargetStatuses := htracked
      rw [hinsert.pending] at hstatus
      exact absurd hstatus (by decide)
    · have hx := (step_of_not_loses hnot ht hp).2
      rw [hok] at hx
      exact hk.numbered_apply ht hp hx r₀
  | crashed i t ht => exact hk.numbered id r hr
  | moved a =>
    have hr' : (World.ambient a s.state).orders.get? id = some r := hr
    rw [(ambient_stores a s.state).1] at hr'
    exact hk.numbered id r hr'

theorem Safekept.change (hk : Safekept settings env s) (hnot : loses settings env s e = false)
    (hc : Change (autotrading settings env) s e s') : Safekept settings env s' where
  sound := hk.sound.change hc
  gating := hk.gating.change gating_program hc
  left := by
    refine hk.left.change left_program hc ?_
    intro i t he ht id hl hholds
    cases hend : t.prog.isEnded with
    | true => exact hk.left.ended (List.mem_of_getElem? ht) hend id hl hholds
    | false =>
      have hcrash : holding t = true := by simp [holding, hl, hholds, hend]
      rw [he] at hnot
      simp [loses, ht, hcrash] at hnot
  kept := by
    intro t' ht'
    obtain ⟨j, hj⟩ := List.getElem?_of_mem ht'
    rcases hc.task_at hj with ⟨t, ht, hl, hh⟩ | hnil | ⟨t, o, k, rfl, ht, hl, hp, -, hh⟩
    · rw [← hl, ← hh]
      exact hk.kept t (List.mem_of_getElem? ht)
    · rw [hnil]
      exact lost_nil _
    · rw [← hl, hh]
      exact (step_of_not_loses hnot ht hp).1
  held := fun _ _ hr hprocessing => hk.held_change hc hr hprocessing
  past := by
    refine hk.past.change hc ?_ ?_
    · intro l x hx
      exact hx.mono fun r hr => hk.still_past hc hr
    · intro i t o k _ ht hp
      refine World.readOf_handle (fun id r hr => ?_) _ o
      have hkey : r.id = id := KeyedTable.key_of_get? hr
      exact hk.still_past (.stepped i t o k ht hp) ⟨r, by rw [hkey]; exact hr, fun hearly => hearly⟩
  numbered := fun _ _ hr => hk.numbered_change hnot hc hr
  read := by
    refine hk.read.change hc (fun _ _ hx => hx) ?_
    intro i t o k _ ht hp
    exact World.readOf_handle hk.numbered _ o

/-! ## No order is lost -/

theorem write_reads {u : OrderUpdate} (hw : Write (.processOrder id) h u) :
    ∃ order, Answered h (.selectOrder (some id)) (some order) := by
  cases hw with
  | gate read => exact ⟨_, read⟩
  | release read => exact ⟨_, read⟩
  | submit read => exact ⟨_, read⟩

/-- An execution that holds a row in PROCESSING read its order in front of the broker. -/
theorem Safekept.processing_held (hk : Safekept settings env s) {t : Task} (ht : t ∈ s.tasks)
    (hl : t.label = .processOrder id) (hb : behindGate t.history = some (order, calls)) {r : Order}
    (hr : s.state.orders.get? id = some r) (hprocessing : r.status = .processing) :
    order.status = .processing := by
  obtain ⟨n, k, read, m, u, hh, rfl⟩ := behindGate_iff.mp hb
  have hmem : ((n, ⟨.selectOrder k, .ok (some read)⟩) : Entry) ∈ t.history := by simp [hh]
  obtain ⟨r', hr', hpast⟩ : StillPast s.state read := hk.past t ht _ hmem
  -- the task reads the order it was started for
  have hkey : read.id = id := by
    have hsplit : t.history = [(n, ⟨.selectOrder k, .ok (some read)⟩)] ++
        (m, ⟨.updateOrder u, .ok true⟩) :: calls := hh
    have hw : Write t.label _ u := hk.sound.recorded t ht _ _ _ hsplit
    rw [hl] at hw
    obtain ⟨order, n', hread⟩ := write_reads hw
    have hop := congrArg (fun x : Entry => x.2.1) (List.mem_singleton.mp hread)
    obtain rfl := (Op.selectOrder.inj hop).symm
    exact (Option.some.inj (hk.sound.read_id ht ⟨n, hmem⟩)).symm
  rw [hkey] at hr'
  obtain rfl := Option.some.inj (hr.symm.trans hr')
  by_cases hearly : read.status ∈ early
  · have hcases : read.status = .pending ∨ read.status = .processing := by
      simpa [early] using hearly
    rcases hcases with hpending | hstill
    · rw [(gate_refresh hpending).2]
    · simp [OrderUpdate.refresh, gate, OrderUpdate.selects, hstill]
  · have hnot := hpast hearly
    rw [hprocessing] at hnot
    exact absurd (by decide) hnot

/-- In a run that loses no order, when all tasks have ended every order that has not
ended is selected by the next recovery. -/
theorem no_order_lost (settings : Settings) {env : Env} {w : World} {es : List Event}
    (hw : Fresh w)
    (hmeets : Meets (autotrading settings env) (fun s e => loses settings env s e = false)
      (start w) es)
    (hended : ∀ t ∈ ((autotrading settings env).run (start w) es).tasks, t.prog.isEnded = true) :
    NoOrderLost ((autotrading settings env).run (start w) es).state := by
  have hk : Safekept settings env ((autotrading settings env).run (start w) es) :=
    hmeets.invariant (fun s e s' h hnot hc => h.change hnot hc) (safekept_start hw)
  intro r hr hlive
  have hget := KeyedTable.get?_of_mem hr
  have hnumbered := hk.numbered r.id r hget
  -- an execution that holds the order has come to its end
  have hnot : r.status ≠ .processing := by
    intro hprocessing
    obtain ⟨t, ht, hl, hu⟩ := hk.held r.id r hget hprocessing
    obtain ⟨order, calls, hb, hcases⟩ := hk.left.ended ht (hended t ht) r.id hl hu.holds
    obtain ⟨order', calls', hb', hsettles, hunmatched⟩ := hu
    obtain ⟨rfl, rfl⟩ := Prod.mk.inj (Option.some.inj (hb.symm.trans hb'))
    have hkept := hk.kept t ht
    simp only [lost, hl, abandons, hb, Option.any_some, hsettles, Bool.not_false, Bool.true_and,
      Bool.or_eq_false_iff] at hkept
    rcases hcases with hs | hraises | hfails | hu | hstale
    · rw [hsettles] at hs
      cases hs
    · rw [hkept.1] at hraises
      cases hraises
    · rw [hkept.2] at hfails
      cases hfails
    · rw [hunmatched] at hu
      cases hu
    · exact hstale (hk.processing_held ht hl hb hget hprocessing)
  refine .inr ?_
  rw [recoverable, List.mem_append, List.mem_filter, List.mem_filter]
  unfold Numbered at hnumbered
  cases hstatus : r.status
  case pending => exact .inl ⟨hr, by simp⟩
  case processing => exact absurd hstatus hnot
  case requested | accepted | partialFilled =>
    rw [hstatus] at hnumbered
    have hsome := hnumbered (by decide)
    exact .inr ⟨hr, by simp [hsome]⟩
  all_goals
    rw [hstatus] at hlive
    exact absurd (by decide) hlive

/-- One delivery for order 1 under the given surroundings. -/
def oneDelivery (env : Env) : System :=
  (autotrading .sample env).run (start (.holding [Order.sample 1 .pending] [.processOrder 1]))
    (.launch (.processOrder 1) :: List.replicate 12 (.step 0))

/-- The broker does not answer: order 1 is left in PROCESSING, with no message and out of
reach of the recovery. -/
theorem unanswered_order_lost :
    (∀ t ∈ (oneDelivery .quiet).tasks, t.prog.isEnded = true) ∧
      ¬ NoOrderLost (oneDelivery .quiet).state := by
  unfold NoOrderLost
  decide +kernel

/-- Surroundings in which the broker accepts every order under the number `"7"`. -/
def accepting : Env :=
  { Env.quiet with
    post := fun _ _ => ⟨true, .response 200 (.object ⟨.text "0", .text "APBK0013",
      .text "주문 전송 완료 되었습니다.", .object ⟨"91252", "7", "090000"⟩, ""⟩) ""⟩ }

theorem no_order_lost_sample : NoOrderLost (oneDelivery accepting).state :=
  no_order_lost .sample (by unfold Fresh Numbered; decide +kernel) (by decide +kernel)
    (by decide +kernel)

end Autotrading.ProcessOrder
