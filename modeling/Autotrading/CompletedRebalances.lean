import Autotrading.EndedOrders
import Autotrading.RebalanceRecords
import Autotrading.RebalanceSnapshot

/-!
# Orders of a completed rebalance

A run waits for its sells, and then for its buys, until all have ended or the timeout is
over. On a timeout it asks for the rest to be canceled and goes on: it is recorded COMPLETED
with orders that may still trade, each with its cancel order in the queue.
-/
namespace Autotrading

open Machine Prog OrderState OrderRepository
open Machine.Sys (start)

variable {settings : Settings} {env : Env} {s s' : System} {e : Event} {w : World} {h h' : Calls}

namespace OrderGenerator

/-! ## The wait -/

/-- Two looks at the clock lie as far apart as the timeout. -/
def Elapsed (g : OrderGenerator) (h : Calls) : Prop :=
  ∃ n m start now, (n, ⟨.now, .ok start⟩) ∈ h ∧ (m, ⟨.now, .ok now⟩) ∈ h ∧
    g.fillTimeoutSeconds * 1000000 ≤ now - start

/-- A cancel order for what was open of the order is queued. -/
def CancelQueued (h : Calls) (r : Order) (c : Order) : Prop :=
  ∃ id, c = cancelOrderOf r (openQuantity r) id ∧ Answered h (.enqueue (.processOrder id) 0) ()

/-- It is stored, too. -/
def CancelRequested (h : Calls) (r : Order) : Prop :=
  ∃ c os, CancelQueued h r c ∧ Answered h (.insertOrders os) () ∧ c ∈ os

/-- A wait for the orders `ids` that began with the history `h₀` is over: the last look that
counts found them ended, or the timeout is over and the rest is to be canceled. -/
def Waited (g : OrderGenerator) (ids : List OrderId) (h₀ h : Calls) : Prop :=
  ∃ h₁ n rows h₂, h = h₀ ++ h₁ ++ (n, ⟨.ordersByIds ids, .ok rows⟩) :: h₂ ∧
    ∀ r ∈ rows, r.status ∈ terminalStatuses ∨
      Elapsed g h₁ ∧ (openQuantity r ≤ 0 ∨ CancelRequested h r)

theorem Elapsed.mono {g : OrderGenerator} (he : Elapsed g h) (hh : h <+: h') : Elapsed g h' := by
  obtain ⟨n, m, start, now, hstart, hnow, hover⟩ := he
  exact ⟨n, m, start, now, hh.subset hstart, hh.subset hnow, hover⟩

theorem CancelQueued.mono {r c : Order} (hc : CancelQueued h r c) (hh : h <+: h') :
    CancelQueued h' r c := by
  obtain ⟨id, hid, hqueued⟩ := hc
  exact ⟨id, hid, hqueued.mono hh⟩

theorem CancelRequested.mono {r : Order} (hc : CancelRequested h r) (hh : h <+: h') :
    CancelRequested h' r := by
  obtain ⟨c, os, hqueued, hstored, hmem⟩ := hc
  exact ⟨c, os, hqueued.mono hh, hstored.mono hh, hmem⟩

theorem Waited.mono {g : OrderGenerator} {ids : List OrderId} {h₀ : Calls} (hw : Waited g ids h₀ h)
    (hh : h <+: h') : Waited g ids h₀ h' := by
  obtain ⟨h₁, n, rows, h₂, hsplit, hrows⟩ := hw
  obtain ⟨h₃, rfl⟩ := hh
  refine ⟨h₁, n, rows, h₂ ++ h₃, by rw [hsplit]; simp, fun r hr => ?_⟩
  rcases hrows r hr with hended | ⟨helapsed, hnothing | hcancel⟩
  · exact .inl hended
  · exact .inr ⟨helapsed, .inl hnothing⟩
  · exact .inr ⟨helapsed, .inr (hcancel.mono (List.prefix_append _ _))⟩

section Wait
variable {g : OrderGenerator} {ids : List OrderId} {h₀ hs : Calls}

/-- One order: it has ended, has nothing open, or its cancel order is queued. -/
theorem along_cancelUnfilledOrder_queued (order : Order) :
    Along (fun _ _ => True) (fun h' r => ∀ y, r = .ok y → order.status ∈ terminalStatuses ∨
      openQuantity order ≤ 0 ∨ ∃ c ∈ y, CancelQueued h' order c) h (cancelUnfilledOrder order) := by
  unfold cancelUnfilledOrder
  extract_lets remaining
  split
  · next hclosed =>
    rw [along_pure]
    intro y _
    rcases hclosed with hended | hnothing
    · exact .inl hended
    · exact .inr (.inl hnothing)
  · refine (along_true _).bind (fun h₁ id _ _ => ?_) (by rintro _ _ _ _ _ ⟨⟩)
    refine (along_true _).bind (fun h₂ _ _ _ => ?_) (by rintro _ _ _ _ _ ⟨⟩)
    have hsend : Along (fun _ _ => True)
        (fun h' r => ∀ a, r = .ok a → Answered h' (.enqueue (.processOrder id) 0) a) h₂
        (Op.perform (.enqueue (.processOrder id) 0)) := along_answered trivial
    refine hsend.bind (fun h₃ a _ hqueued => ?_) (by rintro _ _ _ _ _ ⟨⟩)
    rw [along_pure]
    intro y hy
    obtain rfl := Except.ok.inj hy
    exact .inr (.inr ⟨_, rfl, id, rfl, hqueued a rfl⟩)

/-- The rest of the orders, behind the timeout. -/
theorem along_cancelUnfilledOrders_waited (helapsed : Elapsed g hs) :
    Along (fun _ _ => True) (fun h' r => ∀ a, r = .ok a → Waited g ids h₀ h') (h₀ ++ hs)
      (cancelUnfilledOrders ids) := by
  unfold cancelUnfilledOrders
  have hlook : Along (fun _ _ => True) (fun h' r => ∀ rows, r = .ok rows → ∃ n,
      h' = h₀ ++ hs ++ [(n, ⟨.ordersByIds ids, .ok rows⟩)]) (h₀ ++ hs)
      (Op.perform (.ordersByIds ids)) := by
    refine .perform trivial fun n r rows hr => ⟨n, ?_⟩
    rw [hr]
  refine hlook.bind (fun h₁ rows _ hrows => ?_) (by rintro _ _ _ _ _ ⟨⟩)
  obtain ⟨n, rfl⟩ := hrows rows rfl
  have hcollect : Along (fun _ _ => True) (fun h' r => ∀ ys, r = .ok ys → ∀ order ∈ rows,
      ∃ y : Option Order, (order.status ∈ terminalStatuses ∨ openQuantity order ≤ 0 ∨
        ∃ c ∈ y, CancelQueued h' order c) ∧ ∀ z ∈ y, z ∈ ys)
      (h₀ ++ hs ++ [(n, ⟨.ordersByIds ids, .ok rows⟩)]) (collect cancelUnfilledOrder rows) := by
    refine along_collect_each ?_ fun order _ h' => along_cancelUnfilledOrder_queued order
    intro h₁ h₂ order y hh hy
    rcases hy with hended | hnothing | ⟨c, hc, hqueued⟩
    · exact .inl hended
    · exact .inr (.inl hnothing)
    · exact .inr (.inr ⟨c, hc, hqueued.mono hh⟩)
  refine hcollect.bind (fun h₁ os hh₁ hos => ?_) (by rintro _ _ _ _ _ ⟨⟩)
  have hstore : Along (fun _ _ => True)
      (fun h' r => ∀ a, r = .ok a → Answered h' (.insertOrders os) a) h₁
      (Op.perform (.insertOrders os)) := along_answered trivial
  refine hstore.bind (fun h₂ a hh₂ hstored => ?_) (by rintro _ _ _ _ _ ⟨⟩)
  rw [along_pure]
  intro _ _
  obtain ⟨h₃, hsplit⟩ := hh₁.trans hh₂
  refine ⟨hs, n, rows, h₃, by simpa using hsplit.symm, fun order horder => ?_⟩
  obtain ⟨y, hy, hmem⟩ := hos os rfl order horder
  rcases hy with hended | hnothing | ⟨c, hc, hqueued⟩
  · exact .inl hended
  · exact .inr ⟨helapsed, .inl hnothing⟩
  · exact .inr ⟨helapsed, .inr ⟨c, os, hqueued.mono hh₂, hstored a rfl, hmem c hc⟩⟩

theorem along_finishTimeout_waited {result : FillResult} (helapsed : Elapsed g hs) :
    Along (fun _ _ => True) (fun h' r => ∀ a, r = .ok a → Waited g ids h₀ h') (h₀ ++ hs)
      (finishTimeout ids result) := by
  unfold finishTimeout
  have hlook : Along (fun _ _ => True) (fun h' r => ∀ rows, r = .ok rows → ∃ n,
      h' = h₀ ++ (hs ++ [(n, ⟨.ordersByIds ids, .ok rows⟩)])) (h₀ ++ hs)
      (Op.perform (.ordersByIds ids)) := by
    refine .perform trivial fun n r rows hr => ⟨n, ?_⟩
    rw [hr, List.append_assoc]
  refine hlook.bind (fun h₁ rows _ hrows => ?_) (by rintro _ _ _ _ _ ⟨⟩)
  obtain ⟨n, rfl⟩ := hrows rows rfl
  simp only
  split
  · next hended =>
    rw [along_pure]
    intro _ _
    exact ⟨hs, n, rows, [], by simp, fun r hr => .inl (hended r hr)⟩
  · have hcancel : Along (fun _ _ => True) (fun h' r => ∀ a, r = .ok a → Waited g ids h₀ h')
        (h₀ ++ (hs ++ [(n, ⟨.ordersByIds ids, .ok rows⟩)])) (cancelUnfilledOrders ids) :=
      along_cancelUnfilledOrders_waited (helapsed.mono (List.prefix_append _ _))
    refine hcancel.bind (fun h₁ a _ hwaited => ?_) (by rintro _ _ _ _ _ ⟨⟩)
    rw [along_pure]
    exact fun _ _ => hwaited a rfl

theorem along_pollFills_waited {start : Instant} (n : ℕ) {result : FillResult}
    (hstart : ∃ m, (m, ⟨.now, .ok start⟩) ∈ hs) :
    Along (fun _ _ => True) (fun h' r => ∀ a, r = .ok a → Waited g ids h₀ h') (h₀ ++ hs)
      (pollFills g ids start n result) := by
  induction n generalizing hs result with
  | zero =>
    rw [pollFills, along_raise]
    rintro a ⟨⟩
  | succ n ih =>
    rw [pollFills]
    have hclock : Along (fun _ _ => True) (fun h' r => ∀ now, r = .ok now → ∃ k,
        h' = h₀ ++ (hs ++ [(k, ⟨.now, .ok now⟩)])) (h₀ ++ hs) (Op.perform .now) := by
      refine .perform trivial fun k r now hr => ⟨k, ?_⟩
      rw [hr, List.append_assoc]
    refine hclock.bind (fun h₁ now _ hnow => ?_) (by rintro _ _ _ _ _ ⟨⟩)
    obtain ⟨k, rfl⟩ := hnow now rfl
    obtain ⟨m, hm⟩ := hstart
    have hstart' : (m, ⟨.now, .ok start⟩) ∈ hs ++ [(k, (⟨.now, .ok now⟩ : (o : Op) × Except PyExc (Ans o)))] :=
      List.mem_append_left _ hm
    split
    · next hover =>
      exact along_finishTimeout_waited ⟨m, k, start, now, hstart', by simp, hover⟩
    · have hlook : Along (fun _ _ => True) (fun h' r => ∀ rows, r = .ok rows → ∃ l,
          h' = h₀ ++ (hs ++ [(k, ⟨.now, .ok now⟩)] ++ [(l, ⟨.ordersByIds ids, .ok rows⟩)]))
          (h₀ ++ (hs ++ [(k, ⟨.now, .ok now⟩)])) (Op.perform (.ordersByIds ids)) := by
        refine .perform trivial fun l r rows hr => ⟨l, ?_⟩
        rw [hr, List.append_assoc]
      refine hlook.bind (fun h₁ rows _ hrows => ?_) (by rintro _ _ _ _ _ ⟨⟩)
      obtain ⟨l, rfl⟩ := hrows rows rfl
      refine Along.ofExcept_bind (fun result' _ => ?_) (by rintro _ _ _ ⟨⟩)
      split
      · next hended =>
        rw [along_pure]
        intro _ _
        exact ⟨hs ++ [(k, ⟨.now, .ok now⟩)], l, rows, [], by simp, fun r hr => .inl (hended r hr)⟩
      · exact ih ⟨m, List.mem_append_left _ hstart'⟩

theorem along_waitForFills_waited {polls : ℕ} :
    Along (fun _ _ => True) (fun h' r => ∀ a, r = .ok a → Waited g ids h₀ h') h₀
      (waitForFills g ids polls) := by
  unfold waitForFills
  have hclock : Along (fun _ _ => True) (fun h' r => ∀ start, r = .ok start → ∃ m,
      h' = h₀ ++ [(m, ⟨.now, .ok start⟩)]) h₀ (Op.perform .now) := by
    refine .perform trivial fun m r start hr => ⟨m, ?_⟩
    rw [hr]
  refine hclock.bind (fun h₁ start _ hstart => ?_) (by rintro _ _ _ _ _ ⟨⟩)
  obtain ⟨m, rfl⟩ := hstart start rfl
  exact along_pollFills_waited polls ⟨m, List.mem_singleton_self _⟩

end Wait

/-! ## The phases -/

/-- The wait for the order, stored before, is over. -/
def Awaited (g : OrderGenerator) (h : Calls) (id : OrderId) : Prop :=
  ∃ h₀ ids n os, (n, ⟨.insertOrders os, .ok ()⟩) ∈ h₀ ∧ (∃ o ∈ os, o.id = id) ∧ id ∈ ids ∧
    Waited g ids h₀ h

/-- The sell and buy orders stored so far are awaited, up to those under `ids`. -/
def Outstanding (g : OrderGenerator) (ids : List OrderId) (h : Calls) : Prop :=
  ∀ n os, (n, ⟨.insertOrders os, .ok ()⟩) ∈ h → ∀ o ∈ os, o.orderKind ≠ .cancel →
    Awaited g h o.id ∨ o.id ∈ ids

/-- A call that stores no sell or buy order but under `ids`. -/
def StoresAmong (ids : List OrderId) (o : Op) : Prop :=
  ∀ os, o = .insertOrders os → ∀ o ∈ os, o.orderKind ≠ .cancel → o.id ∈ ids

/-- A call before the end, that stores no sell or buy order but under `ids`. -/
def Proceeds (ids : List OrderId) : Op → Prop
  | .insertOrders os => ∀ o ∈ os, o.orderKind ≠ .cancel → o.id ∈ ids
  | .completeRebalance _ => False
  | .rebalanceAlert _ success _ => success = false
  | _ => True

/-- A run is recorded COMPLETED, and reported to have succeeded, when no order is
outstanding. -/
def Concluded (g : OrderGenerator) (h : Calls) : Op → Prop
  | .completeRebalance _ => Outstanding g [] h
  | .rebalanceAlert _ success _ => success = true → Outstanding g [] h
  | _ => True

section Phases
variable {g : OrderGenerator} {ids : List OrderId} {α : Type} {p : Program α}
  {post : Calls → Except PyExc α → Prop}

theorem Awaited.mono {id : OrderId} (ha : Awaited g h id) (hh : h <+: h') : Awaited g h' id := by
  obtain ⟨h₀, ids, n, os, hmade, hid, hmem, hwaited⟩ := ha
  exact ⟨h₀, ids, n, os, hmade, hid, hmem, hwaited.mono hh⟩

theorem Outstanding.call (ho : Outstanding g ids h) {o : Op} (hstores : StoresAmong ids o) (n : ℕ)
    (r : Except PyExc (Ans o)) : Outstanding g ids (h ++ [(n, ⟨o, r⟩)]) := by
  intro m os hmade o' ho' hkind
  rcases List.mem_append.mp hmade with hold | hnew
  · rcases ho m os hold o' ho' hkind with hawaited | hid
    · exact .inl (hawaited.mono (List.prefix_append _ _))
    · exact .inr hid
  · have heq := List.mem_singleton.mp hnew
    have hop : Op.insertOrders os = o := congrArg (fun y : Entry => y.2.1) heq
    exact .inr (hstores os hop.symm o' ho' hkind)

theorem Outstanding.weaken (ho : Outstanding g [] h) : Outstanding g ids h := by
  intro n os hmade o hmem hkind
  rcases ho n os hmade o hmem hkind with hawaited | hid
  · exact .inl hawaited
  · cases hid

theorem Proceeds.storesAmong {o : Op} (ho : Proceeds ids o) : StoresAmong ids o := by
  rintro os rfl
  exact ho

theorem Proceeds.concluded {o : Op} (ho : Proceeds ids o) : Concluded g h o := by
  cases o
  case completeRebalance rid => exact False.elim ho
  case rebalanceAlert rid success msg =>
    intro hsuccess
    have hfailure : success = false := ho
    rw [hfailure] at hsuccess
    cases hsuccess
  all_goals trivial

theorem along_outstanding (hp : Along (fun _ o => Proceeds ids o) post h p)
    (ho : Outstanding g ids h) :
    Along (Concluded g) (fun h' r => Outstanding g ids h' ∧ post h' r) h p := by
  have hkeep := hp.keeping (P := Outstanding g ids)
    (fun _ _ n r hout hproceeds => hout.call hproceeds.storesAmong n r) ho
  exact hkeep.mono (fun _ _ hq => hq.2.concluded) fun _ _ hr => hr

/-- Nothing is outstanding after the wait for all that was. -/
theorem Outstanding.waited (ho : Outstanding g ids h) (hh : ∃ h₂, h' = h ++ h₂ ∧
    ∀ x ∈ h₂, Proceeds [] x.2.1) (hw : Waited g ids h h') : Outstanding g [] h' := by
  obtain ⟨h₂, rfl, hquiet⟩ := hh
  intro n os hmade o hmem hkind
  left
  rcases List.mem_append.mp hmade with hold | hnew
  · rcases ho n os hold o hmem hkind with hawaited | hid
    · exact hawaited.mono (List.prefix_append _ _)
    · exact ⟨h, ids, n, os, hold, ⟨o, hmem, rfl⟩, hid, hw⟩
  · cases hquiet _ hnew o hmem hkind

theorem allowsWait_proceeds (g : OrderGenerator) : g.AllowsWait fun _ o => Proceeds ids o where
  plain := by
    intro h o ho
    cases o
    all_goals first | exact False.elim ho | trivial
  cancel := by
    intro h os _ hos o ho hkind
    obtain ⟨-, order, remaining, -, heq⟩ := hos o ho
    rw [heq] at hkind
    exact absurd rfl hkind
  queue := fun _ _ _ _ _ => trivial

theorem along_submitPhase_outstanding {orders : List OrderRequest} {polls : ℕ}
    (hlive : g.dryRun = false) (ho : Outstanding g [] h) :
    Along (Concluded g) (fun h' r => ∀ a, r = .ok a → Outstanding g [] h') h
      (submitPhase g orders polls) := by
  have hinsert : Safe (fun _ o => Proceeds (orders.map (·.orderId)) o) h
      (forEach (insertAndQueue g) orders) := by
    refine safe_forEach fun r hr h₁ _ => ?_
    unfold insertAndQueue createOrder
    have hstores : Proceeds (orders.map (·.orderId)) (.insertOrders [orderRow g r]) := by
      intro o hmem _
      obtain rfl := List.mem_singleton.mp hmem
      exact List.mem_map_of_mem hr
    refine Safe.bind (safe_perform hstores) fun h₂ _ _ => ?_
    split
    · exact safe_perform (o := Op.enqueue (.processOrder r.orderId) 0) trivial
    · exact safe_pure _
  unfold submitPhase
  refine (along_outstanding hinsert ho.weaken).bind (fun h₁ _ _ hout => ?_) (by rintro _ _ _ _ _ ⟨⟩)
  split
  · have hwait : Along (fun _ o => Proceeds [] o)
        (fun h' r => True ∧ ∀ a, r = .ok a → Waited g (orders.map (·.orderId)) h₁ h') h₁
        (waitForFills g (orders.map (·.orderId)) polls) :=
      Along.and_post (safe_waitForFills (allowsWait_proceeds g) hlive) along_waitForFills_waited
    refine Along.bind ((hwait.entries fun _ _ hq => hq).mono ?_ fun _ _ hr => hr) ?_
      (by rintro _ _ _ _ _ ⟨⟩)
    · exact fun _ _ hq => hq.2.concluded
    · rintro h₂ result - ⟨hentries, -, hwaited⟩
      rw [along_pure]
      exact fun _ _ => hout.1.waited hentries (hwaited result rfl)
  · next hnowait =>
    have hnone : orders = [] := by
      by_contra hsome
      exact hnowait ⟨hsome, hlive⟩
    rw [along_pure]
    intro _ _
    rw [hnone] at hout
    exact hout.1

theorem along_submitOrders_outstanding {plan : RebalancePlan} {sells buys : List OrderRequest}
    (hlive : g.dryRun = false) (ho : Outstanding g [] h) :
    Along (Concluded g) (fun h' r => ∀ a, r = .ok a → Outstanding g [] h') h
      (submitOrders g plan sells buys) := by
  unfold submitOrders
  refine (along_submitPhase_outstanding hlive ho).bind (fun h₁ a _ hout => ?_)
    (by rintro _ _ _ _ _ ⟨⟩)
  split
  · have hcash : Safe (fun _ o => Proceeds [] o) h₁ getActualCash :=
      Safe.tryExcept (safe_perform (o := Op.availableBuy) trivial) fun _ _ _ => safe_pure _
    refine (along_outstanding hcash (hout a rfl)).bind (fun h₂ cash _ hout => ?_)
      (by rintro _ _ _ _ _ ⟨⟩)
    have hrecalculate : Safe (fun _ o => Proceeds [] o) h₂ (recalculateBuyOrders g plan cash) :=
      (along_recalculateBuyOrders (allowsWait_proceeds g)).safe
    refine (along_outstanding hrecalculate hout.1).bind (fun h₃ ys _ hout => ?_)
      (by rintro _ _ _ _ _ ⟨⟩)
    exact along_submitPhase_outstanding hlive hout.1
  · exact along_submitPhase_outstanding hlive (hout a rfl)

end Phases

end OrderGenerator

/-! ## The run -/

namespace RebalanceRun

open OrderGenerator (Outstanding Proceeds Concluded)

variable {x : RebalanceRun} {aborts : PyExc → Bool}

theorem concluded_submitAndComplete {d : DiffResult} {sells buys : List OrderRequest}
    (ho : Outstanding x.executor.orderGenerator [] h) :
    Along (Concluded x.executor.orderGenerator)
      (fun h' r => ∀ a, r = .ok a → Outstanding x.executor.orderGenerator [] h') h
      (x.submitAndComplete d sells buys) := by
  have horders : Along (Concluded x.executor.orderGenerator)
      (fun h' r => ∀ a, r = .ok a → Outstanding x.executor.orderGenerator [] h') h
      (x.executor.orderGenerator.submitOrders (x.plan d) sells buys) :=
    OrderGenerator.along_submitOrders_outstanding x.live ho
  refine Along.bind horders (fun h₁ a _ hout => ?_) (by rintro _ _ _ _ _ ⟨⟩)
  have hnone := hout a rfl
  refine .perform (o := Op.completeRebalance x.rebalanceId) hnone fun n r _ _ => ?_
  refine hnone.call ?_ n r
  rintro os ⟨⟩

/-- A run is recorded COMPLETED when it has no order outstanding. -/
theorem concluded_submit (ho : Outstanding x.executor.orderGenerator [] h) :
    Safe (Concluded x.executor.orderGenerator) h (x.submit aborts) := by
  have hfail : ∀ {h₁ : Calls} {soFar broken e},
      Safe (Concluded x.executor.orderGenerator) h₁ (x.fail soFar broken e) :=
    safe_fail (fun _ _ => trivial) fun _ _ => nofun
  have hdiff : Safe (fun _ o => Proceeds [] o) h x.positionDiff :=
    safe_positionDiff trivial fun _ => trivial
  unfold submit
  refine Along.watch_bind (OrderGenerator.along_outstanding hdiff ho) fun h₁ broken outcome _ hout => ?_
  cases outcome with
  | error e => exact hfail
  | ok d =>
    cases hdry : x.dryRun with
    | true => exact safe_pure _
    | false =>
      have hflush : Proceeds [] (.flushRebalance x.rebalanceId x.dryRun) := trivial
      have hgenerate := along_generate (h := h₁) (d := d) hflush
        (OrderGenerator.allowsWait_proceeds x.executor.orderGenerator)
      refine Along.watch_bind (OrderGenerator.along_outstanding hgenerate hout.1)
        fun h₂ broken outcome _ hout₂ => ?_
      cases outcome with
      | error e => exact hfail
      | ok orders =>
        refine Along.watch_bind (concluded_submitAndComplete hout₂.1) fun h₃ broken outcome _ hout₃ => ?_
        cases outcome with
        | error e => exact hfail
        | ok a => exact safe_succeed fun _ => hout₃ a rfl

theorem concluded_run (ho : Outstanding x.executor.orderGenerator [] h) :
    Safe (Concluded x.executor.orderGenerator) h (x.run aborts) := by
  refine safe_perform_bind (o := Op.executeStrategy) trivial fun n a => concluded_submit ?_
  refine ho.call ?_ n (.ok a)
  rintro os ⟨⟩

/-- The gates store nothing. -/
theorem outstanding_of_gated {g : OrderGenerator} {force : Bool} (hg : Gated settings force h) :
    Outstanding g [] h := by
  have hnothing : ∀ n os, (n, ⟨.insertOrders os, .ok ()⟩) ∉ h := by
    have hdue : ∀ {h₀ : Calls}, Due settings h₀ → ∀ n os, (n, ⟨.insertOrders os, .ok ()⟩) ∉ h₀ := by
      intro h₀ hd n os
      cases hd
      simp
    cases hg with
    | forced due => exact hdue due
    | checked due =>
      intro n os
      simp [hdue due n os]
  intro n os hmade
  exact absurd hmade (hnothing n os)

end RebalanceRun

/-- Every run of a rebalance concludes when it has no order outstanding. -/
def Conclusive (l : Label) (h : Calls) (o : Op) : Prop :=
  ∀ x, l.rebalanceRun = some x → OrderGenerator.Concluded x.executor.orderGenerator h o

theorem conclusive_of_concluded {α : Type} {l : Label} {x : RebalanceRun} {p : Program α}
    (hl : l.rebalanceRun = some x)
    (hp : Safe (OrderGenerator.Concluded x.executor.orderGenerator) h p) :
    Safe (Conclusive l) h p := by
  refine hp.mono (fun h₁ o ho x' hx' => ?_) fun _ _ hr => hr
  obtain rfl := Option.some.inj (hl.symm.trans hx')
  exact ho

theorem program_conclusive (l : Label) : Safe (Conclusive l) [] (l.program settings) := by
  cases l with
  | runRebalance x =>
    refine RebalanceRun.safe_runRebalance (conclusive_of_concluded rfl ?_)
    refine RebalanceRun.concluded_run fun n os hmade => ?_
    cases hmade
  | executeRebalance x force =>
    refine RebalanceRun.safe_executeRebalance ?_ (fun h hg =>
      conclusive_of_concluded rfl (RebalanceRun.concluded_run (RebalanceRun.outstanding_of_gated hg)))
      fun _ _ _ _ => trivial
    intro h o ho x' _
    cases o
    all_goals first | exact False.elim ho | trivial
  | _ => exact (along_true _).mono (fun _ _ _ x hx => by cases hx) fun _ _ hr => hr

/-! ## The rows of a run -/

/-- The row is of the order, moved on. -/
structure SameOrder (o r : Order) : Prop where
  id : r.id = o.id
  orderKind : r.orderKind = o.orderKind
  orderQty : r.orderQty = o.orderQty
  originalOrderId : r.originalOrderId = o.originalOrderId
  rebalanceId : r.rebalanceId = o.rebalanceId

theorem SameOrder.trans {o r r' : Order} (h : SameOrder o r) (h' : SameOrder r r') : SameOrder o r' :=
  ⟨h'.id.trans h.id, h'.orderKind.trans h.orderKind, h'.orderQty.trans h.orderQty,
    h'.originalOrderId.trans h.originalOrderId, h'.rebalanceId.trans h.rebalanceId⟩

/-- A stored row stays the row of its order. -/
theorem sameOrder_change (hs : Sound env s) (hc : Change (autotrading settings env) s e s')
    {k : OrderId} {r : Order} (hr : s.state.orders.get? k = some r) :
    ∃ r', s'.state.orders.get? k = some r' ∧ SameOrder r r' := by
  rcases row_change hs hc hr with hkeep | ⟨i, t, u, hw⟩
  · exact ⟨r, hkeep, rfl, rfl, rfl, rfl, rfl⟩
  · refine ⟨_, hw.row, ?_⟩
    constructor
    all_goals simp

/-- What the histories say of the stores. -/
structure Booked (env : Env) (s : System) : Prop where
  sound : Sound env s
  drawn : Drawn s
  stored : Known (fun w _ (x : Entry) => ∀ os, x.2 = ⟨.insertOrders os, .ok ()⟩ → ∀ o ∈ os,
    ∃ r, w.orders.get? o.id = some r ∧ SameOrder o r) s
  sent : Known (fun w _ (x : Entry) => ∀ m d, x.2 = ⟨.enqueue m d, .ok ()⟩ → m ∈ w.sent) s
  ended : Known (fun w _ (x : Entry) => ∀ ids rows, x.2 = ⟨.ordersByIds ids, .ok rows⟩ →
    ∀ r ∈ rows, Terminal r.status → RowEnded r.id w) s
  found : Recorded (fun _ h (x : Entry) => ∀ ids rows, x.2 = ⟨.ordersByIds ids, .ok rows⟩ →
    ∀ n os, (n, ⟨.insertOrders os, .ok ()⟩) ∈ h → ∀ o ∈ os, o.id ∈ ids → ∃ r ∈ rows, r.id = o.id) s
  made : ∀ t ∈ s.tasks, ∀ rid, t.label.rebalanceId = some rid → ∀ r ∈ s.state.orders.rows,
    r.rebalanceId = some rid → r.orderKind ≠ .cancel → ∃ n os,
      (n, ⟨.insertOrders os, .ok ()⟩) ∈ t.history ∧ ∃ o ∈ os, o.id = r.id ∧ o.orderKind ≠ .cancel

theorem booked_start (w : World) : Booked env (start w) := by
  refine ⟨sound_start w, drawn_start w, ?_, ?_, ?_, ?_, ?_⟩
  all_goals
    intro t ht
    cases ht

/-- A row under a new id is one of the orders its task has just stored. -/
theorem new_row_stored (hs : Sound env s) (hc : Change (autotrading settings env) s e s')
    {k : OrderId} {r : Order} (hnone : s.state.orders.get? k = none)
    (hr : s'.state.orders.get? k = some r) :
    ∃ (i : ℕ) (t' : Task) (n : ℕ) (os : List Order) (o : Order), s'.tasks[i]? = some t' ∧
      (n, ⟨.insertOrders os, .ok ()⟩) ∈ t'.history ∧ o ∈ os ∧
      r = s.state.stamp env o ∧ (o.orderKind ≠ .cancel → o.rebalanceId = t'.label.rebalanceId) := by
  obtain ⟨i, t, os, o, hin⟩ := row_new hs hc hnone hr
  obtain ⟨kont, hp⟩ := hin.prog
  have he := hin.event
  have hlen := (List.getElem?_eq_some_iff.mp hin.task).1
  cases hc with
  | idle => exact absurd (hnone.symm.trans hr) (by simp)
  | launched l state hl => cases he
  | crashed j u hu => cases he
  | moved a => cases he
  | stepped j u o' k' hu hp' =>
    obtain rfl := Event.step.inj he
    obtain rfl := Option.some.inj (hin.task.symm.trans hu)
    obtain rfl : Op.insertOrders os = o' := (Prog.call.inj (hp.symm.trans hp')).1
    refine ⟨j, _, s.state.tick, os, o, List.getElem?_set_self hlen, ?_, hin.mem, hin.row,
      hin.insert.rebalance⟩
    rcases World.handle_insertOrders env s.state os with ⟨e', he'⟩ | ⟨rows, -, he'⟩
    · -- a refused insert leaves no row
      have hr' : (World.handle env (.insertOrders os) s.state).2.orders.get? k = some r := hr
      rw [he'] at hr'
      exact absurd (hnone.symm.trans hr') (by simp)
    · have hanswer : (World.handle env (.insertOrders os) s.state).1 = .ok () := by rw [he']
      refine List.mem_append_right _ (List.mem_singleton.mpr ?_)
      exact congrArg (fun x => (s.state.tick, (⟨.insertOrders os, x⟩ : (o : Op) × Except PyExc (Ans o))))
        hanswer.symm

theorem Booked.made_change (h : Booked env s) (hc : Change (autotrading settings env) s e s')
    {t' : Task} (ht' : t' ∈ s'.tasks) {rid : RebalanceId} (hl : t'.label.rebalanceId = some rid)
    {r' : Order} (hr' : r' ∈ s'.state.orders.rows) (hrid : r'.rebalanceId = some rid)
    (hkind : r'.orderKind ≠ .cancel) : ∃ n os, (n, ⟨.insertOrders os, .ok ()⟩) ∈ t'.history ∧
      ∃ o ∈ os, o.id = r'.id ∧ o.orderKind ≠ .cancel := by
  have hget := KeyedTable.get?_of_mem hr'
  obtain ⟨j, hj⟩ := List.getElem?_of_mem ht'
  cases hold : s.state.orders.get? r'.id with
  | some r =>
    obtain ⟨r₁, hr₁, hsame⟩ := sameOrder_change h.sound hc hold
    obtain rfl := Option.some.inj (hr₁.symm.trans hget)
    have hmem := (KeyedTable.get?_eq_some.mp hold).1
    have hrid' : r.rebalanceId = some rid := hsame.rebalanceId.symm.trans hrid
    rcases hc.label_at hj with ⟨t, ht, hlabel⟩ | ⟨-, hlaunch, -, -⟩
    · obtain ⟨n, os, hmade, o, ho, hid, hnew⟩ := h.made t (List.mem_of_getElem? ht) rid
        (by rw [hlabel, hl]) r hmem hrid' (by rw [← hsame.orderKind]; exact hkind)
      have hgrown := hc.history_at ht hj
      exact ⟨n, os, hgrown.subset hmade, o, ho, hid.trans hsame.id.symm, hnew⟩
    · exact absurd hrid' (launch_rebalance hlaunch hl r hmem)
  | none =>
    obtain ⟨i, t, n, os, o, hi, hmade, ho, hrow, hrebalance⟩ :=
      new_row_stored h.sound hc hold hget
    have hkind' : o.orderKind ≠ .cancel := by
      rw [hrow] at hkind
      exact hkind
    have hlabel : t.label.rebalanceId = some rid := by
      rw [← hrebalance hkind', ← hrid, hrow]
      rfl
    obtain rfl := (h.drawn.change hc).once i j t t' rid hi hj hlabel hl
    obtain rfl := Option.some.inj (hi.symm.trans hj)
    refine ⟨n, os, hmade, o, ho, ?_, hkind'⟩
    rw [hrow]
    rfl

theorem Booked.change (h : Booked env s) (hc : Change (autotrading settings env) s e s') :
    Booked env s' where
  sound := h.sound.change hc
  drawn := h.drawn.change hc
  stored := by
    refine h.stored.change hc (fun l x hx os hos o ho => ?_) fun i t o' k _ ht hp os hos o ho => ?_
    · obtain ⟨r, hr, hsame⟩ := hx os hos o ho
      obtain ⟨r', hr', hsame'⟩ := sameOrder_change h.sound hc hr
      exact ⟨r', hr', hsame.trans hsame'⟩
    · obtain ⟨rfl, hanswer⟩ := World.handle_of_entry hos
      exact ⟨_, (World.insertOrders_ok hanswer ho).2, rfl, rfl, rfl, rfl, rfl⟩
  sent := by
    refine h.sent.change hc (fun l x hx m d hsent => sent_mono hc (hx m d hsent)) ?_
    intro i t o' k _ ht hp m d hsent
    obtain ⟨rfl, hanswer⟩ := World.handle_of_entry hsent
    exact World.enqueue_ok hanswer
  ended := by
    refine h.ended.change hc
      (fun l x hx ids rows hrows r hr hend => (hx ids rows hrows r hr hend).change h.sound hc) ?_
    intro i t o' k _ ht hp ids rows hrows r hr hend
    obtain ⟨rfl, hanswer⟩ := World.handle_of_entry hrows
    rw [World.ordersByIds_ok hanswer] at hr
    have hget := KeyedTable.get?_of_mem (List.mem_filter.mp hr).1
    have hnow : RowEnded r.id s.state := ⟨r, hget, hend⟩
    exact hnow.change h.sound (Change.stepped (m := autotrading settings env) i t _ k ht hp)
  found := by
    refine h.found.change hc fun i t o' k _ ht hp ids rows hrows n os hmade o ho hid => ?_
    obtain ⟨rfl, hanswer⟩ := World.handle_of_entry hrows
    obtain ⟨r, hr, hsame⟩ := h.stored t (List.mem_of_getElem? ht) _ hmade os rfl o ho
    refine ⟨r, ?_, hsame.id⟩
    rw [World.ordersByIds_ok hanswer]
    refine List.mem_filter.mpr ⟨(KeyedTable.get?_eq_some.mp hr).1, ?_⟩
    rw [hsame.id]
    exact decide_eq_true hid
  made := fun t' ht' rid hl r' hr' hrid hkind => h.made_change hc ht' hl hr' hrid hkind

theorem booked_run (settings : Settings) (env : Env) (w : World) (es : List Event) :
    Booked env ((autotrading settings env).run (start w) es) :=
  run_invariant (fun _ _ _ h hc => h.change hc) es (booked_start w)

/-! ## Completion -/

/-- The call records the run COMPLETED or reports its success. -/
def completing : Op → Bool
  | .completeRebalance _ => true
  | .rebalanceAlert _ success _ => success
  | _ => false

/-- A cancel order for `quantity` of the order is stored and was sent to worker 1. -/
def CancelSent (w : World) (r : Order) (quantity : ℤ) : Prop :=
  ∃ c ∈ w.orders.rows, c.orderKind = .cancel ∧ c.originalOrderId = some r.id ∧
    c.orderQty = quantity ∧ .processOrder c.id ∈ w.sent

/-- The wait for the order, which began with it stored, lasted the timeout. The order was
read open after it, and if any quantity was open then, it is to be canceled. -/
def LeftOpen (g : OrderGenerator) (h : Calls) (w : World) (r : Order) : Prop :=
  ∃ h₀ h₁ n ids rows h₂, h = h₀ ++ h₁ ++ (n, ⟨.ordersByIds ids, .ok rows⟩) :: h₂ ∧
    (∃ m os, (m, ⟨.insertOrders os, .ok ()⟩) ∈ h₀ ∧ ∃ o ∈ os, o.id = r.id) ∧ r.id ∈ ids ∧
    OrderGenerator.Elapsed g h₁ ∧ ∃ r₀ ∈ rows, r₀.id = r.id ∧
      r₀.status ∉ OrderGenerator.terminalStatuses ∧
      (OrderGenerator.openQuantity r₀ ≤ 0 ∨ CancelSent w r (OrderGenerator.openQuantity r₀))

theorem terminal_of_generator {status : OrderStatus}
    (h : status ∈ OrderGenerator.terminalStatuses) : Terminal status := by
  revert h
  cases status <;> decide

/-- What the wait has asked for is in the stores. -/
theorem Booked.cancelSent (h : Booked env s) {t : Task} (ht : t ∈ s.tasks) {r r₀ : Order}
    (hid : r₀.id = r.id) (hc : OrderGenerator.CancelRequested t.history r₀) :
    CancelSent s.state r (OrderGenerator.openQuantity r₀) := by
  obtain ⟨c, os, ⟨id, hcancel, m, hqueued⟩, ⟨n, hstored⟩, hmem⟩ := hc
  obtain ⟨r', hr', hsame⟩ := h.stored t ht _ hstored os rfl c hmem
  have hsent := h.sent t ht _ hqueued (.processOrder id) 0 rfl
  have hkind := hsame.orderKind
  have horiginal := hsame.originalOrderId
  have hquantity := hsame.orderQty
  have hcid := hsame.id
  rw [hcancel] at hkind horiginal hquantity hcid
  refine ⟨r', (KeyedTable.get?_eq_some.mp hr').1, hkind, ?_, hquantity, ?_⟩
  · rw [horiginal, ← hid]
    rfl
  · rw [hcid]
    exact hsent

/-- An order whose wait is over has ended or is left open. -/
theorem Booked.awaited (h : Booked env s) {t : Task} (ht : t ∈ s.tasks) {g : OrderGenerator}
    {r : Order} (hr : r ∈ s.state.orders.rows) (ha : OrderGenerator.Awaited g t.history r.id) :
    Terminal r.status ∨ LeftOpen g t.history s.state r := by
  obtain ⟨h₀, ids, m, os, hmade, ⟨o, ho, hid⟩, hmem, h₁, n, rows, h₂, hsplit, hrows⟩ := ha
  have hlook := h.found t ht (h₀ ++ h₁) _ h₂ hsplit ids rows rfl m os
    (List.mem_append_left _ hmade) o ho (by rw [hid]; exact hmem)
  obtain ⟨r₀, hr₀, hid₀⟩ := hlook
  have hsame : r₀.id = r.id := hid₀.trans hid
  by_cases hend : r₀.status ∈ OrderGenerator.terminalStatuses
  · left
    have hentry : (n, ⟨.ordersByIds ids, .ok rows⟩) ∈ t.history := by
      rw [hsplit]
      simp
    obtain ⟨r', hr', hended⟩ := h.ended t ht _ hentry ids rows rfl r₀ hr₀ (terminal_of_generator hend)
    rw [hsame, KeyedTable.get?_of_mem hr] at hr'
    obtain rfl := Option.some.inj hr'
    exact hended
  · right
    have hnow := (hrows r₀ hr₀).resolve_left hend
    refine ⟨h₀, h₁, n, ids, rows, h₂, hsplit, ⟨m, os, hmade, o, ho, hid⟩, hmem, hnow.1, r₀, hr₀,
      hsame, hend, ?_⟩
    exact hnow.2.imp id fun hcancel => h.cancelSent ht hsame hcancel

/-- A call that completes a run changes no order. -/
theorem orders_completing {o : Op} (ho : completing o = true) :
    (World.handle env o w).2.orders = w.orders ∧ (World.handle env o w).2.sent = w.sent := by
  constructor
  · refine World.orders_handle (fun u hu => ?_) fun os hos => ?_
    · rw [hu] at ho
      cases ho
    · rw [hos] at ho
      cases ho
  · refine World.sent_handle fun m d hm => ?_
    rw [hm] at ho
    cases ho

/-- When a run is recorded COMPLETED, or reported to have succeeded, each of its sells and
buys has ended, or was left open by a wait that lasted the timeout. -/
theorem completed_orders_awaited (settings : Settings) (env : Env) (w : World) (es : List Event)
    (i : ℕ) (t : Task) (x : RebalanceRun)
    (ht : ((autotrading settings env).run (start w) es).tasks[i]? = some t)
    (hx : t.label.rebalanceRun = some x) (o : Op) (k : Except PyExc (Ans o) → Program Unit)
    (hp : t.prog = .call o k) (ho : completing o = true) :
    ∀ r ∈ ((autotrading settings env).run (start w) (es ++ [.step i])).state.orders.rows,
      r.rebalanceId = some x.rebalanceId → r.orderKind ≠ .cancel →
      Terminal r.status ∨ LeftOpen x.executor.orderGenerator t.history
        ((autotrading settings env).run (start w) (es ++ [.step i])).state r := by
  have hbooked := booked_run settings env w es
  have hkept := kept_run (m := autotrading settings env) program_conclusive w es
  revert hbooked hkept ht
  rw [run_append]
  generalize (autotrading settings env).run (start w) es = s
  intro ht hbooked hkept
  have hmem := List.mem_of_getElem? ht
  have hstate : ((autotrading settings env).run s [.step i]).state = (World.handle env o s.state).2 := by
    simp only [run_cons, run_nil, next, ht, hp]
    rfl
  rw [hstate, (orders_completing ho).1]
  intro r hr hrid hkind
  have hconcluded := hkept.obeys.call ht hp x hx
  have hnone : OrderGenerator.Outstanding x.executor.orderGenerator [] t.history := by
    cases o
    case completeRebalance rid => exact hconcluded
    case rebalanceAlert rid success msg => exact hconcluded ho
    all_goals cases ho
  obtain ⟨n, os, hmade, o', ho', hid, hnew⟩ :=
    hbooked.made t hmem x.rebalanceId (rebalanceId_of_run hx) r hr hrid hkind
  have hawaited := (hnone n os hmade o' ho' hnew).resolve_right (by simp)
  rw [hid] at hawaited
  have hend := hbooked.awaited hmem hr hawaited
  unfold LeftOpen CancelSent
  rw [(orders_completing ho).1, (orders_completing ho).2]
  exact hend

/-! ## A run that times out -/

/-- Surroundings with 1000 in cash, where five minutes pass from call to call. -/
def Env.slow : Env :=
  { Env.quiet with now := fun n => n * 300000000, availableBuy := fun _ => 1000 }

/-- A manual run that is to buy one stock, up to the record of its end. -/
def slowRun : List Event :=
  .launch (.runRebalance (.sample 1 [("005930", 100)])) :: List.replicate 17 (.step 0)

/-- The task is about to record rebalance 1 COMPLETED. -/
def recordsEnd (t : Task) : Bool :=
  match t.prog with
  | .call (.completeRebalance rid) _ => rid = 1
  | _ => false

theorem completed_orders_awaited_sample :
    ∃ t ∈ ((autotrading .sample .slow).run (start (.holding [] [])) slowRun).tasks,
      ∃ x, t.label.rebalanceRun = some x ∧ recordsEnd t = true ∧
        ∀ r ∈ ((autotrading .sample .slow).run (start (.holding [] []))
          (slowRun ++ [.step 0])).state.orders.rows, r.rebalanceId = some 1 → r.orderKind ≠ .cancel →
          Terminal r.status ∨ LeftOpen x.executor.orderGenerator t.history
            ((autotrading .sample .slow).run (start (.holding [] [])) (slowRun ++ [.step 0])).state r := by
  have hends : (((autotrading .sample .slow).run (start (.holding [] []))
      slowRun).tasks[0]?.any fun t => recordsEnd t &&
        t.label.rebalanceRun.any fun x => x.rebalanceId = 1) = true := by decide +kernel
  obtain ⟨t, ht, htask⟩ := (Option.any_eq_true _ _).mp hends
  rw [Bool.and_eq_true] at htask
  obtain ⟨x, hx, hrun⟩ := (Option.any_eq_true _ _).mp htask.2
  rw [decide_eq_true_eq] at hrun
  refine ⟨t, List.mem_of_getElem? ht, x, hx, htask.1, ?_⟩
  have hrecords := htask.1
  unfold recordsEnd at hrecords
  split at hrecords
  · next rid k hp =>
    have hawaited := completed_orders_awaited .sample .slow (.holding [] []) slowRun 0 t x ht hx
      (.completeRebalance rid) k hp rfl
    rw [hrun] at hawaited
    exact hawaited
  · cases hrecords

/-- The buy order is pending when the run is recorded COMPLETED and its success reported. -/
theorem completed_with_pending_order :
    ((autotrading .sample .slow).run (start (.holding [] [])) slowRun).tasks[0]?.any recordsEnd =
      true ∧
    ((autotrading .sample .slow).run (start (.holding [] []))
      (slowRun ++ [.step 0, .step 0])).state.records.map (fun r => (r.id, r.status)) =
        [(1, .completed)] ∧
    (((autotrading .sample .slow).run (start (.holding [] []))
      (slowRun ++ [.step 0, .step 0])).tasks[0]?.any fun t => t.history.any fun
        | (_, ⟨.rebalanceAlert 1 true _, _⟩) => true
        | _ => false) = true ∧
    ((autotrading .sample .slow).run (start (.holding [] []))
      (slowRun ++ [.step 0, .step 0])).state.orders.rows.map
        (fun r => (r.rebalanceId, r.orderKind, r.status)) =
      [(some 1, .new, .pending), (some 1, .cancel, .pending)] := by
  refine ⟨?_, ?_, ?_, ?_⟩
  all_goals decide +kernel

end Autotrading
