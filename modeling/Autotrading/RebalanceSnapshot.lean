import Autotrading.EndedOrders

/-!
# Snapshots of a rebalance

When an order of a rebalance ends, its cycle looks at the orders of the rebalance and
queues a capture if all have ended. It sees the orders stored so far: between the end
of the sells and the first buy that is all of them, and the snapshot is taken early
and never again. It is taken in time as long as no cycle that finds them all ended
looks while the rebalance has orders left to store.
-/
namespace Autotrading

open Machine Prog OrderState OrderRepository
open Machine.Sys (start)

variable {settings : Settings} {env : Env} {s s' : System} {e : Event} {w : World}
  {rid : RebalanceId}

/-- The call stores no orders but cancel orders. -/
def StoresNoOrder : Op → Prop
  | .insertOrders os => ∀ o ∈ os, o.orderKind = .cancel
  | _ => True

/-- Whatever the task is told from here on, it stores no further sell or buy order. -/
def Finished (t : Task) : Prop := Safe (fun _ o => StoresNoOrder o) t.history t.prog

/-- All sell and buy orders of the rebalance are stored and have ended. -/
structure Complete (s : System) (rid : RebalanceId) : Prop where
  inserted : ∀ t ∈ s.tasks, t.label.rebalanceId = some rid → Finished t
  ended : ∀ r ∈ s.state.orders.rows, r.rebalanceId = some rid → r.orderKind ≠ .cancel →
    Terminal r.status

/-- A capture is queued, and a snapshot stored, for complete rebalances only. -/
structure CapturesComplete (s : System) (rid : RebalanceId) : Prop where
  queued : .captureRebalanceSnapshot rid ∈ s.state.sent → Complete s rid
  stored : ∀ p ∈ s.state.snapshots.rows, p.rebalanceId = some rid → Complete s rid

/-- The next call of the program looks at the orders of the rebalance. -/
def looksAt (rid : RebalanceId) : Program Unit → Bool
  | .call (.ordersByRebalanceId k) _ => k = rid
  | _ => false

/-- A cycle looks at the orders of the rebalance, which have all ended, while `p` holds of
a task of the rebalance. -/
def LooksWhile (p : Task → Prop) (rid : RebalanceId) (s : System) : Event → Prop
  | .step i => s.tasks[i]?.any (fun t => looksAt rid t.prog) = true ∧
      (∃ r ∈ s.state.orders.rows, r.rebalanceId = some rid) ∧
      (∀ r ∈ s.state.orders.rows, r.rebalanceId = some rid → Terminal r.status) ∧
      ∃ t ∈ s.tasks, t.label.rebalanceId = some rid ∧ p t
  | _ => False

/-- It looks while the rebalance has orders left to store. -/
def LooksEarly : RebalanceId → System → Event → Prop := LooksWhile fun t => ¬ Finished t

/-! ## A complete rebalance stays complete -/

/-- A rebalance that is complete and has an order: its id is not used again. -/
structure Settled (s : System) (rid : RebalanceId) : Prop extends Complete s rid where
  used : ∃ r ∈ s.state.orders.rows, r.rebalanceId = some rid

theorem Settled.change (h : Settled s rid) (hs : Sound env s)
    (hc : Change (autotrading settings env) s e s') : Settled s' rid where
  inserted := by
    intro t' ht' hl
    cases hc with
    | idle => exact h.inserted t' ht' hl
    | launched l state hlaunch =>
      rcases List.mem_append.mp ht' with ht' | ht'
      · exact h.inserted t' ht' hl
      · obtain rfl := List.mem_singleton.mp ht'
        obtain ⟨r, hr, hrid⟩ := h.used
        exact absurd hrid (launch_rebalance hlaunch hl r hr)
    | stepped i t o k ht hp =>
      rcases List.mem_or_eq_of_mem_set ht' with ht' | rfl
      · exact h.inserted t' ht' hl
      · have hfinished := h.inserted t (List.mem_of_getElem? ht) hl
        rw [Finished, hp, Safe, along_call] at hfinished
        exact hfinished.2 _ _
    | crashed i t ht =>
      rcases List.mem_or_eq_of_mem_set ht' with ht' | rfl
      · exact h.inserted t' ht' hl
      · exact safe_ret ()
    | moved a => exact h.inserted t' ht' hl
  ended := by
    intro r' hr' hrid hkind
    have hget := KeyedTable.get?_of_mem hr'
    cases hold : s.state.orders.get? r'.id with
    | none =>
      obtain ⟨i, t, os, o, hin⟩ := row_new hs hc hold hget
      have ht := List.mem_of_getElem? hin.task
      obtain ⟨kont, hp⟩ := hin.prog
      have hrow : r'.rebalanceId = o.rebalanceId ∧ r'.orderKind = o.orderKind := by
        rw [hin.row]
        exact ⟨rfl, rfl⟩
      rw [hrow.2] at hkind
      -- only a task of the rebalance stores such an order, and it stores no more
      have hlabel : t.label.rebalanceId = some rid := by
        rw [← hin.insert.rebalance hkind, ← hrow.1, hrid]
      have hfinished := h.inserted t ht hlabel
      rw [Finished, hp, Safe, along_call] at hfinished
      exact absurd (hfinished.1 o hin.mem) hkind
    | some r =>
      rcases row_change hs hc hold with hkeep | ⟨i, t, u, hw⟩
      · obtain rfl := Option.some.inj (hkeep.symm.trans hget)
        exact h.ended r (KeyedTable.get?_eq_some.mp hold).1 hrid hkind
      · obtain rfl := Option.some.inj (hw.row.symm.trans hget)
        rw [SetClause.apply_rebalanceId] at hrid
        rw [SetClause.apply_orderKind] at hkind
        have hend := h.ended r (KeyedTable.get?_eq_some.mp hold).1 hrid hkind
        have hfalse := hw.write.guarded.not_selects hend
        rw [hw.selects] at hfalse
        cases hfalse
  used := by
    obtain ⟨r, hr, hrid⟩ := h.used
    have hget := KeyedTable.get?_of_mem hr
    rcases row_change hs hc hget with hkeep | ⟨i, t, u, hw⟩
    · exact ⟨r, (KeyedTable.get?_eq_some.mp hkeep).1, hrid⟩
    · refine ⟨_, (KeyedTable.get?_eq_some.mp hw.row).1, ?_⟩
      rw [SetClause.apply_rebalanceId, hrid]

/-! ## Runs -/

/-- A run in which no cycle has looked early, so far. -/
structure InTime (env : Env) (rid : RebalanceId) (s : System) : Prop where
  sound : Sound env s
  delivered : Delivered s
  witnessed : Witnessed s
  looked : ∀ t ∈ s.tasks, ∀ h₁ n rows h₂,
    t.history = h₁ ++ (n, ⟨.ordersByRebalanceId rid, .ok rows⟩) :: h₂ → rows ≠ [] →
    (∀ r ∈ rows, Terminal r.status ∨ EndSeen h₁ r.id) → Settled s rid
  queued : .captureRebalanceSnapshot rid ∈ s.state.sent → Settled s rid
  stored : ∀ p ∈ s.state.snapshots.rows, p.rebalanceId = some rid → Settled s rid

/-- Rows that a cycle finds ended, as it looks at them now. -/
theorem InTime.settled (h : InTime env rid s) (hsafe : ¬ LooksEarly rid s e) {i : ℕ} {t : Task}
    {k} (he : e = .step i) (hi : s.tasks[i]? = some t)
    (hp : t.prog = .call (.ordersByRebalanceId rid) k) {rows : List Order}
    (hread : (World.handle env (.ordersByRebalanceId rid) s.state).1 = .ok rows)
    (hsome : rows ≠ []) (hended : ∀ r ∈ rows, Terminal r.status ∨ EndSeen t.history r.id) :
    Settled s rid := by
  have hrows := World.ordersByRebalanceId_ok hread
  have hall : ∀ r ∈ s.state.orders.rows, r.rebalanceId = some rid → Terminal r.status := by
    intro r hr hrid
    have hmem : r ∈ rows := by
      rw [hrows, List.mem_filter]
      exact ⟨hr, decide_eq_true hrid⟩
    rcases hended r hmem with hend | hseen
    · exact hend
    · obtain ⟨r', hr', hend⟩ := h.witnessed.endSeen (List.mem_of_getElem? hi) hseen
      obtain rfl := Option.some.inj ((KeyedTable.get?_of_mem hr).symm.trans hr')
      exact hend
  have hused : ∃ r ∈ s.state.orders.rows, r.rebalanceId = some rid := by
    obtain ⟨r, hr⟩ := List.exists_mem_of_ne_nil rows hsome
    rw [hrows, List.mem_filter] at hr
    exact ⟨r, hr.1, of_decide_eq_true hr.2⟩
  refine ⟨⟨fun t' ht' hl => ?_, fun r hr hrid _ => hall r hr hrid⟩, hused⟩
  by_contra hleft
  rw [he] at hsafe
  exact hsafe ⟨by simp [hi, hp, looksAt], hused, hall, t', ht', hl, hleft⟩

theorem InTime.change (h : InTime env rid s) (hsafe : ¬ LooksEarly rid s e)
    (hc : Change (autotrading settings env) s e s') : InTime env rid s' where
  sound := h.sound.change hc
  delivered := h.delivered.change hc
  witnessed := h.witnessed.change h.sound hc
  looked := by
    intro t' ht' h₁ n rows h₂ hh hsome hended
    suffices hsettled : Settled s rid from hsettled.change h.sound hc
    rcases hc.split ht' hh with ⟨t, ht, -, h₃, hh⟩ | ⟨i, t, o, k, he, hi, -, hp, -, hx, rfl⟩
    · exact h.looked t ht h₁ n rows h₃ hh hsome hended
    · obtain rfl : o = .ordersByRebalanceId rid := (congrArg (fun x : Entry => x.2.1) hx).symm
      have hread : (World.handle env (.ordersByRebalanceId rid) s.state).1 = .ok rows := by
        have hpair := congrArg Prod.snd hx
        exact (eq_of_heq (Sigma.mk.inj hpair).2).symm
      exact h.settled hsafe he hi hp hread hsome hended
  queued := by
    intro hm
    suffices hsettled : Settled s rid from hsettled.change h.sound hc
    rcases sent_change h.sound hc hm with hold | ⟨i, t, n, k, -, hi, -, hsend⟩
    · exact h.queued hold
    · generalize t.label = l at hsend
      cases hsend with
      | capture history some ended =>
        exact h.looked t (List.mem_of_getElem? hi) _ _ _ _ history some ended
  stored := by
    intro p hp hrid
    suffices hsettled : Settled s rid from hsettled.change h.sound hc
    cases hc with
    | idle => exact h.stored p hp hrid
    | launched l state hl =>
      rw [(launch_stores hl).2.1] at hp
      exact h.stored p hp hrid
    | stepped i t o k hi hprog =>
      rcases World.mem_snapshots_handle hp with hold | rfl
      · exact h.stored p hold hrid
      · -- the capture task was started by its message
        obtain ⟨rid', hl, hrid'⟩ := h.sound.obeys.call hi hprog
        obtain rfl : rid = rid' := Option.some.inj (hrid.symm.trans hrid')
        refine h.queued (h.delivered.started t (List.mem_of_getElem? hi) _ ?_)
        rw [hl]
        rfl
    | crashed i t ht => exact h.stored p hp hrid
    | moved a =>
      have hp' : p ∈ (World.ambient a s.state).snapshots.rows := hp
      rw [(ambient_stores a s.state).2.1] at hp'
      exact h.stored p hp' hrid

/-- In every run in which no cycle looks early, captures are queued and the snapshot is
stored only when all sell and buy orders of the rebalance are stored and have ended. -/
theorem captures_complete (settings : Settings) (env : Env) {w : World} {rid : RebalanceId}
    (hqueue : ∀ m ∈ w.queue, m ∈ w.sent) (hsent : .captureRebalanceSnapshot rid ∉ w.sent)
    (hstored : ∀ p ∈ w.snapshots.rows, p.rebalanceId ≠ some rid) (es : List Event)
    (hes : Meets (autotrading settings env) (fun s e => ¬ LooksEarly rid s e) (start w) es) :
    CapturesComplete ((autotrading settings env).run (start w) es) rid := by
  have hstart : InTime env rid (start w) := by
    refine ⟨sound_start w, delivered_start hqueue, witnessed_start w, ?_, ?_, ?_⟩
    · intro t ht
      cases ht
    · intro hm
      exact absurd hm hsent
    · intro p hp hrid
      exact absurd hrid (hstored p hp)
  have hstep : ∀ s e s', InTime env rid s → ¬ LooksEarly rid s e →
      Change (autotrading settings env) s e s' → InTime env rid s' :=
    fun s e s' h hsafe hc => h.change hsafe hc
  have hrun := hes.invariant hstep hstart
  exact ⟨fun hm => (hrun.queued hm).toComplete, fun p hp hrid => (hrun.stored p hp hrid).toComplete⟩

/-! ## A sell and a buy order -/

instance {p : Task → Prop} [DecidablePred p] : ∀ e, Decidable (LooksWhile p rid s e)
  | .step _ => inferInstanceAs (Decidable (_ ∧ (∃ r ∈ s.state.orders.rows, _) ∧
      (∀ r ∈ s.state.orders.rows, _ → _) ∧ ∃ t ∈ s.tasks, _ ∧ p t))
  | .launch _ => inferInstanceAs (Decidable False)
  | .crash _ => inferInstanceAs (Decidable False)
  | .ambient _ => inferInstanceAs (Decidable False)

/-- The task has calls left to make. -/
def running (t : Task) : Bool :=
  match t.prog with
  | .call .. => true
  | _ => false

theorem finished_of_not_running {t : Task} (ht : running t = false) : Finished t := by
  unfold Finished
  cases hp : t.prog with
  | ret a => exact safe_ret a
  | raise e => exact safe_raise e
  | call o k => simp [running, hp] at ht

theorem LooksEarly.running (h : LooksEarly rid s e) :
    LooksWhile (fun t => running t = true) rid s e := by
  cases e with
  | step i =>
    obtain ⟨hlooks, hused, hall, t, ht, hl, hleft⟩ := h
    refine ⟨hlooks, hused, hall, t, ht, hl, ?_⟩
    by_contra hend
    exact hleft (finished_of_not_running (Bool.eq_false_iff.mpr hend))
  | launch l => exact h
  | crash i => exact h
  | ambient a => exact h

/-- A rebalance of one sell order, which gets the id 0, and one buy order, the id 1. -/
def sellAndBuy : Label :=
  .rebalance { orderType := .limit, accountNo := "12345678", accountProductCode := "01"
               dryRun := false, fillTimeoutSeconds := 300 }
    { rebalanceId := 1
      diff := { sellList := [⟨"005930", 100, 1000, 10⟩], buyList := [⟨"000660", 100, 0, 10⟩]
                holdList := [] }
      hasAccountService := false, buyCodes := [], priceMap := [], polls := 3 }

/-- The broker accepts every order and fills it at once. -/
def Env.accepting : Env :=
  { Env.quiet with
    post := fun _ _ => ⟨true, .response 200 (.object ⟨.text "0", .text "OK", .text "",
      .object ⟨"91252", "7", "090000"⟩, ""⟩) ""⟩
    get := fun _ _ => ExecutionAnswer.ofRows [⟨"91252", "7", "10", "0", "0", "0", "100", "10"⟩] }

/-- An order is submitted by the `i`-th task and filled by the next one, which is then in
front of its look at the rebalance. -/
def submitAndFill (id : OrderId) (i : ℕ) : List Event :=
  .launch (.processOrder id) :: List.replicate 7 (.step i) ++
    .launch (.processOrderStatus (some id) 0 none) :: List.replicate 9 (.step (i + 1))

/-- The sell order is stored, submitted and filled. -/
def sellFilled : List Event :=
  .launch sellAndBuy :: List.replicate 5 (.step 0) ++ submitAndFill 0 1

/-- The cycle of the sell order looks at once; the buy order is stored afterwards. -/
theorem captured_before_buys :
    ¬ CapturesComplete ((autotrading .sample .accepting).run (start (.holding [] []))
      (sellFilled ++ [.step 2, .step 2, .step 0, .step 0, .step 0])) 1 := by
  intro h
  have hended := (h.queued (by decide +kernel)).ended
  revert hended
  decide +kernel

/-- The rebalance stores the buy order before the cycle of the sell order looks, and has
seen it filled before the cycle of the buy order looks: the snapshot is taken then. -/
def snapshotInTime : List Event :=
  sellFilled ++ List.replicate 5 (.step 0) ++ .step 2 :: submitAndFill 1 3 ++
    .step 0 :: .step 0 :: .step 4 :: .step 4 :: .launch (.captureRebalanceSnapshot 1) ::
      List.replicate 5 (.step 5)

theorem captures_complete_sample :
    CapturesComplete ((autotrading .sample .accepting).run (start (.holding [] []))
      snapshotInTime) 1 := by
  refine captures_complete _ _ (by decide) (by decide) (by decide) _ ?_
  have hrunning : Meets (autotrading .sample .accepting)
      (fun s e => ¬ LooksWhile (fun t => running t = true) 1 s e) (start (.holding [] []))
      snapshotInTime := by decide +kernel
  have hstep : ∀ s e, True → ¬ LooksWhile (fun t => running t = true) 1 s e →
      ¬ LooksEarly 1 s e ∧ True := fun s e _ h => ⟨fun hearly => h hearly.running, trivial⟩
  exact hrunning.implies hstep trivial

end Autotrading
