import Autotrading.CompletedRebalances
import Autotrading.RebalanceLooks

/-!
# Rebalances whose snapshot is forgotten

When the last order of a rebalance ends, the cycle that ended it owes the capture: it looks
once more, finds all orders ended and queues one. The last order can also be stored FAILED, by
worker 1 or by worker 2, and then nobody looks; the cycle can raise before it looks; and an order
that it has read before it timed out looks open to it.
-/
namespace Autotrading

open Machine Prog OrderState OrderRepository ProcessOrderStatus
open Machine.Sys (start)

variable {settings : Settings} {env : Env} {s s' : System} {e : Event} {w : World}
  {rid : RebalanceId} {k : OrderId} {t : Task}

/-- The rebalance has orders, and they have all ended. -/
def AllEnded (rid : RebalanceId) (w : World) : Prop :=
  (∃ r ∈ w.orders.rows, r.rebalanceId = some rid) ∧
    ∀ r ∈ w.orders.rows, r.rebalanceId = some rid → Terminal r.status

instance (rid : RebalanceId) (w : World) : Decidable (AllEnded rid w) :=
  inferInstanceAs (Decidable (_ ∧ _))

/-- The stored order is of the rebalance. -/
def isOf (rid : RebalanceId) (w : World) (id : OrderId) : Bool :=
  (w.orders.get? id).any fun r => r.rebalanceId = some rid

def isCrash : Event → Bool
  | .crash _ => true
  | _ => false

/-- How often the capture was queued. -/
def capturesSent (rid : RebalanceId) (w : World) : ℕ := w.sent.count (.captureRebalanceSnapshot rid)

/-- From some point of the run on all orders had ended, and the capture was queued after it. -/
def CapturedSince (settings : Settings) (env : Env) (w : World) (rid : RebalanceId)
    (es : List Event) : Prop :=
  ∃ es₁ es₂, es = es₁ ++ es₂ ∧
    (∀ es₃, es₃ <+: es₂ →
      AllEnded rid ((autotrading settings env).run (start w) (es₁ ++ es₃)).state) ∧
    capturesSent rid ((autotrading settings env).run (start w) es₁).state <
      capturesSent rid ((autotrading settings env).run (start w) es).state

/-- When nothing is queued or running any more and all orders of the rebalance have ended, the
capture was queued after the last one ended. -/
def SnapshotRemembered (settings : Settings) (env : Env) (w : World) (rid : RebalanceId)
    (es : List Event) : Prop :=
  AllEnded rid ((autotrading settings env).run (start w) es).state →
    ((autotrading settings env).run (start w) es).state.queue = [] →
    (∀ t ∈ ((autotrading settings env).run (start w) es).tasks, t.prog.isEnded = true) →
    CapturedSince settings env w rid es

/-! ## What forgets a snapshot -/

/-- The cycle read an order of the rebalance other than its own while that was open. -/
def readsOpen (rid : RebalanceId) (w : World) (l : Label) : Entry → Bool
  | (_, ⟨.selectOrder _, .ok (some o)⟩) =>
    l.tracks ≠ some o.id && decide (¬ Terminal o.status) && isOf rid w o.id
  | _ => false

/-- The call stored the end of an order of the rebalance. -/
def endOf (rid : RebalanceId) (w : World) : Entry → Bool
  | (_, ⟨.updateOrder u, .ok true⟩) => decide (Terminal u.set.nextStatus) && isOf rid w u.id
  | _ => false

/-- No order of the rebalance ended after one that the task ended. -/
def endedLast (rid : RebalanceId) (s : System) (t : Task) : Bool :=
  t.history.any fun x => endOf rid s.state x &&
    s.tasks.all fun t' => t'.history.all fun y => !endOf rid s.state y || decide (y.1 ≤ x.1)

/-- The last open order of the rebalance ends by a statement that stores no tracking result, or by
a cycle that has read another one while it was open; or the cycle that ended the last order
raises. -/
def forgets (env : Env) (rid : RebalanceId) (s : System) : Event → Bool
  | .step i => s.tasks[i]?.any fun t =>
    match t.prog with
    | .call o _ =>
      let x : Entry := (s.state.tick, ⟨o, (World.handle env o s.state).1⟩)
      let last := decide (¬ AllEnded rid s.state)
      decide (AllEnded rid (World.handle env o s.state).2) &&
        (last && (!endsOrder x || t.history.any (readsOpen rid s.state t.label)) ||
          (last || endedLast rid s t) && trackingRaises t.label (t.history ++ [x]))
    | _ => false
  | _ => false

/-! ## Rows of a rebalance -/

theorem isOf_iff {id : OrderId} :
    isOf rid w id = true ↔ ∃ r, w.orders.get? id = some r ∧ r.rebalanceId = some rid := by
  simp [isOf, Option.any_eq_true]

theorem AllEnded.terminal {r : Order} (h : AllEnded rid w) (hr : w.orders.get? k = some r)
    (hrid : r.rebalanceId = some rid) : Terminal r.status :=
  h.2 r (KeyedTable.get?_eq_some.mp hr).1 hrid

theorem isOf_change (hs : Sound env s) (hc : Change (autotrading settings env) s e s')
    (hk : isOf rid s.state k = true) : isOf rid s'.state k = true := by
  rw [isOf_iff] at hk ⊢
  obtain ⟨r, hr, hrid⟩ := hk
  obtain ⟨r', hr', hsame⟩ := sameOrder_change hs hc hr
  exact ⟨r', hr', hsame.rebalanceId.trans hrid⟩

/-- A rebalance whose orders have all ended has just got no new one. -/
theorem isOf_before (hs : Sound env s) (hc : Change (autotrading settings env) s e s')
    (hend : AllEnded rid s'.state) (hk : isOf rid s'.state k = true) :
    isOf rid s.state k = true := by
  rw [isOf_iff] at hk ⊢
  obtain ⟨r', hr', hrid⟩ := hk
  cases hr : s.state.orders.get? k with
  | none =>
    obtain ⟨i, t, os, o, hins⟩ := row_new hs hc hr hr'
    have hlive : r'.status = .pending := by
      rw [hins.row]
      exact hins.insert.pending
    have hterminal := hend.terminal hr' hrid
    rw [hlive] at hterminal
    exact absurd hterminal (by decide)
  | some r =>
    obtain ⟨r₁, hr₁, hsame⟩ := sameOrder_change hs hc hr
    obtain rfl := Option.some.inj (hr'.symm.trans hr₁)
    exact ⟨r, rfl, hsame.rebalanceId.symm.trans hrid⟩

/-- The event after which all orders of a rebalance have ended is a statement that ends the last
open one. -/
theorem last_order_ends (hs : Sound env s) (hc : Change (autotrading settings env) s e s')
    (hnot : ¬ AllEnded rid s.state) (hend : AllEnded rid s'.state) :
    ∃ r i t u, Written s s' e r.id r i t u ∧ r.rebalanceId = some rid ∧
      Terminal u.set.nextStatus := by
  have hsome : ∃ r ∈ s.state.orders.rows, r.rebalanceId = some rid := by
    obtain ⟨r', hr', hrid⟩ := hend.1
    have hk := isOf_before hs hc hend (isOf_iff.mpr ⟨r', KeyedTable.get?_of_mem hr', hrid⟩)
    obtain ⟨r, hr, hrid⟩ := isOf_iff.mp hk
    exact ⟨r, (KeyedTable.get?_eq_some.mp hr).1, hrid⟩
  have hopen : ∃ r ∈ s.state.orders.rows, r.rebalanceId = some rid ∧ ¬ Terminal r.status := by
    by_contra hall
    push Not at hall
    exact hnot ⟨hsome, hall⟩
  obtain ⟨r, hr, hrid, hlive⟩ := hopen
  rcases row_change hs hc (KeyedTable.get?_of_mem hr) with hkeep | ⟨i, t, u, hw⟩
  · exact absurd (hend.terminal hkeep hrid) hlive
  · refine ⟨r, i, t, u, hw, hrid, ?_⟩
    have hterminal := hend.terminal hw.row (by simpa using hrid)
    rwa [SetClause.apply_status] at hterminal

/-! ## Captures queued -/

/-- A call adds its message to those sent, or nothing. -/
theorem sent_handle_eq (env : Env) (w : World) (o : Op) :
    (World.handle env o w).2.sent = w.sent ∨
      ∃ m d, o = .enqueue m d ∧ (World.handle env o w).2.sent = w.sent ++ [m] := by
  by_cases he : ∃ m d, o = .enqueue m d
  · obtain ⟨m, d, rfl⟩ := he
    rcases World.handle_cases env w (.enqueue m d) with ⟨e, hr⟩ | hr
    · exact .inl (by rw [hr]; rfl)
    · exact .inr ⟨m, d, rfl, by rw [hr]; rfl⟩
  · exact .inl (World.sent_handle fun m d h => he ⟨m, d, h⟩)

theorem capturesSent_handle (env : Env) (w : World) (o : Op) :
    capturesSent rid w ≤ capturesSent rid (World.handle env o w).2 := by
  unfold capturesSent
  rcases sent_handle_eq env w o with hsame | ⟨m, d, -, hmore⟩
  · rw [hsame]
  · rw [hmore, List.count_append]
    exact Nat.le_add_right _ _

/-- A capture that was queued counts. -/
theorem capturesSent_lt {o : Op} {n : ℕ}
    (hcaptures : captures rid (n, ⟨o, (World.handle env o w).1⟩) = true) :
    capturesSent rid w < capturesSent rid (World.handle env o w).2 := by
  unfold captures at hcaptures
  split at hcaptures
  · next n' k d a heq =>
    obtain rfl : k = rid := by simpa using hcaptures
    obtain rfl : o = .enqueue (.captureRebalanceSnapshot k) d :=
      congrArg (fun x : Entry => x.2.1) heq
    have hok : (World.handle env (.enqueue (.captureRebalanceSnapshot k) d) w).1 = .ok a := by
      have hpair := congrArg Prod.snd heq
      exact eq_of_heq (Sigma.mk.inj hpair).2
    rcases World.handle_cases env w (.enqueue (.captureRebalanceSnapshot k) d) with ⟨e, hr⟩ | hr
    · rw [hr] at hok
      cases hok
    · have hsent : (World.handle env (.enqueue (.captureRebalanceSnapshot k) d) w).2.sent =
          w.sent ++ [.captureRebalanceSnapshot k] := by
        rw [hr]
        rfl
      unfold capturesSent
      rw [hsent, List.count_append]
      simp
  · cases hcaptures

theorem capturesSent_change (hc : Change (autotrading settings env) s e s') :
    capturesSent rid s.state ≤ capturesSent rid s'.state := by
  cases hc with
  | idle => exact le_refl _
  | launched l state hl =>
    unfold capturesSent
    rw [(launch_stores hl).2.2.2.1]
  | stepped i t o k ht hp => exact capturesSent_handle env s.state o
  | crashed i t ht => exact le_refl _
  | moved a =>
    have hsent : (World.ambient a s.state).sent = s.state.sent := (ambient_stores a s.state).2.2.2.1
    show capturesSent rid s.state ≤ capturesSent rid (World.ambient a s.state)
    unfold capturesSent
    rw [hsent]

/-! ## The debt of the last cycle -/

/-- The cycle has ended an order of the rebalance, none ended later, and it has not come to its
capture: `h₂` are its calls since. -/
structure Owes (rid : RebalanceId) (s : System) (t : Task) (h₁ : Calls) (n : ℕ) (u : OrderUpdate)
    (h₂ : Calls) : Prop where
  mem : t ∈ s.tasks
  history : t.history = h₁ ++ (n, ⟨.updateOrder u, .ok true⟩) :: h₂
  ends : endsOrder (n, ⟨.updateOrder u, .ok true⟩) = true
  own : t.label.tracks = some u.id
  row : isOf rid s.state u.id = true
  silent : h₂.any (captures rid) = false
  looks : ∀ m rows, (m, ⟨.ordersByRebalanceId rid, .ok rows⟩) ∈ h₂ →
    rows ≠ [] ∧ ∀ r ∈ rows, Terminal r.status ∧ isOf rid s.state r.id = true
  reads : t.history.any (readsOpen rid s.state t.label) = false
  kept : trackingRaises t.label t.history = false
  last : ∀ t' ∈ s.tasks, ∀ y ∈ t'.history, endOf rid s.state y = true → y.1 ≤ n

theorem endOf_of_endsOrder {n : ℕ} {u : OrderUpdate}
    (hends : endsOrder (n, ⟨.updateOrder u, .ok true⟩) = true) (hrow : isOf rid w u.id = true) :
    endOf rid w (n, ⟨.updateOrder u, .ok true⟩) = true := by
  simp only [endsOrder, Bool.and_eq_true] at hends
  simp only [endOf, Bool.and_eq_true]
  exact ⟨hends.2, hrow⟩

theorem Owes.endedLast {h₁ h₂ : Calls} {n : ℕ} {u : OrderUpdate} (ho : Owes rid s t h₁ n u h₂) :
    endedLast rid s t = true := by
  rw [Autotrading.endedLast, List.any_eq_true]
  refine ⟨(n, ⟨.updateOrder u, .ok true⟩), by simp [ho.history], ?_⟩
  rw [Bool.and_eq_true]
  refine ⟨endOf_of_endsOrder ho.ends ho.row, ?_⟩
  rw [List.all_eq_true]
  intro t' ht'
  rw [List.all_eq_true]
  intro y hy
  by_cases hend : endOf rid s.state y = true
  · simp [ho.last t' ht' y hy hend]
  · simp [hend]

/-- What an entry says of the rows of the rebalance, it said before. -/
theorem endOf_before (hs : Sound env s) (hc : Change (autotrading settings env) s e s')
    (hend : AllEnded rid s'.state) {y : Entry} (hy : endOf rid s'.state y = true) :
    endOf rid s.state y = true := by
  unfold endOf at hy ⊢
  split at hy
  · next n u =>
    rw [Bool.and_eq_true] at hy ⊢
    exact ⟨hy.1, isOf_before hs hc hend hy.2⟩
  · cases hy

theorem readsOpen_before (hs : Sound env s) (hc : Change (autotrading settings env) s e s')
    (hend : AllEnded rid s'.state) {l : Label} {y : Entry}
    (hy : readsOpen rid s'.state l y = true) : readsOpen rid s.state l y = true := by
  unfold readsOpen at hy ⊢
  split at hy
  · next n k o =>
    rw [Bool.and_eq_true] at hy ⊢
    exact ⟨hy.1, isOf_before hs hc hend hy.2⟩
  · cases hy

/-- When all orders of the rebalance have ended, no further one ends. -/
theorem not_endOf (hs : Sound env s) (hend : AllEnded rid s.state) {i : ℕ}
    (ht : s.tasks[i]? = some t) {o : Op} {kont : Except PyExc (Ans o) → Program Unit} (hp : t.prog = .call o kont) {n : ℕ} :
    endOf rid s.state (n, ⟨o, (World.handle env o s.state).1⟩) = false := by
  rw [Bool.eq_false_iff]
  intro hstored
  unfold endOf at hstored
  split at hstored
  · next n' u heq =>
    obtain rfl : o = .updateOrder u := congrArg (fun x : Entry => x.2.1) heq
    have hok : (World.handle env (.updateOrder u) s.state).1 = .ok true := by
      have hpair := congrArg Prod.snd heq
      exact eq_of_heq (Sigma.mk.inj hpair).2
    obtain ⟨r, hr, hsel⟩ := (World.updateOrder_ok hok u.id).2.mp rfl
    rw [Bool.and_eq_true] at hstored
    obtain ⟨r', hr', hrid⟩ := isOf_iff.mp hstored.2
    obtain rfl := Option.some.inj (hr.symm.trans hr')
    have hlive := (hs.write ht hp).guarded.not_selects (hend.terminal hr hrid)
    rw [hsel] at hlive
    cases hlive
  · cases hstored

/-- An order read then is read ended. -/
theorem not_readsOpen (env : Env) (hend : AllEnded rid s.state) (l : Label) (n : ℕ) (o : Op) :
    readsOpen rid s.state l (n, ⟨o, (World.handle env o s.state).1⟩) = false := by
  have hread : World.ReadOf (fun r => isOf rid s.state r.id = true → Terminal r.status)
      (n, ⟨o, (World.handle env o s.state).1⟩) := by
    refine World.readOf_handle ?_ n o
    intro k r hr hrow
    obtain ⟨r', hr', hrid⟩ := isOf_iff.mp hrow
    rw [KeyedTable.key_of_get? hr] at hr'
    obtain rfl := Option.some.inj (hr.symm.trans hr')
    exact hend.terminal hr hrid
  rw [Bool.eq_false_iff]
  intro hopen
  unfold readsOpen at hopen
  split at hopen
  · next n' k o' heq =>
    rw [heq] at hread
    simp only [Bool.and_eq_true, decide_eq_true_eq] at hopen
    exact hopen.1.2 (hread hopen.2)
  · cases hopen

/-- The step of a task in an event that forgets nothing. -/
theorem step_of_not_forgets {i : ℕ} {o : Op} {kont : Except PyExc (Ans o) → Program Unit}
    (hnot : forgets env rid s (.step i) = false) (ht : s.tasks[i]? = some t)
    (hp : t.prog = .call o kont) (hend : AllEnded rid (World.handle env o s.state).2) :
    (¬ AllEnded rid s.state →
      endsOrder (s.state.tick, ⟨o, (World.handle env o s.state).1⟩) = true ∧
        t.history.any (readsOpen rid s.state t.label) = false) ∧
      (¬ AllEnded rid s.state ∨ endedLast rid s t = true → trackingRaises t.label
        (t.history ++ [(s.state.tick, ⟨o, (World.handle env o s.state).1⟩)]) = false) := by
  simp only [forgets, ht, Option.any_some, hp, hend, decide_true, Bool.true_and,
    Bool.or_eq_false_iff, Bool.and_eq_false_iff, Bool.not_eq_false',
    decide_eq_false_iff_not] at hnot
  obtain ⟨hlast, hraises⟩ := hnot
  constructor
  · intro hopen
    exact hlast.resolve_left (not_not.mpr hopen)
  · intro hclosed
    refine hraises.resolve_left ?_
    rintro ⟨hended, hother⟩
    rcases hclosed with hopen | hclosed
    · exact hended hopen
    · rw [hclosed] at hother
      cases hother

/-- The entries since then. -/
theorem Owes.last_change {h₁ h₂ : Calls} {n : ℕ} {u : OrderUpdate} (ho : Owes rid s t h₁ n u h₂)
    (hs : Sound env s) (hc : Change (autotrading settings env) s e s') (hend : AllEnded rid s.state)
    (hend' : AllEnded rid s'.state) :
    ∀ t' ∈ s'.tasks, ∀ y ∈ t'.history, endOf rid s'.state y = true → y.1 ≤ n := by
  intro t' ht' y hy hstored
  have hbefore := endOf_before hs hc hend' hstored
  rcases hc.entry ht' hy with ⟨t₀, ht₀, -, hy⟩ | ⟨i, t₀, o, kont, -, hi, -, hp, -, rfl⟩
  · exact ho.last t₀ ht₀ y hy hbefore
  · have hnone := not_endOf hs hend hi hp (n := s.state.tick)
    exact absurd (hbefore.symm.trans hnone) (by simp)

/-- A debt is paid or stays. -/
theorem Owes.change {h₁ h₂ : Calls} {n : ℕ} {u : OrderUpdate} (ho : Owes rid s t h₁ n u h₂)
    (hs : Sound env s) (hc : Change (autotrading settings env) s e s') (hend : AllEnded rid s.state)
    (hend' : AllEnded rid s'.state) (hnot : forgets env rid s e = false) :
    capturesSent rid s.state < capturesSent rid s'.state ∨ ∃ t' h₃, Owes rid s' t' h₁ n u h₃ := by
  have hlooks : ∀ m rows, (m, ⟨.ordersByRebalanceId rid, .ok rows⟩) ∈ h₂ →
      rows ≠ [] ∧ ∀ r ∈ rows, Terminal r.status ∧ isOf rid s'.state r.id = true := by
    intro m rows hm
    obtain ⟨hne, hrows⟩ := ho.looks m rows hm
    exact ⟨hne, fun r hr => ⟨(hrows r hr).1, isOf_change hs hc (hrows r hr).2⟩⟩
  have hreads : ∀ y ∈ t.history, readsOpen rid s'.state t.label y = false := by
    intro y hy
    rw [Bool.eq_false_iff]
    intro hopen
    have hbefore := readsOpen_before hs hc hend' hopen
    have hnone := List.any_eq_false.mp ho.reads y hy
    exact hnone hbefore
  have hrow := isOf_change hs hc ho.row
  have hlast := ho.last_change hs hc hend hend'
  rcases hc.task_next ho.mem with
    ⟨t', ht', hl, hh⟩ | ⟨i, o, kont, rfl, hi, hp, hstate, t', ht', hl, hh⟩
  · refine .inr ⟨t', h₂, ht', hh.trans ho.history, ho.ends, hl ▸ ho.own, hrow, ho.silent, hlooks,
      ?_, ?_, hlast⟩
    · rw [hl, hh, List.any_eq_false]
      intro y hy
      simp [hreads y hy]
    · rw [hl, hh]
      exact ho.kept
  · have hstate : s'.state = (World.handle env o s.state).2 := hstate
    have hh : t'.history =
        t.history ++ [(s.state.tick, ⟨o, (World.handle env o s.state).1⟩)] := hh
    rw [hstate] at hend'
    have hraises := (step_of_not_forgets hnot hi hp hend').2 (.inr ho.endedLast)
    by_cases hcaptures : captures rid (s.state.tick, ⟨o, (World.handle env o s.state).1⟩) = true
    · rw [hstate]
      exact .inl (capturesSent_lt hcaptures)
    · refine .inr ⟨t', h₂ ++ [(s.state.tick, ⟨o, (World.handle env o s.state).1⟩)], ht', ?_,
        ho.ends, hl ▸ ho.own, hrow, ?_, ?_, ?_, ?_, hlast⟩
      · rw [hh, ho.history]
        simp
      · simp [ho.silent, hcaptures]
      · intro m rows hm
        rcases List.mem_append.mp hm with hm | hm
        · exact hlooks m rows hm
        · have hnew := List.mem_singleton.mp hm
          obtain rfl : o = .ordersByRebalanceId rid :=
            (congrArg (fun x : Entry => x.2.1) hnew).symm
          have hok : (World.handle env (.ordersByRebalanceId rid) s.state).1 = .ok rows := by
            have hpair := congrArg Prod.snd hnew
            exact (eq_of_heq (Sigma.mk.inj hpair).2).symm
          rw [World.ordersByRebalanceId_ok hok]
          constructor
          · obtain ⟨r, hr, hrid⟩ := hend.1
            refine List.ne_nil_of_mem (List.mem_filter.mpr ⟨hr, ?_⟩)
            simpa using hrid
          · intro r hr
            obtain ⟨hmem, hrid⟩ := List.mem_filter.mp hr
            have hrid : r.rebalanceId = some rid := by simpa using hrid
            refine ⟨hend.2 r hmem hrid, isOf_change hs hc ?_⟩
            exact isOf_iff.mpr ⟨r, KeyedTable.get?_of_mem hmem, hrid⟩
      · rw [hl, hh, List.any_append, Bool.or_eq_false_iff]
        constructor
        · rw [List.any_eq_false]
          intro y hy
          simp [hreads y hy]
        · have hnone := not_readsOpen env hend t.label s.state.tick o
          rw [List.any_eq_false]
          intro y hy hopen
          rw [List.mem_singleton.mp hy] at hopen
          have hbefore := readsOpen_before hs hc (hstate ▸ hend') hopen
          exact absurd (hbefore.symm.trans hnone) (by simp)
      · rw [hl, hh]
        exact hraises

/-- A tracking result is stored by a cycle of the order. -/
theorem tracks_of_tracking (hs : Sound env s) (ht : t ∈ s.tasks) {u : OrderUpdate}
    (hw : Write t.label t.history u) (htracking : storesTracking u.set = true) :
    t.label.tracks = some u.id := by
  have hread : ∀ {l : Label} {k : Option OrderId} {order : Order}, t.label = l → l.tracks = k →
      Answered t.history (.selectOrder k) (some order) → t.label.tracks = some order.id := by
    intro l k order hl hk hr
    rw [hl, hk]
    exact hs.read_id ht hr
  generalize hl : t.label = l at hw
  cases hw with
  | track made => exact hl ▸ hread hl rfl made.read
  | timeout made => exact hl ▸ hread hl rfl made.read
  | gate => cases htracking
  | release => cases htracking
  | submit => cases htracking
  | fail => cases htracking

/-- Whoever ends the last open order owes the capture. -/
theorem owes_of_last (hs : Sound env s) (hc : Change (autotrading settings env) s e s')
    (hnot : forgets env rid s e = false) (hopen : ¬ AllEnded rid s.state)
    (hend : AllEnded rid s'.state) : ∃ t' h₁ n u, Owes rid s' t' h₁ n u [] := by
  obtain ⟨r, i, t, u, hw, hrid, hterminal⟩ := last_order_ends hs hc hopen hend
  have hs' := hs.change hc
  have ht := List.mem_of_getElem? hw.task
  obtain ⟨kont, hp⟩ := hw.prog
  obtain ⟨t', ht', hl, hh⟩ := hw.after
  have hid : u.id = r.id := (OrderUpdate.selects_iff.mp hw.selects).1.symm
  obtain rfl := hw.event
  obtain ⟨hstate, hok⟩ : s'.state = (World.handle env (.updateOrder u) s.state).2 ∧
      (World.handle env (.updateOrder u) s.state).1 = .ok true := by
    rcases hc.split ht' hh with ⟨t₀, ht₀, -, h₃, hold⟩ | ⟨i', t₀, o, k, -, -, -, -, hstate, hx, -⟩
    · have hstamp := hs.stamped t₀ ht₀ (s.state.tick, ⟨.updateOrder u, .ok true⟩) (by simp [hold])
      exact absurd hstamp (lt_irrefl _)
    · obtain rfl : o = .updateOrder u := (congrArg (fun x : Entry => x.2.1) hx).symm
      have hpair := congrArg Prod.snd hx
      exact ⟨hstate, (eq_of_heq (Sigma.mk.inj hpair).2).symm⟩
  have hstep := step_of_not_forgets hnot hw.task hp (hstate ▸ hend)
  rw [hok] at hstep
  obtain ⟨hends, hreads⟩ := hstep.1 hopen
  have htracking : storesTracking u.set = true := by
    simp only [endsOrder, Bool.and_eq_true] at hends
    exact hends.1
  have hrow : isOf rid s'.state u.id = true := by
    rw [hid]
    exact isOf_iff.mpr ⟨_, hw.row, by simpa using hrid⟩
  refine ⟨t', t.history, s.state.tick, u, ht', hh, hends, ?_, hrow, rfl, by simp, ?_, ?_, ?_⟩
  · rw [hl]
    exact tracks_of_tracking hs ht hw.write htracking
  · rw [hl, hh, List.any_eq_false]
    intro y hy hnow
    have hbefore := readsOpen_before hs hc hend hnow
    rcases List.mem_append.mp hy with hy | hy
    · exact List.any_eq_false.mp hreads y hy hbefore
    · rw [List.mem_singleton.mp hy] at hbefore
      cases hbefore
  · rw [hl, hh]
    exact hstep.2 (.inl hopen)
  · intro t₁ ht₁ y hy _
    have hstamp := hs'.stamped t₁ ht₁ y hy
    rw [hstate, World.tick_handle] at hstamp
    exact Nat.lt_succ_iff.mp hstamp

/-! ## Runs -/

/-- What has ended stays so up to the end of the run. -/
theorem allEnded_concat {es₁ es₂ : List Event} (hended : ∀ es₃, es₃ <+: es₂ →
      AllEnded rid ((autotrading settings env).run (start w) (es₁ ++ es₃)).state)
    (hend : AllEnded rid ((autotrading settings env).run (start w) (es₁ ++ es₂ ++ [e])).state) :
    ∀ es₃, es₃ <+: es₂ ++ [e] →
      AllEnded rid ((autotrading settings env).run (start w) (es₁ ++ es₃)).state := by
  intro es₃ hes₃
  rcases List.prefix_concat_iff.mp hes₃ with rfl | hes₃
  · rw [← List.append_assoc]
    exact hend
  · exact hended es₃ hes₃

/-- While nothing is forgotten, the capture was queued after the last order ended, or a cycle owes
it. -/
theorem captured_or_owed {es : List Event} (hstart : ¬ AllEnded rid w)
    (hes : Meets (autotrading settings env) (fun s e => forgets env rid s e = false) (start w) es)
    (hend : AllEnded rid ((autotrading settings env).run (start w) es).state) :
    CapturedSince settings env w rid es ∨
      ∃ t h₁ n u h₂, Owes rid ((autotrading settings env).run (start w) es) t h₁ n u h₂ := by
  induction es using List.reverseRecOn with
  | nil => exact absurd hend hstart
  | append_singleton es e ih =>
    obtain ⟨hes, hnot, -⟩ := Meets.append.mp hes
    have hs := sound_run settings env w es
    have hc := (autotrading settings env).next_change
      ((autotrading settings env).run (start w) es) e
    have hrun : (autotrading settings env).run (start w) (es ++ [e]) =
        (autotrading settings env).next ((autotrading settings env).run (start w) es) e := by
      rw [run_append, run_cons, run_nil]
    have hend' := hend
    rw [hrun] at hend' ⊢
    by_cases hopen : AllEnded rid ((autotrading settings env).run (start w) es).state
    · rcases ih hes hopen with ⟨es₁, es₂, rfl, hended, hcount⟩ | ⟨t, h₁, n, u, h₂, ho⟩
      · refine .inl ⟨es₁, es₂ ++ [e], by rw [List.append_assoc], allEnded_concat hended hend, ?_⟩
        rw [hrun]
        exact lt_of_lt_of_le hcount (capturesSent_change hc)
      · rcases ho.change hs hc hopen hend' hnot with hcount | ⟨t', h₃, ho⟩
        · refine .inl ⟨es, [e], rfl, ?_, ?_⟩
          · have hnow : ∀ es₃, es₃ <+: [] →
                AllEnded rid ((autotrading settings env).run (start w) (es ++ es₃)).state := by
              intro es₃ hes₃
              rw [List.prefix_nil.mp hes₃, List.append_nil]
              exact hopen
            exact allEnded_concat hnow (by rwa [List.append_nil])
          · rw [hrun]
            exact hcount
        · exact .inr ⟨t', h₁, n, u, h₃, ho⟩
    · obtain ⟨t', h₁, n, u, ho⟩ := owes_of_last hs hc hnot hopen hend'
      exact .inr ⟨t', h₁, n, u, [], ho⟩

/-- The stored order is of no rebalance or of another one. -/
def Foreign (rid : RebalanceId) (id : OrderId) (w : World) : Prop :=
  ∃ r, w.orders.get? id = some r ∧ r.rebalanceId ≠ some rid

/-- An order read as one of another rebalance is. -/
theorem foreign_run (settings : Settings) (env : Env) (w : World) (rid : RebalanceId)
    (es : List Event) :
    Known (fun w _ => World.ReadOf fun o => o.rebalanceId ≠ some rid → Foreign rid o.id w)
      ((autotrading settings env).run (start w) es) := by
  have hstep : ∀ s e s', Sound env s ∧ Known (fun w _ => World.ReadOf fun o =>
        o.rebalanceId ≠ some rid → Foreign rid o.id w) s →
      Change (autotrading settings env) s e s' → Sound env s' ∧ Known (fun w _ =>
        World.ReadOf fun o => o.rebalanceId ≠ some rid → Foreign rid o.id w) s' := by
    rintro s e s' ⟨hs, hknown⟩ hc
    refine ⟨hs.change hc, read_change (fun r hr hother => ⟨r, hr, hother⟩) ?_ hknown hc⟩
    rintro id s' e ⟨r, hr, hother⟩ hc'
    obtain ⟨r', hr', hsame⟩ := sameOrder_change hs hc' hr
    exact ⟨r', hr', fun h => hother (hsame.rebalanceId.symm.trans h)⟩
  refine (run_invariant hstep es ⟨sound_start w, ?_⟩).2
  intro t ht
  cases ht

/-- A cycle at its end owes nothing. -/
theorem Owes.not_ended {h₁ h₂ : Calls} {n : ℕ} {u : OrderUpdate} (ho : Owes rid s t h₁ n u h₂)
    (hs : Sound env s)
    (hforeign : Known (fun w _ => World.ReadOf fun o =>
      o.rebalanceId ≠ some rid → Foreign rid o.id w) s)
    (hlooks : LooksBack rid t.label t.history) : False := by
  obtain ⟨attempt, first, hl⟩ := exists_cycle_of_tracks ho.own
  have hended : t.history.any endsOrder = true := by
    rw [ho.history]
    simp [ho.ends]
  obtain ⟨order, hread, hlooked⟩ := hlooks _ attempt first hl hended ho.kept
  have hid : u.id = order.id := Option.some.inj (hs.read_id ho.mem hread)
  have hrid : order.rebalanceId = some rid := by
    by_contra hother
    obtain ⟨m, hm⟩ := hread
    obtain ⟨r, hr, hne⟩ := hforeign t ho.mem _ hm hother
    obtain ⟨r', hr', hrid⟩ := isOf_iff.mp ho.row
    rw [hid] at hr'
    obtain rfl := Option.some.inj (hr.symm.trans hr')
    exact hne hrid
  rcases hlooked hrid h₁ _ h₂ ho.history ho.ends with hcaptured | ⟨h₃, m, rows, h₄, hsplit, hopen⟩
  · rw [ho.silent] at hcaptured
    cases hcaptured
  · obtain ⟨hne, hrows⟩ := ho.looks m rows (by simp [hsplit])
    rcases hopen with hnil | ⟨r, hr, hlive | ⟨k, o, ⟨m', hm'⟩, hsame, hother, hlive⟩⟩
    · exact hne hnil
    · exact hlive (hrows r hr).1
    · have hmem : (m', (⟨.selectOrder k, .ok (some o)⟩ : (o : Op) × Except PyExc (Ans o))) ∈
          t.history := by
        rw [ho.history, hsplit]
        rcases List.mem_append.mp hm' with hm' | hm'
        · exact List.mem_append_left _ hm'
        · rcases List.mem_cons.mp hm' with hm' | hm'
          · simp [hm']
          · simp [hm']
      have hnone := List.any_eq_false.mp ho.reads _ hmem
      refine hnone ?_
      simp only [readsOpen, Bool.and_eq_true, decide_eq_true_eq, ne_eq, ho.own]
      refine ⟨⟨?_, hlive⟩, hsame ▸ (hrows r hr).2⟩
      simpa [hid] using fun h : order.id = o.id => hother h.symm

/-- In a run without a crash in which no step forgets the snapshot of the rebalance, it is not
forgotten. -/
theorem snapshot_remembered (settings : Settings) {env : Env} {w : World} {rid : RebalanceId}
    {es : List Event} (hstart : ¬ AllEnded rid w) (hcrash : ∀ e ∈ es, isCrash e = false)
    (hes : Meets (autotrading settings env) (fun s e => forgets env rid s e = false) (start w) es) :
    SnapshotRemembered settings env w rid es := by
  intro hend _ hended
  rcases captured_or_owed hstart hes hend with hcaptured | ⟨t, h₁, n, u, h₂, ho⟩
  · exact hcaptured
  · have hstep : ∀ s e s', Concludes (LooksBack rid) s → isCrash e = false →
        Change (autotrading settings env) s e s' → Concludes (LooksBack rid) s' := by
      intro s e s' h hno hc
      refine h.change (looksBack_program rid) hc ?_
      rintro i t rfl
      cases hno
    have hnone : Concludes (LooksBack rid) (start w : System) := by
      intro t ht
      cases ht
    have hlooks := (meets_of_forall hcrash).invariant hstep hnone
    exact (ho.not_ended (sound_run settings env w es) (foreign_run settings env w rid es)
      (hlooks.ended ho.mem (hended t ho.mem))).elim

/-! ## Small runs -/

/-- Rebalance 1 has one order, which is open and has its tracking message in the queue. -/
def World.lastOpenOrder : World :=
  .holding [{ Order.sample 1 .accepted with rebalanceId := some 1 }]
    [.processOrderStatus (some 1) 0 none]

def lastCycle : List Event :=
  .launch (.processOrderStatus (some 1) 0 none) :: List.replicate 12 (.step 0)

/-- The broker refuses every execution query for good. -/
def Env.refusingQueries : Env :=
  { Env.quiet with get := fun _ _ => .response 403 (.notJson "forbidden") "Client error: 403" }

/-- The cycle stores its order, the last one of the rebalance, as FAILED and looks at nothing. -/
theorem failed_order_forgotten :
    ¬ SnapshotRemembered .sample .refusingQueries .lastOpenOrder 1 lastCycle := by
  intro h
  obtain ⟨es₁, es₂, -, -, hcount⟩ := h (by decide +kernel) (by decide +kernel) (by decide +kernel)
  have hnone : capturesSent 1 ((autotrading .sample .refusingQueries).run (start .lastOpenOrder)
      lastCycle).state = 0 := by decide +kernel
  rw [hnone] at hcount
  exact absurd hcount (Nat.not_lt_zero _)

/-- The order is filled, its cycle queues the capture, and the snapshot is taken. -/
theorem snapshot_remembered_sample : CapturedSince .sample .accepting .lastOpenOrder 1
    (lastCycle ++ .launch (.captureRebalanceSnapshot 1) :: List.replicate 8 (.step 1)) := by
  refine snapshot_remembered .sample ?_ ?_ ?_ ?_ ?_ ?_
  all_goals decide +kernel

end Autotrading
