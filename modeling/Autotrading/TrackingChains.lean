import Autotrading.TrackingCalls
import Mathlib.Data.List.Chain
import Mathlib.Data.List.Induction
import Mathlib.Tactic.Linarith
import Mathlib.Tactic.Positivity

/-!
# Chains of tracking cycles

A cycle queues at most one further cycle, after a pause that depends on the attempt
and on the time since the chain began, and hands on the start of the chain. The pauses
alone bring a chain past the tracking window.
-/
namespace Autotrading.ProcessOrderStatus

open Prog OrderState OrderRepository TrackingSnapshot

variable {h : Calls} {attempt : ℕ} {first : Option Instant} {cycle : Cycle}

/-- The call sent a tracking message. -/
def requeues : Entry → Bool
  | (_, ⟨.enqueue (.processOrderStatus _ _ _) _, .ok _⟩) => true
  | _ => false

/-- No tracking message was sent. -/
def Unsent (h : Calls) : Prop := ∀ x ∈ h, requeues x = false

/-- The call sends no tracking message. -/
def Silent : Op → Prop
  | .enqueue (.processOrderStatus _ _ _) _ => False
  | _ => True

/-- The arguments of a cycle are those of its task and the time it read. -/
def CycleOf (attempt : ℕ) (first : Option Instant) (h : Calls) (cycle : Cycle) : Prop :=
  ∃ now : Instant, Answered h .now now ∧
    cycle = ⟨attempt, first.getD now, max (now - first.getD now) 0⟩

/-- A tracking message is sent once, for the next attempt, with the start of the chain
and after the pause that the elapsed time calls for. -/
def Requeueing (attempt : ℕ) (first : Option Instant) (h : Calls) : Op → Prop
  | .enqueue (.processOrderStatus _ attempt' first') countdown =>
    Unsent h ∧ ∃ cycle, CycleOf attempt first h cycle ∧ attempt' = attempt + 1 ∧
      first' = some cycle.firstTrackedAt ∧
      resolveRetrackingDelay attempt cycle.elapsed = some countdown
  | _ => True

theorem CycleOf.mono {h' : Calls} (hc : CycleOf attempt first h cycle) (hh : h <+: h') :
    CycleOf attempt first h' cycle := by
  obtain ⟨now, hnow, hcycle⟩ := hc
  exact ⟨now, hnow.mono hh, hcycle⟩

theorem unsent_append {h' : Calls} : Unsent (h ++ h') ↔ Unsent h ∧ Unsent h' := by
  simp [Unsent, or_imp, forall_and]

theorem requeueing_of_silent {o : Op} (ho : Silent o) : Requeueing attempt first h o := by
  cases o
  case enqueue m n =>
    cases m with
    | processOrder id => trivial
    | processOrderStatus id a f => exact ho.elim
    | captureRebalanceSnapshot rid => trivial
  all_goals trivial

theorem requeues_of_silent {x : Entry} (hx : Silent x.2.1) : requeues x = false := by
  obtain ⟨n, o, r⟩ := x
  cases o
  case enqueue m d =>
    cases m with
    | processOrder id => rfl
    | processOrderStatus id a f => exact hx.elim
    | captureRebalanceSnapshot rid => rfl
  all_goals rfl

/-- Calls that send no tracking message leave the history without one. -/
theorem along_of_silent {α : Type} {p : Program α} (hp : Safe (fun _ o => Silent o) h p)
    (hu : Unsent h) : Along (Requeueing attempt first) (fun h' _ => Unsent h') h p := by
  refine (hp.entries fun _ _ ho => ho).mono (fun _ _ ho => requeueing_of_silent ho.2) ?_
  intro h' r hpost
  obtain ⟨⟨h₂, hh, hall⟩, -⟩ := hpost
  have hu₂ : Unsent h₂ := fun x hx => requeues_of_silent (hall x hx)
  rw [hh, unsent_append]
  exact ⟨hu, hu₂⟩

theorem silent_of_follows (_ : Calls) (o : Op) (ho : Follows o) : Silent o := by
  cases o
  case enqueue m n =>
    cases m with
    | processOrder id => trivial
    | processOrderStatus id a f => exact ho.elim
    | captureRebalanceSnapshot rid => trivial
  all_goals trivial

/-! ## The end of a cycle -/

theorem along_retrack {order : Order} {snapshot : Snapshot} {loaded : List Order}
    (hc : CycleOf attempt first h cycle) (hu : Unsent h) :
    Along (Requeueing attempt first) (fun h' r => ∀ e, r = .error e → Unsent h') h
      (retrack cycle order snapshot loaded) := by
  obtain ⟨now, hnow, hcycle⟩ := hc
  have hattempt : cycle.attempt = attempt := by rw [hcycle]
  unfold retrack
  split
  · rw [along_pure]
    intro e he
    cases he
  · split
    · exact (along_of_silent (safe_timeoutOrder silent_of_follows) hu).mono (fun _ _ hq => hq) fun _ _ hu' _ _ => hu'
    · next delay hdelay =>
      rw [hattempt] at hdelay
      have hsend : Requeueing attempt first h (.enqueue (.processOrderStatus (some order.id)
          (cycle.attempt + 1) (some cycle.firstTrackedAt)) delay) :=
        ⟨hu, cycle, ⟨now, hnow, hcycle⟩, by rw [hattempt], rfl, hdelay⟩
      refine .perform hsend ?_
      intro n r e he
      rw [he, unsent_append]
      refine ⟨hu, fun x hx => ?_⟩
      rw [List.mem_singleton.mp hx]
      rfl

theorem along_storeSnapshot {order : Order} {snapshot : Snapshot}
    (hc : CycleOf attempt first h cycle) (hu : Unsent h) :
    Along (Requeueing attempt first) (fun h' r => ∀ e, r = .error e → Unsent h') h
      (storeSnapshot cycle order snapshot) := by
  have hrollback : ∀ h', Unsent h' → Along (Requeueing attempt first)
      (fun h' r => ∀ e, r = .error e → Unsent h') h' (Op.perform .rollback) := by
    intro h' hu'
    exact (along_of_silent (safe_perform (by trivial)) hu').mono (fun _ _ hq => hq) fun _ _ hu'' _ _ => hu''
  unfold storeSnapshot updateOrderTrackingResult
  split
  · exact hrollback h hu
  · refine (along_of_silent (safe_perform (by trivial)) hu).bind ?_ fun _ _ _ hu' _ _ => hu'
    intro h₁ updated hh₁ hu₁
    simp only
    split
    · exact hrollback h₁ hu₁
    · refine (along_of_silent (safe_adjustParent silent_of_follows) hu₁).bind ?_ fun _ _ _ hu' _ _ => hu'
      intro h₂ loaded hh₂ hu₂
      cases loaded with
      | none =>
        rw [along_pure]
        intro e he
        cases he
      | some loaded =>
        refine (along_of_silent (safe_perform (by trivial)) hu₂).bind ?_ fun _ _ _ hu' _ _ => hu'
        intro h₃ _ hh₃ hu₃
        refine (along_of_silent (safe_publishOrderUpdate silent_of_follows) hu₃).bind ?_ fun _ _ _ hu' _ _ => hu'
        intro h₄ published hh₄ hu₄
        have hc₄ := hc.mono (hh₁.trans (hh₂.trans (hh₃.trans hh₄)))
        split
        · refine (along_of_silent (safe_triggerRebalanceSnapshot silent_of_follows) hu₄).bind ?_
            fun _ _ _ hu' _ _ => hu'
          intro h₅ _ hh₅ hu₅
          exact along_retrack (hc₄.mono hh₅) hu₅
        · exact along_retrack hc₄ hu₄

theorem along_trackOrder {order : Order} (hc : CycleOf attempt first h cycle) (hu : Unsent h) :
    Along (Requeueing attempt first) (fun h' r => ∀ e, r = .error e → Unsent h') h
      (trackOrder cycle order) := by
  have hdone : ∀ h', Along (Requeueing attempt first)
      (fun h' r => ∀ e, r = .error e → Unsent h') h' (pure () : Program Unit) := by
    intro h'
    rw [along_pure]
    intro e he
    cases he
  unfold trackOrder TradeService.getDailyOrderExecutions KisOrder.getDailyOrderExecutions
    existsChildOrders
  split
  · exact hdone h
  · split
    · exact hdone h
    · refine (along_of_silent (safe_perform (by trivial)) hu).bind ?_ fun _ _ _ hu' _ _ => hu'
      intro h₁ _ hh₁ hu₁
      refine (along_of_silent (safe_dailyOrderExecutions _ fun _ _ => trivial) hu₁).bind ?_ fun _ _ _ hu' _ _ => hu'
      intro h₂ answer hh₂ hu₂
      have hchildren : Safe (fun _ o => Silent o) h₂ (if order.orderKind = .new then
          Op.perform (.existsChildOrders order.id) else pure false) := by
        split
        · exact safe_perform trivial
        · exact safe_pure _
      have hrest : ∀ hasChildOrders h', h₂ <+: h' → Unsent h' → Along (Requeueing attempt first)
          (fun h' r => ∀ e, r = .error e → Unsent h') h' (do
            let snapshot ← ofExcept (extractOrderTrackingSnapshot order answer hasChildOrders)
            storeSnapshot cycle order snapshot) := by
        intro hasChildOrders h' hh' hu'
        refine (along_of_silent (safe_ofExcept _) hu').bind ?_ fun _ _ _ hu'' _ _ => hu''
        intro h₃ snapshot hh₃ hu₃
        exact along_storeSnapshot (hc.mono (hh₁.trans (hh₂.trans (hh'.trans hh₃)))) hu₃
      split
      · refine (along_of_silent (safe_perform (by trivial)) hu₂).bind ?_ fun _ _ _ hu' _ _ => hu'
        intro h₃ hasChildOrders hh₃ hu₃
        exact hrest hasChildOrders h₃ hh₃ hu₃
      · exact hrest false h₂ (List.prefix_refl _) hu₂

theorem requeueing_handleError {order : Option Order} {e : PyExc}
    (hc : CycleOf attempt first h cycle) (hu : Unsent h) :
    Safe (Requeueing attempt first) h (handleError cycle order e) := by
  have hrequeue : ∀ (h' : Calls) (orderPk : Option OrderId), h <+: h' → Unsent h' →
      Safe (Requeueing attempt first) h' (requeueOrderTracking orderPk cycle) := by
    intro h' orderPk hh' hu'
    obtain ⟨now, hnow, hcycle⟩ := hc.mono hh'
    have hattempt : cycle.attempt = attempt := by rw [hcycle]
    unfold requeueOrderTracking
    split
    · exact safe_pure _
    · next delay hdelay =>
      rw [hattempt] at hdelay
      exact safe_perform ⟨hu', cycle, ⟨now, hnow, hcycle⟩, by rw [hattempt], rfl, hdelay⟩
  unfold handleError handleKisOrderError handleException
  simp only [updateOrderFailureResult_raises, updateOrderFailureResult_binds]
  split
  · refine (along_of_silent (safe_perform (by trivial)) hu).bind_safe fun h₁ _ hh₁ hu₁ => ?_
    split
    · exact hrequeue h₁ _ hh₁ hu₁
    · cases order with
      | none => exact safe_raise _
      | some o => exact Safe.bind (safe_perform trivial) fun _ _ _ => safe_raise _
  · refine (along_of_silent (safe_perform (by trivial)) hu).bind_safe fun h₁ _ hh₁ hu₁ => ?_
    split
    · exact hrequeue h₁ _ hh₁ hu₁
    · split
      · exact safe_raise _
      · exact safe_raise _

/-- The tracking messages of a cycle. -/
theorem requeueing_processOrderStatus (id : Option OrderId) (attempt : ℕ) (first : Option Instant) :
    Safe (Requeueing attempt first) [] (processOrderStatus id attempt first) := by
  unfold processOrderStatus getOrderById
  refine safe_perform_bind trivial fun n nowUtc => ?_
  have hc : CycleOf attempt first ([] ++ [(n, ⟨.now, .ok nowUtc⟩)])
      ⟨attempt, first.getD nowUtc, max (nowUtc - first.getD nowUtc) 0⟩ :=
    ⟨nowUtc, answered_append, rfl⟩
  have hu : Unsent ([] ++ [(n, ⟨.now, .ok nowUtc⟩)]) := by
    intro x hx
    rw [List.mem_singleton.mp hx]
    rfl
  refine (along_of_silent (safe_perform (by trivial)) hu).attempt fun h₁ r hh₁ hu₁ => ?_
  cases r with
  | error e => exact requeueing_handleError (hc.mono hh₁) hu₁
  | ok found =>
    cases found with
    | none => exact safe_pure _
    | some order =>
      refine (along_trackOrder (hc.mono hh₁) hu₁).tryExcept (fun _ _ _ _ => trivial) ?_
      intro h₂ e hh₂ hu₂
      exact requeueing_handleError (hc.mono (hh₁.trans hh₂)) (hu₂ e rfl)

/-! ## The length of a chain -/

/-- An execution of `process_order_status` with the calls it made and their answers. -/
structure Execution where
  orderId : Option OrderId
  attempt : ℕ
  firstTrackedAt : Option Instant
  calls : Calls
  recorded : Records (processOrderStatus orderId attempt firstTrackedAt) calls

/-- `y` is started by a message of `x`, and reads the clock no earlier than the
countdown of the message after `x` did. -/
def Requeued (x y : Execution) : Prop :=
  ∃ n countdown : ℕ, (n, ⟨.enqueue (.processOrderStatus y.orderId y.attempt y.firstTrackedAt) countdown,
      .ok ()⟩) ∈ x.calls ∧
    ∀ now now' : Instant, Answered x.calls .now now → Answered y.calls .now now' →
      now + (countdown * 1000000 : ℤ) ≤ now'

theorem Execution.requeueing (x : Execution) {h₁ h₂ : Calls} {e : Entry}
    (hx : x.calls = h₁ ++ e :: h₂) : Requeueing x.attempt x.firstTrackedAt h₁ e.2.1 := by
  have hrecorded := x.recorded
  rw [hx] at hrecorded
  have hcall := (requeueing_processOrderStatus _ _ _).recorded hrecorded
  simpa using hcall

/-- A record in which every tracking message is the first one holds at most one. -/
theorem countP_requeues_le {h : Calls} (hfirst : ∀ h₁ e h₂, h = h₁ ++ e :: h₂ →
    requeues e = true → Unsent h₁) : h.countP requeues ≤ 1 := by
  induction h using List.reverseRecOn with
  | nil => simp
  | append_singleton h x ih =>
    by_cases hx : requeues x = true
    · have hnone : h.countP requeues = 0 := by
        rw [List.countP_eq_zero]
        intro y hy
        simp [hfirst h x [] rfl hx y hy]
      simp [hnone, hx]
    · have hle : h.countP requeues ≤ 1 := ih fun h₁ e h₂ hh he =>
        hfirst h₁ e (h₂ ++ [x]) (by simp [hh]) he
      simpa [hx] using hle

/-- An execution queues at most one further one. -/
theorem Execution.countP_requeues_le (x : Execution) : x.calls.countP requeues ≤ 1 := by
  refine ProcessOrderStatus.countP_requeues_le fun h₁ e h₂ hh he => ?_
  obtain ⟨n, o, r⟩ := e
  have hcall := x.requeueing hh
  cases o
  case enqueue m d =>
    cases m with
    | processOrder id => cases he
    | processOrderStatus id a f => exact hcall.1
    | captureRebalanceSnapshot rid => cases he
  all_goals cases he

/-- The least time in seconds between the start of a chain and its `k`-th requeue. -/
def pace : ℕ → ℕ
  | 0 => 0
  | k + 1 => pace k + if pace k < 90 then min (k + 1) 15 else 60

theorem pace_succ_le {k a d : ℕ} {elapsed : ℤ} (hk : k ≤ a) (he : pace k * 1000000 ≤ elapsed)
    (hd : resolveRetrackingDelay a elapsed = some d) :
    pace (k + 1) * 1000000 ≤ elapsed + d * 1000000 ∧ pace k < 1800 := by
  simp only [resolveRetrackingDelay] at hd
  simp only [pace]
  push_cast
  split at hd
  · next hfast =>
    obtain rfl := Option.some.inj hd
    have hslow : pace k < 90 := by omega
    rw [if_pos hslow]
    push_cast
    omega
  · split at hd
    · cases hd
    · next hfast hwindow =>
      obtain rfl := Option.some.inj hd
      split
      · push_cast
        omega
      · push_cast
        omega

theorem chain_length_le {x : Execution} {xs : List Execution} {k : ℕ}
    (hchain : (x :: xs).IsChain Requeued) (hattempt : k ≤ x.attempt)
    (helapsed : ∀ now : Instant, Answered x.calls .now now →
      pace k * 1000000 ≤ now - x.firstTrackedAt.getD now)
    (hk : k ≤ 42) : (x :: xs).length + k ≤ 43 := by
  induction xs generalizing x k with
  | nil =>
    simp only [List.length_cons, List.length_nil]
    omega
  | cons y ys ih =>
    rw [List.isChain_cons_cons] at hchain
    obtain ⟨⟨n, countdown, hmem, hclock⟩, hrest⟩ := hchain
    obtain ⟨h₁, h₂, hh⟩ := List.append_of_mem hmem
    have hcall := x.requeueing hh
    obtain ⟨-, cycle, ⟨now, hnow, rfl⟩, hnext, hfirst, hdelay⟩ := hcall
    have hread : Answered x.calls .now now := hnow.mono ⟨_, hh.symm⟩
    have hpace := helapsed now hread
    have hmax : max (now - x.firstTrackedAt.getD now) 0 = now - x.firstTrackedAt.getD now := by
      have hnonneg : (0 : ℤ) ≤ pace k * 1000000 := by positivity
      exact max_eq_left (hnonneg.trans hpace)
    simp only [hmax] at hdelay
    obtain ⟨hlater, hwindow⟩ := pace_succ_le hattempt hpace hdelay
    -- the pauses of 42 cycles exceed the window
    have hlt : k < 42 := by
      have hlast : pace 42 = 1831 := by decide
      rcases Nat.lt_or_eq_of_le hk with hlt | heq
      · exact hlt
      · rw [heq, hlast] at hwindow
        omega
    have hstart : ∀ now' : Instant, Answered y.calls .now now' →
        pace (k + 1) * 1000000 ≤ now' - y.firstTrackedAt.getD now' := by
      intro now' hnow'
      have hpause := hclock now now' hread hnow'
      rw [hfirst, Option.getD_some]
      linarith
    have hlen := ih hrest (by omega) hstart (by omega)
    simp only [List.length_cons] at hlen ⊢
    omega

/-- A cycle queues at most one further cycle, and a chain has at most 43 of them. -/
theorem tracking_chain_bounded :
    (∀ x : Execution, x.calls.countP requeues ≤ 1) ∧
      ∀ xs : List Execution, xs.IsChain Requeued → (∀ x ∈ xs.head?, x.firstTrackedAt = none) →
        xs.length ≤ 43 := by
  refine ⟨Execution.countP_requeues_le, fun xs hchain hinit => ?_⟩
  cases xs with
  | nil => simp
  | cons x xs =>
    have hnone : x.firstTrackedAt = none := hinit x (by simp)
    have hstart : ∀ now : Instant, Answered x.calls .now now →
        pace 0 * 1000000 ≤ now - x.firstTrackedAt.getD now := by
      intro now _
      simp [hnone, pace]
    simpa using chain_length_le hchain (Nat.zero_le _) hstart (by omega)

/-- A first cycle whose read times out. -/
def Execution.sample : Execution where
  orderId := some 1
  attempt := 0
  firstTrackedAt := none
  calls := [(0, ⟨.now, .ok 0⟩), (1, ⟨.selectOrder (some 1), .error (.other "TimeoutError" "timeout")⟩),
    (2, ⟨.rollback, .ok ()⟩), (3, ⟨.enqueue (.processOrderStatus none 1 (some 0)) 1, .ok ()⟩)]
  recorded := by
    unfold Records
    decide +kernel

/-- The cycle it queues, a second later. -/
def Execution.sampleNext : Execution where
  orderId := none
  attempt := 1
  firstTrackedAt := some 0
  calls := [(4, ⟨.now, .ok 1000000⟩)]
  recorded := by
    unfold Records
    decide +kernel

theorem tracking_chain_bounded_sample : [Execution.sample, Execution.sampleNext].length ≤ 43 := by
  refine tracking_chain_bounded.2 _ ?_ (by simp [Execution.sample])
  rw [List.isChain_pair]
  refine ⟨3, 1, by simp [Execution.sample, Execution.sampleNext], ?_⟩
  rintro now now' ⟨n, hn⟩ ⟨n', hn'⟩
  simp only [Execution.sample, List.mem_cons, Prod.mk.injEq, Sigma.mk.injEq, reduceCtorEq,
    List.not_mem_nil, or_false, false_and, and_false, true_and] at hn
  simp only [Execution.sampleNext, List.mem_singleton, Prod.mk.injEq, Sigma.mk.injEq, true_and] at hn'
  have hfirst : now = 0 := by simpa using hn.2
  have hsecond : now' = 1000000 := by simpa using hn'.2
  rw [hfirst, hsecond]
  decide

end Autotrading.ProcessOrderStatus
