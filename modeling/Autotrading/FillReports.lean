import Autotrading.Pipeline
import Autotrading.SystemRules

/-!
# What a wait reports

A wait counts at each poll. After a timeout it looks again and recounts the filled orders
only, and the cancellation looks once more. What it reports is true of its last look when
nothing else has changed since the poll, and when the amounts it leaves out are 0.
-/
namespace Autotrading.OrderGenerator

open Prog
open OrderState (Terminal terminalStates)

/-! ## Filled amounts -/

/-- The filled amount of the orders with one of these statuses. -/
def amountOf (statuses : List OrderStatus) : List Order → Except PyExc ℤ
  | [] => .ok 0
  | o :: rows =>
    if o.status ∈ statuses then do
      let amount ← filledAmount o
      let rest ← amountOf statuses rows
      pure (amount + rest)
    else amountOf statuses rows

section Amounts
variable {statuses : List OrderStatus} {o : Order} {rows : List Order} {a b : ℤ}

theorem amountOf_cons_of_mem (h : o.status ∈ statuses) :
    amountOf statuses (o :: rows) = .ok a ↔
      ∃ amount rest, filledAmount o = .ok amount ∧ amountOf statuses rows = .ok rest ∧
        a = amount + rest := by
  rw [amountOf, if_pos h]
  cases filledAmount o with
  | error e => simp [bind, Except.bind]
  | ok amount =>
    cases amountOf statuses rows with
    | error e => simp [bind, Except.bind]
    | ok rest => simp [bind, Except.bind, pure, Except.pure, eq_comm]

theorem amountOf_cons_of_not_mem (h : o.status ∉ statuses) :
    amountOf statuses (o :: rows) = amountOf statuses rows := by
  rw [amountOf, if_neg h]

/-- The amount of the orders with one of the statuses, summed as the tally sums it. -/
theorem amountOf_of_mapM {amounts : List ℤ}
    (h : (rows.filter fun o => o.status ∈ statuses).mapM filledAmount = .ok amounts) :
    amountOf statuses rows = .ok amounts.sum := by
  induction rows generalizing amounts with
  | nil =>
    have hnil : amounts = [] := (Except.ok.inj h).symm
    rw [hnil, amountOf, List.sum_nil]
  | cons o rows ih =>
    by_cases ho : o.status ∈ statuses
    · rw [List.filter_cons_of_pos (by simpa using ho), List.mapM_cons] at h
      obtain ⟨amount, hamount, h⟩ := of_bind_ok h
      obtain ⟨rest, hrest, h⟩ := of_bind_ok h
      have hsum : amounts = amount :: rest := (Except.ok.inj h).symm
      rw [amountOf_cons_of_mem ho]
      exact ⟨amount, rest.sum, hamount, ih hrest, by rw [hsum, List.sum_cons]⟩
    · rw [List.filter_cons_of_neg (by simpa using ho)] at h
      rw [amountOf_cons_of_not_mem ho]
      exact ih h

/-- The ended orders of a poll are the filled, the canceled and the failed ones. -/
theorem amountOf_terminalStates_iff (hall : ∀ o ∈ rows, o.status ∈ terminalStatuses)
    (h : amountOf [.filled, .canceled] rows = .ok a) :
    amountOf terminalStates rows = .ok b ↔ amountOf [.failed] rows = .ok (b - a) := by
  induction rows generalizing a b with
  | nil =>
    have hzero : a = 0 := (Except.ok.inj h).symm
    simp [amountOf, hzero]
  | cons o rows ih =>
    have hrest (x) (hx : x ∈ rows) : x.status ∈ terminalStatuses := hall x (List.mem_cons_of_mem _ hx)
    have ho := hall o List.mem_cons_self
    have hterminal : o.status ∈ terminalStates := by
      revert ho
      cases o.status <;> simp [terminalStatuses, terminalStates]
    rw [amountOf_cons_of_mem hterminal]
    by_cases hfailed : o.status = .failed
    · rw [amountOf_cons_of_not_mem (by simp [hfailed])] at h
      rw [amountOf_cons_of_mem (by simp [hfailed])]
      constructor
      · rintro ⟨amount, rest, hamount, hsum, rfl⟩
        exact ⟨amount, rest - a, hamount, (ih hrest h).mp hsum, by omega⟩
      · rintro ⟨amount, rest, hamount, hsum, heq⟩
        refine ⟨amount, rest + a, hamount, (ih hrest h).mpr ?_, by omega⟩
        rw [hsum, add_sub_cancel_right]
    · have hcounted : o.status ∈ [OrderStatus.filled, .canceled] := by
        revert ho hfailed
        cases o.status <;> simp [terminalStatuses]
      obtain ⟨amount, rest, hamount, hsum, rfl⟩ := (amountOf_cons_of_mem hcounted).mp h
      rw [amountOf_cons_of_not_mem (by simp [hfailed])]
      constructor
      · rintro ⟨amount', rest', hamount', hsum', rfl⟩
        obtain rfl : amount' = amount := Except.ok.inj (hamount'.symm.trans hamount)
        rw [(ih hrest hsum).mp hsum']
        congr 1
        omega
      · intro hfail
        refine ⟨amount, b - amount, hamount, (ih hrest hsum).mpr ?_, by omega⟩
        rw [hfail]
        congr 1
        omega

end Amounts

/-! ## The looks of a wait -/

/-- The rows that a look at the orders answered. -/
def fillLook : Entry → Option (List Order)
  | (_, ⟨.ordersByIds _, r⟩) => r.toOption
  | _ => none

def fillLooks (h : Calls) : List (List Order) := h.filterMap fillLook

def clockLook : Entry → Option Instant
  | (_, ⟨.now, r⟩) => r.toOption
  | _ => none

def clockLooks (h : Calls) : List Instant := h.filterMap clockLook

/-- The rows of the last look; before the first one nothing is counted. -/
def lastLook (looks : List (List Order)) : List Order := looks.getLast?.getD []

/-- The result says what is stored. -/
structure Truthful (rows : List Order) (result : FillResult) : Prop where
  filled : result.filledOrders = countStatus .filled rows
  canceled : result.canceledOrders = countStatus .canceled rows
  failed : result.failedOrders = countStatus .failed rows
  amount : amountOf terminalStates rows = .ok result.totalFilledAmount
  timedOut : result.timedOut = false ↔ ∀ o ∈ rows, Terminal o.status

/-- What a poll counted is what the rows of a later look come to, the filled orders apart. -/
structure Unchanged (polled rows : List Order) : Prop where
  canceled : countStatus .canceled polled = countStatus .canceled rows
  failed : countStatus .failed polled = countStatus .failed rows
  amount : amountOf [.filled, .canceled] polled = amountOf terminalStates rows

/-- The last look at the clock was over the time of the wait. -/
def Expired (g : OrderGenerator) (clock : List Instant) : Prop :=
  g.fillTimeoutSeconds * 1000000 ≤ clock.getLast?.getD 0 - clock.head?.getD 0

instance (g : OrderGenerator) (clock : List Instant) : Decidable (Expired g clock) :=
  inferInstanceAs (Decidable (_ ≤ _))

/-- How the looks after the polls `polled` counts for agree with it: the last poll itself when
the time was not over, else the look after the timeout, and the one of the cancellation. -/
def AgreeAfter (g : OrderGenerator) (clock : List Instant) (polled : List Order) :
    List (List Order) → Prop
  | [last] => if Expired g clock then Unchanged polled last else amountOf [.failed] last = .ok 0
  | [reread, last] =>
    Unchanged polled last ∧ countStatus .filled reread = countStatus .filled last ∧
      ∃ o ∈ last, ¬Terminal o.status
  | _ => False

/-- The looks of a wait agree. The wait looks at the clock when it starts, before every poll
and when the time is over. -/
def LooksAgree (g : OrderGenerator) (h : Calls) : Prop :=
  let polls := (clockLooks h).length - 2
  AgreeAfter g (clockLooks h) (lastLook ((fillLooks h).take polls)) ((fillLooks h).drop polls)

section Looks
variable {h h' : Calls} {n : ℕ} {o : Op} {r : Except PyExc (Ans o)}

theorem fillLooks_append : fillLooks (h ++ [(n, ⟨o, r⟩)]) =
    fillLooks h ++ (fillLook (n, ⟨o, r⟩)).toList := by
  rw [fillLooks, List.filterMap_append, List.filterMap_cons]
  cases fillLook (n, ⟨o, r⟩) <;> rfl

theorem clockLooks_append : clockLooks (h ++ [(n, ⟨o, r⟩)]) =
    clockLooks h ++ (clockLook (n, ⟨o, r⟩)).toList := by
  rw [clockLooks, List.filterMap_append, List.filterMap_cons]
  cases clockLook (n, ⟨o, r⟩) <;> rfl

/-- A call that looks neither at the orders nor at the clock. -/
def LooksAway (o : Op) : Prop := (∀ ids, o ≠ .ordersByIds ids) ∧ o ≠ .now

/-- What a program that looks away leaves of the looks. -/
def SameLooks (h h' : Calls) : Prop := fillLooks h' = fillLooks h ∧ clockLooks h' = clockLooks h

theorem SameLooks.append (hs : SameLooks h h') (ho : LooksAway o) :
    SameLooks h (h' ++ [(n, ⟨o, r⟩)]) := by
  have hfill : fillLook (n, ⟨o, r⟩) = none := by
    cases o
    case ordersByIds ids => exact absurd rfl (ho.1 ids)
    all_goals rfl
  have hclock : clockLook (n, ⟨o, r⟩) = none := by
    cases o
    case now => exact absurd rfl ho.2
    all_goals rfl
  constructor
  · rw [fillLooks_append, hfill, hs.1, Option.toList_none, List.append_nil]
  · rw [clockLooks_append, hclock, hs.2, Option.toList_none, List.append_nil]

theorem along_sameLooks {α : Type} {p : Program α} (hp : Safe (fun _ o => LooksAway o) h p) :
    Along (fun _ _ => True) (fun h' _ => SameLooks h h') h p := by
  have hstart : SameLooks h h := ⟨rfl, rfl⟩
  have hkept : Along (fun h' o => SameLooks h h' ∧ LooksAway o) (fun h' _ => SameLooks h h' ∧ True) h p :=
    hp.keeping (fun _ _ _ _ hs ho => hs.append ho) hstart
  exact hkept.mono (fun _ _ _ => trivial) fun _ _ hr => hr.1

theorem safe_cancelUnfilledOrder {order : Order} :
    Safe (fun _ o => LooksAway o) h (cancelUnfilledOrder order) := by
  unfold cancelUnfilledOrder
  extract_lets remaining
  split
  · exact safe_pure _
  · refine safe_perform_bind ⟨nofun, nofun⟩ fun _ _ => ?_
    refine safe_perform_bind ⟨nofun, nofun⟩ fun _ _ => ?_
    exact safe_perform_bind ⟨nofun, nofun⟩ fun _ _ => safe_pure _

theorem safe_collect_cancelUnfilledOrder {rows : List Order} :
    Safe (fun _ o => LooksAway o) h (collect cancelUnfilledOrder rows) := by
  have hrounds : Along (fun _ o => LooksAway o)
      (fun _ r => ∀ ys, r = .ok ys → ∀ y ∈ ys, True) h (collect cancelUnfilledOrder rows) := by
    refine along_collect (P := fun _ _ => True) (fun _ _ _ _ _ => trivial) fun order _ h' _ => ?_
    exact safe_cancelUnfilledOrder.mono (fun _ _ ho => ho) fun _ _ _ _ _ => trivial
  exact hrounds.safe

/-- A look at the orders. -/
theorem along_orders_look {ids : List OrderId} :
    Along (fun _ _ => True) (fun h' r => ∀ rows, r = .ok rows →
        fillLooks h' = fillLooks h ++ [rows] ∧ clockLooks h' = clockLooks h) h
      (Op.perform (.ordersByIds ids)) := by
  refine .perform trivial ?_
  rintro n r rows rfl
  rw [fillLooks_append, clockLooks_append]
  exact ⟨rfl, List.append_nil _⟩

/-- A look at the clock. -/
theorem along_clock_look :
    Along (fun _ _ => True) (fun h' r => ∀ time, r = .ok time →
        fillLooks h' = fillLooks h ∧ clockLooks h' = clockLooks h ++ [time]) h
      (Op.perform .now) := by
  refine .perform trivial ?_
  rintro n r time rfl
  rw [fillLooks_append, clockLooks_append]
  exact ⟨List.append_nil _, rfl⟩

/-- The cancellation looks once at the orders. -/
theorem along_cancelUnfilledOrders_looks {ids : List OrderId} :
    Along (fun _ _ => True) (fun h' r => ∀ n, r = .ok n → ∃ rows,
        fillLooks h' = fillLooks h ++ [rows] ∧ clockLooks h' = clockLooks h) h
      (cancelUnfilledOrders ids) := by
  unfold cancelUnfilledOrders
  refine along_orders_look.bind (fun h₁ rows _ hlook => ?_) (by rintro _ _ _ _ _ ⟨⟩)
  obtain ⟨hfill, hclock⟩ := hlook rows rfl
  have haway : Safe (fun _ o => LooksAway o) h₁ (collect cancelUnfilledOrder rows >>= fun cancels =>
      Op.perform (.insertOrders cancels) >>= fun _ => pure cancels.length) := by
    refine safe_collect_cancelUnfilledOrder.bind fun h₂ cancels _ => ?_
    exact safe_perform_bind ⟨nofun, nofun⟩ fun _ _ => safe_pure _
  refine (along_sameLooks haway).mono (fun _ _ hq => hq) ?_
  rintro h₂ r ⟨hfill', hclock'⟩ n -
  exact ⟨rows, by rw [hfill', hfill], by rw [hclock', hclock]⟩

theorem looksAgree_iff {g : OrderGenerator} {polls after : List (List Order)}
    (hfill : fillLooks h = polls ++ after) (hclock : (clockLooks h).length = polls.length + 2) :
    LooksAgree g h ↔ AgreeAfter g (clockLooks h) (lastLook polls) after := by
  have hpolls : (clockLooks h).length - 2 = polls.length := by omega
  simp only [LooksAgree, hpolls, hfill, List.take_left, List.drop_left]

end Looks

/-! ## The result -/

/-- What a poll has counted. -/
structure Counted (rows : List Order) (result : FillResult) : Prop where
  filled : result.filledOrders = countStatus .filled rows
  canceled : result.canceledOrders = countStatus .canceled rows
  failed : result.failedOrders = countStatus .failed rows
  amount : amountOf [.filled, .canceled] rows = .ok result.totalFilledAmount
  timedOut : result.timedOut = false

theorem counted_of_tally {total : ℕ} {rows : List Order} {result : FillResult}
    (h : tally total rows = .ok result) : Counted rows result := by
  unfold tally at h
  obtain ⟨amounts, hamounts, h⟩ := of_bind_ok h
  obtain rfl := Except.ok.inj h
  exact ⟨rfl, rfl, rfl, amountOf_of_mapM hamounts, rfl⟩

section Result
variable {polled reread rows : List Order} {result : FillResult}

theorem unchanged_iff (hc : Counted polled result) :
    Unchanged polled rows ↔ result.canceledOrders = countStatus .canceled rows ∧
      result.failedOrders = countStatus .failed rows ∧
      amountOf terminalStates rows = .ok result.totalFilledAmount := by
  rw [hc.canceled, hc.failed, ← hc.amount]
  constructor
  · intro h
    exact ⟨h.canceled, h.failed, h.amount.symm⟩
  · rintro ⟨hcanceled, hfailed, hamount⟩
    exact ⟨hcanceled, hfailed, hamount.symm⟩

theorem terminal_of_ended (hall : ∀ o ∈ rows, o.status ∈ terminalStatuses) (o : Order)
    (ho : o ∈ rows) : Terminal o.status := by
  have hended := hall o ho
  revert hended
  cases o.status <;> simp [terminalStatuses, Terminal, terminalStates]

/-- A poll that finds all orders ended misses the amounts of the failed ones. -/
theorem truthful_poll_iff (hall : ∀ o ∈ rows, o.status ∈ terminalStatuses) (hc : Counted rows result) :
    Truthful rows result ↔ amountOf [.failed] rows = .ok 0 := by
  have hamount := amountOf_terminalStates_iff (b := result.totalFilledAmount) hall hc.amount
  rw [sub_self] at hamount
  rw [← hamount]
  constructor
  · intro h
    exact h.amount
  · intro h
    exact ⟨hc.filled, hc.canceled, hc.failed, h, ⟨fun _ => terminal_of_ended hall, fun _ => hc.timedOut⟩⟩

/-- A second look that finds all orders ended recounts the filled ones only. -/
theorem truthful_reread_iff (hall : ∀ o ∈ rows, o.status ∈ terminalStatuses)
    (hc : Counted polled result) :
    Truthful rows { result with filledOrders := countStatus .filled rows, timedOut := false } ↔
      Unchanged polled rows := by
  rw [unchanged_iff hc]
  constructor
  · intro h
    exact ⟨h.canceled, h.failed, h.amount⟩
  · rintro ⟨hcanceled, hfailed, hamount⟩
    exact ⟨rfl, hcanceled, hfailed, hamount, ⟨fun _ => terminal_of_ended hall, fun _ => rfl⟩⟩

/-- The look of the cancellation is not counted at all. -/
theorem truthful_cancel_iff (hc : Counted polled result) (canceledByTimeout : ℕ) :
    Truthful rows { result with
        filledOrders := countStatus .filled reread, timedOut := true, canceledByTimeout } ↔
      Unchanged polled rows ∧ countStatus .filled reread = countStatus .filled rows ∧
        ∃ o ∈ rows, ¬Terminal o.status := by
  rw [unchanged_iff hc]
  constructor
  · intro h
    refine ⟨⟨h.canceled, h.failed, h.amount⟩, h.filled, ?_⟩
    by_contra hended
    have hall (o) (ho : o ∈ rows) : Terminal o.status := by
      by_contra hopen
      exact hended ⟨o, ho, hopen⟩
    exact absurd (h.timedOut.mpr hall) (by simp)
  · rintro ⟨⟨hcanceled, hfailed, hamount⟩, hfilled, o, ho, hopen⟩
    refine ⟨hfilled, hcanceled, hfailed, hamount, ?_⟩
    constructor
    · intro hfalse
      exact absurd hfalse (by simp)
    · intro hended
      exact absurd (hended o ho) hopen

end Result

/-! ## The wait -/

/-- The result is true of the last look exactly when the looks agree. -/
def Reports (g : OrderGenerator) (h : Calls) (result : FillResult) : Prop :=
  ∃ last, (fillLooks h).getLast? = some last ∧ (Truthful last result ↔ LooksAgree g h)

section Wait
variable {g : OrderGenerator} {ids : List OrderId} {result : FillResult} {h : Calls}

theorem along_finishTimeout_reports (hclock : (clockLooks h).length = (fillLooks h).length + 2)
    (hexpired : Expired g (clockLooks h)) (hc : Counted (lastLook (fillLooks h)) result) :
    Along (fun _ _ => True) (fun h' r => ∀ a, r = .ok a → Reports g h' a) h
      (finishTimeout ids result) := by
  unfold finishTimeout
  refine along_orders_look.bind (fun h₁ reread _ hlook => ?_) (by rintro _ _ _ _ _ ⟨⟩)
  obtain ⟨hfill, hclock₁⟩ := hlook reread rfl
  have hlength : (clockLooks h₁).length = (fillLooks h).length + 2 := by rw [hclock₁, hclock]
  simp only
  split
  · next hended =>
    rw [along_pure]
    rintro a ⟨⟩
    refine ⟨reread, by rw [hfill, List.getLast?_concat], ?_⟩
    rw [looksAgree_iff hfill hlength, AgreeAfter, if_pos (hclock₁ ▸ hexpired)]
    exact truthful_reread_iff hended hc
  · refine along_cancelUnfilledOrders_looks.bind (fun h₂ canceled _ hcancel => ?_)
      (by rintro _ _ _ _ _ ⟨⟩)
    obtain ⟨last, hfill₂, hclock₂⟩ := hcancel canceled rfl
    rw [hfill, List.append_assoc, List.singleton_append] at hfill₂
    rw [along_pure]
    rintro a ⟨⟩
    refine ⟨last, by rw [hfill₂]; simp, ?_⟩
    rw [looksAgree_iff hfill₂ (by rw [hclock₂, hlength]), AgreeAfter]
    exact truthful_cancel_iff hc canceled

theorem along_pollFills_reports {start : Instant} (n : ℕ)
    (hstart : (clockLooks h).head? = some start)
    (hclock : (clockLooks h).length = (fillLooks h).length + 1)
    (hc : Counted (lastLook (fillLooks h)) result) :
    Along (fun _ _ => True) (fun h' r => ∀ a, r = .ok a → Reports g h' a) h
      (pollFills g ids start n result) := by
  induction n generalizing h result with
  | zero =>
    rw [pollFills, along_raise]
    rintro a ⟨⟩
  | succ n ih =>
    rw [pollFills]
    refine along_clock_look.bind (fun h₁ now _ hlook => ?_) (by rintro _ _ _ _ _ ⟨⟩)
    obtain ⟨hfill, hclock₁⟩ := hlook now rfl
    have hhead : (clockLooks h₁).head? = some start := by
      rw [hclock₁, List.head?_append, hstart, Option.some_or]
    have hlength : (clockLooks h₁).length = (fillLooks h₁).length + 2 := by
      rw [hclock₁, hfill, List.length_append, hclock]
      rfl
    have hexpired : Expired g (clockLooks h₁) ↔ g.fillTimeoutSeconds * 1000000 ≤ now - start := by
      rw [Expired, hhead, hclock₁, List.getLast?_concat]
      rfl
    split
    · next hover =>
      exact along_finishTimeout_reports hlength (hexpired.mpr hover) (by rw [hfill]; exact hc)
    · next hintime =>
      refine along_orders_look.bind (fun h₂ rows _ hlook => ?_) (by rintro _ _ _ _ _ ⟨⟩)
      obtain ⟨hfill₂, hclock₂⟩ := hlook rows rfl
      have hlast : lastLook (fillLooks h₂) = rows := by
        rw [hfill₂, lastLook, List.getLast?_concat, Option.getD_some]
      refine Along.ofExcept_bind (fun counted htally => ?_) (by rintro _ _ _ ⟨⟩)
      have hcounted := counted_of_tally htally
      split
      · next hended =>
        rw [along_pure]
        rintro a ⟨⟩
        refine ⟨rows, by rw [hfill₂, List.getLast?_concat], ?_⟩
        rw [looksAgree_iff hfill₂ (by rw [hclock₂, hlength]), AgreeAfter,
          if_neg (by rw [hclock₂, hexpired]; exact hintime)]
        exact truthful_poll_iff hended hcounted
      · refine ih (by rw [hclock₂, hhead]) ?_ (by rw [hlast]; exact hcounted)
        rw [hclock₂, hfill₂, hlength, List.length_append]
        rfl

/-- What a wait returns is true of its last look at the orders exactly when its looks agree. -/
theorem along_waitForFills_reports (g : OrderGenerator) (ids : List OrderId) (polls : ℕ) :
    Along (fun _ _ => True) (fun h r => ∀ result, r = .ok result → ∃ last,
        (fillLooks h).getLast? = some last ∧ (Truthful last result ↔ LooksAgree g h)) []
      (waitForFills g ids polls) := by
  unfold waitForFills
  refine along_clock_look.bind (fun h₁ start _ hlook => ?_) (by rintro _ _ _ _ _ ⟨⟩)
  obtain ⟨hfill, hclock⟩ := hlook start rfl
  have hnone : fillLooks h₁ = [] := hfill
  have hone : clockLooks h₁ = [start] := hclock
  refine along_pollFills_reports polls (by rw [hone]; rfl) (by rw [hone, hnone]; rfl) ?_
  rw [hnone]
  exact ⟨rfl, rfl, rfl, rfl, rfl⟩

/-- An order that failed after three of its shares were filled: the wait reports no amount. -/
theorem failed_order_unpaid :
    let order : Order := { Order.sample 7 .failed with
      filledQty := 3, avgFillPrice := some (.finite 100) }
    let w := World.holding [order] []
    ∃ result, (run (World.handle Env.quiet) (waitForFills ⟨.market, "", "", false, 900⟩ [7] 1) w).1 =
        .ok result ∧ ¬Truthful w.orders.rows result := by
  intro order w
  have hrun : (run (World.handle Env.quiet) (waitForFills ⟨.market, "", "", false, 900⟩ [7]
      1) w).1.toOption.map (·.totalFilledAmount) = some 0 := by decide +kernel
  obtain ⟨result, hresult, hnothing⟩ := Option.map_eq_some_iff.mp hrun
  refine ⟨result, ok_of_toOption hresult, fun h => ?_⟩
  have hamount : (amountOf terminalStates w.orders.rows).toOption = some 300 := by decide +kernel
  rw [h.amount, hnothing] at hamount
  exact absurd hamount (by decide)

end Wait

end Autotrading.OrderGenerator
