import Autotrading.Pipeline
import Autotrading.RebalanceExecutor
import Autotrading.StoreEffects

/-!
# Failures of data in a rebalance

A code whose price history did not load gets no BUY, and a universe that came out empty
gets none at all. The diff sells whatever is held without a BUY, and nothing between the
strategy and the orders reads `metadata["error"]`.
-/
namespace Autotrading

open Prog (run ofExcept collect)

/-! ## The orders of a list -/

namespace OrderGenerator

theorem run_createOrderRequest {env : Env} (huuid : ∀ n, env.fault n .uuid4 = none)
    (g : OrderGenerator) (rid : RebalanceId) (action : OrderAction) (item : PositionDiffItem)
    (w : World) :
    ∃ r w', run (World.handle env) (createOrderRequest g rid action item) w = (.ok r, w') ∧
      w'.orders = w.orders ∧ w'.sent = w.sent ∧ (r = none ↔ item.orderQty ≤ 0) := by
  by_cases hqty : item.orderQty ≤ 0
  · exact ⟨none, w, by rw [createOrderRequest, if_pos hqty, Prog.run_pure], rfl, rfl, by simp [hqty]⟩
  · have hdraw : World.handle env .uuid4 w = (.ok (env.uuid4 w.tick), w.next) := by
      simp [World.handle, huuid, World.effect]
    have hrun : ∃ r, run (World.handle env) (createOrderRequest g rid action item) w =
        (.ok (some r), w.next) := by
      rw [createOrderRequest, if_neg hqty, Prog.run_bind, Prog.run_perform, hdraw]
      exact ⟨_, rfl⟩
    obtain ⟨r, hr⟩ := hrun
    exact ⟨some r, w.next, hr, rfl, rfl, by simp [hqty]⟩

/-- Making the orders of a list touches no store, and gives none when no item has shares. -/
theorem run_orderRequests {env : Env} (huuid : ∀ n, env.fault n .uuid4 = none)
    (g : OrderGenerator) (rid : RebalanceId) (action : OrderAction) (items : List PositionDiffItem)
    (w : World) :
    ∃ rs w', run (World.handle env) (collect (createOrderRequest g rid action) items) w =
        (.ok rs, w') ∧
      w'.orders = w.orders ∧ w'.sent = w.sent ∧ (rs = [] ↔ ∀ i ∈ items, i.orderQty ≤ 0) := by
  induction items generalizing w with
  | nil => exact ⟨[], w, rfl, rfl, rfl, by simp⟩
  | cons item items ih =>
    obtain ⟨r, w₁, hrun, horders, hsent, hnone⟩ := run_createOrderRequest huuid g rid action item w
    obtain ⟨rs, w₂, hrun', horders', hsent', hnil⟩ := ih w₁
    refine ⟨r.toList ++ rs, w₂, ?_, horders'.trans horders, hsent'.trans hsent, ?_⟩
    · simp only [collect, Prog.run_bind, hrun, hrun', Prog.run_pure]
    · rw [List.append_eq_nil_iff, Option.toList_eq_nil_iff, hnone, hnil, List.forall_mem_cons]

theorem submitPhase_nil (g : OrderGenerator) (polls : ℕ) : submitPhase g [] polls = pure () := by
  simp only [submitPhase, Prog.forEach, ne_eq, not_true, false_and, if_false]
  rfl

/-- Without orders and without codes to buy there is nothing to submit. -/
theorem submitOrders_nil (g : OrderGenerator) {plan : RebalancePlan} (hbuy : plan.buyCodes = []) :
    submitOrders g plan [] [] = pure () := by
  simp only [submitOrders, hbuy, submitPhase_nil, ne_eq, not_true, false_and, and_false, if_false]
  exact submitPhase_nil g plan.polls

end OrderGenerator

/-! ## What the executor reports -/

namespace RebalanceExecutor

variable (x : RebalanceExecutor) (result : StrategyResult) (answers : SubmitAnswers)
  (dryRun : Bool) (rebalanceId : RebalanceId) (polls : ℕ) (env : Env) (w : World)

/-- `submit` always returns, and reports the diff that it could compute. -/
theorem run_submit_diff :
    ∃ r w', run (World.handle env) (x.submit result answers dryRun rebalanceId polls) w =
        (.ok r, w') ∧ r.diffResult = (x.diff result answers).toOption := by
  unfold submit
  cases hdiff : x.diff result answers with
  | error e => exact ⟨_, w, rfl, rfl⟩
  | ok d =>
    cases dryRun with
    | true => exact ⟨_, w, rfl, rfl⟩
    | false =>
      simp only [Bool.false_eq_true, if_false, Prog.run_attempt]
      split
      · exact ⟨_, _, rfl, rfl⟩
      · rw [Prog.run_attempt]
        split
        · exact ⟨_, _, rfl, rfl⟩
        · exact ⟨_, _, rfl, rfl⟩

/-- No order was generated, stored or sent. -/
structure NoOrder (r : RebalanceResult) (w w' : World) : Prop where
  generated : ∀ sells buys, r.orderResult = some (sells, buys) → sells = [] ∧ buys = []
  stored : w'.orders = w.orders
  sent : w'.sent = w.sent

variable {result answers dryRun env}

theorem diff_nil (hnil : result.orders = []) {d : DiffResult} (hd : x.diff result answers = .ok d) :
    ∃ raw holdings cash, answers.holdingList = .ok raw ∧ raw.mapM currentHolding = .ok holdings ∧
      answers.availableBuy = .ok cash ∧
      d = x.diffCalculator.calculate [] [] holdings cash .empty .empty := by
  obtain ⟨raw, hraw, hd⟩ := of_bind_ok hd
  obtain ⟨holdings, hholdings, hd⟩ := of_bind_ok hd
  obtain ⟨cash, hcash, hd⟩ := of_bind_ok hd
  obtain rfl := Except.ok.inj hd
  exact ⟨raw, holdings, cash, hraw, hholdings, hcash, by
    simp [buyCodes, buyIntents, priceMap, nameMap, hnil, Dict.ofList]⟩

/-- A live run on a result without orders: it generates sells exactly when some position
it finds has shares, and otherwise touches no order. -/
theorem run_submit_nil (huuid : ∀ n, env.fault n .uuid4 = none) (hnil : result.orders = [])
    {d : DiffResult} (hd : x.diff result answers = .ok d) (hrecorded : answers.recorded = .ok ()) :
    ∃ r w' sells, run (World.handle env) (x.submit result answers false rebalanceId polls) w =
        (.ok r, w') ∧ r.orderResult = some (sells, []) ∧
      (sells = [] ↔ ∀ i ∈ d.sellList, i.orderQty ≤ 0) ∧
      (sells = [] → w'.orders = w.orders ∧ w'.sent = w.sent) := by
  obtain ⟨raw, holdings, cash, -, -, -, hcalc⟩ := diff_nil x hnil hd
  have hbuys : (plan result d rebalanceId polls).diff.buyList = [] := by
    rw [hcalc]
    rfl
  have hcodes : (plan result d rebalanceId polls).buyCodes = [] := by
    simp [plan, buyCodes, buyIntents, hnil]
  obtain ⟨sells, w₁, hrun, horders, hsent, hsells⟩ := OrderGenerator.run_orderRequests huuid
    x.orderGenerator rebalanceId .sell (d.sellList.map (·.toPositionDiffItem)) w
  have hgenerate : run (World.handle env) (do
      ofExcept answers.recorded
      x.orderGenerator.generateOrders (plan result d rebalanceId polls)) w =
        (.ok (sells, []), w₁) := by
    have hsell : (plan result d rebalanceId polls).diff.sellList =
        d.sellList.map (·.toPositionDiffItem) := rfl
    have hid : (plan result d rebalanceId polls).rebalanceId = rebalanceId := rfl
    simp only [hrecorded, Prog.run_bind, Prog.run_ofExcept, OrderGenerator.generateOrders, hid,
      hsell, hrun, hbuys, collect, Prog.run_pure]
  obtain ⟨answer, w₂, hsubmit, hquiet⟩ : ∃ answer w₂, run (World.handle env) (do
      x.orderGenerator.submitOrders (plan result d rebalanceId polls) sells []
      Op.perform .commit) w₁ = (answer, w₂) ∧
        (sells = [] → w₂.orders = w₁.orders ∧ w₂.sent = w₁.sent) := by
    refine ⟨_, _, rfl, ?_⟩
    rintro rfl
    rw [OrderGenerator.submitOrders_nil x.orderGenerator hcodes, Prog.run_bind, Prog.run_pure]
    simp only [Prog.run_perform]
    exact ⟨World.orders_handle (by simp) (by simp), World.sent_handle (by simp)⟩
  have hsells' : sells = [] ↔ ∀ i ∈ d.sellList, i.orderQty ≤ 0 := by
    rw [hsells]
    simp
  have hkept : sells = [] → w₂.orders = w.orders ∧ w₂.sent = w.sent := fun hs =>
    ⟨(hquiet hs).1.trans horders, (hquiet hs).2.trans hsent⟩
  cases answer with
  | error e =>
    refine ⟨_, w₂, sells, by
      simp only [submit, hd, Bool.false_eq_true, if_false, Prog.run_attempt, hgenerate, hsubmit]
      rfl, rfl, hsells', hkept⟩
  | ok u =>
    refine ⟨_, w₂, sells, by
      simp only [submit, hd, Bool.false_eq_true, if_false, Prog.run_attempt, hgenerate, hsubmit]
      rfl, rfl, hsells', hkept⟩

theorem noOrder_of_none {r : RebalanceResult} (h : r.orderResult = none) : NoOrder r w w where
  generated sells buys hr := by
    rw [h] at hr
    cases hr
  stored := rfl
  sent := rfl

/-- A result without orders issues none when no position is found, and only then. -/
theorem noOrder_iff (huuid : ∀ n, env.fault n .uuid4 = none) (hnil : result.orders = []) :
    (∀ r w', run (World.handle env) (x.submit result answers dryRun rebalanceId polls) w =
        (.ok r, w') → NoOrder r w w') ↔
      ∀ d, x.diff result answers = .ok d → dryRun = false → answers.recorded = .ok () →
        ∀ i ∈ d.sellList, i.orderQty ≤ 0 := by
  constructor
  · rintro h d hd rfl hrecorded
    obtain ⟨r, w', sells, hrun, hr, hsells, -⟩ :=
      run_submit_nil x rebalanceId polls w huuid hnil hd hrecorded
    have hnone := (h r w' hrun).generated sells [] hr
    exact hsells.mp hnone.1
  · intro h r w' hrun
    cases hd : x.diff result answers with
    | error e =>
      simp only [submit, hd, Prog.run_pure, Prod.mk.injEq, Except.ok.injEq] at hrun
      obtain ⟨rfl, rfl⟩ := hrun
      exact noOrder_of_none w rfl
    | ok d =>
      cases dryRun with
      | true =>
        simp only [submit, hd, if_true, Prog.run_pure, Prod.mk.injEq, Except.ok.injEq] at hrun
        obtain ⟨rfl, rfl⟩ := hrun
        exact noOrder_of_none w rfl
      | false =>
        cases hrecorded : answers.recorded with
        | error e =>
          have hraise : run (World.handle env) (do
              ofExcept answers.recorded
              x.orderGenerator.generateOrders (plan result d rebalanceId polls)) w =
                (.error e, w) := by
            simp only [hrecorded, Prog.run_bind, Prog.run_ofExcept]
          simp only [submit, hd, Bool.false_eq_true, if_false, Prog.run_attempt, hraise,
            Prog.run_pure, Prod.mk.injEq, Except.ok.injEq] at hrun
          obtain ⟨rfl, rfl⟩ := hrun
          exact noOrder_of_none w rfl
        | ok u =>
          obtain ⟨r', w'', sells, hrun', hr, hsells, hkept⟩ :=
            run_submit_nil x rebalanceId polls w huuid hnil hd hrecorded
          rw [hrun'] at hrun
          obtain ⟨hr', rfl⟩ := Prod.mk.inj hrun
          obtain rfl := Except.ok.inj hr'
          have hnone := hsells.mpr (h d hd rfl hrecorded)
          refine ⟨?_, (hkept hnone).1, (hkept hnone).2⟩
          intro sells' buys hsome
          rw [hr] at hsome
          obtain ⟨rfl, rfl⟩ := Prod.mk.inj (Option.some.inj hsome)
          exact ⟨hnone, rfl⟩

end RebalanceExecutor

/-! ## The orchestrator -/

namespace RebalanceOrchestrator

open PiotroskiMomentumStrategy (Loaded)

/-- No failure of data became a sell: the diff sells no screened code whose history did not
load, and a result with an error is followed by no order. -/
structure NoFailureSold (x : RebalanceOrchestrator) (out : StrategyResult × RebalanceResult)
    (w w' : World) : Prop where
  unloaded : ∀ dfUniverse raw d code, x.screened = .ok dfUniverse →
    x.answers.holdingList = .ok raw → out.2.diffResult = some d →
    code ∈ dfUniverse.map Prod.fst → code ∈ raw.map (·.stockCode) →
    ¬ Loaded x.provider (dfUniverse.map Prod.fst) code → code ∉ d.sellList.map (·.stockCode)
  error : out.1.metadata.error ≠ none → RebalanceExecutor.NoOrder out.2 w w'

/-- The account was read and these are its holdings. -/
def Holds (x : RebalanceOrchestrator) (holdings : List CurrentHolding) : Prop :=
  ∃ raw cash, x.answers.holdingList = .ok raw ∧
    raw.mapM RebalanceExecutor.currentHolding = .ok holdings ∧ x.answers.availableBuy = .ok cash

/-- Each holding that passed the screening has its prices, and where nothing passed it, a
live run finds no position with shares. Of several rows for a code the last one counts. -/
def Covered (x : RebalanceOrchestrator) (dryRun : Bool) : Prop :=
  ∀ dfUniverse holdings, x.screened = .ok dfUniverse → x.Holds holdings →
    (∀ h ∈ holdings, h.stockCode ∈ dfUniverse.map Prod.fst →
      Loaded x.provider (dfUniverse.map Prod.fst) h.stockCode) ∧
    (dfUniverse = [] → dryRun = false → x.answers.recorded = .ok () →
      ∀ before h after, holdings = before ++ h :: after →
        (∀ h' ∈ after, h'.stockCode ≠ h.stockCode) → h.quantity ≤ 0)

variable {x : RebalanceOrchestrator} {year : ℤ} {dryRun : Bool} {rebalanceId : RebalanceId}
  {polls : ℕ} {env : Env} {w : World}

theorem diff_of_holds {holdings : List CurrentHolding} (h : x.Holds holdings)
    (result : StrategyResult) :
    ∃ cash, x.executor.diff result x.answers = .ok (x.executor.diffCalculator.calculate
      (RebalanceExecutor.buyCodes result) result.orders holdings cash
      (RebalanceExecutor.priceMap result) (RebalanceExecutor.nameMap result)) := by
  obtain ⟨raw, cash, hraw, hholdings, hcash⟩ := h
  exact ⟨cash, by simp only [RebalanceExecutor.diff, hraw, hholdings, hcash, bind, Except.bind]; rfl⟩

theorem holds_of_diff {result : StrategyResult} {d : DiffResult}
    (h : x.executor.diff result x.answers = .ok d) : ∃ holdings, x.Holds holdings := by
  obtain ⟨raw, hraw, h⟩ := of_bind_ok h
  obtain ⟨holdings, hholdings, h⟩ := of_bind_ok h
  obtain ⟨cash, hcash, h⟩ := of_bind_ok h
  exact ⟨holdings, raw, cash, hraw, hholdings, hcash⟩

/-- The codes held are those of the rows the account answered. -/
theorem Holds.codes {raw : List HoldingRead} {holdings : List CurrentHolding} (h : x.Holds holdings)
    (hraw : x.answers.holdingList = .ok raw) :
    holdings.map (·.stockCode) = raw.map (·.stockCode) := by
  obtain ⟨raw', cash, hraw', hholdings, -⟩ := h
  obtain rfl := Except.ok.inj (hraw.symm.trans hraw')
  refine map_of_mapM_ok hholdings fun r hr c hc => ?_
  obtain ⟨quantity, hq, hc⟩ := of_bind_ok hc
  obtain ⟨currentPrice, hp, hc⟩ := of_bind_ok hc
  obtain ⟨evalAmount, he, hc⟩ := of_bind_ok hc
  obtain rfl := Except.ok.inj hc
  rfl

/-- A run that has a strategy result submits it. -/
theorem run_of_strategy {result : StrategyResult} (h : x.executeStrategy year = .ok result)
    {r : RebalanceResult} {w' : World}
    (hr : Prog.run (World.handle env)
      (x.executor.submit result x.answers dryRun rebalanceId polls) w = (.ok r, w')) :
    Prog.run (World.handle env) (x.run year dryRun rebalanceId polls) w =
      (.ok (result, r), w') := by
  simp only [RebalanceOrchestrator.run, h, Prog.run_bind, Prog.run_ofExcept, hr, Prog.run_pure]

theorem executeStrategy_nil (year : ℤ) (h : x.screened = .ok []) :
    ∃ result, x.executeStrategy year = .ok result ∧ result.orders = [] ∧
      result.metadata.error ≠ none := by
  rw [executeStrategy, h]
  exact ⟨_, rfl, rfl, by simp⟩

/-- What is bought was loaded. -/
theorem loaded_of_bought {dfUniverse : List (String × String)} {result : StrategyResult}
    (horders : ∀ t ∈ result.orders, t.side = .buy ∧
      Loaded x.provider (dfUniverse.map Prod.fst) t.stockCode) {code : String}
    (hcode : code ∈ RebalanceExecutor.buyCodes result) :
    Loaded x.provider (dfUniverse.map Prod.fst) code := by
  obtain ⟨t, ht, rfl⟩ := List.mem_map.mp hcode
  exact (horders t (List.mem_filter.mp ht).1).2

theorem covered_of_noFailureSold (huuid : ∀ n, env.fault n .uuid4 = none)
    (h : ∀ out w', Prog.run (World.handle env) (x.run year dryRun rebalanceId polls) w =
      (.ok out, w') → NoFailureSold x out w w') : Covered x dryRun := by
  intro dfUniverse holdings hscreened hholds
  have hsubmit : ∀ {result r w'}, x.executeStrategy year = .ok result →
      Prog.run (World.handle env)
        (x.executor.submit result x.answers dryRun rebalanceId polls) w = (.ok r, w') →
      NoFailureSold x (result, r) w w' := by
    intro result r w' hresult hr
    exact h (result, r) w' (run_of_strategy hresult hr)
  constructor
  · intro position hposition hcode
    by_contra hnot
    have hne : dfUniverse ≠ [] := by
      rintro rfl
      simp at hcode
    obtain ⟨result, hresult, -, horders⟩ :=
      PiotroskiMomentumStrategy.execute_universe x.momentum x.provider year hne
    obtain ⟨r, w', hr, hdiff⟩ :=
      x.executor.run_submit_diff result x.answers dryRun rebalanceId polls env w
    obtain ⟨cash, hd⟩ := diff_of_holds hholds result
    have hsold := hsubmit (by rw [executeStrategy, hscreened, hresult]) hr
    obtain ⟨raw, -, hraw, -, -⟩ := id hholds
    have hheld : position.stockCode ∈ holdings.map (·.stockCode) :=
      List.mem_map.mpr ⟨position, hposition, rfl⟩
    refine hsold.unloaded dfUniverse raw _ position.stockCode hscreened hraw
      (by rw [hdiff, hd]; rfl) hcode (by rw [← hholds.codes hraw]; exact hheld) hnot ?_
    rw [PositionDiffCalculator.mem_sellList_codes]
    exact ⟨hheld, fun hbuy => hnot (loaded_of_bought horders hbuy)⟩
  · intro hempty hlive hrecorded before position after hsplit hafter
    rw [hempty] at hscreened
    obtain ⟨result, hresult, hnil, herror⟩ := executeStrategy_nil year hscreened
    obtain ⟨cash, hd⟩ := diff_of_holds hholds result
    have hnone := (x.executor.noOrder_iff rebalanceId polls w huuid hnil).mp
      fun r w' hr => (hsubmit hresult hr).error herror
    have hcodes : RebalanceExecutor.buyCodes result = [] := by
      simp [RebalanceExecutor.buyCodes, RebalanceExecutor.buyIntents, hnil]
    rw [hcodes] at hd
    refine hnone _ hd hlive hrecorded
      (PositionDiffCalculator.sellItem position.stockCode position) ?_
    rw [PositionDiffCalculator.mem_sellList_nil]
    exact ⟨before, position, after, hsplit, hafter, rfl⟩

theorem noFailureSold_of_covered (huuid : ∀ n, env.fault n .uuid4 = none)
    (h : Covered x dryRun) {out : StrategyResult × RebalanceResult} {w' : World}
    (hrun : Prog.run (World.handle env) (x.run year dryRun rebalanceId polls) w = (.ok out, w')) :
    NoFailureSold x out w w' := by
  cases hscreened : x.screened with
  | error e =>
    have hraise : x.executeStrategy year = .error e := by rw [executeStrategy, hscreened]; rfl
    simp only [RebalanceOrchestrator.run, hraise, Prog.run_bind, Prog.run_ofExcept] at hrun
    cases hrun
  | ok dfUniverse =>
    obtain ⟨result, hresult, hresults⟩ : ∃ result, x.executeStrategy year = .ok result ∧
        (dfUniverse = [] ∧ result.orders = [] ∨ result.metadata.error = none ∧
          ∀ t ∈ result.orders, t.side = .buy ∧
            Loaded x.provider (dfUniverse.map Prod.fst) t.stockCode) := by
      by_cases hne : dfUniverse = []
      · rw [hne] at hscreened
        obtain ⟨result, hresult, hnil, -⟩ := executeStrategy_nil year hscreened
        exact ⟨result, hresult, .inl ⟨hne, hnil⟩⟩
      · obtain ⟨result, hresult, horders⟩ :=
          PiotroskiMomentumStrategy.execute_universe x.momentum x.provider year hne
        exact ⟨result, by rw [executeStrategy, hscreened, hresult], .inr horders⟩
    obtain ⟨r, w₁, hr, hdiff⟩ :=
      x.executor.run_submit_diff result x.answers dryRun rebalanceId polls env w
    rw [run_of_strategy hresult hr, Prod.mk.injEq, Except.ok.injEq] at hrun
    obtain ⟨rfl, rfl⟩ := hrun
    constructor
    · intro dfUniverse' raw d code hscreened' hraw hd hcode hheld hnot _
      obtain rfl := Except.ok.inj (hscreened.symm.trans hscreened')
      have hok : x.executor.diff result x.answers = .ok d := by
        cases hcases : x.executor.diff result x.answers with
        | error e => simp [hdiff, hcases, Except.toOption] at hd
        | ok d' =>
          simp only [hdiff, hcases, Except.toOption, Option.some.injEq] at hd
          rw [hd]
      obtain ⟨holdings, hholds⟩ := holds_of_diff hok
      rw [← hholds.codes hraw] at hheld
      obtain ⟨position, hposition, rfl⟩ := List.mem_map.mp hheld
      exact hnot ((h dfUniverse holdings hscreened hholds).1 position hposition hcode)
    · intro herror
      rcases hresults with ⟨hempty, hnil⟩ | ⟨hnone, -⟩
      · refine (x.executor.noOrder_iff rebalanceId polls w huuid hnil).mpr ?_ r w₁ hr
        intro d hd hlive hrecorded item hitem
        obtain ⟨holdings, hholds⟩ := holds_of_diff hd
        have hquantity := (h dfUniverse holdings hscreened hholds).2 hempty hlive hrecorded
        have hcodes : RebalanceExecutor.buyCodes result = [] := by
          simp [RebalanceExecutor.buyCodes, RebalanceExecutor.buyIntents, hnil]
        obtain ⟨cash, hd'⟩ := diff_of_holds hholds result
        obtain rfl := Except.ok.inj (hd.symm.trans hd')
        rw [hcodes, PositionDiffCalculator.mem_sellList_nil] at hitem
        obtain ⟨before, position, after, hsplit, hafter, rfl⟩ := hitem
        exact hquantity before position after hsplit hafter
      · exact absurd hnone herror

/-- A failure of data becomes a sell unless every holding is covered. -/
theorem data_failure_sells_nothing_iff (x : RebalanceOrchestrator) (year : ℤ) (dryRun : Bool)
    (rebalanceId : RebalanceId) (polls : ℕ) (env : Env) (w : World)
    (huuid : ∀ n, env.fault n .uuid4 = none) :
    (∀ out w', Prog.run (World.handle env) (x.run year dryRun rebalanceId polls) w = (.ok out, w') →
      NoFailureSold x out w w') ↔ Covered x dryRun :=
  ⟨covered_of_noFailureSold huuid, fun h _ _ hrun => noFailureSold_of_covered huuid h hrun⟩

/-- One code passes the screening and ten shares of it are held; the provider answers
nothing. -/
def unloadedSample : RebalanceOrchestrator where
  momentum := ⟨120, 10, 0⟩
  screened := .ok [("005930", "Samsung")]
  provider _ _ := .error (.other "ConnectionError" "no answer")
  executor := ⟨{}, ⟨.market, "12345678", "01", false, 900⟩⟩
  answers := {
    holdingList := .ok [⟨"005930", "Samsung", "10", "70000", "700000"⟩]
    availableBuy := .ok 0
    recorded := .ok () }

/-- The same account after a screening that nothing passed. -/
def unscreenedSample : RebalanceOrchestrator := { unloadedSample with screened := .ok [] }

theorem unloadedSample_holds :
    unloadedSample.Holds [⟨"005930", "Samsung", 10, 70000, 700000⟩] :=
  ⟨_, 0, rfl, rfl, rfl⟩

theorem not_covered_unloadedSample : ¬ Covered unloadedSample false := by
  intro h
  obtain ⟨i, df, -, hdf⟩ := (h _ _ rfl unloadedSample_holds).1 _ List.mem_cons_self (by decide)
  cases hdf

theorem not_covered_unscreenedSample : ¬ Covered unscreenedSample false := by
  intro h
  have hquantity := (h _ _ rfl unloadedSample_holds).2 rfl rfl rfl [] _ [] rfl (by simp)
  simp at hquantity

/-- The held code is sold because its history did not load, and all that is held is sold
because nothing passed the screening. -/
theorem data_failure_sells :
    (¬ ∀ out w', Prog.run (World.handle .quiet) (unloadedSample.run 2025 false 1 3)
        (.holding [] []) = (.ok out, w') → NoFailureSold unloadedSample out (.holding [] []) w') ∧
      ¬ ∀ out w', Prog.run (World.handle .quiet) (unscreenedSample.run 2025 false 1 3)
        (.holding [] []) = (.ok out, w') →
          NoFailureSold unscreenedSample out (.holding [] []) w' := by
  constructor
  · intro h
    exact not_covered_unloadedSample (covered_of_noFailureSold (fun _ => rfl) h)
  · intro h
    exact not_covered_unscreenedSample (covered_of_noFailureSold (fun _ => rfl) h)

theorem data_failure_sells_nothing_iff_sample :
    ((∀ out w', Prog.run (World.handle .quiet) (unloadedSample.run 2025 false 1 3)
        (.holding [] []) = (.ok out, w') → NoFailureSold unloadedSample out (.holding [] []) w') ↔
      Covered unloadedSample false) ∧ ¬ Covered unloadedSample false :=
  ⟨data_failure_sells_nothing_iff unloadedSample 2025 false 1 3 .quiet (.holding [] [])
    (fun _ => rfl), not_covered_unloadedSample⟩

end RebalanceOrchestrator

end Autotrading
