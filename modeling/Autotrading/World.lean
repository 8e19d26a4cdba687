import Autotrading.KisMessages
import Autotrading.MarketCalendar
import Autotrading.Program

/-!
# The world the tasks run in

The stores of the system (PostgreSQL, Redis, the Celery queues), the calls made on
them and on the broker, and what each call does. An `UPDATE` or `INSERT` is one
call with its `COMMIT`: until then it is invisible to others, and a crash before
the commit leaves what a crash before the statement leaves. Everything outside the
stores answers out of an environment, as a function of the number of calls made.
-/
namespace Autotrading

/-! ## Stores -/

/-- A message in a Celery queue. The order id of a tracking message is `none` when
the text sent is `"None"`. -/
inductive Message
  | processOrder (id : OrderId)
  | processOrderStatus (id : Option OrderId) (attempt : ℕ) (firstTrackedAt : Option Instant)
  | captureRebalanceSnapshot (rebalanceId : RebalanceId)
  deriving DecidableEq

/-- A row of `portfolio_snapshots` with its holdings. -/
structure PortfolioSnapshot where
  id : ℕ
  rebalanceId : Option RebalanceId
  cashAmount : ℤ
  holdings : List (String × ℤ)
  deriving DecidableEq

def PortfolioSnapshot.fits (s : PortfolioSnapshot) : Bool :=
  Order.fitsInteger s.cashAmount && s.holdings.all fun h => Order.fitsInteger h.2

abbrev PortfolioSnapshot.Fits (s : PortfolioSnapshot) : Prop := s.fits = true

abbrev SnapshotTable : Type :=
  KeyedTable PortfolioSnapshot ℕ PortfolioSnapshot.id PortfolioSnapshot.Fits

/-- `REBALANCE_STATUS`. -/
inductive RebalanceStatus
  | running
  | completed
  | failed
  deriving DecidableEq

/-- A row of `rebalances`. A row that its session has flushed is `committed`, and
visible to others, from the next commit of the session on. -/
structure Rebalance where
  id : RebalanceId
  executedAt : Instant
  dryRun : Bool
  status : RebalanceStatus := .running
  errorMessage : Option String := none
  committed : Bool := false
  deriving DecidableEq

/-- The stores, with four logs: the messages ever sent, the order requests that
reached the broker, the ids drawn for rebalances, and the number of calls made. The
lock of the automatic rebalance holds the instant at which it expires. -/
structure World where
  orders : OrderTable
  snapshots : SnapshotTable
  killSwitch : Option String
  recoveryLock : Bool
  queue : List Message
  sent : List Message
  requests : List (BrokerRequest × HttpOutcome)
  rebalances : List RebalanceId
  tick : ℕ
  records : List Rebalance := []
  rebalanceLock : Option Instant := none

/-- `settings.KIS_ACCOUNT_NO` and `settings.KIS_ACCOUNT_PRODUCT_CODE`, the hours of
`rebalance_settings`, and of the libraries the market calendar and the exceptions of a
query after which its transaction is aborted: not those of opening a connection. -/
structure Settings where
  kisAccountNo : String
  kisAccountProductCode : String
  rebalanceStart : ℤ
  rebalanceEnd : ℤ
  calendar : KrxCalendar
  aborts : PyExc → Bool

/-! ## Calls -/

inductive Op
  | selectOrder (id : Option OrderId)
  | existsChildOrders (parentOrderId : OrderId)
  | ordersByRebalanceId (rebalanceId : RebalanceId)
  | ordersByIds (ids : List OrderId)
  | recoverableSubmitOrders
  | recoverableTrackingOrders
  | flushOrder (o : Order)
  | insertOrders (os : List Order)
  | updateOrder (u : OrderUpdate)
  | commit
  | rollback
  | snapshotIdByRebalance (rebalanceId : RebalanceId)
  | insertSnapshot (s : PortfolioSnapshot)
  | getKillSwitch
  | setKillSwitch (value : String)
  | acquireRecoveryLock
  | releaseRecoveryLock
  | enqueue (m : Message) (countdown : ℕ)
  | publish
  | accessToken
  | post (r : BrokerRequest)
  | get (r : ExecutionsRequest)
  | holdingList
  | settlementCash
  | availableBuy
  | now
  | uuid4
  | executeStrategy
  | flushRebalance (rebalanceId : RebalanceId) (dryRun : Bool)
  | completeRebalance (rebalanceId : RebalanceId)
  | failRebalance (rebalanceId : RebalanceId) (errorMessage : String)
  | rebalanceAlert (rebalanceId : RebalanceId) (success : Bool) (errorMessage : String)
  | lastCompletedRebalance
  | rebalanceInMonth (yearAndMonth : ℤ × ℤ)
  | acquireRebalanceLock (ttlSeconds : ℤ)
  | releaseRebalanceLock
  deriving DecidableEq

/-- A `HoldingRead` of the account service. -/
structure HoldingRead where
  stockCode : String
  stockName : String
  holdingQty : String
  currentPrice : String
  evaluationAmount : String

abbrev Ans : Op → Type
  | .selectOrder _ => Option Order
  | .existsChildOrders _ => Bool
  | .ordersByRebalanceId _ => List Order
  | .ordersByIds _ => List Order
  | .recoverableSubmitOrders => List Order
  | .recoverableTrackingOrders => List Order
  | .updateOrder _ => Bool
  | .snapshotIdByRebalance _ => Option ℕ
  | .getKillSwitch => Option String
  | .acquireRecoveryLock => Bool
  | .accessToken => String
  | .post _ => HttpReply OrderAnswer
  | .get _ => HttpReply ExecutionAnswer
  | .holdingList => List HoldingRead
  | .settlementCash => String
  | .availableBuy => ℤ
  | .now => Instant
  | .uuid4 => ℕ
  | .lastCompletedRebalance => Option Instant
  | .rebalanceInMonth _ => Bool
  | .acquireRebalanceLock _ => Bool
  | _ => Unit

/-- A program of this system. -/
abbrev Program (α : Type) : Type := Prog Op Ans PyExc α

/-- Make one call and return its answer. -/
abbrev Op.perform (o : Op) : Program (Ans o) := Prog.perform o

/-- Call `f` with the keyword arguments `given`: a call that does not match the
parameters raises before the body runs. -/
def Python.Signature.call {α : Type} (f : Python.Signature) (given : List String)
    (body : Program α) : Program α :=
  match f.bind given with
  | .ok () => body
  | .error text => .raise (.other "TypeError" text)

theorem Python.Signature.call_ok {α : Type} {f : Python.Signature} {given : List String}
    (h : f.bind given = .ok ()) (body : Program α) : f.call given body = body := by
  simp [Python.Signature.call, h]

theorem Python.Signature.call_error {α : Type} {f : Python.Signature} {given : List String}
    {text : String} (h : f.bind given = .error text) (body : Program α) :
    f.call given body = .raise (.other "TypeError" text) := by
  simp [Python.Signature.call, h]

/-- The history of a task of this system. -/
abbrev Calls : Type := Prog.History Op Ans PyExc

/-- The surroundings. `fault` is the exception a call raises in place of taking
place, `refused` what the driver raises for a statement the tables refuse, and
`transactionStart` what `now()` is in the database. -/
structure Env where
  fault : ℕ → Op → Option PyExc
  refused : ℕ → PyExc
  accessToken : ℕ → String
  post : ℕ → BrokerRequest → HttpOutcome
  get : ℕ → ExecutionsRequest → HttpReply ExecutionAnswer
  holdingList : ℕ → List HoldingRead
  settlementCash : ℕ → String
  availableBuy : ℕ → ℤ
  now : ℕ → Instant
  uuid4 : ℕ → ℕ
  transactionStart : ℕ → Instant := now

namespace Rebalance

/-- The commit of a session that has stored these orders. -/
def commitWith (os : List Order) (r : Rebalance) : Rebalance :=
  if os.any fun o => o.rebalanceId = some r.id then { r with committed := true } else r

/-- The `UPDATE` of the record under the id, with its `COMMIT`. -/
def conclude (rebalanceId : RebalanceId) (status : RebalanceStatus) (errorMessage : Option String)
    (r : Rebalance) : Rebalance :=
  if r.id = rebalanceId then { r with status, errorMessage, committed := true } else r

/-- A stored live rebalance that completed. -/
def isCompleted (r : Rebalance) : Bool := r.committed && r.status = .completed && !r.dryRun

end Rebalance

namespace World

/-- The world after the count of calls has gone up. -/
def next (w : World) : World := { w with tick := w.tick + 1 }

/-- The row an insert stores. -/
def stamp (w : World) (env : Env) (o : Order) : Order :=
  { o with createdAt := env.now w.tick, orderPrice := o.orderPrice.map Order.toNumeric }

/-- The `executed_at` of the latest live rebalance that completed. -/
def lastCompleted (w : World) : Option Instant :=
  ((w.records.filter Rebalance.isCompleted).map (·.executedAt)).max?

/-- A live rebalance of the month is running or has completed. The session of the
database is in Seoul. -/
def inMonth (w : World) (month : ℤ × ℤ) : Bool :=
  w.records.any fun r => r.committed && r.status ∈ [.running, .completed] && !r.dryRun &&
    yearAndMonth (kstDate r.executedAt) = month

/-- The key of the lock of the automatic rebalance exists at `now`. -/
def rebalanceLocked (w : World) (now : Instant) : Bool := w.rebalanceLock.any fun expiry => now < expiry

/-- What a call that takes place answers and leaves. -/
def effect (env : Env) (w : World) : (o : Op) → Except PyExc (Ans o) × World
  | .selectOrder (some id) => (.ok (w.orders.get? id), w)
  | .selectOrder none => (.error (env.refused w.tick), w)
  | .existsChildOrders id => (.ok (w.orders.rows.any fun o => o.originalOrderId = some id), w)
  | .ordersByRebalanceId rid =>
    (.ok (w.orders.rows.filter fun o => o.rebalanceId = some rid), w)
  | .ordersByIds ids => (.ok (w.orders.rows.filter fun o => o.id ∈ ids), w)
  | .recoverableSubmitOrders => (.ok (w.orders.rows.filter fun o => o.status = .pending), w)
  | .recoverableTrackingOrders =>
    (.ok (w.orders.rows.filter fun o =>
      o.status ∈ [.requested, .accepted, .partialFilled] && o.brokerOrderNo.isSome), w)
  | .flushOrder o =>
    match w.orders.insert (w.stamp env o) with
    | some _ => (.ok (), w)
    | none => (.error (env.refused w.tick), w)
  | .insertOrders os =>
    match w.orders.insertAll (os.map (w.stamp env)) with
    | some t => (.ok (), { w with orders := t, records := w.records.map (.commitWith os) })
    | none => (.error (env.refused w.tick), w)
  | .updateOrder u =>
    match w.orders.execute u with
    | some (matched, t) => (.ok matched, { w with orders := t })
    | none => (.error (env.refused w.tick), w)
  | .commit => (.ok (), w)
  | .rollback => (.ok (), w)
  | .snapshotIdByRebalance rid =>
    match w.snapshots.rows.filter fun s => s.rebalanceId = some rid with
    | [] => (.ok none, w)
    | [s] => (.ok (some s.id), w)
    | _ => (.error (.other "MultipleResultsFound" "Multiple rows were found"), w)
  | .insertSnapshot s =>
    match w.snapshots.insert s with
    | some t => (.ok (), { w with snapshots := t })
    | none => (.error (env.refused w.tick), w)
  | .getKillSwitch => (.ok w.killSwitch, w)
  | .setKillSwitch value => (.ok (), { w with killSwitch := some value })
  | .acquireRecoveryLock => (.ok (!w.recoveryLock), { w with recoveryLock := true })
  | .releaseRecoveryLock => (.ok (), { w with recoveryLock := false })
  | .enqueue m _ => (.ok (), { w with queue := w.queue ++ [m], sent := w.sent ++ [m] })
  | .publish => (.ok (), w)
  | .accessToken => (.ok (env.accessToken w.tick), w)
  | .post r =>
    let outcome := env.post w.tick r
    (.ok outcome.reply, { w with requests := w.requests ++ [(r, outcome)] })
  | .get r => (.ok (env.get w.tick r), w)
  | .holdingList => (.ok (env.holdingList w.tick), w)
  | .settlementCash => (.ok (env.settlementCash w.tick), w)
  | .availableBuy => (.ok (env.availableBuy w.tick), w)
  | .now => (.ok (env.now w.tick), w)
  | .uuid4 => (.ok (env.uuid4 w.tick), w)
  | .executeStrategy => (.ok (), w)
  | .flushRebalance rid dryRun =>
    if w.records.any fun r => r.id = rid then (.error (env.refused w.tick), w)
    else
      let record : Rebalance := { id := rid, executedAt := env.transactionStart w.tick, dryRun }
      (.ok (), { w with records := w.records ++ [record] })
  | .completeRebalance rid =>
    (.ok (), { w with records := w.records.map (.conclude rid .completed none) })
  | .failRebalance rid errorMessage =>
    (.ok (), { w with records := w.records.map (.conclude rid .failed (some errorMessage)) })
  | .rebalanceAlert _ _ _ => (.ok (), w)
  | .lastCompletedRebalance => (.ok w.lastCompleted, w)
  | .rebalanceInMonth month => (.ok (w.inMonth month), w)
  | .acquireRebalanceLock ttlSeconds =>
    if w.rebalanceLocked (env.now w.tick) then (.ok false, w)
    else (.ok true, { w with rebalanceLock := some (env.now w.tick + ttlSeconds * 1000000) })
  | .releaseRebalanceLock => (.ok (), { w with rebalanceLock := none })

/-- A call fails without effect, or takes place. -/
def handle (env : Env) : Prog.Handler Op Ans PyExc World := fun o w =>
  match env.fault w.tick o with
  | some e => (.error e, w.next)
  | none => ((w.effect env o).1, (w.effect env o).2.next)

end World

end Autotrading
