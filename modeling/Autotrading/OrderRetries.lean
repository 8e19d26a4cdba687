import Autotrading.KisOrder
import Autotrading.Pipeline
import Autotrading.StoreEffects

/-!
# The retries of a cash order

A buy or sell call sends one request up to `HTTP_RETRY_COUNT` times and stops at the
first answer with a status 2xx. The broker creates an order for every request it
accepts, so an accepted request whose answer is an error is sent, and may be
accepted, again.
-/
namespace Autotrading.KisOrder

open Prog (run)

/-- The attempt ended the loop: its answer has a status 2xx. -/
def answered : HttpReply OrderAnswer → Bool
  | .response statusCode _ _ => is2xx statusCode
  | .requestError _ => false

/-- The attempts of a call: the same request each time, at most `n` times, and again
only after an attempt that was not answered. -/
structure Attempts (n : ℕ) (attempts : List (BrokerRequest × HttpOutcome)) : Prop where
  same : ∃ request, ∀ a ∈ attempts, a.1 = request
  bounded : attempts.length ≤ n
  retried : ∀ a ∈ attempts.dropLast, answered a.2.reply = false

theorem attempts_nil (n : ℕ) : Attempts n [] where
  same := ⟨.orderCash .buy "" "" "" "" "" "" "", by simp⟩
  bounded := Nat.zero_le n
  retried := by simp

/-- No order request fails in the client itself. -/
def PostsUp (env : Env) : Prop := ∀ n r, env.fault n (.post r) = none

/-- What the loop of a cash order comes to when it ends with this answer. -/
def cashOutcome (texts : CashTexts) : HttpReply OrderAnswer → Except PyExc (Body OrderAnswer)
  | .requestError e => .error (networkError (texts.requestFailed e) (texts.requestFailedMsg1 e))
  | .response statusCode body _ =>
    if is2xx statusCode then .ok body
    else .error (httpStatusError statusCode body (texts.httpFailed statusCode))

/-- What the loop with `n` attempts left adds to the requests that reached the broker,
and what it comes to. -/
structure Attempted (env : Env) (texts : CashTexts) (request : BrokerRequest) (n : ℕ) (w : World)
    (result : Except PyExc (Body OrderAnswer) × World) (outcomes : List HttpOutcome) : Prop where
  requests : result.2.requests = w.requests ++ outcomes.map (fun o => (request, o))
  bounded : outcomes.length ≤ n
  retried : ∀ o ∈ outcomes.dropLast, answered o.reply = false
  made : PostsUp env → 0 < n → outcomes ≠ []
  last : ∀ o, outcomes.getLast? = some o → answered o.reply = true ∨ PostsUp env →
    result.1 = cashOutcome texts o.reply

section Attempts
variable {env : Env} {texts : CashTexts} {request : BrokerRequest} {n : ℕ} {w w' : World}
  {result : Except PyExc (Body OrderAnswer) × World}

/-- The loop ends with one outcome. -/
theorem attempted_last (o : HttpOutcome) (hw' : w'.requests = w.requests ++ [(request, o)]) :
    Attempted env texts request (n + 1) w (cashOutcome texts o.reply, w') [o] where
  requests := hw'
  bounded := by simp
  retried := by simp
  made := by simp
  last := by
    intro o' ho' _
    obtain rfl : o = o' := by simpa using ho'
    rfl

/-- The loop goes on after an attempt that was not answered. -/
theorem Attempted.cons {o : HttpOutcome} {outcomes : List HttpOutcome}
    (h : Attempted env texts request n w' result outcomes) (hn : 0 < n)
    (ho : answered o.reply = false) (hw' : w'.requests = w.requests ++ [(request, o)]) :
    Attempted env texts request (n + 1) w result (o :: outcomes) where
  requests := by
    rw [h.requests, hw']
    simp
  bounded := by
    have hlen := h.bounded
    rw [List.length_cons]
    omega
  retried := by
    cases outcomes with
    | nil => simp
    | cons o' outcomes =>
      intro x hx
      rw [List.dropLast_cons_cons] at hx
      rcases List.mem_cons.mp hx with rfl | hx
      · exact ho
      · exact h.retried x hx
  made := by simp
  last := by
    intro x hx hx'
    cases outcomes with
    | nil =>
      obtain rfl : o = x := by simpa using hx
      rcases hx' with hanswered | hup
      · rw [ho] at hanswered
        cases hanswered
      · exact absurd rfl (h.made hup hn)
    | cons o' outcomes =>
      rw [List.getLast?_cons_cons] at hx
      exact h.last x hx hx'

theorem run_orderCashAttempts (env : Env) (texts : CashTexts) (request : BrokerRequest) (n : ℕ)
    (w : World) :
    ∃ outcomes, Attempted env texts request n w
      (run (World.handle env) (orderCashAttempts texts request n) w) outcomes := by
  induction n generalizing w with
  | zero => exact ⟨[], by simp [orderCashAttempts], le_refl _, by simp, by simp, by simp⟩
  | succ n ih =>
    rw [orderCashAttempts, Prog.run_bind, Prog.run_perform]
    rcases World.handle_post env w request with ⟨e, he⟩ | he
    · -- the client fails before the request is sent
      have hfault : ¬ PostsUp env := by
        intro hup
        simp [World.handle, hup w.tick request, World.effect] at he
      rw [he]
      exact ⟨[], by simp [World.next], Nat.zero_le _, by simp, fun hup => absurd hup hfault, by simp⟩
    · rw [he]
      have hmore : answered (env.post w.tick request).reply = false → n ≠ 0 → ∀ w' : World,
          w'.requests = w.requests ++ [(request, env.post w.tick request)] →
          ∃ outcomes, Attempted env texts request (n + 1) w
            (run (World.handle env) (orderCashAttempts texts request n) w') outcomes := by
        intro hfailed hn w' hw'
        obtain ⟨outcomes, hcame⟩ := ih w'
        exact ⟨_, hcame.cons (Nat.pos_of_ne_zero hn) hfailed hw'⟩
      have hlast : ∀ w' : World, w'.requests = w.requests ++ [(request, env.post w.tick request)] →
          ∃ outcomes, Attempted env texts request (n + 1) w
            (cashOutcome texts (env.post w.tick request).reply, w') outcomes :=
        fun w' hw' => ⟨_, attempted_last _ hw'⟩
      cases hreply : (env.post w.tick request).reply with
      | requestError text =>
        rw [hreply] at hmore hlast
        simp only
        split
        · exact hlast _ rfl
        · next hn => exact hmore rfl hn _ rfl
      | response statusCode body statusText =>
        rw [hreply] at hmore hlast
        simp only
        by_cases hcode : is2xx statusCode = true
        · simp only [cashOutcome, hcode, if_true] at hlast ⊢
          exact hlast _ rfl
        · rw [Bool.not_eq_true] at hcode
          simp only [cashOutcome, hcode, Bool.false_eq_true, if_false] at hlast ⊢
          split
          · exact hlast _ rfl
          · next hn => exact hmore (by simpa [answered] using hcode) hn _ rfl

end Attempts

/-- The orders that the requests sent after `sent` have created at the broker. -/
def created (sent : ℕ) (w : World) : ℕ := (w.requests.drop sent).countP fun a => a.2.accepted

theorem run_orderCash (env : Env) (texts : CashTexts) (request : BrokerRequest) (w : World) :
    ∃ attempts, (run (World.handle env) (orderCash texts request) w).2.requests =
      w.requests ++ attempts ∧ Attempts httpRetryCount attempts := by
  obtain ⟨outcomes, hreq, hlen, hret, -, -⟩ := run_orderCashAttempts env texts request
    httpRetryCount w
  refine ⟨outcomes.map fun o => (request, o), ?_, ⟨request, ?_⟩, ?_, ?_⟩
  · rw [orderCash, Prog.run_bind, ← hreq]
    rcases run (World.handle env) (orderCashAttempts texts request httpRetryCount) w with ⟨r, w'⟩
    cases r with
    | error e => rfl
    | ok body => simp
  · intro a ha
    obtain ⟨o, -, rfl⟩ := List.mem_map.mp ha
    rfl
  · simpa using hlen
  · intro a ha
    rw [← List.map_dropLast] at ha
    obtain ⟨o, ho, rfl⟩ := List.mem_map.mp ha
    exact hret o ho

/-- At most one order is created when only the last attempt may be accepted. -/
theorem countP_le_one {attempts : List (BrokerRequest × HttpOutcome)}
    (h : ∀ a ∈ attempts.dropLast, a.2.accepted = false) :
    attempts.countP (fun a => a.2.accepted) ≤ 1 := by
  rcases List.eq_nil_or_concat attempts with rfl | ⟨init, a, rfl⟩
  · simp
  · rw [List.concat_eq_append, List.dropLast_concat] at h
    have hinit : init.countP (fun a => a.2.accepted) = 0 := by
      rw [List.countP_eq_zero]
      intro b hb
      simp [h b hb]
    rw [List.concat_eq_append, List.countP_append, hinit, List.countP_singleton]
    split <;> simp

/-- One buy or sell call, whatever becomes of its attempts: it repeats one request,
at most `HTTP_RETRY_COUNT` times and only after errors, and creates as many orders as
attempts were accepted. There is at most one when no attempt but the last one was
accepted. -/
theorem orders_of_cash_call (env : Env) (w : World) (order : String → String → String → String →
      ℤ → String → Program OrderResponse)
    (accountNo accountProductCode orderType stockCode : String) (quantity : ℤ) (price : String)
    (side : order = buyDomesticStockByCash ∨ order = sellDomesticStockByCash) :
    ∃ attempts, (run (World.handle env) (order accountNo accountProductCode orderType stockCode
        quantity price) w).2.requests = w.requests ++ attempts ∧
      Attempts httpRetryCount attempts ∧
      created w.requests.length (run (World.handle env) (order accountNo accountProductCode orderType
        stockCode quantity price) w).2 = attempts.countP (fun a => a.2.accepted) ∧
      attempts.countP (fun a => a.2.accepted) ≤ httpRetryCount ∧
      ((∀ a ∈ attempts.dropLast, a.2.accepted = false) →
        attempts.countP (fun a => a.2.accepted) ≤ 1) := by
  have hcall : ∀ (texts : CashTexts) (request : String → BrokerRequest), ∃ attempts,
      (run (World.handle env)
      (Prog.ofExcept (priceText price) >>= fun p => orderCash texts (request p)) w).2.requests =
        w.requests ++ attempts ∧ Attempts httpRetryCount attempts := by
    intro texts request
    rw [Prog.run_bind, Prog.run_ofExcept]
    cases priceText price with
    | error e => exact ⟨[], by simp, attempts_nil _⟩
    | ok p => exact run_orderCash env texts (request p) w
  obtain ⟨attempts, hreq, hatt⟩ : ∃ attempts, (run (World.handle env) (order accountNo
      accountProductCode orderType stockCode quantity price) w).2.requests =
        w.requests ++ attempts ∧ Attempts httpRetryCount attempts := by
    rcases side with rfl | rfl
    · exact hcall _ _
    · exact hcall _ _
  refine ⟨attempts, hreq, hatt, ?_, ?_, countP_le_one⟩
  · rw [created, hreq, List.drop_left]
  · exact le_trans List.countP_le_length hatt.bounded

/-- Both calls at the first tick of a deployment whose broker accepts every request. -/
theorem orders_of_cash_call_sample :
    ∃ attempts, (run (World.handle { Env.quiet with post := fun _ _ => ⟨true, .requestError "timeout"⟩ })
        (buyDomesticStockByCash "12345678" "01" "00" "005930" 10 "100") (.holding [] [])).2.requests =
          (World.holding [] []).requests ++ attempts ∧
      Attempts httpRetryCount attempts ∧
      created 0 (run (World.handle { Env.quiet with
          post := fun _ _ => ⟨true, .requestError "timeout"⟩ })
        (buyDomesticStockByCash "12345678" "01" "00" "005930" 10 "100") (.holding [] [])).2 =
          attempts.countP (fun a => a.2.accepted) ∧
      attempts.countP (fun a => a.2.accepted) ≤ httpRetryCount ∧
      ((∀ a ∈ attempts.dropLast, a.2.accepted = false) →
        attempts.countP (fun a => a.2.accepted) ≤ 1) :=
  orders_of_cash_call _ _ _ _ _ _ _ _ _ (.inl rfl)

/-- The broker accepts every attempt and answers 500: three orders, of either side. -/
theorem accepted_attempts_repeated :
    ¬ created 0 (run (World.handle { Env.quiet with
          post := fun _ _ => ⟨true, .response 500 (.notJson "") ""⟩ })
        (buyDomesticStockByCash "12345678" "01" "00" "005930" 10 "100") (.holding [] [])).2 ≤ 1 ∧
      ¬ created 0 (run (World.handle { Env.quiet with
          post := fun _ _ => ⟨true, .response 500 (.notJson "") ""⟩ })
        (sellDomesticStockByCash "12345678" "01" "00" "005930" 10 "100") (.holding [] [])).2 ≤ 1 := by
  decide +kernel

end Autotrading.KisOrder
