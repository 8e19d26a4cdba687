import Autotrading.BrokerAnswers
import Autotrading.GateExclusion

/-!
# Rate limits

The broker answers every order request of an execution with its rate limit. The
classifier reads the code in the payload of a failed cash order, and of a refused
request the text alone; the client of revisions and cancels drops both when an answer
is 5xx.
-/
namespace Autotrading.ProcessOrder

open Prog KisOrder OrderRepository

variable {settings : Settings} {env : Env} {w : World} {order : Order} {α β : Type}

/-- The answer carries the code EGW00201: 5xx with the code in the body, or HTTP 200 with
an `rt_cd` other than `"0"`. -/
def limits : HttpReply OrderAnswer → Bool
  | .response statusCode (.object d) _ =>
    d.msgCd = .text "EGW00201" &&
      ((500 ≤ statusCode && statusCode < 600) || (statusCode = 200 && d.rtCd ≠ .text "0"))
  | _ => false

/-- The classifier recognises what the client makes of the answer: for HTTP 200 by the
text, and for 5xx when the order is no revision or cancel. -/
def recognised (kind : OrderKind) : HttpReply OrderAnswer → Bool
  | .response statusCode (.object d) _ =>
    if is2xx statusCode then
      Python.inText "초당 거래건수" (Python.str (Python.orElse d.msg1.get (some "")))
    else kind = .new
  | _ => false

/-- An answered limit is HTTP 200 and refuses the order, one that is not answered is 5xx. -/
theorem limits_cases {reply : HttpReply OrderAnswer} (h : limits reply = true) :
    ∃ statusCode d text, reply = .response statusCode (.object d) text ∧
      d.msgCd = .text "EGW00201" ∧ (is2xx statusCode = true → d.rtCd.get ≠ some "0") := by
  unfold limits at h
  split at h
  · next statusCode d text =>
    simp only [Bool.and_eq_true, Bool.or_eq_true, decide_eq_true_eq] at h
    refine ⟨statusCode, d, text, rfl, h.1, fun h2xx hzero => ?_⟩
    have hrange : 200 ≤ statusCode ∧ statusCode < 300 := by simpa [is2xx] using h2xx
    rcases h.2 with h5xx | ⟨-, hrt⟩
    · omega
    · cases hfield : d.rtCd with
      | absent => rw [hfield] at hzero; cases hzero
      | null => rw [hfield] at hzero; cases hzero
      | text s =>
        rw [hfield] at hzero hrt
        exact hrt (congrArg JsonField.text (Option.some.inj hzero))
  · cases h

/-- A refused request is recognised by its text. -/
theorem rateLimited_rejected (d : OrderAnswer) (failed : String) :
    rateLimited (rejected d.rtCd d.msgCd d.msg1 failed) =
      Python.inText "초당 거래건수" (Python.str (Python.orElse d.msg1.get (some ""))) := by
  rfl

/-- A failed cash order is recognised by the code in its payload. -/
theorem rateLimited_httpStatusError {d : OrderAnswer} (hd : d.msgCd = .text "EGW00201")
    (statusCode : ℕ) (msg1 : String) :
    rateLimited (httpStatusError statusCode (.object d) msg1) = true := by
  simp [rateLimited, isRateLimitError, httpStatusError, hd, JsonField.get]

/-- A run whose requests were all answered with the rate limit ends in an exception, which
the classifier recognises when it recognises each answer. -/
def Limited (kind : OrderKind) (w : World) (result : Except PyExc α × World) : Prop :=
  ∃ attempts, result.2.requests = w.requests ++ attempts ∧
    (attempts ≠ [] → (∀ a ∈ attempts, limits a.2.reply = true) →
      ∃ e, result.1 = .error e ∧ rateLimited e = attempts.all fun a => recognised kind a.2.reply)

theorem limited_nothing {kind : OrderKind} {result : Except PyExc α × World}
    (h : result.2.requests = w.requests) : Limited kind w result :=
  ⟨[], by simp [h], fun hne => absurd rfl hne⟩

/-- Calls that are no requests in front. -/
theorem limited_bind {kind : OrderKind} {p : Program α} {f : α → Program β}
    (hp : (run (World.handle env) p w).2.requests = w.requests)
    (hf : ∀ a w', w'.requests = w.requests → Limited kind w' (run (World.handle env) (f a) w')) :
    Limited kind w (run (World.handle env) (p >>= f) w) := by
  rw [run_bind]
  rcases hrun : run (World.handle env) p w with ⟨r, w'⟩
  rw [hrun] at hp
  cases r with
  | error e => exact limited_nothing hp
  | ok a =>
    obtain ⟨attempts, hreq, hlimited⟩ := hf a w' hp
    exact ⟨attempts, by rw [hreq, hp], hlimited⟩

/-- What a limit makes of a cash order. -/
theorem cashResult_limited (texts : CashTexts) {reply : HttpReply OrderAnswer}
    (h : limits reply = true) :
    ∃ e, cashResult texts reply = .error e ∧ rateLimited e = recognised .new reply := by
  obtain ⟨statusCode, d, text, rfl, hcode, hrt⟩ := limits_cases h
  by_cases h2xx : is2xx statusCode = true
  · refine ⟨rejected d.rtCd d.msgCd d.msg1 texts.failed, ?_, ?_⟩
    · have hparse : parseOrderCash texts (.object d) =
          .error (rejected d.rtCd d.msgCd d.msg1 texts.failed) := by
        unfold parseOrderCash json
        simp only [bind, Except.bind, if_pos (hrt h2xx)]
        rfl
      simp only [cashResult, cashOutcome, h2xx, if_true, bind, Except.bind, hparse]
    · rw [rateLimited_rejected, recognised, if_pos h2xx]
  · refine ⟨httpStatusError statusCode (.object d) (texts.httpFailed statusCode), ?_, ?_⟩
    · simp [cashResult, cashOutcome, h2xx, bind, Except.bind]
    · rw [rateLimited_httpStatusError hcode, recognised, if_neg h2xx]
      rfl

/-- A cash order. -/
theorem Sent.limited {texts : CashTexts} {result : Except PyExc OrderResponse × World}
    {attempts : List (BrokerRequest × HttpOutcome)} (hup : PostsUp env)
    (h : Sent env (cashResult texts) w result attempts) : Limited .new w result := by
  refine ⟨attempts, h.requests, fun hne hall => ?_⟩
  rcases List.eq_nil_or_concat attempts with rfl | ⟨init, a, rfl⟩
  · exact absurd rfl hne
  · rw [List.concat_eq_append] at h hall ⊢
    obtain ⟨e, he, hlimit⟩ := cashResult_limited texts (hall a (by simp))
    have hinit : (init.all fun b => recognised .new b.2.reply) = true := by
      rw [List.all_eq_true]
      intro b hb
      have hnot := h.retried b (by rwa [List.dropLast_concat])
      obtain ⟨statusCode, d, text, hreply, -, -⟩ := limits_cases (hall b (by simp [hb]))
      rw [hreply] at hnot ⊢
      have hcode : is2xx statusCode = false := hnot
      simp [recognised, hcode]
    refine ⟨e, by rw [h.last a (by simp) (.inr hup), he], ?_⟩
    rw [List.all_append, hinit, hlimit]
    simp

/-- Any response ends the loop of revisions and cancels. -/
theorem run_modifyOrderAttempts_response (hup : PostsUp env) (request : BrokerRequest) (n : ℕ)
    {w : World} {statusCode : ℕ} {body : Body OrderAnswer} {text : String}
    (hreply : (env.post w.tick request).reply = .response statusCode body text) :
    (run (World.handle env) (modifyOrderAttempts request (n + 1)) w).2.requests =
      w.requests ++ [(request, env.post w.tick request)] := by
  rw [modifyOrderAttempts, run_bind, run_perform, World.handle_post_ok (hup w.tick request), hreply]
  simp only
  split
  · rw [run_bind, run_ofExcept]
    cases json body with
    | error e => rfl
    | ok d =>
      simp only
      split
      · rfl
      · rw [run_ofExcept]
  · split
    · rfl
    · rfl

/-- The loop adds its first request and further ones. -/
theorem run_modifyOrderAttempts (hup : PostsUp env) (request : BrokerRequest) (n : ℕ) (w : World) :
    ∃ more, (run (World.handle env) (modifyOrderAttempts request (n + 1)) w).2.requests =
      w.requests ++ (request, env.post w.tick request) :: more := by
  induction n generalizing w with
  | zero =>
    cases hreply : (env.post w.tick request).reply with
    | response statusCode body text =>
      exact ⟨[], run_modifyOrderAttempts_response hup request 0 hreply⟩
    | requestError e =>
      refine ⟨[], ?_⟩
      rw [modifyOrderAttempts, run_bind, run_perform, World.handle_post_ok (hup w.tick request),
        hreply]
      rfl
  | succ n ih =>
    cases hreply : (env.post w.tick request).reply with
    | response statusCode body text =>
      exact ⟨[], run_modifyOrderAttempts_response hup request (n + 1) hreply⟩
    | requestError e =>
      rw [modifyOrderAttempts, run_bind, run_perform, World.handle_post_ok (hup w.tick request),
        hreply]
      simp only [Nat.succ_ne_zero, if_false]
      obtain ⟨more, hmore⟩ := ih { w.next with
        requests := w.requests ++ [(request, env.post w.tick request)] }
      exact ⟨_, by rw [hmore, List.append_assoc]; rfl⟩

/-- A revision or cancel ends with its first answer when that is a limit: it is recognised
when it is HTTP 200 and has the text. -/
theorem limited_modifyOrderAttempts {kind : OrderKind} (hkind : kind ≠ .new) (hup : PostsUp env)
    (request : BrokerRequest) (w : World) :
    Limited kind w (run (World.handle env) (modifyOrderAttempts request httpRetryCount) w) := by
  obtain ⟨more, hmore⟩ := run_modifyOrderAttempts hup request 2 w
  refine ⟨(request, env.post w.tick request) :: more, hmore, fun _ hall => ?_⟩
  obtain ⟨statusCode, d, text, hreply, -, hrt⟩ := limits_cases (hall _ (List.mem_cons_self ..))
  have hreply' : (env.post w.tick request).reply = .response statusCode (.object d) text := hreply
  have hone := run_modifyOrderAttempts_response hup request 2 hreply'
  rw [hmore, List.append_cancel_left_eq] at hone
  obtain ⟨-, rfl⟩ := List.cons.inj hone
  rw [List.all_cons, List.all_nil, Bool.and_true, httpRetryCount, modifyOrderAttempts, run_bind,
    run_perform, World.handle_post_ok (hup w.tick request), hreply']
  by_cases h2xx : is2xx statusCode = true
  · refine ⟨rejected d.rtCd d.msgCd d.msg1 "주식 주문 정정/취소 실패", ?_, ?_⟩
    · simp only [h2xx, if_true, json, run_bind, run_ofExcept]
      rw [if_pos (hrt h2xx)]
      rfl
    · rw [rateLimited_rejected, recognised, if_pos h2xx]
  · refine ⟨.kisOrder ⟨some "주식 주문 정정/취소 중 오류가 발생했습니다.", none, none, none, none, none, none⟩,
      ?_, ?_⟩
    · simp [h2xx]
    · rw [recognised, if_neg h2xx, decide_eq_false hkind]
      decide +kernel

theorem limited_modifyOrderByCash {kind : OrderKind} (hkind : kind ≠ .new) (hup : PostsUp env)
    (a b c d e f g q y : String) (w : World) :
    Limited kind w (run (World.handle env) (modifyOrderByCash a b c d e f g q y) w) :=
  limited_bind (run_requests (safe_ofExcept _) w) fun _ w' _ =>
    limited_modifyOrderAttempts hkind hup _ w'

/-- The checks against the original order in front of the request. -/
theorem limited_checkOriginalOrder {kind : OrderKind} {tag : String}
    {f : String × String × Bool → Program α} (w : World)
    (hf : ∀ checked w', Limited kind w' (run (World.handle env) (f checked) w')) :
    Limited kind w (run (World.handle env) (checkOriginalOrder tag order >>= f) w) := by
  have hcheck : Safe (fun _ o => ∀ q, o ≠ .post q) [] (checkOriginalOrder tag order) := by
    refine Safe.bind (safe_ofExcept _) fun _ child _ => ?_
    refine Safe.bind (safe_perform (by simp)) fun _ original _ => ?_
    exact Safe.bind (safe_ofExcept _) fun _ _ _ => safe_pure _
  exact limited_bind (run_requests hcheck w) fun checked w' _ => hf checked w'

/-- Step 4 of a revision or cancel order. -/
theorem limited_sendOrder (settings : Settings) (hup : PostsUp env) {order : Order}
    (hne : order.orderKind ≠ .new) (w : World) :
    Limited order.orderKind w (run (World.handle env) (sendOrder settings order) w) := by
  have hmodify : ∀ {r : Except PyExc Unit} {a b c d e f g q y : String} (w' : World),
      Limited order.orderKind w' (run (World.handle env)
        (Prog.ofExcept r >>= fun _ => modifyOrderByCash a b c d e f g q y) w') := fun w' =>
    limited_bind (run_requests (safe_ofExcept _) w') fun _ w₁ _ =>
      limited_modifyOrderByCash hne hup _ _ _ _ _ _ _ _ _ w₁
  unfold sendOrder
  cases hkind : order.orderKind with
  | new => exact absurd hkind hne
  | modify =>
    rw [hkind] at hmodify
    exact limited_checkOriginalOrder w fun checked w₁ => hmodify w₁
  | cancel =>
    rw [hkind] at hmodify
    exact limited_checkOriginalOrder w fun checked w₁ => hmodify w₁

/-- Steps 3 and 4 of an order of any kind. -/
theorem limited_submission (settings : Settings) (hup : PostsUp env) (order : Order) (w : World) :
    Limited order.orderKind w (run (World.handle env) (submission settings order) w) := by
  by_cases hkind : order.orderKind = .new
  · obtain ⟨texts, attempts, hsent⟩ := sent_submission settings env w hkind
    rw [hkind]
    exact hsent.limited hup
  · unfold submission
    refine limited_bind (run_requests (safe_perform (by simp)) w) fun _ w₁ _ => ?_
    refine limited_bind (run_requests unrequesting_checkKillSwitch w₁) fun _ w₂ _ => ?_
    exact limited_sendOrder settings hup hkind w₂

/-! ## The whole task -/

/-- The answers to the requests of a run. -/
def answers (w w' : World) : List (HttpReply OrderAnswer) :=
  (w'.requests.drop w.requests.length).map fun a => a.2.reply

/-- The order is back in PENDING, and a further task for it is queued. -/
def Returned (id : OrderId) (w w' : World) : Prop :=
  (∃ r, w'.orders.get? id = some r ∧ r.status = .pending) ∧
    w.queue.count (.processOrder id) < w'.queue.count (.processOrder id)

/-- An execution all of whose requests are answered with the rate limit returns its order
exactly when every answer is recognised: a 5xx answer when the order is a buy or sell,
HTTP 200 when its text names the limit. Otherwise the order stays in PROCESSING. -/
theorem rate_limit_returns_iff (settings : Settings) {env : Env} {w : World} {order : Order}
    (hup : StoresUp env) (hposts : PostsUp env)
    (hread : env.fault w.tick (.selectOrder (some order.id)) = none)
    (hr : w.orders.get? order.id = some order) (hpending : order.status = .pending)
    (hsent : answers w (run (World.handle env) (processOrder settings order.id) w).2 ≠ [])
    (hlimited : ∀ reply ∈ answers w (run (World.handle env) (processOrder settings order.id) w).2,
      limits reply = true) :
    (Returned order.id w (run (World.handle env) (processOrder settings order.id) w).2 ↔
      ∀ reply ∈ answers w (run (World.handle env) (processOrder settings order.id) w).2,
        recognised order.orderKind reply = true) ∧
    (¬ Returned order.id w (run (World.handle env) (processOrder settings order.id) w).2 →
      (run (World.handle env) (processOrder settings order.id) w).2.orders.get? order.id =
        some { order with status := .processing }) := by
  obtain ⟨-, -, hrow, hqueue⟩ := handle_gate hup hread hr hpending
  obtain ⟨-, hrefresh⟩ := gate_refresh hpending
  have hprocessing : ((gate order).refresh order).status = .processing := by rw [hrefresh]
  have hkind : ((gate order).refresh order).orderKind = order.orderKind := by rw [hrefresh]
  have hrequests := requests_processOrder settings hup hread hr hpending
  have hframe := run_submission settings env (afterGate env w order.id order)
    ((gate order).refresh order)
  obtain ⟨attempts, hattempts, hcase⟩ := limited_submission settings hposts
    ((gate order).refresh order) (afterGate env w order.id order)
  rw [requests_afterGate] at hattempts
  have hanswers : answers w (run (World.handle env) (processOrder settings order.id) w).2 =
      attempts.map fun a => a.2.reply := by
    rw [answers, hrequests, hattempts, List.drop_left]
  rw [hanswers] at hsent hlimited ⊢
  -- the submission ends in an exception
  obtain ⟨e, he, hrecognised⟩ := hcase (fun hnil => hsent (by rw [hnil]; rfl))
    fun a ha => hlimited _ (List.mem_map_of_mem ha)
  have hall : rateLimited e = true ↔
      ∀ reply ∈ attempts.map fun a => a.2.reply, recognised order.orderKind reply = true := by
    rw [hrecognised, hkind, List.all_eq_true, List.forall_mem_map]
  rw [← hall, run_processOrder settings hup hread hr hpending, run_tryExcept, run_bind]
  rcases hrun : run (World.handle env) (submission settings ((gate order).refresh order))
    (afterGate env w order.id order) with ⟨r, w₁⟩
  rw [hrun] at he hframe
  obtain rfl : r = .error e := he
  have hrow₁ : w₁.orders.get? order.id = some ((gate order).refresh order) := by
    rw [hframe.1]
    exact hrow
  obtain ⟨hleft, hlimit⟩ := run_handleError order.id hup e hrow₁ hprocessing
  simp only
  by_cases hrate : rateLimited e = true
  · obtain ⟨hpend, hqueued⟩ := hlimit hrate
    have hreturned : Returned order.id w
        (run (World.handle env) (handleError order.id (some order) e) w₁).2 := by
      refine ⟨⟨_, hpend, rfl⟩, ?_⟩
      have hqueue₁ : w₁.queue = w.queue := hframe.2.trans hqueue
      rw [hqueued, hqueue₁, List.count_append]
      simp
    exact ⟨iff_of_true hreturned hrate, fun hnot => absurd hreturned hnot⟩
  · have hstored : (run (World.handle env) (handleError order.id (some order) e) w₁).2.orders.get?
        order.id = some { order with status := .processing } := by
      rw [hleft (by simpa using hrate), hrow₁, hrefresh]
    refine ⟨iff_of_false ?_ hrate, fun _ => hstored⟩
    rintro ⟨⟨r, hr', hstatus⟩, -⟩
    obtain rfl := Option.some.inj (hstored.symm.trans hr')
    cases hstatus

/-- Surroundings in which every order request is refused with the code and this text. -/
def refusing (msg1 : String) : Env :=
  { Env.quiet with
    post := fun _ _ => ⟨false, .response 200 (.object ⟨.text "1", .text "EGW00201", .text msg1,
      .absent, ""⟩) ""⟩ }

/-- An open order 1 and a PENDING order 2 that cancels it. -/
def pendingCancel : World :=
  .holding [Order.sample 1 .accepted,
    { Order.childSample 2 .cancel with status := .pending, brokerOrderNo := none }] []

/-- The requests of the run for the order are answered with the limit, and it does not
return. -/
def Strands (env : Env) (id : OrderId) (w : World) : Prop :=
  (answers w (run (World.handle env) (processOrder .sample id) w).2).isEmpty = false ∧
    (answers w (run (World.handle env) (processOrder .sample id) w).2).all limits = true ∧
    ¬ Returned id w (run (World.handle env) (processOrder .sample id) w).2

/-- A cancel order answered 5xx with the code, and a buy order refused with the code under
another text. -/
theorem limited_orders_strand :
    Strands rateLimiting 2 pendingCancel ∧
      Strands (refusing "EGW00201") 1 (.holding [Order.sample 1 .pending] []) := by
  unfold Strands Returned
  decide +kernel

theorem rate_limit_returns_iff_sample :
    (Returned 1 (.holding [Order.sample 1 .pending] []) (run (World.handle rateLimiting)
        (processOrder .sample 1) (.holding [Order.sample 1 .pending] [])).2 ↔
      ∀ reply ∈ answers (.holding [Order.sample 1 .pending] []) (run (World.handle rateLimiting)
        (processOrder .sample 1) (.holding [Order.sample 1 .pending] [])).2,
        recognised .new reply = true) ∧
    (¬ Returned 1 (.holding [Order.sample 1 .pending] []) (run (World.handle rateLimiting)
        (processOrder .sample 1) (.holding [Order.sample 1 .pending] [])).2 →
      (run (World.handle rateLimiting) (processOrder .sample 1)
        (.holding [Order.sample 1 .pending] [])).2.orders.get? 1 =
          some { Order.sample 1 .pending with status := .processing }) :=
  @rate_limit_returns_iff .sample rateLimiting (.holding [Order.sample 1 .pending] [])
    (Order.sample 1 .pending) ⟨fun _ _ => rfl, fun _ _ _ => rfl, fun _ => rfl, fun _ => rfl⟩
    (fun _ _ => rfl) rfl (by decide +kernel) rfl
    (by rw [ne_eq, ← List.isEmpty_iff]; decide +kernel)
    (by rw [← List.all_eq_true]; decide +kernel)

end Autotrading.ProcessOrder
