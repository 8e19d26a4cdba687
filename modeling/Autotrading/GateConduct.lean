import Autotrading.SubmissionConduct

/-!
# Executions behind the gate

An execution of `_process_order` passes the gate with its second call. What it does
then until a statement of it takes the order out of PROCESSING: it sends one order
request, in one or more attempts, and it gives the order back only on a rate limit.
-/
namespace Autotrading.ProcessOrder

open Prog OrderState OrderRepository

variable {settings : Settings} {id : OrderId} {h : Calls} {order : Order} {calls : Calls}

/-- The order an execution took out of PENDING, as it holds it then, and the calls since. -/
def behindGate : Calls → Option (Order × Calls)
  | (_, ⟨.selectOrder _, .ok (some order)⟩) :: (_, ⟨.updateOrder _, .ok true⟩) :: calls =>
    some ((gate order).refresh order, calls)
  | _ => none

/-- The statement took an order out of PROCESSING. -/
def settles : Entry → Bool
  | (_, ⟨.updateOrder u, .ok true⟩) => u.expected = some [.processing]
  | _ => false

/-- The execution took its order out of PENDING and not yet out of PROCESSING. -/
def holds (h : Calls) : Bool := (behindGate h).any fun b => !b.2.any settles

/-- A store or the queue failed with an exception of the broker client. -/
def masked : Entry → Bool
  | (_, ⟨.selectOrder _, .error (.kisOrder _)⟩) => true
  | (_, ⟨.updateOrder _, .error (.kisOrder _)⟩) => true
  | (_, ⟨.rollback, .error (.kisOrder _)⟩) => true
  | (_, ⟨.enqueue _ _, .error (.kisOrder _)⟩) => true
  | _ => false

def Clean (h : Calls) : Prop := ∀ x ∈ h, masked x = false

/-- All order requests so far are this one. -/
def SameRequest (h : Calls) (request : BrokerRequest) : Prop :=
  ∀ n request' r, (n, ⟨.post request', r⟩) ∈ h → request' = request

/-- The statement of an execution that holds its order. It gives the order back when
the submission came to a rate limit. -/
def Deciding (settings : Settings) (h : Calls) (u : OrderUpdate) : Prop :=
  ∃ order calls, behindGate h = some (order, calls) ∧ calls.any settles = false ∧
    (u.set.nextStatus = .pending → ∃ e, (replay (submission settings order) calls).1 =
      .raise (.kisOrder e) ∧ isRateLimitError e = true)

/-- The statements and order requests of an execution, by the gate. -/
def Gated (settings : Settings) (id : OrderId) (h : Calls) : Op → Prop
  | .updateOrder u =>
    (∃ n order, h = [(n, ⟨.selectOrder (some id), .ok (some order)⟩)] ∧ u = gate order) ∨
      (u.expected = some [.processing] ∧ u.set.nextStatus ≠ .processing ∧
        (Clean h → Deciding settings h u))
  | .post request => holds h = true ∧ SameRequest h request
  | _ => True

theorem behindGate_iff : behindGate h = some (order, calls) ↔ ∃ n k read m u,
    h = (n, ⟨.selectOrder k, .ok (some read)⟩) :: (m, ⟨.updateOrder u, .ok true⟩) :: calls ∧
      order = (gate read).refresh read := by
  constructor
  · intro hb
    unfold behindGate at hb
    split at hb
    · next n k read m u calls' =>
      obtain ⟨rfl, rfl⟩ := Prod.mk.inj (Option.some.inj hb)
      exact ⟨n, k, read, m, u, rfl, rfl⟩
    · cases hb
  · rintro ⟨n, k, read, m, u, rfl, rfl⟩
    rfl

theorem behindGate_append (hb : behindGate h = some (order, calls)) (h' : Calls) :
    behindGate (h ++ h') = some (order, calls ++ h') := by
  obtain ⟨n, k, read, m, u, rfl, rfl⟩ := behindGate_iff.mp hb
  exact behindGate_iff.mpr ⟨n, k, read, m, u, rfl, rfl⟩

theorem holds_iff : holds h = true ↔
    ∃ order calls, behindGate h = some (order, calls) ∧ calls.any settles = false := by
  unfold holds
  constructor
  · intro hh
    obtain ⟨⟨order, calls⟩, hb, hs⟩ := (Option.any_eq_true _ _).mp hh
    exact ⟨order, calls, hb, by simpa using hs⟩
  · rintro ⟨order, calls, hb, hs⟩
    simp [hb, hs]

theorem Clean.mono {h' : Calls} (hc : Clean h') (hh : h <+: h') : Clean h :=
  fun x hx => hc x (hh.subset hx)

/-- Calls of steps 3 and 4 settle nothing. -/
theorem settles_of_submits (hcalls : ∀ x ∈ calls, Submits x.2.1) : calls.any settles = false := by
  rw [List.any_eq_false]
  intro x hx hs
  obtain ⟨n, o, r⟩ := x
  have ho := hcalls _ hx
  cases o
  case updateOrder u => exact ho
  all_goals cases hs

/-! ## One order request in each execution -/

/-- A call of steps 3 and 4 that repeats the order request, if it is one. -/
def Requests (h : Calls) (o : Op) : Prop :=
  Submits o ∧ ∀ request, o = .post request → SameRequest h request

/-- No order request so far. -/
def Unrequested (h : Calls) : Prop := ∀ request, SameRequest h request

theorem Unrequested.append {x : Entry} (hu : Unrequested h) (hx : ∀ q, x.2.1 ≠ .post q) :
    Unrequested (h ++ [x]) := by
  intro request n request' r hmem
  rcases List.mem_append.mp hmem with hmem | hmem
  · exact hu request n request' r hmem
  · rw [← List.mem_singleton.mp hmem] at hx
    exact absurd rfl (hx request')

theorem SameRequest.append {request : BrokerRequest} {n : ℕ}
    {r : Except PyExc (HttpReply OrderAnswer)} (hs : SameRequest h request) :
    SameRequest (h ++ [(n, ⟨.post request, r⟩)]) request := by
  intro m request' r' hmem
  rcases List.mem_append.mp hmem with hmem | hmem
  · exact hs m request' r' hmem
  · have hop := congrArg (fun x : Entry => x.2.1) (List.mem_singleton.mp hmem)
    exact Op.post.inj hop

/-- Steps 3 and 4 send one and the same request. -/
theorem requests_submission (hu : Unrequested h) : Safe Requests h (submission settings order) := by
  have hread : ∀ o, Reads o → Submits o ∧ ∀ request, o ≠ .post request := by
    intro o ho
    cases o
    case post request => exact ho.elim
    all_goals first | exact ⟨trivial, by simp⟩ | exact ho.elim
  have hallows : AllowsSubmission Requests Unrequested fun request h => SameRequest h request := by
    constructor
    case reads => exact fun h o ho _ => ⟨(hread o ho).1, fun request hr => absurd hr ((hread o ho).2 _)⟩
    case kept => exact fun h o n r ho hu => hu.append (hread o ho).2
    case first => exact fun h request hu => hu request
    case again => exact fun h request n r hs => hs.append
    case post =>
      intro h request hs
      refine ⟨trivial, fun request' hr => ?_⟩
      rw [← Op.post.inj hr]
      exact hs
  exact safe_submission hallows hu

/-! ## The statements of an execution -/

theorem not_any_append {p : Entry → Bool} {h' : Calls} (h₁ : h.any p = false) (h₂ : h'.any p = false) :
    (h ++ h').any p = false := by
  rw [List.any_append, h₁, h₂]
  rfl

/-- The submission of an execution that has just passed the gate. -/
theorem gated_submission (hb : behindGate h = some (order, [])) (hu : Unrequested h) :
    Along (Gated settings id) (fun h' r => ∃ calls, h' = h ++ calls ∧ calls.any settles = false ∧
      replay (submission settings order) calls = (Prog.ofExcept r, [])) h
      (submission settings order) := by
  have hrequests : Safe Requests h (submission settings order) := requests_submission hu
  refine (hrequests.replayed.entries fun _ _ ho => ho.1).mono ?_ ?_
  · intro h' o hcall
    obtain ⟨⟨calls, rfl, hall⟩, hsubmits, hsame⟩ := hcall
    cases o
    case updateOrder u => exact hsubmits.elim
    case post request =>
      refine ⟨holds_iff.mpr ⟨order, calls, ?_, settles_of_submits hall⟩, hsame request rfl⟩
      simpa using behindGate_append hb calls
    all_goals trivial
  · intro h' r hpost
    obtain ⟨⟨calls, hcalls, hall⟩, ⟨calls', hcalls', hreplay⟩, -⟩ := hpost
    obtain rfl : calls = calls' := List.append_cancel_left (hcalls.symm.trans hcalls')
    exact ⟨calls, hcalls, settles_of_submits hall, hreplay⟩

/-- The exception behind the gate is no exception of the broker client, unless the
submission raised it. -/
def Raised (settings : Settings) (h : Calls) (e : PyExc) : Prop :=
  Clean h → (∀ k, e ≠ .kisOrder k) ∨ ∃ order calls, behindGate h = some (order, calls) ∧
    calls.any settles = false ∧
    ∃ rest, replay (submission settings order) calls = (Prog.ofExcept (.error e), rest)

theorem clean_singleton {n : ℕ} {o : Op} {e : PyExc} (hc : Clean (h ++ [(n, ⟨o, .error e⟩)]))
    (hstore : ∀ k, masked (n, ⟨o, .error (.kisOrder k)⟩) = true) : ∀ k, e ≠ .kisOrder k := by
  rintro k rfl
  have hx := hc (n, ⟨o, .error (.kisOrder k)⟩) (by simp)
  rw [hstore k] at hx
  cases hx

theorem gated_storeResult {response : OrderResponse} (hb : behindGate h = some (order, calls))
    (hcalls : calls.any settles = false) :
    Along (Gated settings id) (fun h' r => ∀ e, r = .error e → Raised settings h' e) h
      (storeResult order response) := by
  have hrollback : ∀ h', Along (Gated settings id)
      (fun h' r => ∀ e, r = .error e → Raised settings h' e) h' (Op.perform .rollback) := by
    intro h'
    refine Along.perform (o := Op.rollback) trivial ?_
    intro n r e hr hclean
    rw [hr] at hclean
    exact .inl (clean_singleton hclean fun k => rfl)
  unfold storeResult
  simp only
  split
  · exact hrollback h
  · have hnext := extractOrderSnapshot_nextStatus response order.orderQty
    have hupdate : ∀ u : OrderUpdate, u.expected = some [.processing] →
        u.set.nextStatus ∈ [OrderStatus.requested, .accepted, .failed] →
        Along (Gated settings id) (fun h' r => ∀ e, r = .error e → Raised settings h' e) h
          (Op.perform (.updateOrder u)) := by
      intro u hexpected hstatus
      have hne : u.set.nextStatus ≠ .processing ∧ u.set.nextStatus ≠ .pending := by
        constructor <;> (intro hs; rw [hs] at hstatus; simp at hstatus)
      have hq : Gated settings id h (.updateOrder u) := .inr ⟨hexpected, hne.1, fun _ =>
        ⟨order, calls, hb, hcalls, fun hp => absurd hp hne.2⟩⟩
      refine Along.perform (o := Op.updateOrder u) hq ?_
      intro n r e hr hclean
      rw [hr] at hclean
      exact .inl (clean_singleton hclean fun k => rfl)
    unfold updateOrderSubmitResult
    refine (hupdate ⟨_, _, .submit _ _ _ _ _ _ _⟩ rfl hnext).bind ?_ fun h₁ e _ hraised e' he' => ?_
    · intro h₁ updated _ _
      split
      · exact hrollback h₁
      · split
        · refine Along.perform (o := Op.enqueue _ _) trivial ?_
          intro n r e hr hclean
          rw [hr] at hclean
          exact .inl (clean_singleton hclean fun k => rfl)
        · rw [along_pure]
          intro e he
          cases he
    · obtain rfl := Except.error.inj he'
      exact hraised e rfl

theorem gated_handleError {read : Option Order} {e : PyExc}
    (hraised : ∀ o, read = some o → Raised settings h e) :
    Safe (Gated settings id) h (handleError id read e) := by
  unfold handleError handleKisOrderError handleException
  simp only [updateOrderFailureResult_raises]
  split
  · next e =>
    refine safe_perform_bind (by trivial) fun n _ => ?_
    split
    · next hlimit =>
      refine Safe.bind ?_ fun _ _ _ => safe_perform (by trivial)
      cases read with
      | none => exact safe_perform (by trivial)
      | some o =>
        have hq : Gated settings id (h ++ [(n, ⟨.rollback, .ok ()⟩)])
            (.updateOrder ⟨o.id, some [.processing], .status .pending⟩) := by
          have hne : OrderStatus.pending ≠ .processing := by decide
          refine .inr ⟨rfl, hne, fun hclean => ?_⟩
          rcases hraised o rfl (hclean.mono (List.prefix_append _ _)) with hother | hsubmission
          · exact absurd rfl (hother e)
          · obtain ⟨order, calls, hb, hcalls, rest, hreplay⟩ := hsubmission
            refine ⟨order, calls ++ [(n, ⟨.rollback, .ok ()⟩)], behindGate_append hb _,
              not_any_append hcalls rfl, fun _ => ⟨e, ?_, hlimit⟩⟩
            rw [replay_append hreplay]
            rfl
        exact Safe.bind (safe_perform hq) fun _ _ _ => safe_pure _
    · split
      · exact safe_raise _
      · exact safe_raise _
  · refine Safe.bind (safe_perform (by trivial)) fun _ _ _ => ?_
    split
    · exact safe_raise _
    · exact safe_raise _

theorem gated_submitOrder {n : ℕ} :
    Along (Gated settings id) (fun h' r => ∀ e, r = .error e → Raised settings h' e)
      [(n, ⟨.selectOrder (some id), .ok (some order)⟩)] (submitOrder settings order) := by
  have hgate : Gated settings id [(n, ⟨.selectOrder (some id), .ok (some order)⟩)]
      (.updateOrder (gate order)) := .inl ⟨n, order, rfl, rfl⟩
  have hperform : Along (Gated settings id) (fun h' r => ∃ m,
      h' = [(n, ⟨.selectOrder (some id), .ok (some order)⟩)] ++ [(m, ⟨.updateOrder (gate order), r⟩)])
      [(n, ⟨.selectOrder (some id), .ok (some order)⟩)] (Op.perform (.updateOrder (gate order))) :=
    Along.perform (o := Op.updateOrder (gate order)) hgate fun m r => ⟨m, rfl⟩
  unfold submitOrder updateOrderStatus
  refine hperform.bind ?_ ?_
  · rintro h₁ updated - ⟨m, rfl⟩
    split
    · next hupdated =>
      subst hupdated
      have hb : behindGate ([(n, ⟨.selectOrder (some id), .ok (some order)⟩)] ++
          [(m, ⟨.updateOrder (gate order), .ok true⟩)]) = some ((gate order).refresh order, []) := rfl
      have hu : Unrequested ([(n, ⟨.selectOrder (some id), .ok (some order)⟩)] ++
          [(m, ⟨.updateOrder (gate order), .ok true⟩)]) := by
        intro request k request' r hmem
        simp at hmem
      refine (gated_submission hb hu).bind ?_ ?_
      · intro h₂ response _ hsent
        obtain ⟨calls, rfl, hcalls, -⟩ := hsent
        exact gated_storeResult (by simpa using behindGate_append hb calls) hcalls
      · intro h₂ e _ hsent e' he' hclean
        obtain ⟨calls, rfl, hcalls, hreplay⟩ := hsent
        obtain rfl := Except.error.inj he'
        exact .inr ⟨_, calls, by simpa using behindGate_append hb calls, hcalls, [], hreplay⟩
    · rw [along_pure]
      intro e he
      cases he
  · rintro h₁ e - ⟨m, rfl⟩ e' he' hclean
    obtain rfl := Except.error.inj he'
    exact .inl (clean_singleton hclean fun k => rfl)

theorem gated_processOrder (id : OrderId) :
    Safe (Gated settings id) [] (processOrder settings id) := by
  unfold processOrder getOrderById
  have hread : Along (Gated settings id)
      (fun h' r => ∃ n, h' = [(n, ⟨.selectOrder (some id), r⟩)]) []
      (Op.perform (.selectOrder (some id))) :=
    Along.perform (o := Op.selectOrder (some id)) trivial fun n r => ⟨n, rfl⟩
  refine hread.attempt ?_
  rintro h' r - ⟨n, rfl⟩
  cases r with
  | error e => exact gated_handleError fun o ho => by cases ho
  | ok found =>
    cases found with
    | none => exact safe_pure _
    | some order =>
      refine Along.tryExcept gated_submitOrder (fun _ _ _ _ => trivial) fun h₁ e _ hraised => ?_
      exact gated_handleError fun o _ => hraised e rfl

end Autotrading.ProcessOrder
