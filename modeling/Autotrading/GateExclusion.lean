import Autotrading.GateConduct
import Autotrading.StrandedOrders

/-!
# Mutual exclusion behind the gate

Any number of executions of `_process_order` for the same order, interleaved with the
rest of the system: of those that have passed the gate, all but one have given the
order back on a rate limit.
-/
namespace Autotrading.ProcessOrder

open Machine Prog OrderState OrderRepository
open Machine.Sys (start)

variable {settings : Settings} {env : Env} {s s' : System} {e : Event} {id : OrderId}
  {h : Calls} {x : Entry}

/-- The execution took its order out of PENDING. -/
def passedGate (h : Calls) : Bool := (behindGate h).isSome

/-- The statement gave an order back to PENDING. -/
def returns : Entry → Bool
  | (_, ⟨.updateOrder u, .ok true⟩) =>
    u.expected = some [.processing] && u.set.nextStatus = .pending
  | _ => false

/-- The execution has given its order back. -/
def gaveBack (h : Calls) : Bool := (behindGate h).any fun b => b.2.any returns

/-- Neither the database nor the queue raises the exception of the broker client. -/
structure OwnErrors (env : Env) : Prop where
  fault : ∀ n o k, masked (n, ⟨o, .error (.kisOrder k)⟩) = true →
    env.fault n o ≠ some (.kisOrder k)
  refused : ∀ n k, env.refused n ≠ .kisOrder k

/-- The submission of the execution came to a rate limit. -/
def RateLimited (settings : Settings) (h : Calls) : Prop :=
  ∃ order calls e, behindGate h = some (order, calls) ∧
    (replay (submission settings order) calls).1 = .raise (.kisOrder e) ∧ isRateLimitError e = true

/-- At tick `n` the execution gave its order back, on a rate limit. -/
def GaveBackAt (settings : Settings) (h : Calls) (n : ℕ) : Prop :=
  ∃ h₁ x h₂, h = h₁ ++ x :: h₂ ∧ x.1 = n ∧ returns x = true ∧ RateLimited settings h₁

/-- What the gate guarantees of the executions for each order. -/
structure Exclusive (settings : Settings) (s : System) : Prop where
  one : ∀ (i j : ℕ) (t t' : Task) (id : OrderId), s.tasks[i]? = some t → s.tasks[j]? = some t' →
    t.label = .processOrder id → t'.label = .processOrder id →
    passedGate t.history = true → gaveBack t.history = false →
    passedGate t'.history = true → gaveBack t'.history = false → i = j
  behind : ∀ t ∈ s.tasks, ∀ h₁ x h₂, t.history = h₁ ++ x :: h₂ → isPost x = true →
    ∃ id, t.label = .processOrder id ∧ passedGate h₁ = true ∧ gaveBack h₁ = false
  same : ∀ t ∈ s.tasks, ∀ n n' q q' r r', (n, ⟨.post q, r⟩) ∈ t.history →
    (n', ⟨.post q', r'⟩) ∈ t.history → q = q'
  again : ∀ (i j : ℕ) (t t' : Task) (id : OrderId), s.tasks[i]? = some t → s.tasks[j]? = some t' →
    t.label = .processOrder id → t'.label = .processOrder id → i ≠ j →
    ∀ x ∈ t.history, ∀ x' ∈ t'.history, isPost x = true → isPost x' = true → x.1 < x'.1 →
    ∃ n < x'.1, GaveBackAt settings t.history n

/-! ## One more call of an execution -/

/-- A call that matches no row leaves an execution on its side of the gate. -/
theorem behindGate_concat (hx : World.matched x = false) :
    behindGate (h ++ [x]) = (behindGate h).map fun b => (b.1, b.2 ++ [x]) := by
  cases hb : behindGate h with
  | some b => exact behindGate_append hb [x]
  | none =>
    cases hb' : behindGate (h ++ [x]) with
    | none => rfl
    | some b =>
      obtain ⟨n, k, read, m, u, hh, -⟩ := behindGate_iff.mp hb'
      cases h with
      | nil => cases hh
      | cons y h =>
        obtain ⟨rfl, hrest⟩ := List.cons.inj hh
        cases h with
        | nil =>
          -- the call just made would be the gate
          rw [(List.cons.inj hrest).1] at hx
          cases hx
        | cons z h =>
          obtain ⟨rfl, -⟩ := List.cons.inj hrest
          cases hb

theorem returns_settles (hx : returns x = true) : settles x = true := by
  unfold returns at hx
  split at hx
  · next u => simpa [settles] using (Bool.and_eq_true_iff.mp hx).1
  · cases hx

theorem matched_of_settles (hx : settles x = true) : World.matched x = true := by
  unfold settles at hx
  split at hx
  · rfl
  · cases hx

theorem settles_matched (hx : World.matched x = false) : settles x = false ∧ returns x = false := by
  have hs : settles x = false := by
    by_contra hs
    have hm := matched_of_settles (Bool.not_eq_false _ ▸ hs)
    simp [hx] at hm
  have hr : returns x = false := by
    by_contra hr
    have hsettles := returns_settles (Bool.not_eq_false _ ▸ hr)
    simp [hs] at hsettles
  exact ⟨hs, hr⟩

/-- An execution that holds its order has not given it back. -/
theorem not_gaveBack_of_holds (hh : holds h = true) : gaveBack h = false := by
  obtain ⟨order, calls, hb, hs⟩ := holds_iff.mp hh
  simp only [gaveBack, hb, Option.any_some]
  rw [List.any_eq_false] at hs ⊢
  intro x hx hret
  exact hs x hx (returns_settles hret)

theorem passedGate_of_holds (hh : holds h = true) : passedGate h = true := by
  obtain ⟨order, calls, hb, -⟩ := holds_iff.mp hh
  simp [passedGate, hb]

/-- Such a call changes nothing about the order either. -/
theorem concat_unmatched (hx : World.matched x = false) :
    passedGate (h ++ [x]) = passedGate h ∧ holds (h ++ [x]) = holds h ∧
      gaveBack (h ++ [x]) = gaveBack h := by
  obtain ⟨hs, hr⟩ := settles_matched hx
  unfold passedGate holds gaveBack
  rw [behindGate_concat hx]
  cases behindGate h with
  | none => exact ⟨rfl, rfl, rfl⟩
  | some b => simp [hs, hr]

/-! ## The statements of the system -/

/-- Executions keep to the gate. -/
def Gating (settings : Settings) (l : Label) (h : Calls) (o : Op) : Prop :=
  ∀ id, l = .processOrder id → Gated settings id h o

theorem gating_program (l : Label) : Safe (Gating settings l) [] (l.program settings) := by
  have hother : (∀ id, l ≠ .processOrder id) → Safe (Gating settings l) [] (l.program settings) :=
    fun hl => (along_true _).mono (fun _ _ _ id hid => absurd hid (hl id)) fun _ _ _ => trivial
  cases l with
  | processOrder id =>
    refine (gated_processOrder id).mono ?_ fun _ _ _ => trivial
    intro h o ho id' hid'
    cases hid'
    exact ho
  | _ => exact hother (by simp)

/-- What a statement does to an order: it takes it out of PENDING, or out of PROCESSING
for the execution that holds it, or follows it at the broker. -/
inductive Statement (settings : Settings) (l : Label) (h : Calls) (u : OrderUpdate) : Prop
  | gate (n order) (label : l = .processOrder u.id)
      (history : h = [(n, ⟨.selectOrder (some u.id), .ok (some order)⟩)])
      (gate : u = gate order)
  | settle (label : l = .processOrder u.id) (expected : u.expected = some [.processing])
      (next : u.set.nextStatus ≠ .processing) (deciding : Clean h → Deciding settings h u)
  | track (statuses) (label : ∀ id, l ≠ .processOrder id) (expected : u.expected = some statuses)
      (tracked : ∀ x ∈ statuses, x ∈ trackingTargetStatuses)
      (next : u.set.nextStatus ≠ .pending ∧ u.set.nextStatus ≠ .processing)

/-- The statements of an execution are on the order of its message. -/
theorem write_submits (hs : Sound env s) {t : Task} (ht : t ∈ s.tasks) {u : OrderUpdate}
    (hw : Write t.label t.history u) (hl : t.label = .processOrder id) : u.id = id := by
  have hread : ∀ {id' : OrderId} {order : Order}, t.label = .processOrder id' →
      Answered t.history (.selectOrder (some id')) (some order) → order.id = id := by
    intro id' order hl' hr
    rw [hl] at hl'
    cases hl'
    exact (Option.some.inj (hs.read_id ht hr)).symm
  generalize hl' : t.label = l at hw
  cases hw with
  | gate read => exact hread hl' read
  | release read => exact hread hl' read
  | submit read => exact hread hl' read
  | track made => rw [hl] at hl'; cases hl'
  | timeout made => rw [hl] at hl'; cases hl'
  | fail read => rw [hl] at hl'; cases hl'

/-- From a tracked status the status machine leads neither to PENDING nor to PROCESSING. -/
theorem next_of_tracked {status next : OrderStatus} (ht : status ∈ trackingTargetStatuses)
    (hnext : canTransition status next = true) : next ≠ .pending ∧ next ≠ .processing := by
  cases status <;> cases next <;> revert ht hnext <;> decide

theorem statement_of_write (hs : Sound env s) {t : Task} (ht : t ∈ s.tasks) {u : OrderUpdate}
    (hw : Write t.label t.history u) (hg : Gating settings t.label t.history (.updateOrder u)) :
    Statement settings t.label t.history u := by
  have hsubmits : ∀ id, t.label = .processOrder id → Statement settings t.label t.history u := by
    intro id hl
    have hid : u.id = id := write_submits hs ht hw hl
    rcases hg id hl with ⟨n, order, hh, hu⟩ | ⟨hexpected, hnext, hdeciding⟩
    · exact .gate n order (by rw [hl, hid]) (by rw [hh, hid]) hu
    · exact .settle (by rw [hl, hid]) hexpected hnext hdeciding
  generalize hl : t.label = l at hw hsubmits
  have hlabel : ∀ {k : Option OrderId} {attempt first}, l = .processOrderStatus k attempt first →
      ∀ id, l ≠ .processOrder id := by
    rintro k attempt first rfl id hid
    cases hid
  cases hw with
  | @gate id' => exact hsubmits id' rfl
  | @release id' => exact hsubmits id' rfl
  | @submit id' => exact hsubmits id' rfl
  | track made =>
    refine .track _ (hlabel rfl) rfl (fun x hx => expectedStatuses_tracked hx) ?_
    exact next_of_tracked made.tracked made.allowed
  | timeout made =>
    exact .track trackingTargetStatuses (hlabel rfl) rfl (fun x hx => hx)
      (show OrderStatus.timeout ≠ .pending ∧ OrderStatus.timeout ≠ .processing by decide)
  | fail read =>
    exact .track trackingTargetStatuses (hlabel rfl) rfl (fun x hx => hx)
      (show OrderStatus.failed ≠ .pending ∧ OrderStatus.failed ≠ .processing by decide)

/-! ## The invariant -/

/-- What the gate says about an execution and the row of its order. -/
def Consistent (orders : OrderTable) (id : OrderId) (h : Calls) : Prop :=
  passedGate h = true → ∃ r, orders.get? id = some r ∧
    (holds h = true → r.status = .processing) ∧ (r.status = .pending → gaveBack h = true)

/-- Of two executions for one order behind the gate one has given the order back. -/
structure Excluding (settings : Settings) (env : Env) (s : System) : Prop where
  sound : Sound env s
  gating : Obeys (Gating settings) s
  gated : Recorded (fun l h (x : Entry) => Gating settings l h x.2.1) s
  clean : Known (fun _ _ x => masked x = false) s
  consistent : ∀ t ∈ s.tasks, ∀ id, t.label = .processOrder id →
    Consistent s.state.orders id t.history
  one : ∀ (i j : ℕ) (t t' : Task) (id : OrderId), s.tasks[i]? = some t → s.tasks[j]? = some t' →
    t.label = .processOrder id → t'.label = .processOrder id → i ≠ j →
    passedGate t.history = true → passedGate t'.history = true →
    gaveBack t.history = true ∨ gaveBack t'.history = true
  again : ∀ (i j : ℕ) (t t' : Task) (id : OrderId), s.tasks[i]? = some t → s.tasks[j]? = some t' →
    t.label = .processOrder id → t'.label = .processOrder id → i ≠ j →
    ∀ x ∈ t.history, ∀ x' ∈ t'.history, isPost x = true → isPost x' = true → x.1 < x'.1 →
    ∃ n < x'.1, GaveBackAt settings t.history n

theorem excluding_start (w : World) : Excluding settings env (start w) where
  sound := sound_start w
  gating := by intro t ht; cases ht
  gated := by intro t ht; cases ht
  clean := by intro t ht; cases ht
  consistent := by intro t ht; cases ht
  one := by intro i j t t' id ht; cases ht
  again := by intro i j t t' id ht; cases ht

theorem error_of_masked {n : ℕ} {o : Op} {r : Except PyExc (Ans o)}
    (hm : masked (n, ⟨o, r⟩) = true) : ∃ k, r = .error (.kisOrder k) := by
  cases r with
  | ok a => cases o <;> cases hm
  | error e =>
    cases e with
    | kisOrder k => exact ⟨k, rfl⟩
    | kisAuth k => cases o <;> cases hm
    | other type text => cases o <;> cases hm

/-- No store raises the exception of the broker client. -/
theorem masked_handle (henv : OwnErrors env) (w : World) (o : Op) :
    masked (w.tick, ⟨o, (World.handle env o w).1⟩) = false := by
  by_contra hm
  rw [Bool.not_eq_false] at hm
  obtain ⟨k, hk⟩ := error_of_masked hm
  rcases World.handle_error hk with hfault | hrefused | ⟨type, text, hother⟩
  · rw [hk] at hm
    exact henv.fault _ _ _ hm hfault
  · exact henv.refused _ _ hrefused.symm
  · cases hother

theorem Consistent.kept {orders orders' : OrderTable} (hc : Consistent orders id h)
    (hkeep : ∀ r, orders.get? id = some r → orders'.get? id = some r) :
    Consistent orders' id h := by
  intro hpassed
  obtain ⟨r, hr, hboth⟩ := hc hpassed
  exact ⟨r, hkeep r hr, hboth⟩

section Step
variable {i : ℕ} {t : Task} {u : OrderUpdate} {k : Except PyExc Bool → Program Unit} {r : Order}

theorem Excluding.statement (hex : Excluding settings env s) (ht : s.tasks[i]? = some t)
    (hp : t.prog = .call (.updateOrder u) k) : Statement settings t.label t.history u :=
  statement_of_write hex.sound (List.mem_of_getElem? ht) (hex.sound.write ht hp)
    (hex.gating.call ht hp)

/-- An execution whose statement takes an order out of PROCESSING holds it. -/
theorem Excluding.holds_of_deciding (hex : Excluding settings env s) (ht : s.tasks[i]? = some t)
    (hd : Clean t.history → Deciding settings t.history u) : holds t.history = true := by
  obtain ⟨order, calls, hb, hcalls, -⟩ := hd (hex.clean t (List.mem_of_getElem? ht))
  exact holds_iff.mpr ⟨order, calls, hb, hcalls⟩

/-- The task whose statement matched its row: it holds an order it has just taken out of
PENDING, and has given back one it has just put there. -/
theorem Excluding.own (hex : Excluding settings env s) (ht : s.tasks[i]? = some t)
    (hp : t.prog = .call (.updateOrder u) k) (hl : t.label = .processOrder u.id) (n : ℕ) :
    (holds (t.history ++ [(n, ⟨.updateOrder u, .ok true⟩)]) = true →
        u.set.nextStatus = .processing) ∧
      (u.set.nextStatus = .pending →
        gaveBack (t.history ++ [(n, ⟨.updateOrder u, .ok true⟩)]) = true) := by
  rcases hex.statement ht hp with ⟨m, order, -, -, hu⟩ | ⟨-, hexpected, hnext, hd⟩ |
    ⟨statuses, hother, -, -, -⟩
  · rw [hu]
    exact ⟨fun _ => rfl, fun hpending => by cases hpending⟩
  · obtain ⟨order, calls, hb, -⟩ := holds_iff.mp (hex.holds_of_deciding ht hd)
    have hb' := behindGate_append hb [(n, ⟨.updateOrder u, .ok true⟩)]
    constructor
    · intro hholds
      simp [holds, hb', settles, hexpected] at hholds
    · intro hpending
      simp [gaveBack, hb', returns, hexpected, hpending]
  · exact absurd hl (hother u.id)

/-- The other executions behind the gate of that order: none holds it, and all have given
it back when the statement is one of worker 1, or puts the order back to PENDING. -/
theorem Excluding.other (hex : Excluding settings env s) (ht : s.tasks[i]? = some t)
    (hp : t.prog = .call (.updateOrder u) k) (hr : s.state.orders.get? u.id = some r)
    (hsel : u.selects r = true) {j : ℕ} {t' : Task} (ht' : s.tasks[j]? = some t') (hij : i ≠ j)
    (hl : t'.label = .processOrder u.id) (hpassed : passedGate t'.history = true) :
    gaveBack t'.history = true ∨ (holds t'.history = false ∧ u.set.nextStatus ≠ .pending ∧
      ∀ id, t.label ≠ .processOrder id) := by
  obtain ⟨r', hr', hholds, hback⟩ :=
    hex.consistent t' (List.mem_of_getElem? ht') u.id hl hpassed
  obtain rfl := Option.some.inj (hr.symm.trans hr')
  have hstatus := (OrderUpdate.selects_iff.mp hsel).2
  rcases hex.statement ht hp with ⟨m, order, -, -, hu⟩ | ⟨hlabel, -, -, hd⟩ |
    ⟨statuses, hother, hexpected, htracked, hnext⟩
  · -- the order was PENDING
    have hpending : r.status ∈ [OrderStatus.pending] := hstatus _ (by rw [hu]; rfl)
    exact .inl (hback (List.mem_singleton.mp hpending))
  · -- the task of the statement holds the order
    have hown := hex.holds_of_deciding ht hd
    have hnot := not_gaveBack_of_holds hown
    rcases hex.one i j t t' u.id ht ht' hlabel hl hij (passedGate_of_holds hown) hpassed with hg | hg
    · rw [hnot] at hg
      cases hg
    · exact .inl hg
  · refine .inr ⟨?_, hnext.1, hother⟩
    by_contra hh
    rw [Bool.not_eq_false] at hh
    have hprocessing := htracked _ (hstatus _ hexpected)
    rw [hholds hh] at hprocessing
    revert hprocessing
    decide

/-- A task that is consistent with its row is so after the statement of another one. -/
theorem Excluding.consistent_other (hex : Excluding settings env s) (ht : s.tasks[i]? = some t)
    (hp : t.prog = .call (.updateOrder u) k) (hr : s.state.orders.get? u.id = some r)
    (hsel : u.selects r = true) {j : ℕ} {t' : Task} (ht' : s.tasks[j]? = some t') (hij : i ≠ j)
    (hl : t'.label = .processOrder u.id) {orders : OrderTable}
    (hnew : orders.get? u.id = some (u.set.apply r)) : Consistent orders u.id t'.history := by
  intro hpassed
  refine ⟨_, hnew, fun hh => ?_, fun hpending => ?_⟩
  · rcases hex.other ht hp hr hsel ht' hij hl hpassed with hg | ⟨hnot, -, -⟩
    · rw [not_gaveBack_of_holds hh] at hg
      cases hg
    · rw [hh] at hnot
      cases hnot
  · rw [SetClause.apply_status] at hpending
    rcases hex.other ht hp hr hsel ht' hij hl hpassed with hg | ⟨-, hnot, -⟩
    · exact hg
    · exact absurd hpending hnot

/-- The task that has made a call, and its row. -/
theorem Excluding.consistent_own (hex : Excluding settings env s) {o : Op}
    {k : Except PyExc (Ans o) → Program Unit} (ht : s.tasks[i]? = some t)
    (hp : t.prog = .call o k) (hl : t.label = .processOrder id) :
    Consistent (World.handle env o s.state).2.orders id
      (t.history ++ [(s.state.tick, ⟨o, (World.handle env o s.state).1⟩)]) := by
  have hmem := List.mem_of_getElem? ht
  rcases World.rows_handle env s.state o with ⟨hunmatched, hkeep⟩ |
    ⟨u, r, rfl, hok, hr, hsel, hnew, -⟩
  · obtain ⟨hpassed, hholds, hback⟩ := concat_unmatched (h := t.history) hunmatched
    have hcons := (hex.consistent t hmem id hl).kept (hkeep id)
    unfold Consistent at hcons ⊢
    rw [hpassed, hholds, hback]
    exact hcons
  · obtain rfl := write_submits hex.sound hmem (hex.sound.write ht hp) hl
    intro hpassed
    rw [hok]
    obtain ⟨hholds, hback⟩ := hex.own ht hp hl s.state.tick
    refine ⟨_, hnew, ?_, ?_⟩
    · rw [SetClause.apply_status]
      exact hholds
    · rw [SetClause.apply_status]
      exact hback

/-- The task that has made a call, and another one for the same order. -/
theorem Excluding.one_own (hex : Excluding settings env s) {o : Op}
    {k : Except PyExc (Ans o) → Program Unit} (ht : s.tasks[i]? = some t)
    (hp : t.prog = .call o k) (hl : t.label = .processOrder id) {j : ℕ} {t' : Task}
    (ht' : s.tasks[j]? = some t') (hij : i ≠ j) (hl' : t'.label = .processOrder id)
    (hpassed : passedGate
      (t.history ++ [(s.state.tick, ⟨o, (World.handle env o s.state).1⟩)]) = true)
    (hpassed' : passedGate t'.history = true) :
    gaveBack (t.history ++ [(s.state.tick, ⟨o, (World.handle env o s.state).1⟩)]) = true ∨
      gaveBack t'.history = true := by
  rcases World.rows_handle env s.state o with ⟨hunmatched, -⟩ | ⟨u, r, rfl, -, hr, hsel, -, -⟩
  · obtain ⟨hpassed₁, -, hback⟩ := concat_unmatched (h := t.history) hunmatched
    rw [hpassed₁] at hpassed
    rw [hback]
    exact hex.one i j t t' id ht ht' hl hl' hij hpassed hpassed'
  · obtain rfl := write_submits hex.sound (List.mem_of_getElem? ht) (hex.sound.write ht hp) hl
    rcases hex.other ht hp hr hsel ht' hij hl' hpassed' with hg | ⟨-, -, hnot⟩
    · exact .inr hg
    · exact absurd hl (hnot _)

end Step

/-! ## Order requests behind the gate -/

theorem passedGate_mono (hp : passedGate h = true) (h' : Calls) : passedGate (h ++ h') = true := by
  obtain ⟨⟨order, calls⟩, hb⟩ := Option.isSome_iff_exists.mp hp
  simp [passedGate, behindGate_append hb h']

theorem GaveBackAt.append {n : ℕ} (hg : GaveBackAt settings h n) (h' : Calls) :
    GaveBackAt settings (h ++ h') n := by
  obtain ⟨h₁, x, h₂, hh, hx⟩ := hg
  exact ⟨h₁, x, h₂ ++ h', by rw [hh, List.append_assoc, List.cons_append], hx⟩

/-- An order request is made by an execution that holds its order, and is the only one. -/
theorem Excluding.posted (hex : Excluding settings env s) {t : Task} (ht : t ∈ s.tasks)
    {h₁ h₂ : Calls} (hh : t.history = h₁ ++ x :: h₂) (hx : isPost x = true) :
    ∃ id n q r, t.label = .processOrder id ∧ x = (n, ⟨.post q, r⟩) ∧ holds h₁ = true ∧
      SameRequest h₁ q := by
  have hconduct := hex.sound.recorded t ht h₁ x h₂ hh
  have hgated := hex.gated t ht h₁ x h₂ hh
  obtain ⟨n, o, r⟩ := x
  cases o
  case post q =>
    obtain ⟨id, order, hl, -⟩ := hconduct
    obtain ⟨hholds, hsame⟩ := hgated id hl
    exact ⟨id, n, q, r, hl, rfl, hholds, hsame⟩
  all_goals cases hx

theorem Excluding.passed_of_post (hex : Excluding settings env s) {t : Task} (ht : t ∈ s.tasks)
    (hmem : x ∈ t.history) (hx : isPost x = true) : passedGate t.history = true := by
  obtain ⟨h₁, h₂, hh⟩ := List.append_of_mem hmem
  obtain ⟨id, n, q, r, -, -, hholds, -⟩ := hex.posted ht hh hx
  rw [hh]
  exact passedGate_mono (passedGate_of_holds hholds) _

/-- An execution that has given its order back did so on a rate limit. -/
theorem Excluding.gaveBackAt (hex : Excluding settings env s) {t : Task} (ht : t ∈ s.tasks)
    (hl : t.label = .processOrder id) (hg : gaveBack t.history = true) :
    ∃ x ∈ t.history, GaveBackAt settings t.history x.1 := by
  obtain ⟨⟨order, calls⟩, hb, hany⟩ := (Option.any_eq_true _ _).mp hg
  obtain ⟨x, hx, hret⟩ := List.any_eq_true.mp hany
  have hmem : x ∈ t.history := by
    obtain ⟨n, k, read, m, u, hh, -⟩ := behindGate_iff.mp hb
    rw [hh]
    exact List.mem_cons_of_mem _ (List.mem_cons_of_mem _ hx)
  obtain ⟨h₁, h₂, hh⟩ := List.append_of_mem hmem
  refine ⟨x, hmem, h₁, x, h₂, hh, rfl, hret, ?_⟩
  have hgated := hex.gated t ht h₁ x h₂ hh id hl
  have hclean : Clean h₁ := fun y hy => hex.clean t ht y (by rw [hh]; exact List.mem_append_left _ hy)
  unfold returns at hret
  split at hret
  · next u =>
    have hboth : u.expected = some [.processing] ∧ u.set.nextStatus = .pending := by simpa using hret
    rcases hgated with ⟨n, order, -, hu⟩ | ⟨-, -, hd⟩
    · rw [hu] at hboth
      cases hboth.1
    · obtain ⟨order, calls, hb, -, hlimit⟩ := hd hclean
      obtain ⟨e, hraised, he⟩ := hlimit hboth.2
      exact ⟨order, calls, e, hb, hraised, he⟩
  · cases hret

/-- A further execution requests the order when an earlier one has given it back. -/
theorem Excluding.again_own (hex : Excluding settings env s) {i j : ℕ} {t t' : Task} {o : Op}
    {k : Except PyExc (Ans o) → Program Unit} (ht : s.tasks[i]? = some t)
    (ht' : s.tasks[j]? = some t') (hij : i ≠ j) (hp' : t'.prog = .call o k)
    (hl : t.label = .processOrder id) (hl' : t'.label = .processOrder id) (hmem : x ∈ t.history)
    (hx : isPost x = true) {r : Except PyExc (Ans o)} (hpost : isPost (s.state.tick, ⟨o, r⟩) = true) :
    ∃ n < s.state.tick, GaveBackAt settings t.history n := by
  have htask := List.mem_of_getElem? ht
  have hholds : holds t'.history = true := by
    have hgated := hex.gating.call ht' hp' id hl'
    cases o
    case post q => exact hgated.1
    all_goals cases hpost
  have hpassed := hex.passed_of_post htask hmem hx
  rcases hex.one i j t t' id ht ht' hl hl' hij hpassed (passedGate_of_holds hholds) with hg | hg
  · obtain ⟨y, hy, hback⟩ := hex.gaveBackAt htask hl hg
    exact ⟨y.1, hex.sound.stamped t htask y hy, hback⟩
  · rw [not_gaveBack_of_holds hholds] at hg
    cases hg

theorem passedGate_nil : passedGate [] = false := rfl

/-- After a change the row of the order still agrees with its executions. -/
theorem Excluding.consistent_change (hex : Excluding settings env s)
    (hc : Change (autotrading settings env) s e s') {t' : Task} (ht' : t' ∈ s'.tasks)
    (hl : t'.label = .processOrder id) : Consistent s'.state.orders id t'.history := by
  have hnil : ∀ orders : OrderTable, Consistent orders id [] := fun orders hpassed => by
    rw [passedGate_nil] at hpassed
    cases hpassed
  obtain ⟨j, hj⟩ := List.getElem?_of_mem ht'
  cases hc with
  | idle => exact hex.consistent t' ht' id hl
  | launched l state hlaunch =>
    rw [(launch_stores hlaunch).1]
    rcases List.mem_append.mp ht' with ht' | ht'
    · exact hex.consistent t' ht' id hl
    · rw [List.mem_singleton.mp ht']
      exact hnil _
  | stepped i t o k ht hp =>
    by_cases hij : i = j
    · subst hij
      rw [List.getElem?_set_self (List.getElem?_eq_some_iff.mp ht).1] at hj
      obtain rfl := Option.some.inj hj
      exact hex.consistent_own ht hp hl
    · rw [List.getElem?_set_ne hij] at hj
      have hcons := hex.consistent t' (List.mem_of_getElem? hj) id hl
      rcases World.rows_handle env s.state o with ⟨-, hkeep⟩ | ⟨u, r, rfl, -, hr, hsel, hnew, hrest⟩
      · exact hcons.kept (hkeep id)
      · by_cases hid : id = u.id
        · subst hid
          exact hex.consistent_other ht hp hr hsel hj hij hl hnew
        · exact hcons.kept fun r' => hrest id r' hid
  | crashed i t ht =>
    rcases List.mem_or_eq_of_mem_set ht' with ht' | rfl
    · exact hex.consistent t' ht' id hl
    · exact hex.consistent t (List.mem_of_getElem? ht) id hl
  | moved a =>
    show Consistent (World.ambient a s.state).orders id t'.history
    rw [(ambient_stores a s.state).1]
    exact hex.consistent t' ht' id hl

/-- After a change there is still at most one execution that has not given the order back. -/
theorem Excluding.one_change (hex : Excluding settings env s)
    (hc : Change (autotrading settings env) s e s') {i j : ℕ} {t₁ t₂ : Task}
    (ht₁ : s'.tasks[i]? = some t₁) (ht₂ : s'.tasks[j]? = some t₂)
    (hl₁ : t₁.label = .processOrder id) (hl₂ : t₂.label = .processOrder id) (hij : i ≠ j)
    (hpassed₁ : passedGate t₁.history = true) (hpassed₂ : passedGate t₂.history = true) :
    gaveBack t₁.history = true ∨ gaveBack t₂.history = true := by
  have hmade₁ : t₁.history ≠ [] := by
    intro hnil
    rw [hnil, passedGate_nil] at hpassed₁
    cases hpassed₁
  have hmade₂ : t₂.history ≠ [] := by
    intro hnil
    rw [hnil, passedGate_nil] at hpassed₂
    cases hpassed₂
  obtain ⟨u₁, u₂, hu₁, hu₂, hlu₁, hlu₂, hcase⟩ := hc.pair_at hij ht₁ ht₂ hmade₁ hmade₂
  rw [← hlu₁] at hl₁
  rw [← hlu₂] at hl₂
  rcases hcase with ⟨hh₁, hh₂⟩ | ⟨o, k, hp, hh₂, hh₁⟩ | ⟨o, k, hp, hh₁, hh₂⟩
  · rw [← hh₁] at hpassed₁ ⊢
    rw [← hh₂] at hpassed₂ ⊢
    exact hex.one i j u₁ u₂ id hu₁ hu₂ hl₁ hl₂ hij hpassed₁ hpassed₂
  · rw [hh₁] at hpassed₁ ⊢
    rw [← hh₂] at hpassed₂ ⊢
    exact hex.one_own hu₁ hp hl₁ hu₂ hij hl₂ hpassed₁ hpassed₂
  · rw [← hh₁] at hpassed₁ ⊢
    rw [hh₂] at hpassed₂ ⊢
    exact (hex.one_own hu₂ hp hl₂ hu₁ (Ne.symm hij) hl₁ hpassed₂ hpassed₁).symm

/-- After a change a second request still has a return of the order in front of it. -/
theorem Excluding.again_change (hex : Excluding settings env s)
    (hc : Change (autotrading settings env) s e s') {i j : ℕ} {t₁ t₂ : Task}
    (ht₁ : s'.tasks[i]? = some t₁) (ht₂ : s'.tasks[j]? = some t₂)
    (hl₁ : t₁.label = .processOrder id) (hl₂ : t₂.label = .processOrder id) (hij : i ≠ j)
    {x₁ x₂ : Entry} (hx₁ : x₁ ∈ t₁.history) (hx₂ : x₂ ∈ t₂.history) (hpost₁ : isPost x₁ = true)
    (hpost₂ : isPost x₂ = true) (hlt : x₁.1 < x₂.1) :
    ∃ n < x₂.1, GaveBackAt settings t₁.history n := by
  obtain ⟨u₁, u₂, hu₁, hu₂, hlu₁, hlu₂, hcase⟩ :=
    hc.pair_at hij ht₁ ht₂ (List.ne_nil_of_mem hx₁) (List.ne_nil_of_mem hx₂)
  rw [← hlu₁] at hl₁
  rw [← hlu₂] at hl₂
  rcases hcase with ⟨hh₁, hh₂⟩ | ⟨o, k, hp, hh₂, hh₁⟩ | ⟨o, k, hp, hh₁, hh₂⟩
  · rw [← hh₁] at hx₁ ⊢
    rw [← hh₂] at hx₂
    exact hex.again i j u₁ u₂ id hu₁ hu₂ hl₁ hl₂ hij x₁ hx₁ x₂ hx₂ hpost₁ hpost₂ hlt
  · rw [hh₁] at hx₁ ⊢
    rw [← hh₂] at hx₂
    rcases List.mem_append.mp hx₁ with hx₁ | hx₁
    · obtain ⟨n, hn, hback⟩ :=
        hex.again i j u₁ u₂ id hu₁ hu₂ hl₁ hl₂ hij x₁ hx₁ x₂ hx₂ hpost₁ hpost₂ hlt
      exact ⟨n, hn, hback.append _⟩
    · -- the call just made is later than every other one
      rw [List.mem_singleton.mp hx₁] at hlt
      have hstamp := hex.sound.stamped u₂ (List.mem_of_getElem? hu₂) x₂ hx₂
      exact absurd hlt (Nat.lt_asymm hstamp)
  · rw [← hh₁] at hx₁ ⊢
    rw [hh₂] at hx₂
    rcases List.mem_append.mp hx₂ with hx₂ | hx₂
    · exact hex.again i j u₁ u₂ id hu₁ hu₂ hl₁ hl₂ hij x₁ hx₁ x₂ hx₂ hpost₁ hpost₂ hlt
    · obtain rfl := List.mem_singleton.mp hx₂
      exact hex.again_own hu₁ hu₂ hij hp hl₁ hl₂ hx₁ hpost₁ hpost₂

theorem Excluding.change (henv : OwnErrors env) (hex : Excluding settings env s)
    (hc : Change (autotrading settings env) s e s') : Excluding settings env s' where
  sound := hex.sound.change hc
  gating := hex.gating.change gating_program hc
  gated := hex.gated.change hc fun _ _ _ _ _ ht hp => hex.gating.call ht hp
  clean := hex.clean.change hc (fun _ _ hx => hx) fun _ _ o _ _ _ _ => masked_handle henv s.state o
  consistent := fun _ ht' _ hl => hex.consistent_change hc ht' hl
  one := fun _ _ _ _ _ ht₁ ht₂ hl₁ hl₂ hij hpassed₁ hpassed₂ =>
    hex.one_change hc ht₁ ht₂ hl₁ hl₂ hij hpassed₁ hpassed₂
  again := fun _ _ _ _ _ ht₁ ht₂ hl₁ hl₂ hij _ hx₁ _ hx₂ hpost₁ hpost₂ hlt =>
    hex.again_change hc ht₁ ht₂ hl₁ hl₂ hij hx₁ hx₂ hpost₁ hpost₂ hlt

theorem Excluding.exclusive (hex : Excluding settings env s) : Exclusive settings s where
  one := by
    intro i j t t' id ht ht' hl hl' hp hg hp' hg'
    by_contra hij
    rcases hex.one i j t t' id ht ht' hl hl' hij hp hp' with hback | hback
    · rw [hg] at hback
      cases hback
    · rw [hg'] at hback
      cases hback
  behind := by
    intro t ht h₁ x h₂ hh hx
    obtain ⟨id, n, q, r, hl, -, hholds, -⟩ := hex.posted ht hh hx
    exact ⟨id, hl, passedGate_of_holds hholds, not_gaveBack_of_holds hholds⟩
  same := by
    intro t ht n n' q q' r r' hmem hmem'
    -- the later of two requests finds the earlier one in the history
    obtain ⟨h₁, h₂, hh⟩ := List.append_of_mem hmem
    obtain ⟨id, m, p, b, -, hx, -, hsame⟩ := hex.posted ht hh rfl
    have hp : q = p := Op.post.inj (congrArg (fun x : Entry => x.2.1) hx)
    rw [hh, List.mem_append, List.mem_cons] at hmem'
    rcases hmem' with hbefore | hnow | hafter
    · exact (hp.trans (hsame n' q' r' hbefore).symm)
    · exact (Op.post.inj (congrArg (fun x : Entry => x.2.1) hnow)).symm
    · obtain ⟨h₃, h₄, rfl⟩ := List.append_of_mem hafter
      have hh' : t.history = (h₁ ++ (n, ⟨.post q, r⟩) :: h₃) ++ (n', ⟨.post q', r'⟩) :: h₄ := by
        rw [hh, List.append_assoc, List.cons_append]
      obtain ⟨id', m', p', b', -, hx', -, hsame'⟩ := hex.posted ht hh' rfl
      have hp' : q' = p' := Op.post.inj (congrArg (fun x : Entry => x.2.1) hx')
      exact (hsame' n q r (by simp)).trans hp'.symm
  again := hex.again

/-- In every run, of the executions for one order that have passed its gate at most one
has not given the order back; every order request is made by such an execution, which
repeats one request; and another execution requests the order only when an earlier one
has given it back on a rate limit. -/
theorem gate_exclusive (settings : Settings) {env : Env} (henv : OwnErrors env) (w : World)
    (es : List Event) : Exclusive settings ((autotrading settings env).run (start w) es) := by
  have hex : Excluding settings env ((autotrading settings env).run (start w) es) :=
    run_invariant (fun _ _ _ h hc => h.change henv hc) es (excluding_start w)
  exact hex.exclusive

/-- Surroundings in which the broker answers every order request with its rate limit. -/
def rateLimiting : Env :=
  { Env.quiet with
    post := fun _ _ => ⟨false, .response 500 (.object ⟨.text "1", .text "EGW00201",
      .text "초당 거래건수를 초과하였습니다.", .absent, ""⟩) ""⟩ }

/-- Two deliveries for order 1, the first one `n` calls and the second one `m` calls in. -/
def duplicates (n m : ℕ) : System :=
  (autotrading .sample rateLimiting).run
    (start (.holding [Order.sample 1 .pending] [.processOrder 1, .processOrder 1]))
    ([.launch (.processOrder 1), .launch (.processOrder 1)] ++ List.replicate n (.step 0) ++
      List.replicate m (.step 1))

/-- An execution that has given its order back and not yet queued the retry lets a second
one through the gate: neither has finished. Before that it has sent two requests. -/
theorem duplicates_behind_gate :
    (∀ t ∈ (duplicates 9 2).tasks, t.label.message = some (.processOrder 1) ∧
      passedGate t.history = true ∧ t.prog.isEnded = false) ∧
    (duplicates 9 2).tasks.length = 2 ∧
    (∃ t ∈ (duplicates 6 0).tasks, t.history.countP isPost = 2) ∧
    ∀ t ∈ (duplicates 6 0).tasks, gaveBack t.history = false := by
  decide +kernel

theorem gate_exclusive_sample : Exclusive .sample (duplicates 9 2) :=
  gate_exclusive .sample ⟨fun _ _ _ _ h => (by cases h), fun _ _ h => (by cases h)⟩ _ _

end Autotrading.ProcessOrder
