import Autotrading.BrokerReports
import Mathlib.Data.List.Chain

/-!
# What a child order passes on to its parent

A CANCEL or MODIFY order is to hand what the broker confirms of it to the order it
was made for. The account of a run adds up what the cycles of the child change of
the parent. It is zero in every run: step 8 of a cycle compares the result with an
object that step 7 has refreshed, or raises before its statement. So shares are
conserved exactly as long as there are none to pass on.
-/
namespace Autotrading

open Machine OrderState OrderRepository TrackingSnapshot
open Machine.Sys (start)

variable {settings : Settings} {env : Env} {s s' : System} {e : Event} {w : World}
  {c p : OrderId} {kind : OrderKind}

/-- What an event adds to a quantity of the order `p` when it is a step of a cycle
of `c`. -/
def addedBy (f : Order → ℤ) (c p : OrderId) (s : System) (e : Event) (s' : System) : ℤ :=
  match e with
  | .step i =>
    if (s.tasks[i]?.bind fun t => t.label.tracks) = some c then
      s'.state.quantity f p - s.state.quantity f p
    else 0
  | _ => 0

/-- `c` is an order of the given kind on the order `p`. -/
structure ChildOf (w : World) (kind : OrderKind) (c p : OrderId) : Prop where
  child : (w.orders.get? c).any (fun r => r.orderKind = kind && r.originalOrderId = some p) = true
  parent : (w.orders.get? p).isSome = true
  distinct : c ≠ p

/-- A cycle leaves the rows of other orders alone. -/
theorem tracking_step_other (hs : Sound env s) (hc : Change (autotrading settings env) s e s')
    {i : ℕ} {t : Task} (he : e = .step i) (ht : s.tasks[i]? = some t)
    (htracks : t.label.tracks = some c) (hne : c ≠ p) :
    s'.state.orders.get? p = s.state.orders.get? p := by
  cases hp : s.state.orders.get? p with
  | some r =>
    rcases row_change hs hc hp with hkeep | ⟨j, u, upd, he', hu, -, hw, hsel, -, -⟩
    · exact hkeep
    · obtain rfl : i = j := by simpa using he.symm.trans he'
      obtain rfl := Option.some.inj (ht.symm.trans hu)
      have hid := hs.write_tracks (List.mem_of_getElem? ht) hw htracks
      have hrow := (OrderUpdate.selects_iff.mp hsel).1
      have hkey := KeyedTable.key_of_get? hp
      exact absurd (hid.symm.trans (hrow.symm.trans hkey)) hne
  | none =>
    cases hp' : s'.state.orders.get? p with
    | none => rfl
    | some r =>
      obtain ⟨j, u, os, o, he', hu, -, -, hins, -⟩ := row_new hs hc hp hp'
      obtain rfl : i = j := by simpa using he.symm.trans he'
      obtain rfl := Option.some.inj (ht.symm.trans hu)
      have hcreator := hins.creator
      rw [htracks] at hcreator
      cases hcreator

/-- In no run do the cycles of an order change another order. -/
theorem addedBy_eq_zero (settings : Settings) (f : Order → ℤ) (hne : c ≠ p) (hs : Sound env s)
    (es : List Event) : account (autotrading settings env) (addedBy f c p) s es = 0 := by
  have hstep : ∀ s e s', Sound env s → Change (autotrading settings env) s e s' →
      Sound env s' ∧ addedBy f c p s e s' = 0 := by
    intro s e s' h hc
    refine ⟨h.change hc, ?_⟩
    unfold addedBy
    split
    · next i =>
      split
      · next htracks =>
        obtain ⟨t, ht, htracks⟩ := Option.bind_eq_some_iff.mp htracks
        rw [World.quantity, World.quantity, tracking_step_other h hc rfl ht htracks hne]
        exact sub_self _
      · rfl
    · rfl
  exact account_eq_zero hstep es hs

/-! ## A child without fills -/

/-- No fill of the order is stored, was read, or was reported. -/
structure Unfilled (env : Env) (c : OrderId) (s : System) : Prop where
  sound : Sound env s
  stored : ∀ r, s.state.orders.get? c = some r → r.filledQty = 0
  read : Known (fun _ _ => World.ReadOf fun r => r.id = c → r.filledQty = 0) s
  reported : ∀ q ∈ reports s c, q.filledQty ≤ 0

/-- A snapshot that a task stores of an order without fills shows none. -/
theorem Unfilled.snapshot (h : Unfilled env c s) {t : Task} (ht : t ∈ s.tasks) {u : OrderUpdate}
    {order : Order} {n : ℕ} {snapshot : Snapshot}
    (hst : Stores t.label t.history u order n snapshot) (hu : u.id = c) :
    snapshot.result.filledQty = 0 := by
  have htracks := h.sound.stores_tracks ht hst
  obtain ⟨id, attempt, first, hl, hmade⟩ := hst.made
  obtain ⟨x, hx, -, ⟨-, hkept, -⟩ | ⟨q, htold, hfilled, -⟩⟩ := hmade.cases
  · obtain ⟨k, hread⟩ := hmade.read
    have hzero := h.read t ht _ hread (hst.target.symm.trans hu)
    rw [hkept, hzero]
  · have hmem : q ∈ reports s c := mem_reports.mpr ⟨t, ht, by rw [htracks, hu], x, hx, htold⟩
    have hle := h.reported q hmem
    have hge := q.filledQty_nonneg
    rw [hfilled]
    omega

theorem Unfilled.change (h : Unfilled env c s) (htold : ∀ q, Told env c s e q → q.filledQty ≤ 0)
    (hc : Change (autotrading settings env) s e s') : Unfilled env c s' where
  sound := h.sound.change hc
  stored := by
    intro r hr
    cases hold : s.state.orders.get? c with
    | none =>
      obtain ⟨i, t, os, o, -, -, -, -, hins, rfl⟩ := row_new h.sound hc hold hr
      exact hins.unfilled
    | some r₀ =>
      rcases row_change h.sound hc hold with hkeep | ⟨i, t, u, -, ht, -, hw, hsel, hnew, -⟩
      · obtain rfl := Option.some.inj (hkeep.symm.trans hr)
        exact h.stored _ hold
      · obtain rfl := Option.some.inj (hnew.symm.trans hr)
        rcases hw.filledQty with hkeep | ⟨order, n, snapshot, hst, hset⟩
        · rw [hkeep.filledQty]
          exact h.stored r₀ hold
        · have hid := (OrderUpdate.selects_iff.mp hsel).1
          have hkey := KeyedTable.key_of_get? hold
          rw [hset]
          exact h.snapshot (List.mem_of_getElem? ht) hst (hid.symm.trans hkey)
  read := by
    refine h.read.change hc (fun _ _ hx => hx) fun i t o k _ ht hp => ?_
    refine World.readOf_handle (fun id r hr hid => ?_) _ o
    rw [← KeyedTable.key_of_get? hr, hid] at hr
    exact h.stored r hr
  reported := by
    intro q hq
    rcases reports_change hc hq with hq | hq
    · exact h.reported q hq
    · exact htold q hq

theorem unfilled_start (hw : w.quantity Order.filledQty c = 0) : Unfilled env c (start w) where
  sound := sound_start w
  stored := by
    intro r hr
    have hr' : w.orders.get? c = some r := hr
    simpa [World.quantity, hr'] using hw
  read := by intro t ht; cases ht
  reported := by intro q hq; cases hq

theorem Unfilled.quantity (h : Unfilled env c s) : s.state.quantity Order.filledQty c = 0 := by
  unfold World.quantity
  cases hc : s.state.orders.get? c with
  | none => rfl
  | some r => exact h.stored r hc

/-! ## A child of an open order -/

/-- Order 1 is open, order 2 an open order on it that worker 2 is to track. -/
def World.withChild (kind : OrderKind) : World :=
  .holding [Order.sample 1 .accepted, Order.childSample 2 kind] [.processOrderStatus (some 2) 0 none]

/-- The broker reports a row for order 2 with these quantities. -/
def Env.reporting (rmnQty cnclCfrmQty : String) : Env :=
  { Env.quiet with
    get := fun _ _ => ExecutionAnswer.ofRows [⟨"91252", "8", "10", rmnQty, cnclCfrmQty, "0", "100", "0"⟩] }

/-- Order 2 is tracked for `n` calls. -/
def childCycle (n : ℕ) : List Event :=
  .launch (.processOrderStatus (some 2) 0 none) :: List.replicate n (.step 0)

/-! ## MODIFY orders -/

/-- In the run the cycles of the MODIFY order `c` add what it has filled to its
parent, up to the parent's order quantity, and in a chain of MODIFY orders that much
reaches the NEW order at the root. -/
structure ModifyConserved (settings : Settings) (env : Env) (s : System) (es : List Event)
    (c : OrderId) : Prop where
  parent : ∀ p, ChildOf ((autotrading settings env).run s es).state .modify c p →
    account (autotrading settings env) (addedBy Order.filledQty c p) s es =
      min (((autotrading settings env).run s es).state.quantity Order.filledQty c)
        (max (((autotrading settings env).run s es).state.quantity Order.orderQty p) 0)
  root : ∀ ks root,
    List.IsChain (ChildOf ((autotrading settings env).run s es).state .modify)
      (c :: ks ++ [root]) →
    (((autotrading settings env).run s es).state.orders.get? root).any
      (fun r => r.orderKind = .new) = true →
    min (((autotrading settings env).run s es).state.quantity Order.filledQty c)
        (max (((autotrading settings env).run s es).state.quantity Order.orderQty root) 0) ≤
      ((c :: ks).map fun k =>
        account (autotrading settings env) (addedBy Order.filledQty k root) s es).sum

theorem exists_next_of_isChain {α : Type} {R : α → α → Prop} {l : List α} {a b : α}
    (h : List.IsChain R (l ++ [b])) (ha : a ∈ l) : ∃ b', R a b' := by
  obtain ⟨l₁, l₂, rfl⟩ := List.append_of_mem ha
  rw [List.append_assoc, List.cons_append] at h
  have htail := h.right_of_append
  cases l₂ with
  | nil => exact ⟨b, htail.rel⟩
  | cons x l₂ => exact ⟨x, htail.rel⟩

/-- Orders below the root of a chain of MODIFY orders are not the root. -/
theorem ne_root {ks : List OrderId} {k root : OrderId}
    (hchain : List.IsChain (ChildOf w .modify) (ks ++ [root])) (hk : k ∈ ks)
    (hroot : (w.orders.get? root).any (fun r => r.orderKind = .new) = true) : k ≠ root := by
  rintro rfl
  obtain ⟨p, hp⟩ := exists_next_of_isChain hchain hk
  have hchild := hp.child
  cases hget : w.orders.get? k with
  | none => simp [hget] at hroot
  | some r =>
    simp only [hget, Option.any_some, Bool.and_eq_true, decide_eq_true_eq] at hroot hchild
    rw [hroot] at hchild
    cases hchild.1

/-- As long as the broker reports no fill of a MODIFY order, its shares are conserved
in every state of a run. A fill that is stored is never passed on. -/
theorem modify_conserved_while_unfilled (settings : Settings) (env : Env) {w : World} {c : OrderId}
    (hw : w.quantity Order.filledQty c = 0) (es : List Event) :
    (Meets (autotrading settings env) (fun s e => ∀ q, Told env c s e q → q.filledQty ≤ 0)
        (start w) es →
      ModifyConserved settings env (start w) es c) ∧
    ∀ p, ChildOf ((autotrading settings env).run (start w) es).state .modify c p →
      0 < ((autotrading settings env).run (start w) es).state.quantity Order.filledQty c →
      0 < ((autotrading settings env).run (start w) es).state.quantity Order.orderQty p →
      ¬ ModifyConserved settings env (start w) es c := by
  constructor
  · intro hmeets
    have hstep : ∀ s e s', Unfilled env c s → (∀ q, Told env c s e q → q.filledQty ≤ 0) →
        Change (autotrading settings env) s e s' → Unfilled env c s' :=
      fun s e s' h htold hc => h.change htold hc
    have hzero := (hmeets.invariant hstep (unfilled_start hw)).quantity
    constructor
    · intro p hchild
      rw [addedBy_eq_zero settings _ hchild.distinct (sound_start w), hzero]
      omega
    · intro ks root hchain hroot
      have hsum : ((c :: ks).map fun k => account (autotrading settings env)
          (addedBy Order.filledQty k root) (start w) es).sum = 0 := by
        refine List.sum_eq_zero fun x hx => ?_
        obtain ⟨k, hk, rfl⟩ := List.mem_map.mp hx
        exact addedBy_eq_zero settings _ (ne_root hchain hk hroot) (sound_start w) es
      rw [hsum, hzero]
      omega
  · intro p hchild hfilled hqty h
    have hadded := h.parent p hchild
    rw [addedBy_eq_zero settings _ hchild.distinct (sound_start w)] at hadded
    omega

/-- The child fills completely; nothing of it is ever added to its parent. -/
theorem modify_fill_not_conserved :
    ¬ ModifyConserved .sample (.reporting "0" "0") (start (.withChild .modify)) (childCycle 12) 2 := by
  intro h
  have hadded := h.parent 1 ⟨by decide +kernel, by decide +kernel, by decide⟩
  revert hadded
  decide +kernel

/-- A cycle of a child that has not filled. -/
theorem modify_conserved_while_unfilled_sample :
    (Meets (autotrading .sample (.reporting "10" "0"))
        (fun s e => ∀ q, Told (.reporting "10" "0") 2 s e q → q.filledQty ≤ 0)
        (start (.withChild .modify)) (childCycle 12) →
      ModifyConserved .sample (.reporting "10" "0") (start (.withChild .modify)) (childCycle 12) 2) ∧
    ∀ p, ChildOf ((autotrading .sample (.reporting "10" "0")).run (start (.withChild .modify))
        (childCycle 12)).state .modify 2 p →
      0 < ((autotrading .sample (.reporting "10" "0")).run (start (.withChild .modify))
        (childCycle 12)).state.quantity Order.filledQty 2 →
      0 < ((autotrading .sample (.reporting "10" "0")).run (start (.withChild .modify))
        (childCycle 12)).state.quantity Order.orderQty p →
      ¬ ModifyConserved .sample (.reporting "10" "0") (start (.withChild .modify)) (childCycle 12) 2 :=
  modify_conserved_while_unfilled _ _ (by decide +kernel) _

/-! ## CANCEL orders -/

/-- What the broker has confirmed of a CANCEL order: the greatest quantity it
reported as confirmed. -/
def confirmedCancelQty (s : System) (c : OrderId) : ℤ :=
  ((reports s c).map fun q => q.cancelConfirmQty).foldr max 0

theorem confirmedCancelQty_eq_zero :
    confirmedCancelQty s c = 0 ↔ ∀ q ∈ reports s c, q.cancelConfirmQty ≤ 0 := by
  have hfold : ∀ xs : List ℤ, 0 ≤ xs.foldr max 0 ∧ (xs.foldr max 0 = 0 ↔ ∀ x ∈ xs, x ≤ 0) := by
    intro xs
    induction xs with
    | nil => simp
    | cons x xs ih =>
      simp only [List.foldr_cons, List.mem_cons, forall_eq_or_imp]
      rw [← ih.2]
      omega
  rw [confirmedCancelQty, (hfold _).2]
  simp

/-- The decrements of the parent's remainder equal what is confirmed of its CANCEL
order exactly in the runs in which the broker confirms nothing. -/
theorem cancel_conserved_iff (settings : Settings) (env : Env) (w : World) (es : List Event)
    {c p : OrderId} (hchild : ChildOf ((autotrading settings env).run (start w) es).state .cancel c p) :
    account (autotrading settings env) (addedBy (fun o => -o.remainingQty) c p) (start w) es =
        confirmedCancelQty ((autotrading settings env).run (start w) es) c ↔
      Meets (autotrading settings env) (fun s e => ∀ q, Told env c s e q → q.cancelConfirmQty ≤ 0)
        (start w) es := by
  have htold : ((∀ q ∈ reports (start w) c, q.cancelConfirmQty ≤ 0) ∧
      Meets (autotrading settings env) (fun s e => ∀ q, Told env c s e q → q.cancelConfirmQty ≤ 0)
        (start w) es) ↔
      ∀ q ∈ reports ((autotrading settings env).run (start w) es) c, q.cancelConfirmQty ≤ 0 :=
    meets_told_iff es (start w)
  rw [addedBy_eq_zero settings _ hchild.distinct (sound_start w), eq_comm,
    confirmedCancelQty_eq_zero, ← htold]
  constructor
  · exact fun h => h.2
  · intro h
    refine ⟨fun q hq => ?_, h⟩
    cases hq

/-- All ten shares are confirmed cancelled; the parent's remainder stays. -/
theorem cancel_not_conserved :
    account (autotrading .sample (.reporting "0" "10")) (addedBy (fun o => -o.remainingQty) 2 1)
        (start (.withChild .cancel)) (childCycle 12) ≠
      confirmedCancelQty ((autotrading .sample (.reporting "0" "10")).run (start (.withChild .cancel))
        (childCycle 12)) 2 := by
  decide +kernel

/-- A cycle in which nothing is confirmed. -/
theorem cancel_conserved_iff_sample :
    account (autotrading .sample (.reporting "10" "0")) (addedBy (fun o => -o.remainingQty) 2 1)
        (start (.withChild .cancel)) (childCycle 12) =
      confirmedCancelQty ((autotrading .sample (.reporting "10" "0")).run (start (.withChild .cancel))
        (childCycle 12)) 2 ↔
    Meets (autotrading .sample (.reporting "10" "0"))
      (fun s e => ∀ q, Told (.reporting "10" "0") 2 s e q → q.cancelConfirmQty ≤ 0)
      (start (.withChild .cancel)) (childCycle 12) :=
  cancel_conserved_iff _ _ _ _ ⟨by decide +kernel, by decide +kernel, by decide⟩

/-! ## Both or neither -/

/-- What a row of the child hands on to the parent. -/
def handedOn (kind : OrderKind) (q : RowQuantities) : ℤ :=
  match kind with
  | .new => 0
  | .modify => q.filledQty
  | .cancel => q.cancelConfirmQty

/-- The quantity of the parent that takes it up. -/
def takenUp (kind : OrderKind) (o : Order) : ℤ :=
  match kind with
  | .new => 0
  | .modify => o.filledQty
  | .cancel => -o.remainingQty

theorem storedReports_subset {id : OrderId} {q : RowQuantities} (hq : q ∈ storedReports s id) :
    q ∈ reports s id := by
  simp only [storedReports, storingCycles, List.mem_flatMap, List.mem_filter, Bool.and_eq_true,
    decide_eq_true_eq, List.mem_filterMap] at hq
  obtain ⟨t, ⟨ht, htracks, -⟩, x, hx, htold⟩ := hq
  exact mem_reports.mpr ⟨t, ht, htracks, x, hx, htold⟩

/-- Where a run has come, after whatever calls, crashes and failures: a result of the
child that hands something on is stored exactly when the parent has taken something
up, and a child that ended has handed on what was reported of it. -/
structure AllOrNothing (settings : Settings) (env : Env) (s : System) (es : List Event)
    (kind : OrderKind) (c p : OrderId) : Prop where
  together : (∃ q ∈ storedReports ((autotrading settings env).run s es) c, 0 < handedOn kind q) ↔
    account (autotrading settings env) (addedBy (takenUp kind) c p) s es ≠ 0
  ended : (((autotrading settings env).run s es).state.orders.get? c).any
      (fun r => r.status ∈ terminalStates) = true →
    (∃ q ∈ reports ((autotrading settings env).run s es) c, 0 < handedOn kind q) →
    account (autotrading settings env) (addedBy (takenUp kind) c p) s es ≠ 0

/-- Child and parent stay together as long as no row the broker reports of the child
hands something on; from the first result that does and is stored they are apart. -/
theorem child_and_parent_together (settings : Settings) (env : Env) (w : World) (es : List Event)
    {kind : OrderKind} {c p : OrderId}
    (hchild : ChildOf ((autotrading settings env).run (start w) es).state kind c p) :
    (Meets (autotrading settings env) (fun s e => ∀ q, Told env c s e q → handedOn kind q ≤ 0)
        (start w) es →
      AllOrNothing settings env (start w) es kind c p) ∧
    ((∃ q ∈ storedReports ((autotrading settings env).run (start w) es) c, 0 < handedOn kind q) →
      ¬ AllOrNothing settings env (start w) es kind c p) := by
  have hsound : Sound env (start w) := sound_start w
  have hzero := addedBy_eq_zero settings (takenUp kind) hchild.distinct hsound es
  constructor
  · intro hmeets
    have htold : ∀ q ∈ reports ((autotrading settings env).run (start w) es) c,
        handedOn kind q ≤ 0 := by
      refine (meets_told_iff es (start w)).mp ⟨fun q hq => ?_, hmeets⟩
      cases hq
    constructor
    · constructor
      · rintro ⟨q, hq, hpos⟩
        have hle := htold q (storedReports_subset hq)
        omega
      · intro hne
        exact absurd hzero hne
    · rintro - ⟨q, hq, hpos⟩
      have hle := htold q hq
      omega
  · intro hstored h
    exact h.together.mp hstored hzero

/-- Order 2 has filled and is stored so; worker 2 crashes in front of the statement on
order 1, and no further cycle will track an order that ended. -/
theorem child_stored_without_parent :
    ¬ AllOrNothing .sample (.reporting "0" "0") (start (.withChild .modify))
      (childCycle 5 ++ [.crash 0]) .modify 2 1 := by
  intro h
  have htogether := h.together
  revert htogether
  decide +kernel

/-- A cycle that reports nothing to hand on. -/
theorem child_and_parent_together_sample :
    (Meets (autotrading .sample (.reporting "10" "0"))
        (fun s e => ∀ q, Told (.reporting "10" "0") 2 s e q → handedOn .cancel q ≤ 0)
        (start (.withChild .cancel)) (childCycle 12) →
      AllOrNothing .sample (.reporting "10" "0") (start (.withChild .cancel)) (childCycle 12)
        .cancel 2 1) ∧
    ((∃ q ∈ storedReports ((autotrading .sample (.reporting "10" "0")).run
        (start (.withChild .cancel)) (childCycle 12)) 2, 0 < handedOn .cancel q) →
      ¬ AllOrNothing .sample (.reporting "10" "0") (start (.withChild .cancel)) (childCycle 12)
        .cancel 2 1) :=
  child_and_parent_together _ _ _ _ ⟨by decide +kernel, by decide +kernel, by decide⟩

/-! ## A parent's own row -/

/-- Whether a NEW order has children makes no difference to what is read of its row. -/
def JudgedAlike (order : Order) (answer : DailyOrderExecutionResponse) : Prop :=
  ∀ s s', extractOrderTrackingSnapshot order answer true = .ok s →
    extractOrderTrackingSnapshot order answer false = .ok s' →
    s.result.filledQty = s'.result.filledQty ∧ s.result.remainingQty = s'.result.remainingQty ∧
      s.result.nextStatus = s'.result.nextStatus

/-- It makes one for the rows that are closed without a confirmed cancel: as a parent such
an order is CANCELED, else FAILED or, with the order quantity 0, still ACCEPTED. -/
theorem judged_alike_iff {order : Order} {answer : DailyOrderExecutionResponse}
    {output1 : List DailyOrderExecutionItem} {row : DailyOrderExecutionItem} {q : RowQuantities}
    (hkind : order.orderKind = .new) (hout : answer.output1 = some output1)
    (hrow : matchedRow order.brokerOrderNo output1 = some row) (hq : rowQuantities row = .ok q)
    (horder : 0 ≤ q.orderQty) (hremaining : 0 ≤ q.remainingQty) (hcancel : 0 ≤ q.cancelConfirmQty)
    (hrejected : 0 ≤ q.rejectedQty) : JudgedAlike order answer ↔ ¬ q.ClosedUncanceled := by
  rw [← resolveParentAfterChild_eq_iff horder hremaining hcancel hrejected]
  have hread := extractOrderTrackingSnapshot_row hout hrow hq
  constructor
  · intro halike
    have hstatus := (halike _ _ (hread true) (hread false)).2.2
    simpa [rowSnapshot, hkind] using hstatus
  · intro hstatus s s' hs hs'
    rw [hread] at hs hs'
    rw [← Except.ok.inj hs, ← Except.ok.inj hs']
    simp [rowSnapshot, hkind, hstatus]

/-- An answer with one row for order 1. -/
def DailyOrderExecutionResponse.ofRow (ordQty rmnQty cnclCfrmQty rjctQty : String) :
    DailyOrderExecutionResponse where
  rtCd := "0"
  msgCd := "OK"
  msg1 := ""
  output1 := some [⟨"91252", "7", ordQty, rmnQty, cnclCfrmQty, rjctQty, "100", "0"⟩]

theorem judged_alike_iff_sample :
    JudgedAlike (.sample 1 .accepted) (.ofRow "10" "4" "0" "0") ↔
      ¬ (⟨10, 4, 0, 0⟩ : RowQuantities).ClosedUncanceled := by
  have hquantities : rowQuantities ⟨"91252", "7", "10", "4", "0", "0", "100", "0"⟩ = .ok ⟨10, 4, 0, 0⟩ := by
    decide +kernel
  exact judged_alike_iff rfl rfl (by decide +kernel) hquantities (by decide) (by decide) (by decide)
    (by decide)

/-- A row that the broker has rejected. -/
theorem rejected_row_canceled : ¬ JudgedAlike (.sample 1 .accepted) (.ofRow "10" "0" "0" "10") := by
  intro halike
  have hstatus := (halike _ _ (by rfl) (by rfl)).2.2
  revert hstatus
  decide +kernel

end Autotrading
