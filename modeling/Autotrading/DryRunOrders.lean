import Autotrading.SystemRules

/-!
# Orders of dry runs

A dry run stores its orders like any other and sends no message for them. The rows do
not say so, so the recovery, which selects the PENDING rows, queues them with the
rest. As long as no recovery selects while such a row is PENDING, no order of a dry
run is submitted.
-/
namespace Autotrading

open Machine Prog
open Machine.Sys (start)

variable {settings : Settings} {env : Env} {s s' : System} {e : Event} {w : World} {id : OrderId}

/-- The call stored the order `id`. -/
def inserts (id : OrderId) : Entry → Bool
  | (_, ⟨.insertOrders os, .ok _⟩) => os.any fun o => o.id = id
  | _ => false

/-- The order was created by a dry run. -/
def DryRunOrder (s : System) (id : OrderId) : Prop :=
  ∃ t ∈ s.tasks, t.label.dryRun = true ∧ t.history.any (inserts id) = true

/-- The next call of the program selects the orders to submit again. -/
def selectsRecoverable : Program Unit → Bool
  | .call .recoverableSubmitOrders _ => true
  | _ => false

/-- A recovery selects the orders to submit while an order of a dry run is PENDING. -/
def RecoversDryRun (s : System) : Event → Prop
  | .step i => s.tasks[i]?.any (fun t => selectsRecoverable t.prog) = true ∧
    ∃ r ∈ s.state.orders.rows, r.status = .pending ∧ DryRunOrder s r.id
  | _ => False

instance (s : System) (id : OrderId) : Decidable (DryRunOrder s id) :=
  inferInstanceAs (Decidable (∃ t ∈ s.tasks, _ ∧ _))

instance (s : System) : ∀ e, Decidable (RecoversDryRun s e)
  | .step _ => inferInstanceAs (Decidable (_ ∧ ∃ r ∈ s.state.orders.rows, _ ∧ DryRunOrder s r.id))
  | .launch _ => inferInstanceAs (Decidable False)
  | .crash _ => inferInstanceAs (Decidable False)
  | .ambient _ => inferInstanceAs (Decidable False)

/-- A stored order was drawn by the task that stored it. -/
theorem Sound.inserted_drawn (hs : Sound env s) {t : Task} (ht : t ∈ s.tasks)
    (hins : t.history.any (inserts id) = true) : Answered t.history .uuid4 id := by
  obtain ⟨⟨n, o, r⟩, hx, hi⟩ := List.any_eq_true.mp hins
  obtain ⟨h₁, h₂, hh⟩ := List.append_of_mem hx
  cases o
  case insertOrders os =>
    cases r with
    | error e => cases hi
    | ok u =>
      obtain ⟨o, ho, hid⟩ := List.any_eq_true.mp hi
      have hconduct := hs.recorded t ht h₁ _ h₂ hh
      have hdrawn := (hconduct o ho).drawn
      rw [of_decide_eq_true hid] at hdrawn
      exact hdrawn.mono ⟨_, hh.symm⟩
  all_goals cases hi

/-- Two tasks that drew one id are one task. -/
theorem Sound.same_drawer (hs : Sound env s) (hinj : Function.Injective env.uuid4) {t t' : Task}
    (ht : t ∈ s.tasks) (ht' : t' ∈ s.tasks) (hid : Answered t.history .uuid4 id)
    (hid' : Answered t'.history .uuid4 id) : t.label = t'.label := by
  obtain ⟨n, hn⟩ := hid
  obtain ⟨n', hn'⟩ := hid'
  have hvalue : id = env.uuid4 n := hs.honest t ht _ hn
  have hvalue' : id = env.uuid4 n' := hs.honest t' ht' _ hn'
  have htick : n = n' := hinj (hvalue.symm.trans hvalue')
  exact (hs.ticked t ht t' ht' _ hn _ hn' htick).1

/-- No dry run created the order, and none will: its row is there, another task drew
its id, or a message on it is older than the run. -/
structure Live (w : World) (s : System) (id : OrderId) : Prop where
  notDry : ¬ DryRunOrder s id
  taken : (∃ r, s.state.orders.get? id = some r) ∨
    (∃ t ∈ s.tasks, t.label.dryRun = false ∧ Answered t.history .uuid4 id) ∨
    .processOrder id ∈ w.sent

theorem Live.change (h : Live w s id) (hs : Sound env s) (hinj : Function.Injective env.uuid4)
    (hfresh : ∀ n, .processOrder (env.uuid4 n) ∉ w.sent)
    (hc : Change (autotrading settings env) s e s') : Live w s' id where
  notDry := by
    rintro ⟨t', ht', hdry, hany⟩
    obtain ⟨x, hx, hins⟩ := List.any_eq_true.mp hany
    rcases hc.entry ht' hx with ⟨t, ht, hl, hx⟩ | ⟨i, t, o, k, -, hi, hl, hp, -, rfl⟩
    · exact h.notDry ⟨t, ht, hl ▸ hdry, List.any_eq_true.mpr ⟨x, hx, hins⟩⟩
    · have ht := List.mem_of_getElem? hi
      cases o
      case insertOrders os =>
        cases hr : ((autotrading settings env).handle (.insertOrders os) s.state).1 with
        | error e =>
          rw [hr] at hins
          cases hins
        | ok u =>
          rw [hr] at hins
          obtain ⟨o, ho, hid⟩ := List.any_eq_true.mp hins
          have hid : o.id = id := of_decide_eq_true hid
          have hdrawn := (hs.obeys.call hi hp o ho).drawn
          rw [hid] at hdrawn
          rcases h.taken with ⟨r, hrow⟩ | ⟨u, hu, hlive, hu'⟩ | hsent
          · -- the id is in the table, so the insert is refused
            have hnone := (World.insertOrders_ok hr ho).1
            rw [hid, hrow] at hnone
            cases hnone
          · have hsame := hs.same_drawer hinj hu ht hu' hdrawn
            rw [hsame, hl, hdry] at hlive
            cases hlive
          · obtain ⟨n, hn⟩ := hdrawn
            have hvalue : id = env.uuid4 n := hs.honest t ht _ hn
            exact hfresh n (hvalue ▸ hsent)
      all_goals cases hins
  taken := by
    rcases h.taken with ⟨r, hrow⟩ | ⟨t, ht, hlive, hdrawn⟩ | hsent
    · rcases row_change hs hc hrow with hkeep | ⟨i, t, u, hwr⟩
      · exact .inl ⟨r, hkeep⟩
      · exact .inl ⟨_, hwr.row⟩
    · obtain ⟨u, hu, hl, hh⟩ := hc.task_after ht
      exact .inr (.inl ⟨u, hu, hl ▸ hlive, hdrawn.mono hh⟩)
    · exact .inr (.inr hsent)

/-- Every message on an order, and every order a recovery has selected, is live. -/
structure Separated (env : Env) (w : World) (s : System) : Prop where
  sound : Sound env s
  delivered : Delivered s
  sent : ∀ id, .processOrder id ∈ s.state.sent → Live w s id
  recovered : ∀ t ∈ s.tasks, ∀ os, Answered t.history .recoverableSubmitOrders os →
    ∀ o ∈ os, Live w s o.id

theorem separated_start (hw : ∀ m ∈ w.queue, m ∈ w.sent) : Separated env w (start w) where
  sound := sound_start w
  delivered := delivered_start hw
  sent := by
    intro id hid
    refine ⟨?_, .inr (.inr hid)⟩
    rintro ⟨t, ht, -⟩
    cases ht
  recovered := by intro t ht; cases ht

theorem Separated.change (h : Separated env w s) (hinj : Function.Injective env.uuid4)
    (hfresh : ∀ n, .processOrder (env.uuid4 n) ∉ w.sent) (hsafe : ¬ RecoversDryRun s e)
    (hc : Change (autotrading settings env) s e s') : Separated env w s' where
  sound := h.sound.change hc
  delivered := h.delivered.change hc
  sent := by
    intro id hid
    -- it is enough that the order is live in front of the event
    suffices hlive : Live w s id from hlive.change h.sound hinj hfresh hc
    rcases sent_change h.sound hc hid with hold | ⟨i, t, n, k, -, hi, -, hsend⟩
    · exact h.sent id hold
    · have ht := List.mem_of_getElem? hi
      generalize hl : t.label = l at hsend
      cases hsend with
      | drawn hdrawn live =>
        refine ⟨?_, .inr (.inl ⟨t, ht, hl ▸ live, hdrawn⟩)⟩
        rintro ⟨t', ht', hdry, hins⟩
        have hsame := h.sound.same_drawer hinj ht ht' hdrawn (h.sound.inserted_drawn ht' hins)
        rw [← hsame, hl, live] at hdry
        cases hdry
      | again => exact h.sent id (h.delivered.started t ht _ (by rw [hl]; rfl))
      | recovered read mem => exact h.recovered t ht _ read _ mem
  recovered := by
    rintro t' ht' os ⟨n, hn⟩ o ho
    suffices hlive : Live w s o.id from hlive.change h.sound hinj hfresh hc
    rcases hc.entry ht' hn with ⟨t, ht, -, hx⟩ | ⟨i, t, op, k, he, hi, -, hp, -, hx⟩
    · exact h.recovered t ht os ⟨n, hx⟩ o ho
    · obtain rfl : op = .recoverableSubmitOrders := (congrArg (fun x : Entry => x.2.1) hx).symm
      have hread : (World.handle env .recoverableSubmitOrders s.state).1 = .ok os := by
        have hpair := congrArg Prod.snd hx
        exact (eq_of_heq (Sigma.mk.inj hpair).2).symm
      have hrow := World.recoverable_ok hread ho
      refine ⟨fun hdry => ?_, .inl ⟨o, hrow.1⟩⟩
      have hselects : s.tasks[i]?.any (fun t => selectsRecoverable t.prog) = true := by
        simp [hi, hp, selectsRecoverable]
      subst he
      exact hsafe ⟨hselects, o, (KeyedTable.get?_eq_some.mp hrow.1).1, hrow.2, hdry⟩

/-- In every run in which no recovery selects while an order of a dry run is PENDING,
no such order is submitted. -/
theorem dry_run_not_submitted (settings : Settings) {env : Env} {w : World}
    (hinj : Function.Injective env.uuid4) (hfresh : ∀ n, .processOrder (env.uuid4 n) ∉ w.sent)
    (hw : ∀ m ∈ w.queue, m ∈ w.sent) (es : List Event)
    (hes : Meets (autotrading settings env) (fun s e => ¬ RecoversDryRun s e) (start w) es)
    {id : OrderId} (hid : DryRunOrder ((autotrading settings env).run (start w) es) id) :
    ¬ Submitted ((autotrading settings env).run (start w) es) id := by
  have hstep : ∀ s e s', Separated env w s → ¬ RecoversDryRun s e →
      Change (autotrading settings env) s e s' → Separated env w s' :=
    fun s e s' h hsafe hc => h.change hinj hfresh hsafe hc
  have hsep := hes.invariant hstep (separated_start hw)
  rintro ⟨t, ht, hl, -⟩
  have hmessage : t.label.message = some (.processOrder id) := by rw [hl]; rfl
  exact (hsep.sent id (hsep.delivered.started t ht _ hmessage)).notDry hid

/-- A dry run of a buy order for ten shares. -/
def dryRunBuy : Label := .api (.buy "005930" 10 .limit 100 true)

/-- A worker restarts and finds the order of a dry run: it is submitted. -/
theorem dry_run_order_submitted :
    DryRunOrder ((autotrading .sample .quiet).run (start (.holding [] []))
      (.launch dryRunBuy :: .step 0 :: .step 0 :: .launch .recoverOrders :: .step 1 :: .step 1 ::
        .step 1 :: .launch (.processOrder 0) :: List.replicate 6 (.step 2))) 0 ∧
    Submitted ((autotrading .sample .quiet).run (start (.holding [] []))
      (.launch dryRunBuy :: .step 0 :: .step 0 :: .launch .recoverOrders :: .step 1 :: .step 1 ::
        .step 1 :: .launch (.processOrder 0) :: List.replicate 6 (.step 2))) 0 := by
  rw [submitted_iff]
  decide +kernel

/-- The worker has restarted before the dry run. -/
theorem dry_run_not_submitted_sample :
    ¬ Submitted ((autotrading .sample .quiet).run (start (.holding [] []))
      (.launch .recoverOrders :: List.replicate 4 (.step 0) ++
        [.launch dryRunBuy, .step 1, .step 1])) 4 :=
  dry_run_not_submitted .sample (fun _ _ h => h) (fun _ => List.not_mem_nil) (by decide) _
    (by decide +kernel)
    (by decide +kernel)

end Autotrading
