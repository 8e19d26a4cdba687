import Autotrading.RebalanceSnapshot
import Autotrading.TrackingCalls

/-!
# The day of the query

A cycle asks the broker for the executions of one day, the UTC day of `created_at`. The
broker files an order under the day in Seoul on which it accepted it, and by then it is
nine hours later than in UTC.
-/
namespace Autotrading.ProcessOrderStatus

open Machine Prog OrderState
open Machine.Sys (start)

variable {settings : Settings} {env : Env} {s s' : System} {e : Event} {w : World} {h : Calls}
  {id : OrderId}

/-- The query that a call sent to the broker. -/
def query? : Entry → Option ExecutionsRequest
  | (_, ⟨.get q, _⟩) => some q
  | _ => none

/-- The tick of a call in which the broker accepted a request. -/
def acceptance? (env : Env) : Entry → Option ℕ
  | (m, ⟨.post p, .ok _⟩) => if (env.post m p).accepted then some m else none
  | _ => none

/-- The queries that the cycles of the order have sent. -/
def queries (s : System) (id : OrderId) : List ExecutionsRequest :=
  (s.tasks.filter fun t => t.label.tracks = some id).flatMap fun t => t.history.filterMap query?

/-- The ticks at which the broker accepted a request of worker 1 for the order. -/
def acceptances (env : Env) (s : System) (id : OrderId) : List ℕ :=
  (s.tasks.filter fun t => t.label.message = some (.processOrder id)).flatMap fun t =>
    t.history.filterMap (acceptance? env)

/-- The dates of the query contain the date. -/
abbrev Contains (q : ExecutionsRequest) (date : ℤ) : Prop :=
  q.inqrStrtDt ≤ date ∧ date ≤ q.inqrEndDt

/-- Every query for the order contains the date in Seoul on which the broker accepted it. -/
abbrev CoversAcceptance (env : Env) (s : System) (id : OrderId) : Prop :=
  ∀ q ∈ queries s id, ∀ m ∈ acceptances env s id, Contains q (kstDate (env.now m))

theorem mem_queries {q : ExecutionsRequest} (hq : q ∈ queries s id) :
    ∃ t ∈ s.tasks, t.label.tracks = some id ∧ ∃ n r, (n, ⟨.get q, r⟩) ∈ t.history := by
  obtain ⟨t, ht, hq⟩ := List.mem_flatMap.mp hq
  obtain ⟨ht, htracks⟩ := List.mem_filter.mp ht
  obtain ⟨⟨n, o, r⟩, hx, hquery⟩ := List.mem_filterMap.mp hq
  refine ⟨t, ht, of_decide_eq_true htracks, ?_⟩
  cases o
  case get q' =>
    obtain rfl : q' = q := Option.some.inj hquery
    exact ⟨n, r, hx⟩
  all_goals cases hquery

/-- The order under this id is stored with this `created_at`. -/
def CreatedAt (w : World) (id : OrderId) (createdAt : Instant) : Prop :=
  ∃ r, w.orders.get? id = some r ∧ r.createdAt = createdAt

/-- A cycle asks for the order it read. -/
def AsksForRead (l : Label) (h : Calls) : Op → Prop
  | .get q => ∀ id attempt first, l = .processOrderStatus id attempt first →
      ∃ order, Answered h (.selectOrder id) (some order) ∧ q = executionsRequest order
  | _ => True

theorem program_asksForRead (l : Label) : Safe (AsksForRead l) [] (l.program settings) := by
  by_cases hl : ∃ id attempt first, l = .processOrderStatus id attempt first
  · obtain ⟨id, attempt, first, rfl⟩ := hl
    refine safe_processOrderStatus ?_ ?_ id attempt first ?_
    · intro h o ho
      cases o
      case get q => exact ho.elim
      all_goals trivial
    · intros
      trivial
    · intro h order hread id' attempt' first' hl
      obtain ⟨rfl, -, -⟩ := Label.processOrderStatus.inj hl
      exact ⟨order, hread, rfl⟩
  · refine (along_true _).mono ?_ fun _ _ _ => trivial
    intro h o _
    cases o
    case get q => exact fun id attempt first hid => absurd ⟨id, attempt, first, hid⟩ hl
    all_goals trivial

/-- No event removes a row or changes its `created_at`. -/
theorem CreatedAt.change {createdAt : Instant} (h : CreatedAt s.state id createdAt)
    (hs : Sound env s) (hc : Change (autotrading settings env) s e s') :
    CreatedAt s'.state id createdAt := by
  obtain ⟨r, hr, hcreated⟩ := h
  rcases row_change hs hc hr with hkeep | ⟨i, t, u, hw⟩
  · exact ⟨r, hkeep, hcreated⟩
  · exact ⟨_, hw.row, (SetClause.apply_createdAt _ _).trans hcreated⟩

/-- Every query of a cycle is for an order it read, and the order was stored as it was
created. -/
structure Dated (env : Env) (s : System) : Prop where
  sound : Sound env s
  asked : Recorded (fun l h (x : Entry) => AsksForRead l h x.2.1) s
  obeys : Obeys AsksForRead s
  read : Known (fun w _ => World.ReadOf fun o => CreatedAt w o.id o.createdAt) s

theorem dated_start (w : World) : Dated env (start w) where
  sound := sound_start w
  asked := by intro t ht; cases ht
  obeys := by intro t ht; cases ht
  read := by intro t ht; cases ht

theorem Dated.change (h : Dated env s) (hc : Change (autotrading settings env) s e s') :
    Dated env s' where
  sound := h.sound.change hc
  asked := h.asked.change hc fun i t o k _ ht hp => h.obeys.call ht hp
  obeys := h.obeys.change program_asksForRead hc
  read := by
    refine h.read.change hc ?_ ?_
    · intro l x hx
      exact hx.mono fun o ho => ho.change h.sound hc
    · intro i t o k he hi hp
      have hc' := Change.stepped (m := autotrading settings env) i t o k hi hp
      have hrows : ∀ k r, s.state.orders.get? k = some r → CreatedAt s.state r.id r.createdAt := by
        intro k r hr
        refine ⟨r, ?_, rfl⟩
        rwa [KeyedTable.key_of_get? hr]
      have hread : World.ReadOf (fun r => CreatedAt s.state r.id r.createdAt)
          (s.state.tick, ⟨o, (World.handle env o s.state).1⟩) :=
        World.readOf_handle hrows s.state.tick o
      exact hread.mono fun r hr => hr.change h.sound hc'

theorem dated_run (settings : Settings) (env : Env) (w : World) (es : List Event) :
    Dated env ((autotrading settings env).run (start w) es) :=
  run_invariant (fun _ _ _ h hc => h.change hc) es (dated_start w)

/-- Every query for an order is for the UTC day on which it was created. -/
theorem Dated.query {q : ExecutionsRequest} {r : Order} (h : Dated env s) (hq : q ∈ queries s id)
    (hr : s.state.orders.get? id = some r) :
    q.inqrStrtDt = utcDay r.createdAt ∧ q.inqrEndDt = utcDay r.createdAt := by
  obtain ⟨t, ht, htracks, n, a, hx⟩ := mem_queries hq
  obtain ⟨attempt, first, hl⟩ := exists_cycle_of_tracks htracks
  obtain ⟨h₁, h₂, hh⟩ := List.append_of_mem hx
  obtain ⟨order, hread, rfl⟩ := h.asked t ht h₁ _ h₂ hh (some id) attempt first hl
  have hread' : Answered t.history (.selectOrder (some id)) (some order) := hread.mono ⟨_, hh.symm⟩
  have hid : id = order.id := Option.some.inj (h.sound.read_id ht hread')
  obtain ⟨m, hm⟩ := hread'
  obtain ⟨r', hr', hcreated⟩ := h.read t ht _ hm
  rw [← hid] at hr'
  obtain rfl := Option.some.inj (hr.symm.trans hr')
  rw [hcreated]
  exact ⟨rfl, rfl⟩

/-- The cycles of an order look at the right day exactly when the broker accepted it on
the date in Seoul that is the UTC date of its creation. -/
theorem covers_acceptance_iff (settings : Settings) (env : Env) (w : World) (es : List Event)
    {id : OrderId} {r : Order}
    (hr : ((autotrading settings env).run (start w) es).state.orders.get? id = some r)
    (hqueried : queries ((autotrading settings env).run (start w) es) id ≠ []) :
    CoversAcceptance env ((autotrading settings env).run (start w) es) id ↔
      ∀ m ∈ acceptances env ((autotrading settings env).run (start w) es) id,
        utcDay r.createdAt = kstDate (env.now m) := by
  have hdated := dated_run settings env w es
  constructor
  · intro hcovers m hm
    obtain ⟨q, hq⟩ := List.exists_mem_of_ne_nil _ hqueried
    obtain ⟨hfrom, hto⟩ := hdated.query hq hr
    have hcontains := hcovers q hq m hm
    rw [Contains, hfrom, hto] at hcontains
    omega
  · intro hday q hq m hm
    obtain ⟨hfrom, hto⟩ := hdated.query hq hr
    have hsame := hday m hm
    rw [Contains, hfrom, hto]
    omega

/-! ## Before and after nine o'clock -/

/-- The broker accepts and fills every order; it is this time in Seoul on 1970-01-02. -/
def acceptingAt (time : ℤ) : Env :=
  { Env.accepting with now := fun _ => microsecondsPerDay + time - timeOfDay 9 0 }

/-- An order is bought, submitted and tracked by one cycle. -/
def boughtAndTracked (time : ℤ) : System :=
  (autotrading .sample (acceptingAt time)).run (start (.holding [] []))
    (.launch (.api (.buy "005930" 10 .limit 100 false)) :: List.replicate 3 (.step 0) ++
      submitAndFill 0 1)

/-- At ten o'clock it is the same date in UTC. -/
theorem covers_acceptance_iff_sample :
    CoversAcceptance (acceptingAt (timeOfDay 10 0)) (boughtAndTracked (timeOfDay 10 0)) 0 := by
  have hstored : ∃ r, (boughtAndTracked (timeOfDay 10 0)).state.orders.get? 0 = some r ∧
      utcDay r.createdAt = 1 := by decide +kernel
  obtain ⟨r, hr, hcreated⟩ := hstored
  refine (covers_acceptance_iff .sample _ _ _ hr (by decide +kernel)).mpr fun m _ => ?_
  rw [hcreated]
  show (1 : ℤ) = kstDate (microsecondsPerDay + timeOfDay 10 0 - timeOfDay 9 0)
  decide

/-- At half past eight it is the day before. -/
theorem acceptance_not_covered :
    ¬ CoversAcceptance (acceptingAt (timeOfDay 8 30)) (boughtAndTracked (timeOfDay 8 30)) 0 := by
  decide +kernel

end Autotrading.ProcessOrderStatus
