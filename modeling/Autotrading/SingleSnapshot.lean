import Autotrading.RebalanceSnapshot

/-!
# One snapshot per rebalance

A capture checks that its rebalance has no snapshot, asks the account service twice and
inserts. The table has no constraint on the rebalance, so two captures that check before
either inserts store two. One at most is stored as long as no capture makes its check
between the check and the insert of another.
-/
namespace Autotrading

open Machine Prog
open Machine.Sys (start)

variable {settings : Settings} {env : Env} {s s' : System} {e : Event} {w : World} {h : Calls}
  {rid : RebalanceId}

/-- The snapshots of a rebalance. -/
def World.snapshotsOf (w : World) (rid : RebalanceId) : List PortfolioSnapshot :=
  w.snapshots.rows.filter fun p => p.rebalanceId = some rid

/-- The rebalance has one snapshot at most. -/
def SingleSnapshot (rid : RebalanceId) (w : World) : Prop := (w.snapshotsOf rid).length ≤ 1

/-! ## The check and the insert -/

/-- The call told that the rebalance has no snapshot. -/
def findsNone (rid : RebalanceId) : Entry → Bool
  | (_, ⟨.snapshotIdByRebalance k, .ok none⟩) => k = rid
  | _ => false

/-- The call was the insert of a snapshot. -/
def storesSnapshot : Entry → Bool
  | (_, ⟨.insertSnapshot _, _⟩) => true
  | _ => false

/-- A snapshot is stored once, for a rebalance that had none at the check. -/
def Captures (h : Calls) : Op → Prop
  | .insertSnapshot p => h.any storesSnapshot = false ∧
      ∃ rid, p.rebalanceId = some rid ∧ h.any (findsNone rid) = true
  | _ => True

/-- Whatever it is told from here on, the task stores no snapshot. -/
def Discharged (t : Task) : Prop := Safe (fun _ o => ∀ p, o ≠ .insertSnapshot p) t.history t.prog

/-- The task found no snapshot of the rebalance and may still store one. -/
structure Capturing (rid : RebalanceId) (t : Task) : Prop where
  found : t.history.any (findsNone rid) = true
  storing : ¬ Discharged t

/-- The next call of the program checks for a snapshot of the rebalance. -/
def checksFor (rid : RebalanceId) : Program Unit → Bool
  | .call (.snapshotIdByRebalance k) _ => k = rid
  | _ => false

/-- A capture checks for a snapshot of the rebalance while `p` holds of a task that found
none. -/
def ChecksWhile (p : Task → Prop) (rid : RebalanceId) (s : System) : Event → Prop
  | .step i => s.tasks[i]?.any (fun t => checksFor rid t.prog) = true ∧
      ∃ t ∈ s.tasks, t.history.any (findsNone rid) = true ∧ p t
  | _ => False

/-- It checks while the other may still store its snapshot. -/
def ChecksBetween : RebalanceId → System → Event → Prop := ChecksWhile fun t => ¬ Discharged t

theorem checksFor_of_findsNone {n : ℕ} {k : RebalanceId} {r : Except PyExc (Option ℕ)}
    (hx : findsNone rid (n, ⟨.snapshotIdByRebalance k, r⟩) = true) (kont) :
    checksFor rid (.call (.snapshotIdByRebalance k) kont) = true := by
  rcases r with e | a | a
  · cases hx
  · exact hx
  · cases hx

theorem captures_captureRebalanceSnapshot :
    Safe Captures [] (PortfolioSnapshotService.captureRebalanceSnapshot rid) := by
  unfold PortfolioSnapshotService.captureRebalanceSnapshot PortfolioSnapshotService.capture
  refine Safe.tryExcept ?_ fun h₁ _ _ => safe_perform trivial
  refine safe_perform_bind trivial fun n existing => ?_
  split
  · next hnone =>
    obtain rfl : existing = none := by simpa using hnone
    refine safe_perform_bind trivial fun n₁ holdingsRaw => ?_
    refine safe_perform_bind trivial fun n₂ summary => ?_
    refine safe_perform_bind trivial fun n₃ snapshotId => ?_
    refine safe_ofExcept_bind fun cashAmount _ => safe_ofExcept_bind fun holdings _ => ?_
    refine safe_perform ?_
    refine And.intro ?_ ⟨rid, rfl, ?_⟩
    · simp [storesSnapshot]
    · simp [findsNone]
  · exact safe_pure _

/-- No other task stores a snapshot. -/
theorem program_captures (l : Label) : Safe Captures [] (l.program settings) := by
  by_cases hl : ∃ rid, l = .captureRebalanceSnapshot rid
  · obtain ⟨rid, rfl⟩ := hl
    exact captures_captureRebalanceSnapshot
  · refine (program_conduct l).mono ?_ fun _ _ _ => trivial
    intro h o ho
    cases o
    case insertSnapshot p =>
      obtain ⟨rid, hrid, -⟩ := ho
      exact absurd ⟨rid, hrid⟩ hl
    all_goals trivial

/-- Once it has made its insert, a task is discharged. -/
theorem discharged_of_stored {t : Task} (hp : Safe Captures t.history t.prog)
    (hstored : t.history.any storesSnapshot = true) : Discharged t := by
  refine hp.extends_calls.mono ?_ fun _ _ _ => trivial
  rintro h' o ⟨⟨h₂, rfl⟩, ho⟩ p rfl
  have hnone := ho.1
  rw [List.any_append, hstored] at hnone
  cases hnone

/-- A task keeps its discharge. -/
theorem Discharged.advance {t : Task} {o : Op} {k} (ht : Discharged t) (hp : t.prog = .call o k)
    (n : ℕ) (r : Except PyExc (Ans o)) : Discharged (t.advance n o r k) := by
  rw [Discharged, hp, Safe, along_call] at ht
  exact ht.2 n r

/-- What becomes a capture was one, or has just found no snapshot. -/
theorem Capturing.before {t : Task} {o : Op} {k} {n : ℕ} {r : Except PyExc (Ans o)}
    (hp : t.prog = .call o k) (h : Capturing rid (t.advance n o r k)) :
    Capturing rid t ∨ findsNone rid (n, ⟨o, r⟩) = true := by
  have hstoring : ¬ Discharged t := fun hd => h.storing (hd.advance hp n r)
  have hfound := h.found
  rw [Task.advance, List.any_append, Bool.or_eq_true] at hfound
  rcases hfound with hold | hnew
  · exact .inl ⟨hold, hstoring⟩
  · exact .inr (by simpa using hnew)

/-! ## The table -/

theorem World.snapshots_insertSnapshot (env : Env) (w : World) (p : PortfolioSnapshot) :
    (handle env (.insertSnapshot p) w).2.snapshots.rows = w.snapshots.rows ∨
      (handle env (.insertSnapshot p) w).2.snapshots.rows = w.snapshots.rows ++ [p] := by
  rcases handle_cases env w (.insertSnapshot p) with ⟨e, he⟩ | heff
  · rw [he]
    exact .inl rfl
  · rw [heff]
    cases hx : w.snapshots.insert p with
    | none => exact .inl (by simp [effect, hx, next])
    | some t => exact .inr (by simp [effect, hx, next, (KeyedTable.rows_insert hx).1])

/-- A check that finds none finds the table without a snapshot of the rebalance. -/
theorem World.snapshotsOf_of_findsNone {o : Op}
    (hx : findsNone rid (w.tick, ⟨o, (handle env o w).1⟩) = true) : w.snapshotsOf rid = [] := by
  cases o
  case snapshotIdByRebalance k =>
    rcases handle_cases env w (.snapshotIdByRebalance k) with ⟨e, he⟩ | heff
    · rw [he] at hx
      cases hx
    · rw [heff] at hx
      simp only [effect] at hx
      split at hx
      · next hnil =>
        obtain rfl : k = rid := by simpa [findsNone] using hx
        exact hnil
      · cases hx
      · cases hx
  all_goals cases hx

/-- Other inserts leave the snapshots of the rebalance alone. -/
theorem World.snapshotsOf_handle {o : Op}
    (ho : ¬ ∃ p, o = .insertSnapshot p ∧ p.rebalanceId = some rid) :
    (handle env o w).2.snapshotsOf rid = w.snapshotsOf rid := by
  by_cases hinsert : ∃ p, o = .insertSnapshot p
  · obtain ⟨p, rfl⟩ := hinsert
    have hrid : ¬ p.rebalanceId = some rid := fun hrid => ho ⟨p, rfl, hrid⟩
    unfold snapshotsOf
    rcases snapshots_insertSnapshot env w p with hkeep | hnew
    · rw [hkeep]
    · rw [hnew, List.filter_append]
      simp [hrid]
  · have hkeep : (handle env o w).2.snapshots = w.snapshots :=
      snapshots_handle fun p hp => hinsert ⟨p, hp⟩
    rw [snapshotsOf, hkeep]
    rfl

/-! ## Runs -/

/-- A run in which no capture has checked between the check and the insert of another:
while one may still store its snapshot, it is the only one and none is stored. -/
structure Alone (env : Env) (rid : RebalanceId) (s : System) : Prop where
  sound : Sound env s
  captures : Obeys (fun _ => Captures) s
  single : SingleSnapshot rid s.state
  absent : ∀ t ∈ s.tasks, Capturing rid t → s.state.snapshotsOf rid = []
  alone : ∀ (i j : ℕ) (t t' : Task), s.tasks[i]? = some t → s.tasks[j]? = some t' →
    Capturing rid t → Capturing rid t' → i = j

/-- What keeps the table and brings no new capture. -/
theorem Alone.keep (h : Alone env rid s) (hsound : Sound env s')
    (hcaptures : Obeys (fun _ => Captures) s')
    (hstate : s'.state.snapshotsOf rid = s.state.snapshotsOf rid)
    (htasks : ∀ (i : ℕ) (t' : Task), s'.tasks[i]? = some t' → Capturing rid t' →
      ∃ t, s.tasks[i]? = some t ∧ Capturing rid t) : Alone env rid s' where
  sound := hsound
  captures := hcaptures
  single := by
    rw [SingleSnapshot, hstate]
    exact h.single
  absent := by
    intro t' ht' hcapturing
    obtain ⟨i, hi⟩ := List.getElem?_of_mem ht'
    obtain ⟨t, ht, hold⟩ := htasks i t' hi hcapturing
    rw [hstate]
    exact h.absent t (List.mem_of_getElem? ht) hold
  alone := by
    intro i j t t' hi hj hcapturing hcapturing'
    obtain ⟨u, hu, hold⟩ := htasks i t hi hcapturing
    obtain ⟨u', hu', hold'⟩ := htasks j t' hj hcapturing'
    exact h.alone i j u u' hu hu' hold hold'

/-- A task after a step is another one, or the one that made the call. -/
theorem task_of_step {i j : ℕ} {t u t' : Task} (ht : s.tasks[i]? = some t)
    (hj : (s.tasks.set i u)[j]? = some t') :
    (i ≠ j ∧ s.tasks[j]? = some t') ∨ (i = j ∧ t' = u) := by
  by_cases hij : i = j
  · subst hij
    rw [List.getElem?_set_self (List.getElem?_eq_some_iff.mp ht).1] at hj
    exact .inr ⟨rfl, (Option.some.inj hj).symm⟩
  · rw [List.getElem?_set_ne hij] at hj
    exact .inl ⟨hij, hj⟩

section Step
variable {i : ℕ} {t : Task} {o : Op} {k : Except PyExc (Ans o) → Program Unit}

/-- The insert of the one capture: it is discharged, and there is no other. -/
theorem Alone.insert {p : PortfolioSnapshot} {k} (h : Alone env rid s)
    (hsound : Sound env s') (hcaptures : Obeys (fun _ => Captures) s')
    (ht : s.tasks[i]? = some t) (hp : t.prog = .call (.insertSnapshot p) k)
    (hrid : p.rebalanceId = some rid)
    (hs' : s' = ⟨(World.handle env (.insertSnapshot p) s.state).2, s.tasks.set i
      (t.advance s.state.tick (.insertSnapshot p)
        (World.handle env (.insertSnapshot p) s.state).1 k)⟩) : Alone env rid s' := by
  have hmem := List.mem_of_getElem? ht
  have hcapturing : Capturing rid t := by
    obtain ⟨-, rid', hrid', hfound⟩ := h.captures.call ht hp
    obtain rfl : rid = rid' := Option.some.inj (hrid.symm.trans hrid')
    refine ⟨hfound, fun hdischarged => ?_⟩
    rw [Discharged, hp, Safe, along_call] at hdischarged
    exact hdischarged.1 p rfl
  have hnone := h.absent t hmem hcapturing
  have hend : ∀ (j : ℕ) (t' : Task), s'.tasks[j]? = some t' → ¬ Capturing rid t' := by
    intro j t' hj hcapturing'
    have hmem' := List.mem_of_getElem? hj
    rw [hs'] at hj
    rcases task_of_step ht hj with ⟨hij, hold⟩ | ⟨-, heq⟩
    · exact hij (h.alone i j t t' ht hold hcapturing hcapturing')
    · refine hcapturing'.storing (discharged_of_stored (hcaptures t' hmem') ?_)
      simp [heq, Task.advance, storesSnapshot]
  refine ⟨hsound, hcaptures, ?_, ?_, ?_⟩
  · rw [SingleSnapshot, hs', World.snapshotsOf]
    rcases World.snapshots_insertSnapshot env s.state p with hkeep | hnew
    · rw [hkeep]
      exact h.single
    · have hfilter : s.state.snapshots.rows.filter (fun p => p.rebalanceId = some rid) = [] := hnone
      rw [hnew, List.filter_append, hfilter, List.nil_append]
      exact List.length_filter_le _ _
  · intro t' ht' hcapturing'
    obtain ⟨j, hj⟩ := List.getElem?_of_mem ht'
    exact absurd hcapturing' (hend j t' hj)
  · intro j j' t' t'' hj _ hcapturing'
    exact absurd hcapturing' (hend j t' hj)

/-- The check of the one capture: the table has no snapshot of the rebalance. -/
theorem Alone.check (hsafe : ¬ ChecksBetween rid s (.step i))
    (hsound : Sound env s') (hcaptures : Obeys (fun _ => Captures) s')
    (ht : s.tasks[i]? = some t) (hp : t.prog = .call o k)
    (hfinds : findsNone rid (s.state.tick, ⟨o, (World.handle env o s.state).1⟩) = true)
    (hs' : s' = ⟨(World.handle env o s.state).2, s.tasks.set i
      (t.advance s.state.tick o (World.handle env o s.state).1 k)⟩) : Alone env rid s' := by
  have hchecks : checksFor rid t.prog = true := by
    rw [hp]
    cases o
    case snapshotIdByRebalance k => exact checksFor_of_findsNone hfinds _
    all_goals cases hfinds
  have hother : ∀ t' ∈ s.tasks, ¬ Capturing rid t' := by
    intro t' ht' hcapturing
    exact hsafe ⟨by simpa [ht] using hchecks, t', ht', hcapturing.found, hcapturing.storing⟩
  have honly : ∀ (j : ℕ) (t' : Task), s'.tasks[j]? = some t' → Capturing rid t' → i = j := by
    intro j t' hj hcapturing
    rw [hs'] at hj
    rcases task_of_step ht hj with ⟨-, hold⟩ | ⟨hij, -⟩
    · exact absurd hcapturing (hother t' (List.mem_of_getElem? hold))
    · exact hij
  have hnone : s'.state.snapshotsOf rid = [] := by
    have hinsert : ¬ ∃ p, o = .insertSnapshot p ∧ p.rebalanceId = some rid := by
      rintro ⟨p, rfl, -⟩
      cases hfinds
    rw [hs']
    exact (World.snapshotsOf_handle hinsert).trans (World.snapshotsOf_of_findsNone hfinds)
  refine ⟨hsound, hcaptures, ?_, fun _ _ _ => hnone, ?_⟩
  · rw [SingleSnapshot, hnone]
    exact Nat.zero_le 1
  · intro j j' t' t'' hj hj' hcapturing hcapturing'
    exact (honly j t' hj hcapturing).symm.trans (honly j' t'' hj' hcapturing')

end Step

theorem Alone.change (h : Alone env rid s) (hsafe : ¬ ChecksBetween rid s e)
    (hc : Change (autotrading settings env) s e s') : Alone env rid s' := by
  have hsound := h.sound.change hc
  have hcaptures := h.captures.change program_captures hc
  cases hc with
  | idle => exact h
  | launched l state hl =>
    refine h.keep hsound hcaptures ?_ ?_
    · rw [World.snapshotsOf, (launch_stores hl).2.1]
      rfl
    · intro i t' hi hcapturing
      rw [List.getElem?_append] at hi
      split at hi
      · exact ⟨t', hi, hcapturing⟩
      · have hnew := List.mem_singleton.mp (List.mem_of_getElem? hi)
        rw [hnew] at hcapturing
        cases hcapturing.found
  | stepped i t o k ht hp =>
    by_cases hinsert : ∃ p, o = .insertSnapshot p ∧ p.rebalanceId = some rid
    · obtain ⟨p, rfl, hrid⟩ := hinsert
      exact h.insert hsound hcaptures ht hp hrid rfl
    · by_cases hfinds : findsNone rid (s.state.tick, ⟨o, (World.handle env o s.state).1⟩) = true
      · exact Alone.check hsafe hsound hcaptures ht hp hfinds rfl
      · refine h.keep hsound hcaptures (World.snapshotsOf_handle hinsert) ?_
        intro j t' hj hcapturing
        rcases task_of_step ht hj with ⟨-, hold⟩ | ⟨rfl, rfl⟩
        · exact ⟨t', hold, hcapturing⟩
        · exact ⟨t, ht, (hcapturing.before hp).resolve_right hfinds⟩
  | crashed i t ht =>
    refine h.keep hsound hcaptures rfl ?_
    intro j t' hj hcapturing
    by_cases hij : i = j
    · subst hij
      rw [List.getElem?_set_self (List.getElem?_eq_some_iff.mp ht).1] at hj
      rw [← Option.some.inj hj] at hcapturing
      exact absurd (safe_ret ()) hcapturing.storing
    · rw [List.getElem?_set_ne hij] at hj
      exact ⟨t', hj, hcapturing⟩
  | moved a =>
    refine h.keep hsound hcaptures ?_ fun i t' hi hcapturing => ⟨t', hi, hcapturing⟩
    show (World.ambient a s.state).snapshotsOf rid = s.state.snapshotsOf rid
    rw [World.snapshotsOf, (ambient_stores a s.state).2.1]
    rfl

/-- In every run in which no capture of the rebalance checks between the check and the
insert of another, one snapshot of it at most is ever stored. -/
theorem one_snapshot (settings : Settings) (env : Env) {w : World} {rid : RebalanceId}
    (hstored : SingleSnapshot rid w) (es : List Event)
    (hes : Meets (autotrading settings env) (fun s e => ¬ ChecksBetween rid s e) (start w) es) :
    SingleSnapshot rid ((autotrading settings env).run (start w) es).state := by
  have hstart : Alone env rid (start w) := by
    refine ⟨sound_start w, ?_, hstored, ?_, ?_⟩
    · intro t ht
      cases ht
    · intro t ht
      cases ht
    · intro i j t t' hi
      cases hi
  have hstep : ∀ s e s', Alone env rid s → ¬ ChecksBetween rid s e →
      Change (autotrading settings env) s e s' → Alone env rid s' :=
    fun s e s' h hsafe hc => h.change hsafe hc
  exact (hes.invariant hstep hstart).single

/-! ## Two orders that end together -/

instance {p : Task → Prop} [DecidablePred p] : ∀ e, Decidable (ChecksWhile p rid s e)
  | .step _ => inferInstanceAs (Decidable (_ ∧ ∃ t ∈ s.tasks, _ ∧ p t))
  | .launch _ => inferInstanceAs (Decidable False)
  | .crash _ => inferInstanceAs (Decidable False)
  | .ambient _ => inferInstanceAs (Decidable False)

theorem discharged_of_not_running {t : Task} (ht : running t = false) : Discharged t := by
  unfold Discharged
  cases hp : t.prog with
  | ret a => exact safe_ret a
  | raise e => exact safe_raise e
  | call o k => simp [running, hp] at ht

theorem ChecksBetween.running (h : ChecksBetween rid s e) :
    ChecksWhile (fun t => running t = true) rid s e := by
  cases e with
  | step i =>
    obtain ⟨hchecks, t, ht, hfound, hstoring⟩ := h
    refine ⟨hchecks, t, ht, hfound, ?_⟩
    by_contra hend
    exact hstoring (discharged_of_not_running (Bool.eq_false_iff.mpr hend))
  | launch l => exact h
  | crash i => exact h
  | ambient a => exact h

/-- Two open orders of rebalance 1, each with a cycle in the queue. -/
def twoOpenOrders : World :=
  .holding ([1, 2].map fun id => { Order.sample id .accepted with rebalanceId := some 1 })
    ([1, 2].map fun id => .processOrderStatus (some id) 0 none)

/-- Both cycles find their order filled, then both look at the rebalance and queue a
capture. -/
def bothFilled : List Event :=
  [.launch (.processOrderStatus (some 1) 0 none), .launch (.processOrderStatus (some 2) 0 none)] ++
    List.replicate 9 (.step 0) ++ List.replicate 9 (.step 1) ++
    [.step 0, .step 0, .step 1, .step 1,
      .launch (.captureRebalanceSnapshot 1), .launch (.captureRebalanceSnapshot 1)]

/-- One capture inserts before the other one checks. -/
theorem one_snapshot_sample :
    SingleSnapshot 1 ((autotrading .sample .accepting).run (start twoOpenOrders)
      (bothFilled ++ List.replicate 5 (.step 2) ++ List.replicate 5 (.step 3))).state := by
  refine one_snapshot _ _ ?_ _ ?_
  · unfold SingleSnapshot
    decide
  · have hrunning : Meets (autotrading .sample .accepting)
        (fun s e => ¬ ChecksWhile (fun t => running t = true) 1 s e) (start twoOpenOrders)
        (bothFilled ++ List.replicate 5 (.step 2) ++ List.replicate 5 (.step 3)) := by
      decide +kernel
    have hstep : ∀ s e, True → ¬ ChecksWhile (fun t => running t = true) 1 s e →
        ¬ ChecksBetween 1 s e ∧ True := fun s e _ h => ⟨fun hbetween => h hbetween.running, trivial⟩
    exact hrunning.implies hstep trivial

/-- Both captures check before either inserts. -/
theorem snapshot_stored_twice :
    ¬ SingleSnapshot 1 ((autotrading .sample .accepting).run (start twoOpenOrders)
      (bothFilled ++ [.step 2, .step 3] ++ List.replicate 4 (.step 2) ++
        List.replicate 4 (.step 3))).state := by
  unfold SingleSnapshot
  decide +kernel

end Autotrading
