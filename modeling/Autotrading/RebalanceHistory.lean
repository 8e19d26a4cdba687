import Autotrading.RebalanceRecords
import Autotrading.SortedPages
import Mathlib.Data.List.Chain

/-!
# The history of the rebalances, page by page

`get_rebalance_list` of `app/services/rebalance/rebalance_query_service.py` over `get_rebalances` and
`get_rebalance_count` of `app/repository/rebalance_repository.py`. Between two requests rebalances may
be stored anywhere in the order of the list: the time of a row is that of its transaction, which may
be committed after a younger one.
-/
namespace Autotrading

open Machine SortedPages

namespace RebalanceQueryService

/-- The rows that other sessions see. -/
def stored (records : List Rebalance) : List Rebalance := records.filter (·.committed)

/-- `get_rebalances`. Rows of one time may come in any order; here it is that of the table. -/
def getRebalances (records : List Rebalance) (limit offset : ℕ) : List Rebalance :=
  page limit offset (newestFirst (·.executedAt) (stored records))

/-- `get_rebalance_count`. -/
def getRebalanceCount (records : List Rebalance) : ℕ := (stored records).length

structure RebalanceListResponse where
  totalCount : ℕ
  items : List Rebalance

/-- `get_rebalance_list`. The count is taken before the page, and rows may be stored in between. -/
def getRebalanceList (atCount atPage : List Rebalance) (limit offset : ℕ) : RebalanceListResponse :=
  ⟨getRebalanceCount atCount, getRebalances atPage limit offset⟩

/-- The items of requests for one page after the other; before each the system goes on. -/
def readPages (settings : Settings) (env : Env) (limit : ℕ) :
    ℕ → System → List (List Event) → List (List Rebalance)
  | _, _, [] => []
  | offset, s, es :: rest =>
    let s' := (autotrading settings env).run s es
    (getRebalanceList s'.state.records s'.state.records limit offset).items ::
      readPages settings env limit (offset + limit) s' rest

/-- The states in which the pages are read. -/
def readStates (settings : Settings) (env : Env) : System → List (List Event) → List System
  | _, [] => []
  | s, es :: rest =>
    (autotrading settings env).run s es ::
      readStates settings env ((autotrading settings env).run s es) rest

/-! ## Stored rows stay -/

section Growth
variable {settings : Settings} {env : Env} {s : System} {w : World}

/-- The time and the id of a row. -/
def rowKey (r : Rebalance) : Instant × RebalanceId := (r.executedAt, r.id)

/-- The rows that are seen, by time and id. -/
def rowKeys (w : World) : List (Instant × RebalanceId) := (stored w.records).map rowKey

/-- A change that keeps what identifies a row, and shows no row less, keeps the rows that are seen. -/
theorem sublist_of_map {f : Rebalance → Rebalance} (hkey : ∀ r, rowKey (f r) = rowKey r)
    (hshown : ∀ r, r.committed = true → (f r).committed = true) (records : List Rebalance) :
    ((stored records).map rowKey).Sublist ((stored (records.map f)).map rowKey) := by
  unfold stored
  induction records with
  | nil => exact List.Sublist.refl _
  | cons r records ih =>
    rw [List.map_cons]
    by_cases hcommitted : r.committed = true
    · rw [List.filter_cons_of_pos hcommitted, List.filter_cons_of_pos (hshown r hcommitted),
        List.map_cons, List.map_cons, hkey]
      exact ih.cons_cons _
    · rw [List.filter_cons_of_neg hcommitted]
      by_cases hnow : (f r).committed = true
      · rw [List.filter_cons_of_pos hnow, List.map_cons]
        exact ih.cons _
      · rwa [List.filter_cons_of_neg hnow]

theorem commitWith_keeps (os : List Order) (r : Rebalance) :
    rowKey (r.commitWith os) = rowKey r ∧
      (r.committed = true → (r.commitWith os).committed = true) := by
  unfold Rebalance.commitWith
  split
  · exact ⟨rfl, fun _ => rfl⟩
  · exact ⟨rfl, id⟩

theorem conclude_keeps (rid : RebalanceId) (status : RebalanceStatus) (errorMessage : Option String)
    (r : Rebalance) : rowKey (r.conclude rid status errorMessage) = rowKey r ∧
      (r.committed = true → (r.conclude rid status errorMessage).committed = true) := by
  unfold Rebalance.conclude
  split
  · exact ⟨rfl, fun _ => rfl⟩
  · exact ⟨rfl, id⟩

/-- No call takes a row away that is seen, or changes its time or id. -/
theorem rowKeys_handle (env : Env) (w : World) (o : Op) :
    (rowKeys w).Sublist (rowKeys (World.handle env o w).2) := by
  obtain ⟨e, he⟩ | he := World.handle_cases env w o
  · rw [he]
    exact List.Sublist.refl _
  · rw [he]
    cases o
    case insertOrders os =>
      simp only [World.effect]
      split
      · exact sublist_of_map (fun r => (commitWith_keeps os r).1) (fun r => (commitWith_keeps os r).2) _
      · exact List.Sublist.refl _
    case flushRebalance rid dryRun =>
      simp only [World.effect]
      split
      · exact List.Sublist.refl _
      · show ((w.records.filter _).map _).Sublist (((w.records ++ _).filter _).map _)
        rw [List.filter_append, List.map_append]
        exact List.sublist_append_left _ _
    case completeRebalance rid =>
      exact sublist_of_map (fun r => (conclude_keeps rid .completed none r).1)
        (fun r => (conclude_keeps rid .completed none r).2) _
    case failRebalance rid message =>
      exact sublist_of_map (fun r => (conclude_keeps rid .failed (some message) r).1)
        (fun r => (conclude_keeps rid .failed (some message) r).2) _
    case selectOrder k =>
      cases k <;> exact List.Sublist.refl _
    all_goals
      simp only [World.effect]
      first | exact List.Sublist.refl _ | (split <;> exact List.Sublist.refl _)

/-- The rows that are seen stay in every run. -/
theorem rowKeys_run (settings : Settings) (env : Env) (s : System) (es : List Event) :
    (rowKeys s.state).Sublist (rowKeys ((autotrading settings env).run s es).state) := by
  refine run_rel (R := fun s s' => (rowKeys s.state).Sublist (rowKeys s'.state))
    (fun s => List.Sublist.refl _) (fun a b c hab hbc => hab.trans hbc) ?_ es s
  intro s e s' hchange
  have hsame : ∀ w : World, w.records = s.state.records →
      (rowKeys s.state).Sublist (rowKeys w) := by
    intro w hrecords
    rw [rowKeys, rowKeys, hrecords]
  cases hchange with
  | idle => exact hsame _ rfl
  | launched l state hlaunch => exact hsame _ (launch_fields hlaunch).1
  | stepped i t o k ht hp => exact rowKeys_handle env s.state o
  | crashed i t ht => exact hsame _ rfl
  | moved a => exact hsame _ (ambient_fields a s.state).1

/-- From one page to the next the rows only become more. -/
theorem isChain_readStates (settings : Settings) (env : Env) (s : System) (events : List (List Event)) :
    ((readStates settings env s events).map fun s => rowKeys s.state).IsChain List.Sublist := by
  induction events generalizing s with
  | nil => exact .nil
  | cons es rest ih =>
    have hrest := ih ((autotrading settings env).run s es)
    cases rest with
    | nil => exact .singleton _
    | cons es' rest =>
      rw [readStates, List.map_cons, readStates, List.map_cons, List.isChain_cons_cons]
      exact ⟨rowKeys_run settings env _ es', hrest⟩

end Growth

/-! ## No row is passed over -/

section Reading
variable {settings : Settings} {env : Env} {limit : ℕ} {s : System} {es : List Event}
  {rest : List (List Event)}

theorem map_newestFirst (rows : List Rebalance) :
    (newestFirst (·.executedAt) rows).map rowKey = newestFirst Prod.fst (rows.map rowKey) :=
  List.map_mergeSort fun _ _ _ _ => rfl

/-- The pages by time and id are the pages of a list that is looked at again for each. -/
theorem readPages_eq (offset : ℕ) (s : System) (events : List (List Event)) :
    (readPages settings env limit offset s events).map (·.map rowKey) =
      pages limit offset ((readStates settings env s events).map fun s =>
        newestFirst Prod.fst (rowKeys s.state)) := by
  induction events generalizing offset s with
  | nil => rfl
  | cons es rest ih =>
    rw [readPages, readStates, List.map_cons, List.map_cons, pages, ih]
    congr 1
    show (page limit offset _).map rowKey = page limit offset _
    rw [page, List.map_take, List.map_drop, map_newestFirst]
    rfl

theorem length_readStates (s : System) (events : List (List Event)) :
    (readStates settings env s events).length = events.length := by
  induction events generalizing s with
  | nil => rfl
  | cons es rest ih => rw [readStates, List.length_cons, List.length_cons, ih]

/-- A page that is not full is the last one of the list. -/
theorem length_le_of_short {offset : ℕ} {xs : List Rebalance} (h : (page limit offset xs).length < limit) :
    xs.length ≤ offset + limit := by
  rw [page, List.length_take, List.length_drop] at h
  omega

theorem exhausted_of_short (offset : ℕ) (events : List (List Event)) (s : System)
    (hshort : ∀ p ∈ (readPages settings env limit offset s events).getLast?, p.length < limit) :
    Exhausted limit offset ((readStates settings env s events).map fun s =>
      newestFirst Prod.fst (rowKeys s.state)) := by
  induction events generalizing offset s with
  | nil =>
    intro last hlast
    cases hlast
  | cons es rest ih =>
    cases rest with
    | nil =>
      intro last hlast
      have heq : newestFirst Prod.fst (rowKeys ((autotrading settings env).run s es).state) = last :=
        Option.mem_some_iff.mp hlast
      have hle := length_le_of_short (hshort _ rfl)
      rw [← heq, (newestFirst_perm _).length_eq, rowKeys, List.length_map]
      rw [(newestFirst_perm _).length_eq] at hle
      exact hle.trans (by simp [readStates])
    | cons es' rest =>
      have hrest := ih (offset + limit) ((autotrading settings env).run s es)
        (by simpa [readPages] using hshort)
      intro last hlast
      have hle := hrest last (by simpa [readStates] using hlast)
      simp only [List.length_map, length_readStates, List.length_cons, Nat.mul_add, Nat.mul_one]
        at hle ⊢
      omega

/-- Whoever reads the history page by page, up to a page that is not full, sees every rebalance that
was stored when the first page was read, whatever the system stores or updates in between. -/
theorem history_complete
    (hdistinct : ∀ s' ∈ readStates settings env s (es :: rest),
      ((stored s'.state.records).map (·.executedAt)).Nodup)
    (hshort : ∀ p ∈ (readPages settings env limit 0 s (es :: rest)).getLast?, p.length < limit)
    {r : Rebalance} (hr : r ∈ ((autotrading settings env).run s es).state.records)
    (hcommitted : r.committed = true) :
    ∃ p ∈ readPages settings env limit 0 s (es :: rest), ∃ r' ∈ p,
      r'.id = r.id ∧ r'.executedAt = r.executedAt := by
  have hkeys : ∀ s' ∈ readStates settings env s (es :: rest),
      ((rowKeys s'.state).map Prod.fst).Nodup := by
    intro s' hs'
    have hnodup := hdistinct s' hs'
    rw [rowKeys, List.map_map]
    exact hnodup
  have hgrows : ((readStates settings env s (es :: rest)).map fun s =>
      newestFirst Prod.fst (rowKeys s.state)).IsChain List.Sublist := by
    have hchain := isChain_readStates settings env s (es :: rest)
    rw [List.isChain_map] at hchain ⊢
    exact hchain.imp_of_mem_imp fun a b _ hb hab => newestFirst_sublist hab (hkeys b hb)
  have hmem : rowKey r ∈ newestFirst Prod.fst
      (rowKeys ((autotrading settings env).run s es).state) :=
    (newestFirst_perm _).mem_iff.mpr
      (List.mem_map_of_mem (List.mem_filter.mpr ⟨hr, hcommitted⟩))
  obtain ⟨keys, hkeys', hin⟩ := mem_pages hgrows (exhausted_of_short 0 _ s hshort) hmem
  have hread : keys ∈ (readPages settings env limit 0 s (es :: rest)).map (·.map rowKey) := by
    rw [readPages_eq]
    exact hkeys'
  obtain ⟨p, hp, rfl⟩ := List.mem_map.mp hread
  obtain ⟨r', hr', hkey⟩ := List.mem_map.mp hin
  obtain ⟨htime, hid⟩ := Prod.mk.inj hkey
  exact ⟨p, hp, r', hr', hid, htime⟩

/-- Two completed rebalances. -/
def twoRebalances : World :=
  { World.holding [] [] with
    records := [⟨1, 10, true, .completed, none, true⟩, ⟨2, 20, true, .completed, none, true⟩] }

/-- The older of two rebalances is on the second page of one row, the third is empty. -/
theorem history_complete_two :
    ∃ p ∈ readPages .sample .quiet 1 0 (.start twoRebalances)
        [[], [.ambient .expireRecoveryLock], []],
      ∃ r' ∈ p, r'.id = 1 ∧ r'.executedAt = 10 :=
  history_complete (r := ⟨1, 10, true, .completed, none, true⟩)
    (by
      intro s' hs'
      have hrecords : s'.state.records = twoRebalances.records := by
        simp only [readStates, List.mem_cons, List.not_mem_nil, or_false] at hs'
        obtain rfl | rfl | rfl := hs'
        · rfl
        · rfl
        · rfl
      rw [hrecords]
      decide)
    (by
      intro p hp
      obtain rfl := Option.mem_some_iff.mp hp
      show (page 1 2 (newestFirst (·.executedAt) (stored twoRebalances.records))).length < 1
      rw [page, List.length_take, List.length_drop, (newestFirst_perm _).length_eq]
      decide)
    List.mem_cons_self rfl

end Reading

end RebalanceQueryService

end Autotrading
