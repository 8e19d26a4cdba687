import Mathlib.Data.List.Nodup
import Mathlib.Tactic.Common

/-!
# Tables with a primary key and column limits

A table is the list of its rows in insertion order, together with the proofs
that keys are distinct and that every row fits its columns. A statement that
would break either is refused as a whole, as a relational database does.
-/
namespace Autotrading

structure KeyedTable (ρ κ : Type) (key : ρ → κ) (Fits : ρ → Prop) where
  rows : List ρ
  keys : (rows.map key).Nodup
  fits : ∀ r ∈ rows, Fits r

namespace KeyedTable

variable {ρ κ : Type} {key : ρ → κ} {Fits : ρ → Prop} [DecidableEq κ]

def empty : KeyedTable ρ κ key Fits := ⟨[], List.nodup_nil, by simp⟩

/-- `SELECT ... WHERE key = k`. -/
def get? (t : KeyedTable ρ κ key Fits) (k : κ) : Option ρ :=
  t.rows.find? (fun r => key r = k)

theorem get?_eq_some {t : KeyedTable ρ κ key Fits} {k : κ} {r : ρ} :
    t.get? k = some r ↔ r ∈ t.rows ∧ key r = k := by
  constructor
  · intro h
    exact ⟨List.mem_of_find?_eq_some h, by simpa using List.find?_some h⟩
  · rintro ⟨hr, rfl⟩
    obtain ⟨q, hq⟩ : ∃ q, t.rows.find? (fun x => key x = key r) = some q := by
      apply Option.isSome_iff_exists.mp
      rw [List.find?_isSome]
      exact ⟨r, hr, by simp⟩
    have hkey : key q = key r := by simpa using List.find?_some hq
    have he : q = r := List.inj_on_of_nodup_map t.keys (List.mem_of_find?_eq_some hq) hr hkey
    rw [get?, hq, he]

theorem get?_eq_none {t : KeyedTable ρ κ key Fits} {k : κ} :
    t.get? k = none ↔ ∀ r ∈ t.rows, key r ≠ k := by
  simp [get?, List.find?_eq_none]

theorem key_of_get? {t : KeyedTable ρ κ key Fits} {k : κ} {r : ρ} (h : t.get? k = some r) :
    key r = k := (get?_eq_some.mp h).2

theorem fits_of_get? {t : KeyedTable ρ κ key Fits} {k : κ} {r : ρ} (h : t.get? k = some r) :
    Fits r := t.fits r (get?_eq_some.mp h).1

theorem get?_of_mem {t : KeyedTable ρ κ key Fits} {r : ρ} (h : r ∈ t.rows) :
    t.get? (key r) = some r := get?_eq_some.mpr ⟨h, rfl⟩

omit [DecidableEq κ] in
lemma map_update_key (rows : List ρ) (sel : ρ → Bool) {f : ρ → ρ} (hf : ∀ r, key (f r) = key r) :
    (rows.map fun r => if sel r then f r else r).map key = rows.map key := by
  rw [List.map_map]
  refine List.map_congr_left fun r _ => ?_
  by_cases h : sel r <;> simp [h, hf]

/-- `UPDATE ... SET f WHERE sel`, refused when a changed row does not fit. -/
def update (t : KeyedTable ρ κ key Fits) [DecidablePred Fits] (sel : ρ → Bool) (f : ρ → ρ)
    (hf : ∀ r, key (f r) = key r) : Option (KeyedTable ρ κ key Fits) :=
  if h : ∀ r ∈ t.rows, sel r → Fits (f r) then
    some {
      rows := t.rows.map fun r => if sel r then f r else r
      keys := by rw [map_update_key t.rows sel hf]; exact t.keys
      fits := by
        intro r hr
        obtain ⟨q, hq, rfl⟩ := List.mem_map.mp hr
        by_cases hs : sel q
        · simpa [hs] using h q hq hs
        · simpa [hs] using t.fits q hq }
  else none

theorem get?_update [DecidablePred Fits] {t t' : KeyedTable ρ κ key Fits} {sel : ρ → Bool}
    {f : ρ → ρ} {hf : ∀ r, key (f r) = key r} (h : t.update sel f hf = some t') (k : κ) :
    t'.get? k = (t.get? k).map fun r => if sel r then f r else r := by
  rw [update] at h
  split at h
  · obtain rfl := Option.some.inj h
    simp only [get?, List.find?_map]
    congr 2
    funext r
    by_cases hs : sel r <;> simp [hs, hf]
  · cases h

/-- An update of the row `k` alone goes through when that row fits afterwards. -/
theorem update_isSome [DecidablePred Fits] {t : KeyedTable ρ κ key Fits} {sel : ρ → Bool}
    {f : ρ → ρ} {hf : ∀ r, key (f r) = key r} {k : κ} (hk : ∀ r, sel r → key r = k)
    (hfit : ∀ r, t.get? k = some r → sel r → Fits (f r)) :
    ∃ t', t.update sel f hf = some t' := by
  rw [update, dif_pos]
  · exact ⟨_, rfl⟩
  · intro r hr hs
    exact hfit r (get?_eq_some.mpr ⟨hr, hk r hs⟩) hs

/-- `INSERT` of one row, refused on a duplicate key or a row that does not fit. -/
def insert (t : KeyedTable ρ κ key Fits) [DecidablePred Fits] (r : ρ) :
    Option (KeyedTable ρ κ key Fits) :=
  if h : (∀ q ∈ t.rows, key q ≠ key r) ∧ Fits r then
    some {
      rows := t.rows ++ [r]
      keys := by
        rw [List.map_append, List.map_singleton]
        refine t.keys.append (List.nodup_singleton _) ?_
        intro k hk hr
        obtain ⟨q, hq, rfl⟩ := List.mem_map.mp hk
        exact h.1 q hq (List.mem_singleton.mp hr)
      fits := by
        intro q hq
        rcases List.mem_append.mp hq with hq | hq
        · exact t.fits q hq
        · obtain rfl := List.mem_singleton.mp hq
          exact h.2 }
  else none

theorem rows_insert [DecidablePred Fits] {t t' : KeyedTable ρ κ key Fits} {r : ρ}
    (h : t.insert r = some t') : t'.rows = t.rows ++ [r] ∧ t.get? (key r) = none := by
  rw [insert] at h
  split at h
  · next hc => obtain rfl := Option.some.inj h; exact ⟨rfl, get?_eq_none.mpr hc.1⟩
  · cases h

/-- Several inserts in one transaction. -/
def insertAll (t : KeyedTable ρ κ key Fits) [DecidablePred Fits] :
    List ρ → Option (KeyedTable ρ κ key Fits)
  | [] => some t
  | r :: rs => (t.insert r).bind fun t' => t'.insertAll rs

theorem rows_insertAll [DecidablePred Fits] {rs : List ρ} {t t' : KeyedTable ρ κ key Fits}
    (h : t.insertAll rs = some t') : t'.rows = t.rows ++ rs := by
  induction rs generalizing t with
  | nil => obtain rfl := Option.some.inj h; simp
  | cons r rs ih =>
    simp only [insertAll, Option.bind_eq_some_iff] at h
    obtain ⟨t₁, h₁, h₂⟩ := h
    rw [ih h₂, (rows_insert h₁).1]
    simp

/-- Rows present before an insert are still found. -/
theorem get?_insertAll_of_some [DecidablePred Fits] {rs : List ρ}
    {t t' : KeyedTable ρ κ key Fits} (h : t.insertAll rs = some t') {k : κ} {r : ρ}
    (hk : t.get? k = some r) : t'.get? k = some r := by
  obtain ⟨hmem, hkey⟩ := get?_eq_some.mp hk
  rw [get?_eq_some, rows_insertAll h]
  exact ⟨List.mem_append_left _ hmem, hkey⟩

/-- Inserted rows had keys the table did not hold. -/
theorem get?_none_of_insertAll [DecidablePred Fits] {rs : List ρ}
    {t t' : KeyedTable ρ κ key Fits} (h : t.insertAll rs = some t') {r : ρ} (hr : r ∈ rs) :
    t.get? (key r) = none := by
  rw [get?_eq_none]
  intro q hq he
  have hk := t'.keys
  rw [rows_insertAll h, List.map_append, List.nodup_append] at hk
  exact hk.2.2 _ (List.mem_map_of_mem hq) _ (List.mem_map_of_mem hr) he

end KeyedTable

end Autotrading
