import Mathlib.Data.List.Forall2
import Mathlib.Data.List.Induction
import Mathlib.Data.List.Nodup
import Mathlib.Tactic.Common

/-!
# Dictionaries and comprehensions

A Python `dict` is the list of its entries in the order in which their keys came in, with
distinct keys. Setting a key that is there changes its value in place. A comprehension
whose body may raise is `List.mapM` in `Except`.
-/
namespace Autotrading

section Comprehension
variable {α β γ ε : Type} {f : α → Except ε β}

theorem of_bind_ok {x : Except ε α} {b : β} (h : (x >>= f) = .ok b) :
    ∃ a, x = .ok a ∧ f a = .ok b := by
  cases x with
  | error e => cases h
  | ok a => exact ⟨a, rfl, h⟩

theorem ok_of_toOption {x : Except ε α} {a : α} (h : x.toOption = some a) : x = .ok a := by
  cases x with
  | error e => cases h
  | ok b => exact congrArg Except.ok (Option.some.inj h)

/-- A computation that does not raise. -/
def Succeeds (x : Except ε α) : Prop := ∃ a, x = .ok a

@[simp] theorem succeeds_ok {a : α} : Succeeds (.ok a : Except ε α) := ⟨a, rfl⟩

@[simp] theorem succeeds_pure {a : α} : Succeeds (pure a : Except ε α) := ⟨a, rfl⟩

@[simp] theorem not_succeeds_error {e : ε} : ¬ Succeeds (.error e : Except ε α) := by
  rintro ⟨a, ha⟩
  cases ha

/-- Whether the rest raises does not depend on what comes before. -/
theorem succeeds_bind {x : Except ε α} {p : Prop}
    (h : ∀ a, x = .ok a → (Succeeds (f a) ↔ p)) : Succeeds (x >>= f) ↔ Succeeds x ∧ p := by
  cases x with
  | error e => simp [bind, Except.bind]
  | ok a =>
    rw [← h a rfl]
    simp [bind, Except.bind]

@[simp] theorem succeeds_bind_pure {x : Except ε α} {g : α → β} :
    Succeeds (x >>= fun a => pure (g a)) ↔ Succeeds x := by
  cases x <;> simp [bind, Except.bind]

/-- A comprehension that returns took one step for each element. -/
theorem forall₂_of_mapM_ok {xs : List α} {ys : List β} (h : xs.mapM f = .ok ys) :
    List.Forall₂ (fun x y => f x = .ok y) xs ys := by
  induction xs generalizing ys with
  | nil =>
    obtain rfl := Except.ok.inj h
    exact .nil
  | cons x xs ih =>
    rw [List.mapM_cons] at h
    obtain ⟨y, hx, h⟩ := of_bind_ok h
    obtain ⟨zs, hzs, h⟩ := of_bind_ok h
    obtain rfl := Except.ok.inj h
    exact .cons hx (ih hzs)

theorem exists_mapM_ok {xs : List α} (h : ∀ x ∈ xs, ∃ y, f x = .ok y) :
    ∃ ys, xs.mapM f = .ok ys := by
  induction xs with
  | nil => exact ⟨[], rfl⟩
  | cons x xs ih =>
    obtain ⟨y, hy⟩ := h x List.mem_cons_self
    obtain ⟨ys, hys⟩ := ih fun x' hx' => h x' (List.mem_cons_of_mem _ hx')
    exact ⟨y :: ys, by simp [List.mapM_cons, hy, hys, bind, Except.bind, pure, Except.pure]⟩

theorem mem_of_mapM_ok {xs : List α} {ys : List β} (h : xs.mapM f = .ok ys) {y : β}
    (hy : y ∈ ys) : ∃ x ∈ xs, f x = .ok y := by
  replace h := forall₂_of_mapM_ok h
  induction h with
  | nil => simp at hy
  | @cons x y' xs ys hx hxs ih =>
    rcases List.mem_cons.mp hy with heq | hmem
    · exact ⟨x, List.mem_cons_self, heq ▸ hx⟩
    · obtain ⟨x', hx', hfx'⟩ := ih hmem
      exact ⟨x', List.mem_cons_of_mem _ hx', hfx'⟩

theorem exists_of_mapM_ok {xs : List α} {ys : List β} (h : xs.mapM f = .ok ys) {x : α}
    (hx : x ∈ xs) : ∃ y ∈ ys, f x = .ok y := by
  replace h := forall₂_of_mapM_ok h
  induction h with
  | nil => simp at hx
  | @cons x' y xs ys hy hys ih =>
    rcases List.mem_cons.mp hx with heq | hmem
    · exact ⟨y, List.mem_cons_self, heq ▸ hy⟩
    · obtain ⟨y', hy', hfx⟩ := ih hmem
      exact ⟨y', List.mem_cons_of_mem _ hy', hfx⟩

/-- What the body keeps of each element, the comprehension keeps of the list. -/
theorem map_of_mapM_ok {xs : List α} {ys : List β} {g : β → γ} {k : α → γ}
    (h : xs.mapM f = .ok ys) (hk : ∀ x ∈ xs, ∀ y, f x = .ok y → g y = k x) :
    ys.map g = xs.map k := by
  replace h := forall₂_of_mapM_ok h
  induction h with
  | nil => rfl
  | cons hx hxs ih =>
    rw [List.map_cons, List.map_cons, hk _ List.mem_cons_self _ hx,
      ih fun x' hx' => hk x' (List.mem_cons_of_mem _ hx')]

/-- A comprehension whose body always returns. -/
theorem mapM_eq_ok {xs : List α} {g : α → β} (h : ∀ x ∈ xs, f x = .ok (g x)) :
    xs.mapM f = .ok (xs.map g) := by
  obtain ⟨ys, hys⟩ := exists_mapM_ok fun x hx => ⟨g x, h x hx⟩
  have hmap : ys.map id = xs.map g := by
    refine map_of_mapM_ok hys fun x hx y hy => ?_
    rw [h x hx] at hy
    exact (Except.ok.inj hy).symm
  rw [hys, ← hmap, List.map_id]

/-- A comprehension that leaves elements out keeps the order of their keys. -/
theorem sublist_of_mapM_ok {f : α → Except ε (Option β)} {g : β → γ} {k : α → γ} {xs : List α}
    {ys : List (Option β)} (h : xs.mapM f = .ok ys) (hk : ∀ x y, f x = .ok (some y) → g y = k x) :
    ((ys.filterMap id).map g).Sublist (xs.map k) := by
  replace h := forall₂_of_mapM_ok h
  induction h with
  | nil => exact .slnil
  | @cons x y xs ys hx hxs ih =>
    cases y with
    | none => exact ih.cons _
    | some y =>
      rw [List.filterMap_cons_some (by rfl), List.map_cons, List.map_cons, hk x y hx]
      exact ih.cons_cons _

end Comprehension

structure Dict (κ ν : Type) where
  entries : List (κ × ν)
  nodup : (entries.map Prod.fst).Nodup

namespace Dict

variable {κ ν : Type} [DecidableEq κ]

def empty : Dict κ ν := ⟨[], List.nodup_nil⟩

def keys (d : Dict κ ν) : List κ := d.entries.map Prod.fst

/-- `d.get(k)`. -/
def get? (d : Dict κ ν) (k : κ) : Option ν := d.entries.lookup k

def setEntries (k : κ) (v : ν) : List (κ × ν) → List (κ × ν)
  | [] => [(k, v)]
  | e :: es => if e.1 = k then (k, v) :: es else e :: setEntries k v es

theorem mem_keys_setEntries {k a : κ} {v : ν} {es : List (κ × ν)} :
    a ∈ (setEntries k v es).map Prod.fst ↔ a = k ∨ a ∈ es.map Prod.fst := by
  induction es with
  | nil => simp [setEntries]
  | cons e es ih =>
    by_cases h : e.1 = k
    · simp [setEntries, h]
    · rw [setEntries, if_neg h, List.map_cons, List.mem_cons, ih, List.map_cons, List.mem_cons]
      tauto

theorem nodup_setEntries {k : κ} {v : ν} {es : List (κ × ν)} (h : (es.map Prod.fst).Nodup) :
    ((setEntries k v es).map Prod.fst).Nodup := by
  induction es with
  | nil => simp [setEntries]
  | cons e es ih =>
    rw [List.map_cons, List.nodup_cons] at h
    by_cases he : e.1 = k
    · rw [setEntries, if_pos he, List.map_cons, List.nodup_cons, ← he]
      exact h
    · rw [setEntries, if_neg he, List.map_cons, List.nodup_cons, mem_keys_setEntries]
      exact ⟨fun hmem => hmem.elim he h.1, ih h.2⟩

theorem setEntries_of_not_mem {k : κ} {v : ν} {es : List (κ × ν)} (h : k ∉ es.map Prod.fst) :
    setEntries k v es = es ++ [(k, v)] := by
  induction es with
  | nil => rfl
  | cons e es ih =>
    rw [List.map_cons, List.mem_cons, not_or] at h
    rw [setEntries, if_neg (Ne.symm h.1), List.cons_append, ih h.2]

theorem keys_setEntries_of_mem {k : κ} {v : ν} {es : List (κ × ν)} (h : k ∈ es.map Prod.fst) :
    (setEntries k v es).map Prod.fst = es.map Prod.fst := by
  induction es with
  | nil => cases h
  | cons e es ih =>
    by_cases he : e.1 = k
    · rw [setEntries, if_pos he, List.map_cons, List.map_cons, he]
    · rw [List.map_cons, List.mem_cons] at h
      rw [setEntries, if_neg he, List.map_cons, List.map_cons, ih (h.resolve_left (Ne.symm he))]

theorem mem_setEntries {k : κ} {v : ν} {e : κ × ν} {es : List (κ × ν)} (h : e ∈ setEntries k v es) :
    e = (k, v) ∨ e ∈ es := by
  induction es with
  | nil => exact .inl (List.mem_singleton.mp h)
  | cons e' es ih =>
    rw [setEntries] at h
    split at h
    · rcases List.mem_cons.mp h with hnew | hold
      · exact .inl hnew
      · exact .inr (List.mem_cons_of_mem _ hold)
    · rcases List.mem_cons.mp h with hhead | htail
      · exact .inr (hhead ▸ List.mem_cons_self)
      · exact (ih htail).imp_right (List.mem_cons_of_mem _)

/-- `d[k] = v`. -/
def set (d : Dict κ ν) (k : κ) (v : ν) : Dict κ ν :=
  ⟨setEntries k v d.entries, nodup_setEntries d.nodup⟩

/-- A new key comes last. -/
theorem entries_set_of_not_mem {d : Dict κ ν} {k : κ} {v : ν} (h : k ∉ d.keys) :
    (d.set k v).entries = d.entries ++ [(k, v)] := setEntries_of_not_mem h

theorem keys_set {d : Dict κ ν} {k : κ} {v : ν} :
    (d.set k v).keys = if k ∈ d.keys then d.keys else d.keys ++ [k] := by
  by_cases h : k ∈ d.keys
  · rw [if_pos h]
    exact keys_setEntries_of_mem h
  · rw [if_neg h, keys, entries_set_of_not_mem h, List.map_append]
    rfl

@[simp] theorem mem_keys_set {d : Dict κ ν} {k a : κ} {v : ν} :
    a ∈ (d.set k v).keys ↔ a = k ∨ a ∈ d.keys := mem_keys_setEntries

theorem lookup_cons_if {k a : κ} {v : ν} {es : List (κ × ν)} :
    ((k, v) :: es).lookup a = if a = k then some v else es.lookup a := by
  by_cases h : a = k
  · simp [h]
  · rw [List.lookup_cons, beq_false_of_ne h, if_neg h]

theorem lookup_setEntries {k a : κ} {v : ν} {es : List (κ × ν)} :
    (setEntries k v es).lookup a = if a = k then some v else es.lookup a := by
  induction es with
  | nil => rw [setEntries, lookup_cons_if]
  | cons e es ih =>
    obtain ⟨k', v'⟩ := e
    by_cases hk : k' = k
    · subst hk
      rw [setEntries, if_pos rfl, lookup_cons_if, lookup_cons_if]
      split <;> rfl
    · rw [setEntries, if_neg hk, lookup_cons_if, lookup_cons_if, ih]
      by_cases ha : a = k'
      · subst ha
        simp [hk]
      · simp [ha]

theorem get?_set {d : Dict κ ν} {k a : κ} {v : ν} :
    (d.set k v).get? a = if a = k then some v else d.get? a := lookup_setEntries

/-- `{k: v for k, v in kvs}`. -/
def ofList (kvs : List (κ × ν)) : Dict κ ν := kvs.foldl (fun d kv => d.set kv.1 kv.2) empty

theorem mem_keys_foldl {kvs : List (κ × ν)} {d : Dict κ ν} {a : κ} :
    a ∈ (kvs.foldl (fun d kv => d.set kv.1 kv.2) d).keys ↔ a ∈ d.keys ∨ a ∈ kvs.map Prod.fst := by
  induction kvs generalizing d with
  | nil => simp
  | cons kv kvs ih =>
    rw [List.foldl_cons, ih, mem_keys_set, List.map_cons, List.mem_cons]
    tauto

@[simp] theorem mem_keys_ofList {kvs : List (κ × ν)} {a : κ} :
    a ∈ (ofList kvs).keys ↔ a ∈ kvs.map Prod.fst := by
  rw [ofList, mem_keys_foldl]
  simp [empty, keys]

/-- The last value given for a key counts. -/
theorem get?_ofList {kvs : List (κ × ν)} {a : κ} :
    (ofList kvs).get? a = kvs.reverse.lookup a := by
  induction kvs using List.reverseRecOn with
  | nil => rfl
  | append_singleton kvs kv ih =>
    have hfold : ofList (kvs ++ [kv]) = (ofList kvs).set kv.1 kv.2 := by
      rw [ofList, List.foldl_append]
      rfl
    rw [hfold, get?_set, ih, List.reverse_append, List.reverse_singleton, List.singleton_append,
      lookup_cons_if]

/-- The value of a key is the one of its last entry. -/
theorem get?_ofList_eq_some {kvs : List (κ × ν)} {k : κ} {v : ν} :
    (ofList kvs).get? k = some v ↔
      ∃ before after, kvs = before ++ (k, v) :: after ∧ ∀ e ∈ after, e.1 ≠ k := by
  rw [get?_ofList, List.lookup_eq_some_iff]
  constructor
  · rintro ⟨after, before, heq, hafter⟩
    refine ⟨before.reverse, after.reverse, ?_, ?_⟩
    · rw [← List.reverse_reverse kvs, heq]
      simp
    · intro e he hk
      have hne := hafter e (List.mem_reverse.mp he)
      simp [hk] at hne
  · rintro ⟨before, after, rfl, hafter⟩
    refine ⟨after.reverse, before.reverse, by simp, ?_⟩
    intro e he
    have hne := hafter e (List.mem_reverse.mp he)
    simp [Ne.symm hne]

theorem mem_entries {d : Dict κ ν} {k : κ} {v : ν} : (k, v) ∈ d.entries ↔ d.get? k = some v := by
  obtain ⟨es, hes⟩ := d
  unfold get?
  induction es with
  | nil => simp
  | cons e es ih =>
    obtain ⟨k', v'⟩ := e
    rw [List.map_cons, List.nodup_cons] at hes
    rw [List.mem_cons, lookup_cons_if, Prod.mk.injEq]
    by_cases hk : k = k'
    · subst hk
      have hnot : (k, v) ∉ es := fun hmem => hes.1 (List.mem_map.mpr ⟨_, hmem, rfl⟩)
      simp [hnot, eq_comm]
    · rw [if_neg hk, ← ih hes.2]
      simp [hk]

/-- No key has two entries. -/
theorem filter_key (d : Dict κ ν) (k : κ) :
    d.entries.filter (fun e => e.1 = k) = (d.get? k).toList.map fun v => (k, v) := by
  obtain ⟨es, hes⟩ := d
  unfold get?
  induction es with
  | nil => simp
  | cons e es ih =>
    obtain ⟨k', v'⟩ := e
    rw [List.map_cons, List.nodup_cons] at hes
    have hrest := ih hes.2
    simp only at hrest ⊢
    rw [lookup_cons_if, List.filter_cons, hrest]
    by_cases hk : k = k'
    · subst hk
      have hnone : es.lookup k = none := by
        rw [List.lookup_eq_none_iff]
        intro e he
        have hne : e.1 ≠ k := fun heq => hes.1 (List.mem_map.mpr ⟨e, he, heq⟩)
        simpa using Ne.symm hne
      simp [hnone]
    · simp [hk, Ne.symm hk]

theorem mem_keys_iff {d : Dict κ ν} {k : κ} : k ∈ d.keys ↔ ∃ v, d.get? k = some v := by
  rw [keys, List.mem_map]
  constructor
  · rintro ⟨⟨_, v⟩, hmem, rfl⟩
    exact ⟨v, mem_entries.mp hmem⟩
  · rintro ⟨v, hv⟩
    exact ⟨(k, v), mem_entries.mpr hv, rfl⟩

/-! ## Dictionaries made from dictionaries -/

/-- Dictionaries with the same keys in the same order and the same values are equal. -/
theorem ext_get? {d₁ d₂ : Dict κ ν} (hkeys : d₁.keys = d₂.keys)
    (h : ∀ k, d₁.get? k = d₂.get? k) : d₁ = d₂ := by
  have hentries : ∀ d : Dict κ ν,
      d.entries.map (fun e => (e.1, some e.2)) = d.keys.map fun k => (k, d.get? k) := by
    intro d
    rw [keys, List.map_map]
    refine List.map_congr_left fun e he => ?_
    rw [Function.comp_apply, mem_entries.mp (show (e.1, e.2) ∈ d.entries from he)]
  have hsame : d₁.entries.map (fun e => (e.1, some e.2)) =
      d₂.entries.map fun e => (e.1, some e.2) := by
    rw [hentries, hentries, hkeys]
    exact List.map_congr_left fun k _ => by rw [h k]
  have hinj : Function.Injective fun e : κ × ν => (e.1, some e.2) := by
    rintro ⟨k, v⟩ ⟨k', v'⟩ heq
    simpa using heq
  obtain ⟨es₁, hes₁⟩ := d₁
  obtain ⟨es₂, hes₂⟩ := d₂
  obtain rfl : es₁ = es₂ := hinj.list_map hsame
  rfl

variable {μ : Type}

/-- `{k: f(v) for k, v in d.items()}`. -/
def mapValues (f : ν → μ) (d : Dict κ ν) : Dict κ μ where
  entries := d.entries.map fun e => (e.1, f e.2)
  nodup := by
    rw [List.map_map]
    exact d.nodup

omit [DecidableEq κ] in
@[simp] theorem keys_mapValues (f : ν → μ) (d : Dict κ ν) : (d.mapValues f).keys = d.keys := by
  simp [keys, mapValues]

theorem lookup_map {f : ν → μ} {es : List (κ × ν)} {k : κ} :
    (es.map fun e => (e.1, f e.2)).lookup k = (es.lookup k).map f := by
  induction es with
  | nil => rfl
  | cons e es ih =>
    obtain ⟨k', v⟩ := e
    rw [List.map_cons, lookup_cons_if, lookup_cons_if, ih]
    split <;> rfl

@[simp] theorem get?_mapValues (f : ν → μ) (d : Dict κ ν) (k : κ) :
    (d.mapValues f).get? k = (d.get? k).map f := lookup_map

/-- `{k: v for k, v in d.items() if p(k, v)}`. -/
def filter (p : κ → ν → Bool) (d : Dict κ ν) : Dict κ ν where
  entries := d.entries.filter fun e => p e.1 e.2
  nodup := d.nodup.sublist (List.filter_sublist.map _)

omit [DecidableEq κ] in
/-- A condition that says of the new value what it says of the old one. -/
theorem filter_mapValues {f : ν → μ} {p : κ → μ → Bool} {q : κ → ν → Bool} {d : Dict κ ν}
    (h : ∀ k v, p k (f v) = q k v) : (d.mapValues f).filter p = (d.filter q).mapValues f := by
  obtain ⟨es, hes⟩ := d
  simp only [filter, mapValues, List.filter_map, Dict.mk.injEq]
  congr 1
  refine List.filter_congr fun e _ => ?_
  exact h e.1 e.2

omit [DecidableEq κ] in
theorem mapValues_mapValues {ξ : Type} (f : ν → μ) (g : μ → ξ) (d : Dict κ ν) :
    (d.mapValues f).mapValues g = d.mapValues fun v => g (f v) := by
  simp [mapValues]

theorem mapValues_set (f : ν → μ) (d : Dict κ ν) (k : κ) (v : ν) :
    (d.set k v).mapValues f = (d.mapValues f).set k (f v) := by
  have hentries : ∀ es : List (κ × ν), (setEntries k v es).map (fun e => (e.1, f e.2)) =
      setEntries k (f v) (es.map fun e => (e.1, f e.2)) := by
    intro es
    induction es with
    | nil => rfl
    | cons e es ih =>
      by_cases hkey : e.1 = k
      · simp [setEntries, hkey]
      · simp [setEntries, hkey, ih]
  simp only [mapValues, set, hentries]

theorem ofList_map (f : ν → μ) (kvs : List (κ × ν)) :
    ofList (kvs.map fun e => (e.1, f e.2)) = (ofList kvs).mapValues f := by
  induction kvs using List.reverseRecOn with
  | nil => rfl
  | append_singleton kvs kv ih =>
    have hfold : ∀ {ξ : Type} (xs : List (κ × ξ)) (x : κ × ξ),
        ofList (xs ++ [x]) = (ofList xs).set x.1 x.2 := by
      intro ξ xs x
      rw [ofList, List.foldl_append]
      rfl
    rw [List.map_append, List.map_singleton, hfold, hfold, mapValues_set, ih]

end Dict

end Autotrading
