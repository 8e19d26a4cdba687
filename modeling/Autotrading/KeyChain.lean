import Mathlib.Data.Set.Finite.Basic
import Mathlib.Logic.Relation
import Mathlib.Order.WellFounded

/-!
# Chains of keys

Each key names the next one or none. `walk` visits the keys from one on. A chain
of finitely many keys ends exactly when it runs into no cycle, and then it visits
every key once.
-/
namespace KeyChain

open Relation (ReflTransGen TransGen)

variable {κ : Type*}

/-- `next` leads from the one key to the other. -/
def Follows (next : κ → Option κ) (k k' : κ) : Prop := next k = some k'

instance [DecidableEq κ] {next : κ → Option κ} {k k' : κ} : Decidable (Follows next k k') :=
  inferInstanceAs (Decidable (next k = some k'))

/-- The keys from `k` on, where there are at most `fuel` of them. -/
def walk (next : κ → Option κ) : ℕ → κ → Option (List κ)
  | 0, _ => none
  | fuel + 1, k =>
    match next k with
    | none => some [k]
    | some k' => (walk next fuel k').map (k :: ·)

/-- From `k` a key is reached that comes back to itself. -/
def RunsIntoCycle (next : κ → Option κ) (k : κ) : Prop :=
  ∃ x, ReflTransGen (Follows next) k x ∧ TransGen (Follows next) x x

variable {next : κ → Option κ} {k k' x : κ} {ks zs : List κ} {fuel m : ℕ}

theorem walk_last (h : next k = none) : walk next (fuel + 1) k = some [k] := by
  simp [walk, h]

theorem walk_follows (h : Follows next k k') :
    walk next (fuel + 1) k = (walk next fuel k').map (k :: ·) := by
  have hnext : next k = some k' := h
  simp [walk, hnext]

/-- A walk begins with its first key. -/
theorem exists_cons_of_walk (h : walk next fuel k = some ks) : ∃ zs, ks = k :: zs := by
  cases fuel with
  | zero => simp [walk] at h
  | succ fuel =>
    cases hnext : next k with
    | none =>
      rw [walk_last hnext] at h
      exact ⟨[], (Option.some_inj.mp h).symm⟩
    | some k' =>
      rw [walk_follows hnext, Option.map_eq_some_iff] at h
      obtain ⟨zs, -, rfl⟩ := h
      exact ⟨zs, rfl⟩

/-- What is visited does not depend on the fuel. -/
theorem walk_unique (h : walk next fuel k = some ks) (h' : walk next m k = some zs) : ks = zs := by
  induction fuel generalizing k ks m zs with
  | zero => simp [walk] at h
  | succ fuel ih =>
    cases m with
    | zero => simp [walk] at h'
    | succ m =>
      cases hnext : next k with
      | none =>
        rw [walk_last hnext] at h h'
        exact Option.some_inj.mp (h.symm.trans h')
      | some k' =>
        rw [walk_follows hnext, Option.map_eq_some_iff] at h h'
        obtain ⟨ks, hks, rfl⟩ := h
        obtain ⟨zs, hzs, rfl⟩ := h'
        rw [ih hks hzs]

/-- From a key that is reached, the walk is at most as long. -/
theorem walk_reached (hreach : ReflTransGen (Follows next) k x) (h : walk next fuel k = some ks) :
    ∃ m zs, walk next m x = some zs ∧ zs.length ≤ ks.length := by
  induction hreach using ReflTransGen.head_induction_on generalizing fuel ks with
  | refl => exact ⟨fuel, ks, h, le_rfl⟩
  | head hstep _ ih =>
    cases fuel with
    | zero => simp [walk] at h
    | succ fuel =>
      rw [walk_follows hstep, Option.map_eq_some_iff] at h
      obtain ⟨zs, hzs, rfl⟩ := h
      obtain ⟨m, ys, hys, hle⟩ := ih hzs
      exact ⟨m, ys, hys, hle.trans (by simp)⟩

/-- A walk does not begin on a cycle, as it would be shorter than itself. -/
theorem not_cycle_of_walk (h : walk next fuel k = some ks) : ¬ TransGen (Follows next) k k := by
  intro hcycle
  obtain ⟨k', hstep, hback⟩ := TransGen.head'_iff.mp hcycle
  cases fuel with
  | zero => simp [walk] at h
  | succ fuel =>
    have hwhole := h
    rw [walk_follows hstep, Option.map_eq_some_iff] at h
    obtain ⟨zs, hzs, rfl⟩ := h
    obtain ⟨m, ys, hys, hle⟩ := walk_reached hback hzs
    rw [← walk_unique hwhole hys, List.length_cons] at hle
    omega

theorem reached_of_mem_walk (h : walk next fuel k = some ks) (hx : x ∈ ks) :
    ReflTransGen (Follows next) k x := by
  induction fuel generalizing k ks with
  | zero => simp [walk] at h
  | succ fuel ih =>
    cases hnext : next k with
    | none =>
      rw [walk_last hnext] at h
      obtain rfl := Option.some_inj.mp h
      rw [List.mem_singleton.mp hx]
    | some k' =>
      rw [walk_follows hnext, Option.map_eq_some_iff] at h
      obtain ⟨zs, hzs, rfl⟩ := h
      obtain rfl | htail := List.mem_cons.mp hx
      · exact .refl
      · exact .head hnext (ih hzs htail)

/-- A walk visits no key twice. -/
theorem nodup_walk (h : walk next fuel k = some ks) : ks.Nodup := by
  induction fuel generalizing k ks with
  | zero => simp [walk] at h
  | succ fuel ih =>
    have hcycle := not_cycle_of_walk h
    cases hnext : next k with
    | none =>
      rw [walk_last hnext] at h
      obtain rfl := Option.some_inj.mp h
      exact List.nodup_singleton k
    | some k' =>
      rw [walk_follows hnext, Option.map_eq_some_iff] at h
      obtain ⟨zs, hzs, rfl⟩ := h
      have hnew : k ∉ zs := fun hmem =>
        hcycle (TransGen.head' hnext (reached_of_mem_walk hzs hmem))
      exact List.nodup_cons.mpr ⟨hnew, ih hzs⟩

/-- A chain that ends runs into no cycle. -/
theorem not_runsIntoCycle_of_walk (h : walk next fuel k = some ks) : ¬ RunsIntoCycle next k := by
  rintro ⟨x, hreach, hcycle⟩
  obtain ⟨m, zs, hzs, -⟩ := walk_reached hreach h
  exact not_cycle_of_walk hzs hcycle

/-- A chain of finitely many keys that runs into no cycle ends: the keys that are still to come
are a relation without infinite descent. -/
theorem exists_walk (hfinite : {x | ReflTransGen (Follows next) k x}.Finite)
    (h : ¬ RunsIntoCycle next k) : ∃ fuel ks, walk next fuel k = some ks := by
  have : Finite {x // ReflTransGen (Follows next) k x} := hfinite.to_subtype
  let later (x y : {x // ReflTransGen (Follows next) k x}) : Prop :=
    TransGen (Follows next) y.1 x.1
  have : IsTrans _ later := ⟨fun _ _ _ hxy hyz => hyz.trans hxy⟩
  have : Std.Irrefl later := ⟨fun x hcycle => h ⟨x.1, x.2, hcycle⟩⟩
  have hwf : WellFounded later := Finite.wellFounded_of_trans_of_irrefl later
  have hends : ∀ x : {x // ReflTransGen (Follows next) k x},
      ∃ fuel ks, walk next fuel x.1 = some ks := by
    intro x
    induction x using hwf.induction with
    | h x ih =>
      cases hnext : next x.1 with
      | none => exact ⟨1, [x.1], walk_last hnext⟩
      | some k' =>
        obtain ⟨fuel, ks, hks⟩ := ih ⟨k', x.2.tail hnext⟩ (.single hnext)
        exact ⟨fuel + 1, x.1 :: ks, by rw [walk_follows hnext, hks]; rfl⟩
  exact hends ⟨k, .refl⟩

/-- A chain of finitely many keys ends exactly when it runs into no cycle. -/
theorem exists_walk_iff (hfinite : {x | ReflTransGen (Follows next) k x}.Finite) :
    (∃ fuel ks, walk next fuel k = some ks) ↔ ¬ RunsIntoCycle next k :=
  ⟨fun ⟨_, _, h⟩ => not_runsIntoCycle_of_walk h, exists_walk hfinite⟩

end KeyChain
