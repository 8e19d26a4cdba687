import Autotrading.MomentumStrategy
import Autotrading.Ranking

/-!
# What the momentum signal selects

The ranks of `generate_signal` are mean ranks, and a rank up to `top_n` is not a place
among the first `top_n`: equal returns that share the places `top_n` and `top_n + 1` are
bought together or left out together.
-/
namespace Autotrading

open Python (Number)

/-- Every close is there and is not zero. -/
def Ohlcv.Complete (df : Ohlcv) : Prop := ∀ c ∈ df.close, ∃ q, c = some q ∧ q ≠ 0

namespace MomentumStrategy

/-- The codes with at least `lookback_days` rows. -/
def long (s : MomentumStrategy) (data : Dict String Ohlcv) : List (String × Ohlcv) :=
  data.entries.filter fun e => s.lookbackDays ≤ e.2.close.length

/-- The return of a code whose closes are complete. -/
def returnOf (s : MomentumStrategy) (df : Ohlcv) : ℚ :=
  match s.lookbackReturn df with
  | .ok (.finite q) => q
  | _ => 0

/-- The returns of these codes. -/
def returns (s : MomentumStrategy) (data : Dict String Ohlcv) : List ℚ :=
  (s.long data).map fun e => s.returnOf e.2

/-- The signals select the first `top_n` of the codes above the threshold: as many are
bought, and none that is left out has a higher return than one that is bought. -/
structure SelectsTop (s : MomentumStrategy) (data : Dict String Ohlcv)
    (rows : List SignalRow) : Prop where
  codes : (rows.map fun r => (r.code, r.momentumReturn)).Perm
    ((s.long data).map fun e => (e.1, .finite (s.returnOf e.2)))
  count : (rows.countP fun r => r.signal = .buy : ℤ) =
    min s.topN ((s.long data).countP fun e => s.absThreshold < s.returnOf e.2)
  highest : ∀ a ∈ rows, ∀ b ∈ rows, a.signal ≠ .buy →
    (Number.finite s.absThreshold).lt a.momentumReturn = true → b.signal = .buy →
      b.momentumReturn.lt a.momentumReturn = false

variable {s : MomentumStrategy} {df : Ohlcv} {data : Dict String Ohlcv} {rows : List SignalRow}

theorem lookbackReturn_finite (hdf : df.Complete) {x : Number} (hx : s.lookbackReturn df = .ok x) :
    x = .finite (s.returnOf df) := by
  have hsub : ∀ c ∈ (if s.lookbackDays = 0 then df.close
      else df.close.drop (df.close.length - s.lookbackDays)), ∃ q, c = some q ∧ q ≠ 0 := by
    intro c hc
    split at hc
    · exact hdf c hc
    · exact hdf c (List.mem_of_mem_drop hc)
  have hfinite : ∃ q, x = .finite q := by
    simp only [lookbackReturn] at hx
    split at hx
    · next first last hfirst hlast =>
      obtain ⟨q, hq, hne⟩ := hsub _ (List.mem_of_head? hfirst)
      obtain rfl := Option.some.inj hq
      exact ⟨_, by rw [← Except.ok.inj hx, Number.div, if_pos hne]⟩
    · next c c' hnot hfirst hlast =>
      obtain ⟨q, rfl, -⟩ := hsub _ (List.mem_of_head? hfirst)
      obtain ⟨q', rfl, -⟩ := hsub _ (List.mem_of_getLast? hlast)
      exact (hnot q q' rfl rfl).elim
    · cases hx
  obtain ⟨q, rfl⟩ := hfinite
  simp [returnOf, hx]

/-- The row of a code, ranked among all. -/
def signalRow (s : MomentumStrategy) (data : Dict String Ohlcv) (e : String × Ohlcv) : SignalRow :=
  let r := rank ((s.returns data).map Number.finite) (.finite (s.returnOf e.2))
  { code := e.1, momentumReturn := .finite (s.returnOf e.2), rank := r
    signal := if s.buys (.finite (s.returnOf e.2)) r then .buy else .sell }

theorem generateSignal_perm (hdata : ∀ e ∈ s.long data, e.2.Complete)
    (h : s.generateSignal data = .ok rows) : rows.Perm ((s.long data).map (s.signalRow data)) := by
  rw [generateSignal] at h
  obtain ⟨rets, hret, h⟩ := of_bind_ok h
  have hmap : rets.map id = (s.long data).map fun e => (e.1, Number.finite (s.returnOf e.2)) := by
    refine map_of_mapM_ok hret fun e he y hy => ?_
    obtain ⟨x, hx, hy⟩ := of_bind_ok hy
    obtain rfl := Except.ok.inj hy
    rw [id, lookbackReturn_finite (hdata e he) hx]
  rw [List.map_id] at hmap
  obtain rfl := Except.ok.inj h
  refine (List.mergeSort_perm _ _).trans ?_
  rw [hmap, List.map_map, List.map_map]
  exact .of_eq (List.map_congr_left fun e _ => by
    simp [signalRow, returns, List.map_map, Function.comp_def])

theorem buys_finite_iff (hn : 1 ≤ s.topN) {xs : List ℚ} {q : ℚ} :
    s.buys (.finite q) (rank (xs.map Number.finite) (.finite q)) = true ↔
      s.absThreshold < q ∧ Ranking.Within xs s.topN.toNat q := by
  have habove : (xs.map Number.finite).countP (fun y => (Number.finite q).lt y) =
      Ranking.above xs q := by
    rw [List.countP_map]
    rfl
  have hcount : (xs.map Number.finite).count (Number.finite q) = xs.count q :=
    List.count_map_of_injective xs Number.finite (fun a b h => Number.finite.inj h) q
  have hreach := Ranking.reach_eq xs q
  have htop : ((s.topN.toNat : ℤ) : ℚ) = s.topN := by
    rw [Int.toNat_of_nonneg (by omega)]
  rw [buys, rank, if_neg (by simp), Option.any_some, Bool.and_eq_true, and_comm, habove, hcount]
  refine and_congr (by simp [Number.lt]) ?_
  rw [decide_eq_true_iff, ← htop, Ranking.Within, hreach]
  have hcast : Ranking.above xs q + (Ranking.above xs q + xs.count q) + 1 ≤ 2 * s.topN.toNat ↔
      ((Ranking.above xs q + (Ranking.above xs q + xs.count q) + 1 : ℕ) : ℚ) ≤
        ((2 * s.topN.toNat : ℕ) : ℚ) := Nat.cast_le.symm
  rw [hcast]
  push_cast
  constructor
  · intro h
    linarith
  · intro h
    linarith

theorem signalRow_buy_iff (hn : 1 ≤ s.topN) {e : String × Ohlcv} :
    (s.signalRow data e).signal = .buy ↔
      s.absThreshold < s.returnOf e.2 ∧
        Ranking.Within (s.returns data) s.topN.toNat (s.returnOf e.2) := by
  rw [← buys_finite_iff hn, signalRow]
  split
  · next hbuy => simp [hbuy]
  · next hbuy => simp [hbuy]

theorem count_buys (hdata : ∀ e ∈ s.long data, e.2.Complete) (hn : 1 ≤ s.topN)
    (h : s.generateSignal data = .ok rows) :
    (rows.countP fun r => r.signal = .buy) =
      Ranking.chosen (s.returns data) s.topN.toNat s.absThreshold := by
  rw [(generateSignal_perm hdata h).countP_eq, List.countP_map, Ranking.chosen]
  conv_rhs => rw [returns, List.countP_map]
  refine List.countP_congr fun e _ => ?_
  simp only [Function.comp_apply, decide_eq_true_iff]
  exact signalRow_buy_iff hn

/-- No code above the threshold that is left out returned more than one that is bought. -/
theorem highest_bought (hdata : ∀ e ∈ s.long data, e.2.Complete) (hn : 1 ≤ s.topN)
    (h : s.generateSignal data = .ok rows) {a b : SignalRow} (ha : a ∈ rows) (hb : b ∈ rows)
    (hout : a.signal ≠ .buy) (hthr : (Number.finite s.absThreshold).lt a.momentumReturn = true)
    (hbuy : b.signal = .buy) : b.momentumReturn.lt a.momentumReturn = false := by
  have hperm := generateSignal_perm hdata h
  obtain ⟨e, he, rfl⟩ := List.mem_map.mp (hperm.mem_iff.mp ha)
  obtain ⟨e', he', rfl⟩ := List.mem_map.mp (hperm.mem_iff.mp hb)
  rw [Ne, signalRow_buy_iff hn] at hout
  rw [signalRow_buy_iff hn] at hbuy
  have hbar : s.absThreshold < s.returnOf e.2 := by
    simpa [signalRow, Number.lt] using hthr
  have hle : s.returnOf e.2 ≤ s.returnOf e'.2 := by
    by_contra hlt
    exact hout ⟨hbar, hbuy.2.mono (le_of_lt (not_le.mp hlt))⟩
  simpa [signalRow, Number.lt] using hle

/-- A frame that went into the signal has a close. -/
theorem close_ne_nil (h : s.generateSignal data = .ok rows) {e : String × Ohlcv}
    (he : e ∈ s.long data) : e.2.close ≠ [] := by
  rw [generateSignal] at h
  obtain ⟨rets, hret, -⟩ := of_bind_ok h
  obtain ⟨ret, -, hx⟩ := exists_of_mapM_ok hret he
  intro hnil
  simp [lookbackReturn, hnil, bind, Except.bind] at hx

/-- What is returned selects the first `top_n` exactly when no equal returns above the
threshold share the places `top_n` and `top_n + 1`. -/
theorem selectsTop_iff (hdata : ∀ e ∈ s.long data, e.2.Complete) (hn : 1 ≤ s.topN)
    (h : s.generateSignal data = .ok rows) :
    s.SelectsTop data rows ↔ ∀ x ∈ s.returns data, s.absThreshold < x →
      ¬ Ranking.Straddles (s.returns data) s.topN.toNat x := by
  have hstrong : ((s.long data).countP fun e => s.absThreshold < s.returnOf e.2) =
      Ranking.strong (s.returns data) s.absThreshold := by
    rw [Ranking.strong, returns, List.countP_map]
    rfl
  have hbuys := count_buys hdata hn h
  rw [← Ranking.chosen_eq_min_iff]
  constructor
  · intro htop
    have hcount := htop.count
    rw [hbuys, hstrong] at hcount
    omega
  · intro hmin
    constructor
    · have hperm := (generateSignal_perm hdata h).map fun r => (r.code, r.momentumReturn)
      rwa [List.map_map] at hperm
    · rw [hbuys, hstrong, hmin]
      omega
    · intro a ha b hb hout hthr hbuy
      exact highest_bought hdata hn h ha hb hout hthr hbuy

/-- Two codes share the highest return, and one place is to be taken. -/
def tied : Dict String Ohlcv where
  entries := [("005930", ⟨[some 100, some 110], .ok ()⟩), ("000660", ⟨[some 200, some 220], .ok ()⟩)]
  nodup := by decide

def single : MomentumStrategy := { lookbackDays := 2, topN := 1, absThreshold := 0 }

theorem returns_tied : single.returns tied = [1 / 10, 1 / 10] := by
  decide +kernel

theorem long_tied : single.long tied = tied.entries := by
  simp [long, single, tied]

theorem complete_tied : ∀ e ∈ single.long tied, e.2.Complete := by
  rw [long_tied]
  simp [tied, Ohlcv.Complete]

end MomentumStrategy

end Autotrading
