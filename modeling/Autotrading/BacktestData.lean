import Autotrading.DatedLoop
import Autotrading.OrderTable
import Autotrading.PythonDict

/-!
# The data of a backtest

The frames that `BacktestExecutor.run` is given, and the ways in which the executor and the
strategies read them: by a date, or up to a date.
-/
namespace Autotrading

/-- A row of an OHLCV frame. -/
structure OhlcvRow (ν : Type) where
  date : Instant
  openPrice : ν
  high : ν
  low : ν
  close : ν
  volume : ν
  change : ν
  deriving DecidableEq

/-- An OHLCV frame with its dates as the index: one row a date, in the order of the dates, as the
provider reads them. -/
structure PriceFrame (ν : Type) where
  rows : List (OhlcvRow ν)
  ascending : rows.Pairwise fun a b => a.date < b.date

namespace PriceFrame

variable {ν : Type} {df : PriceFrame ν} {date t : Instant}

def index (df : PriceFrame ν) : List Instant := df.rows.map (·.date)

/-- `df.loc[:date]` and `df[df.index <= date]`. -/
def upTo (df : PriceFrame ν) (date : Instant) : PriceFrame ν where
  rows := df.rows.filter (·.date ≤ date)
  ascending := df.ascending.filter _

/-- `df.loc[date]`. -/
def row? (df : PriceFrame ν) (date : Instant) : Option (OhlcvRow ν) :=
  df.rows.find? (·.date = date)

theorem ext_rows {df₁ df₂ : PriceFrame ν} (h : df₁.rows = df₂.rows) : df₁ = df₂ := by
  cases df₁
  cases df₂
  cases h
  rfl

theorem pairwise_index (df : PriceFrame ν) : df.index.Pairwise (· < ·) :=
  List.pairwise_map.mpr df.ascending

theorem mem_index_upTo {i : Instant} : i ∈ (df.upTo t).index ↔ i ∈ df.index ∧ i ≤ t := by
  simp only [index, upTo, List.mem_map, List.mem_filter, decide_eq_true_iff]
  constructor
  · rintro ⟨row, ⟨hrow, hle⟩, rfl⟩
    exact ⟨⟨row, hrow, rfl⟩, hle⟩
  · rintro ⟨⟨row, hrow, rfl⟩, hle⟩
    exact ⟨row, ⟨hrow, hle⟩, rfl⟩

theorem upTo_upTo (h : date ≤ t) : (df.upTo t).upTo date = df.upTo date := by
  refine ext_rows ?_
  show (df.rows.filter _).filter _ = df.rows.filter _
  rw [List.filter_filter]
  refine List.filter_congr fun row _ => ?_
  rw [← Bool.decide_and, decide_eq_decide]
  exact and_iff_left_of_imp fun hle => hle.trans h

theorem row?_upTo (h : date ≤ t) : (df.upTo t).row? date = df.row? date := by
  show (df.rows.filter _).find? _ = df.rows.find? _
  rw [List.find?_filter]
  congr 1
  funext row
  rw [decide_eq_decide, decide_eq_true_iff, decide_eq_true_iff]
  exact and_iff_right_of_imp fun heq => heq.le.trans h

theorem row?_isSome : (df.row? date).isSome = true ↔ date ∈ df.index := by
  rw [row?, List.find?_isSome, index, List.mem_map]
  simp

/-- The row of a date is the last one up to it. -/
theorem getLast?_upTo {row : OhlcvRow ν} (h : df.row? date = some row) :
    (df.upTo date).rows.getLast? = some row := by
  have hdate : row.date = date := by simpa using List.find?_some h
  have hsorted := df.ascending
  obtain ⟨before, after, heq⟩ := List.append_of_mem (List.mem_of_find?_eq_some h)
  rw [heq, List.pairwise_append, List.pairwise_cons] at hsorted
  have hafter : after.filter (·.date ≤ date) = [] := by
    rw [List.filter_eq_nil_iff]
    intro late hlate
    have hlt := hsorted.2.1.1 late hlate
    rw [hdate] at hlt
    simpa using hlt
  show (df.rows.filter (·.date ≤ date)).getLast? = some row
  rw [heq, List.filter_append, List.filter_cons_of_pos (by simp [hdate]), hafter,
    List.getLast?_concat]

/-- Frames that have the same rows are equal. -/
theorem ext_mem {df₁ df₂ : PriceFrame ν} (h : ∀ row, row ∈ df₁.rows ↔ row ∈ df₂.rows) : df₁ = df₂ := by
  have hdistinct : ∀ df : PriceFrame ν, df.rows.Nodup := by
    intro df
    refine df.ascending.imp ?_
    rintro a b hlt rfl
    exact lt_irrefl _ hlt
  have hperm : df₁.rows.Perm df₂.rows :=
    (List.perm_ext_iff_of_nodup (hdistinct _) (hdistinct _)).mpr h
  refine ext_rows (hperm.eq_of_pairwise ?_ df₁.ascending df₂.ascending)
  intro a b _ _ hab hba
  exact absurd hab (lt_asymm hba)

/-- Frames that have the same rows up to `t`. -/
theorem upTo_eq_of_mem_iff {df₁ df₂ : PriceFrame ν}
    (h : ∀ row, row.date ≤ t → (row ∈ df₁.rows ↔ row ∈ df₂.rows)) : df₁.upTo t = df₂.upTo t := by
  refine ext_mem fun row => ?_
  simp only [upTo, List.mem_filter, decide_eq_true_iff]
  exact and_congr_left fun hle => h row hle

end PriceFrame

/-- `dict[str, pd.DataFrame]` of OHLCV frames. -/
abbrev PriceData (ν : Type) : Type := Dict String (PriceFrame ν)

namespace PriceData

variable {ν : Type} {data : PriceData ν} {code : String} {date t : Instant}

/-- What the frames hold up to `t`. -/
def upTo (t : Instant) (data : PriceData ν) : PriceData ν := data.mapValues (·.upTo t)

/-- `data[code].loc[date, "Close"]`, where the code and the date are there. -/
def close? (data : PriceData ν) (code : String) (date : Instant) : Option ν :=
  (data.get? code).bind fun df => (df.row? date).map (·.close)

/-- `{c: df.loc[:date] for c, df in data.items() if date in df.index}`. -/
def sliced (data : PriceData ν) (date : Instant) : PriceData ν :=
  (data.filter fun _ df => date ∈ df.index).mapValues (·.upTo date)

/-- The rows of a code up to a date, where the code is there. -/
def history? (data : PriceData ν) (code : String) (date : Instant) : Option (List (OhlcvRow ν)) :=
  (data.get? code).map fun df => (df.upTo date).rows

/-- The latest close of a code up to a date. -/
def lastClose? (data : PriceData ν) (code : String) (date : Instant) : Option ν :=
  ((data.history? code date).bind List.getLast?).map (·.close)

/-- On a date with a row this is the close of the date. -/
theorem lastClose?_of_close? {price : ν} (h : data.close? code date = some price) :
    data.lastClose? code date = some price := by
  obtain ⟨df, hdf, hprice⟩ := Option.bind_eq_some_iff.mp h
  obtain ⟨row, hrow, rfl⟩ := Option.map_eq_some_iff.mp hprice
  have hlast := PriceFrame.getLast?_upTo hrow
  unfold lastClose? history?
  rw [hdf, Option.map_some, Option.bind_some, hlast, Option.map_some]

/-- A code that had a row has a latest close. -/
theorem lastClose?_isSome_of_le (h : (data.close? code date).isSome = true) (hle : date ≤ t) :
    (data.lastClose? code t).isSome = true := by
  obtain ⟨price, hprice⟩ := Option.isSome_iff_exists.mp h
  obtain ⟨df, hdf, hrow⟩ := Option.bind_eq_some_iff.mp hprice
  obtain ⟨row, hrow, -⟩ := Option.map_eq_some_iff.mp hrow
  have hdate : row.date = date := by simpa using List.find?_some hrow
  have hmem : row ∈ (df.upTo t).rows :=
    List.mem_filter.mpr ⟨List.mem_of_find?_eq_some hrow, by simpa [hdate] using hle⟩
  unfold lastClose? history?
  rw [hdf, Option.map_some, Option.bind_some, Option.isSome_map, List.getLast?_isSome]
  exact List.ne_nil_of_mem hmem

theorem get?_upTo : (upTo t data).get? code = (data.get? code).map (·.upTo t) :=
  Dict.get?_mapValues _ _ _

theorem close?_upTo (h : date ≤ t) : (upTo t data).close? code date = data.close? code date := by
  unfold close?
  rw [get?_upTo, Option.bind_map]
  congr 1
  funext df
  rw [Function.comp_apply, PriceFrame.row?_upTo h]

theorem history?_upTo (h : date ≤ t) :
    (upTo t data).history? code date = data.history? code date := by
  unfold history?
  rw [get?_upTo, Option.map_map]
  congr 1
  funext df
  rw [Function.comp_apply, PriceFrame.upTo_upTo h]

theorem sliced_upTo (h : date ≤ t) : (upTo t data).sliced date = data.sliced date := by
  have hindex : ∀ (k : String) (df : PriceFrame ν),
      decide (date ∈ (df.upTo t).index) = decide (date ∈ df.index) := by
    intro _ df
    rw [decide_eq_decide, PriceFrame.mem_index_upTo]
    exact and_iff_left h
  unfold sliced upTo
  rw [Dict.filter_mapValues hindex, Dict.mapValues_mapValues]
  congr 1
  funext df
  exact PriceFrame.upTo_upTo h

end PriceData

/-- A row of `df_universe`. Without a column of names there is no name. -/
structure UniverseRow where
  code : String
  name : Option String
  deriving DecidableEq

/-- The data of one run; `dfUniverse` is the frame under `"__universe__"`. -/
structure BacktestData (ν : Type) where
  prices : PriceData ν
  dfUniverse : List UniverseRow

namespace BacktestData

variable {ν : Type} {t : Instant}

/-- What is known at `t`. -/
def upTo (t : Instant) (data : BacktestData ν) : BacktestData ν :=
  ⟨data.prices.upTo t, data.dfUniverse⟩

/-- Two data sets with the same keys and the same rows up to `t`. -/
structure AgreeUpTo (t : Instant) (data₁ data₂ : BacktestData ν) : Prop where
  keys : data₁.prices.keys = data₂.prices.keys
  rows : ∀ code df₁ df₂, data₁.prices.get? code = some df₁ → data₂.prices.get? code = some df₂ →
    ∀ row, row.date ≤ t → (row ∈ df₁.rows ↔ row ∈ df₂.rows)
  dfUniverse : data₁.dfUniverse = data₂.dfUniverse

theorem AgreeUpTo.upTo_eq {data₁ data₂ : BacktestData ν} (h : AgreeUpTo t data₁ data₂) :
    data₁.upTo t = data₂.upTo t := by
  have hprices : data₁.prices.upTo t = data₂.prices.upTo t := by
    refine Dict.ext_get? (by simpa [PriceData.upTo] using h.keys) fun code => ?_
    rw [PriceData.get?_upTo, PriceData.get?_upTo]
    have hboth : (∃ df, data₁.prices.get? code = some df) ↔ ∃ df, data₂.prices.get? code = some df := by
      rw [← Dict.mem_keys_iff, ← Dict.mem_keys_iff, h.keys]
    cases h₁ : data₁.prices.get? code with
    | none =>
      cases h₂ : data₂.prices.get? code with
      | none => rfl
      | some df₂ =>
        obtain ⟨df₁, hsome⟩ := hboth.mpr ⟨df₂, h₂⟩
        rw [h₁] at hsome
        cases hsome
    | some df₁ =>
      obtain ⟨df₂, h₂⟩ := hboth.mp ⟨df₁, h₁⟩
      rw [h₂, Option.map_some, Option.map_some,
        PriceFrame.upTo_eq_of_mem_iff (h.rows code df₁ df₂ h₁ h₂)]
  rw [upTo, upTo, hprices, h.dfUniverse]

end BacktestData

end Autotrading
