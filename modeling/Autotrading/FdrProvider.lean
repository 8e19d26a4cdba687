import Autotrading.BacktestData
import Autotrading.KisMessages
import Autotrading.Memo
import Autotrading.PythonDict
import Mathlib.Algebra.Order.Ring.Rat

/-!
# The market data provider

`get_ohlcv` of `app/market/provider/fdr_provider.py`, with the disk cache of joblib: the first
answer to the arguments of a call is kept for ever, an exception is not kept.
-/
namespace Autotrading

/-- The arguments of `_fetch_ohlcv`, which are the key of the cache. -/
structure OhlcvArgs where
  code : String
  start : String
  stop : String
  deriving DecidableEq

/-- What FinanceDataReader answers from: the rows that the exchange shows at an instant, the dates
that texts stand for, and the requests that fail. -/
structure OhlcvSource (ν : Type) where
  rows : Instant → String → PriceFrame ν
  dateOf : String → Instant
  failure : Instant → OhlcvArgs → Option PyExc

namespace OhlcvSource

variable {ν : Type} (src : OhlcvSource ν)

/-- The dates that are asked for. -/
def Asked (args : OhlcvArgs) (date : Instant) : Prop :=
  src.dateOf args.start ≤ date ∧ date ≤ src.dateOf args.stop

instance (args : OhlcvArgs) (date : Instant) : Decidable (src.Asked args date) :=
  inferInstanceAs (Decidable (_ ∧ _))

/-- `_fetch_ohlcv`. -/
def fetchOhlcv (now : Instant) (args : OhlcvArgs) : Except PyExc (PriceFrame ν) :=
  match src.failure now args with
  | some e => .error e
  | none => .ok {
      rows := (src.rows now args.code).rows.filter fun row => src.Asked args row.date
      ascending := (src.rows now args.code).ascending.filter _ }

/-- The cache directory. -/
abbrev Cache (ν : Type) : Type := List (OhlcvArgs × PriceFrame ν)

/-- `get_ohlcv`. -/
def getOhlcv (now : Instant) (args : OhlcvArgs) (useCache : Bool) (cache : Cache ν) :
    Except PyExc (PriceFrame ν) × Cache ν :=
  if useCache then Memo.call cache ⟨args, src.fetchOhlcv now args⟩
  else (src.fetchOhlcv now args, cache)

/-- A call of `get_ohlcv`. -/
structure Call where
  now : Instant
  args : OhlcvArgs
  useCache : Bool

/-- The cache behind calls. -/
def cacheAfter (calls : List Call) : Cache ν :=
  calls.foldl (fun cache call => (src.getOhlcv call.now call.args call.useCache cache).2) []

/-- The midnight before an instant. -/
def dayOf (now : Instant) : Instant := now / 86400000000 * 86400000000

/-- Rows of past days do not change. -/
def PastFixed : Prop :=
  ∀ code t t', t ≤ t' → ∀ row, row.date < dayOf t →
    (row ∈ (src.rows t code).rows ↔ row ∈ (src.rows t' code).rows)

/-- The first call through the cache whose fetch brought rows for the arguments. -/
def firstFetch (calls : List Call) (args : OhlcvArgs) : Option Call :=
  calls.find? fun call =>
    call.useCache && (call.args = args) && (src.fetchOhlcv call.now args).toOption.isSome

variable {src} {calls : List Call} {now : Instant} {args : OhlcvArgs}

/-- The cache is the memo of the calls through it. -/
theorem cacheAfter_eq (calls : List Call) : src.cacheAfter calls =
    Memo.after ((calls.filter (·.useCache)).map fun call =>
      ⟨call.args, src.fetchOhlcv call.now call.args⟩) := by
  unfold cacheAfter Memo.after
  generalize ([] : Cache ν) = cache
  induction calls generalizing cache with
  | nil => rfl
  | cons call calls ih =>
    rw [List.foldl_cons, ih, List.filter_cons, getOhlcv]
    split
    · rfl
    · rfl

theorem first?_eq (calls : List Call) (args : OhlcvArgs) :
    Memo.first? ((calls.filter (·.useCache)).map fun call =>
        (⟨call.args, src.fetchOhlcv call.now call.args⟩ : Memo.Attempt _ _ _)) args =
      (src.firstFetch calls args).bind fun call => (src.fetchOhlcv call.now args).toOption := by
  unfold Memo.first? firstFetch
  induction calls with
  | nil => rfl
  | cons call calls ih =>
    rw [List.filter_cons, List.find?_cons]
    by_cases hcache : call.useCache = true
    · rw [if_pos hcache, List.map_cons, List.findSome?_cons, hcache, Bool.true_and]
      by_cases hargs : call.args = args
      · rw [if_pos hargs, hargs, decide_eq_true (rfl : args = args), Bool.true_and]
        dsimp only
        cases hfetch : (src.fetchOhlcv call.now args).toOption with
        | none => exact ih
        | some rows => exact hfetch.symm
      · rw [if_neg hargs, decide_eq_false hargs, Bool.false_and]
        exact ih
    · rw [if_neg hcache, Bool.eq_false_iff.mpr hcache]
      exact ih

/-- The cache answers what the first fetch brought, and fetches where none brought anything. -/
theorem getOhlcv_cached (calls : List Call) (now : Instant) (args : OhlcvArgs) :
    (src.getOhlcv now args true (src.cacheAfter calls)).1 =
      (src.firstFetch calls args).elim (src.fetchOhlcv now args) fun first =>
        src.fetchOhlcv first.now args := by
  rw [getOhlcv, if_pos rfl, cacheAfter_eq, Memo.call_after, first?_eq]
  cases hfirst : src.firstFetch calls args with
  | none => rfl
  | some first =>
    have hfound := List.find?_some hfirst
    rw [Bool.and_eq_true] at hfound
    obtain ⟨rows, hrows⟩ := Option.isSome_iff_exists.mp hfound.2
    rw [Option.bind_some, hrows]
    exact (ok_of_toOption hrows).symm

/-- Two fetches bring the same rows if they find the same ones between the dates. -/
theorem fetchOhlcv_eq_iff {t : Instant} {df df' : PriceFrame ν}
    (h : src.fetchOhlcv t args = .ok df) (h' : src.fetchOhlcv now args = .ok df') :
    df = df' ↔ ∀ row, src.Asked args row.date →
      (row ∈ (src.rows t args.code).rows ↔ row ∈ (src.rows now args.code).rows) := by
  have hmem : ∀ {t df}, src.fetchOhlcv t args = .ok df →
      ∀ row, row ∈ df.rows ↔ row ∈ (src.rows t args.code).rows ∧ src.Asked args row.date := by
    intro t df h row
    unfold fetchOhlcv at h
    split at h
    · cases h
    · rw [← Except.ok.inj h]
      simp
  constructor
  · intro heq row hasked
    have hrow := hmem h row
    rw [heq, hmem h' row] at hrow
    simpa [hasked] using hrow.symm
  · intro hrows
    refine PriceFrame.ext_mem fun row => ?_
    rw [hmem h, hmem h']
    exact and_congr_left fun hasked => hrows row hasked

/-- With the cache `get_ohlcv` answers what the first fetch for its arguments brought. Where it
answers without the cache as well, the two agree if the rows from the day of that fetch on have not
changed, so always when the day is past the dates that are asked for. -/
theorem cached_ohlcv (src : OhlcvSource ν) (hpast : src.PastFixed) (calls : List Call) (now : Instant)
    (htimes : ∀ call ∈ calls, call.now ≤ now) (args : OhlcvArgs) :
    (src.getOhlcv now args true (src.cacheAfter calls)).1 =
        (src.firstFetch calls args).elim (src.fetchOhlcv now args) (fun first =>
          src.fetchOhlcv first.now args) ∧
      ∀ df, (src.getOhlcv now args false (src.cacheAfter calls)).1 = .ok df →
        ((src.getOhlcv now args true (src.cacheAfter calls)).1 = .ok df ↔
          ∀ first, src.firstFetch calls args = some first →
            ∀ row, dayOf first.now ≤ row.date → src.Asked args row.date →
              (row ∈ (src.rows first.now args.code).rows ↔
                row ∈ (src.rows now args.code).rows)) ∧
        ((∀ first, src.firstFetch calls args = some first →
            src.dateOf args.stop < dayOf first.now) →
          (src.getOhlcv now args true (src.cacheAfter calls)).1 = .ok df) := by
  refine ⟨getOhlcv_cached calls now args, fun df huncached => ?_⟩
  have hnow : src.fetchOhlcv now args = .ok df := huncached
  have hiff : (src.getOhlcv now args true (src.cacheAfter calls)).1 = .ok df ↔
      ∀ first, src.firstFetch calls args = some first →
        ∀ row, dayOf first.now ≤ row.date → src.Asked args row.date →
          (row ∈ (src.rows first.now args.code).rows ↔ row ∈ (src.rows now args.code).rows) := by
    rw [getOhlcv_cached]
    cases hfirst : src.firstFetch calls args with
    | none =>
      refine iff_of_true hnow ?_
      intro first hnone
      cases hnone
    | some first =>
      have hfound := List.find?_some hfirst
      rw [Bool.and_eq_true] at hfound
      obtain ⟨df', hrows⟩ := Option.isSome_iff_exists.mp hfound.2
      have hthen := ok_of_toOption hrows
      have hlater := htimes first (List.mem_of_find?_eq_some hfirst)
      show src.fetchOhlcv first.now args = .ok df ↔ _
      rw [hthen, Except.ok.injEq, fetchOhlcv_eq_iff hthen hnow]
      constructor
      · intro hsame first' heq row _ hasked
        obtain rfl := Option.some.inj heq
        exact hsame row hasked
      · intro hsame row hasked
        by_cases hday : row.date < dayOf first.now
        · exact hpast args.code first.now now hlater row hday
        · exact hsame first rfl row (not_lt.mp hday) hasked
  refine ⟨hiff, fun hdays => hiff.mpr ?_⟩
  intro first hfirst row hday hasked
  have hlate := hdays first hfirst
  exact absurd (hday.trans hasked.2) (not_le.mpr hlate)

/-! ## A close that moves until the evening -/

/-- A row of day `day`. -/
def dailyRow (day : ℤ) (close : ℚ) : OhlcvRow ℚ :=
  ⟨day * 86400000000, close, close, close, close, 1, 0⟩

/-- The close of day 1 is 90 until four in the afternoon, and 95 from then on. -/
def movingClose : OhlcvSource ℚ where
  rows now _ :=
    if now < 86400000000 then ⟨[dailyRow 0 100], by simp⟩
    else if now < 144000000000 then ⟨[dailyRow 0 100, dailyRow 1 90], by simp [dailyRow]⟩
    else ⟨[dailyRow 0 100, dailyRow 1 95], by simp [dailyRow]⟩
  dateOf text := if text = "2025-01-02" then 86400000000 else 0
  failure _ _ := none

theorem dayOf_le (day : ℤ) (h : now < (day + 1) * 86400000000) : dayOf now ≤ day * 86400000000 := by
  have hday : now / 86400000000 < day + 1 := Int.ediv_lt_of_lt_mul (by decide) h
  exact mul_le_mul_of_nonneg_right (Int.lt_add_one_iff.mp hday) (by decide)

theorem pastFixed_movingClose : movingClose.PastFixed := by
  intro code t t' hle row hday
  have hfirst : ∀ close, row.date < 86400000000 → row ≠ dailyRow 1 close := by
    rintro close hlt rfl
    exact lt_irrefl _ hlt
  by_cases hzero : t < 86400000000
  · -- nothing is past yet
    have hnegative : row.date < 0 := hday.trans_le (dayOf_le 0 hzero)
    have hnone : ∀ close, row ≠ dailyRow 0 close := by
      rintro close rfl
      exact lt_irrefl _ hnegative
    have hnot : ∀ now, row ∉ (movingClose.rows now code).rows := by
      intro now
      simp only [movingClose]
      split_ifs <;> simp [hnone, hfirst _ (hnegative.trans (by decide))]
    exact iff_of_false (hnot t) (hnot t')
  · by_cases hmorning : t < 144000000000
    · have hearly : row.date < 86400000000 :=
        hday.trans_le (dayOf_le 1 (hmorning.trans (by decide)))
      have hzero' : ¬ t' < 86400000000 := not_lt.mpr ((not_lt.mp hzero).trans hle)
      simp only [movingClose, hzero, hzero', if_false, hmorning, if_true]
      split_ifs <;> simp [hfirst _ hearly]
    · have hzero' : ¬ t' < 86400000000 := not_lt.mpr ((not_lt.mp hzero).trans hle)
      have hmorning' : ¬ t' < 144000000000 := not_lt.mpr ((not_lt.mp hmorning).trans hle)
      simp only [movingClose, hzero, hzero', hmorning, hmorning', if_false]

def bothDays : OhlcvArgs := ⟨"005930", "2025-01-01", "2025-01-02"⟩

/-- A range that is asked for on day 2 for the first time. -/
theorem cached_ohlcv_sample : ∃ df,
    (movingClose.getOhlcv 259200000000 bothDays false
      (movingClose.cacheAfter [⟨172800000000, bothDays, true⟩])).1 = .ok df ∧
    (movingClose.getOhlcv 259200000000 bothDays true
      (movingClose.cacheAfter [⟨172800000000, bothDays, true⟩])).1 = .ok df := by
  have hpast := cached_ohlcv movingClose pastFixed_movingClose [⟨172800000000, bothDays, true⟩]
    259200000000 (by decide) bothDays
  refine ⟨_, rfl, (hpast.2 _ rfl).2 ?_⟩
  intro first hfirst
  obtain rfl : _ = first := Option.some.inj hfirst
  decide +kernel

/-- Asked for in the morning and in the evening of day 1, the cache answers with the close of the
morning. -/
theorem cached_close_stale : movingClose.PastFixed ∧ ∃ cached uncached,
    (movingClose.getOhlcv 158400000000 bothDays true
      (movingClose.cacheAfter [⟨122400000000, bothDays, true⟩])).1 = .ok cached ∧
    (movingClose.getOhlcv 158400000000 bothDays false
      (movingClose.cacheAfter [⟨122400000000, bothDays, true⟩])).1 = .ok uncached ∧
    cached.rows.map (·.close) = [100, 90] ∧ uncached.rows.map (·.close) = [100, 95] := by
  have hrun : ((movingClose.getOhlcv 158400000000 bothDays true
      (movingClose.cacheAfter [⟨122400000000, bothDays, true⟩])).1.toOption.any fun cached =>
        cached.rows.map (·.close) = [100, 90]) = true := by
    decide +kernel
  have hfetch : ((movingClose.getOhlcv 158400000000 bothDays false
      (movingClose.cacheAfter [⟨122400000000, bothDays, true⟩])).1.toOption.any fun uncached =>
        uncached.rows.map (·.close) = [100, 95]) = true := by
    decide +kernel
  obtain ⟨cached, hcached, hmorning⟩ := (Option.any_eq_true _ _).mp hrun
  obtain ⟨uncached, huncached, hevening⟩ := (Option.any_eq_true _ _).mp hfetch
  exact ⟨pastFixed_movingClose, cached, uncached, ok_of_toOption hcached, ok_of_toOption huncached,
    of_decide_eq_true hmorning, of_decide_eq_true hevening⟩

end OhlcvSource

end Autotrading
