import Keirin.HistoricalPayouts

/-!
# The official race detail

`historical_official_detail.py`: the outcomes that the finish ranks of the official result allow where riders tie.
-/

namespace Keirin

namespace OfficialDetail

open HistoricalPayouts

/-! ## Tied finish ranks -/

/-- What the ranking reads of a row. -/
structure RankedRow where
  carNumber : ℕ
  finishPosition : Option ℕ

/-- `sorted(groups.items())`: the cars of each rank, in the order of the rows. -/
def rankedCars (rows : List RankedRow) : List (ℕ × List ℕ) :=
  ((rows.filterMap RankedRow.finishPosition).dedup.insertionSort (· ≤ ·)).map fun rank =>
    (rank, (rows.filter fun row => row.finishPosition = some rank).map RankedRow.carNumber)

/-- Each rank is one more than the cars before it; the rank the next cars would have. -/
def checkRanks : (expectedRank : ℕ) → List (ℕ × List ℕ) → Except PyError ℕ
  | expectedRank, [] => .ok expectedRank
  | expectedRank, (rank, cars) :: groups => do
    demand (rank = expectedRank) "nonstandard_tied_finish_ranks"
    checkRanks (expectedRank + cars.length) groups

/-- The prefixes with the cars of the groups put after them, until they are long enough. They are all of one length. -/
def extendPrefixes (width : ℕ) : (prefixes : List (List ℕ)) → List (List ℕ) → List (List ℕ)
  | prefixes, [] => prefixes
  | prefixes, cars :: groups =>
    let remaining := width - (prefixes.headD []).length
    if remaining = 0 then prefixes
    else
      let suffixes := selections (min cars.length remaining) (cars.insertionSort (· ≤ ·))
      extendPrefixes width (prefixes.flatMap fun first => suffixes.map (first ++ ·)).dedup groups

/-- `_tied_rank_outcomes` -/
def tiedRankOutcomes (rows : List RankedRow) (width : ℕ) : Except PyError (List (List ℕ)) := do
  let groups := rankedCars rows
  let expectedRank ← checkRanks 1 groups
  demand (width ≤ expectedRank - 1) "insufficient_ranked_finishers"
  return extendPrefixes width [[]] (groups.map Prod.snd)

end OfficialDetail

end Keirin
