import Keirin.RaceDataContract

/-!
# The prediction engine

`engine_phase32.ts`: it scores the riders of a race for each of the three positions, scores every ordered triple of riders, and
picks up to three triples for each of five categories. Numbers are those of JavaScript; `exp` stands for `Math.exp`, which the
language leaves to the implementation. Reading a value may throw.
-/

namespace Keirin

namespace PredictEngine

open JsVal JsFloat
open RaceDataContract (JsResult)

/-- A position of the first three. -/
inductive Position
  | first
  | second
  | third
deriving DecidableEq

/-- A value for each position. -/
abbrev ByPosition := Position → JsFloat

def byPosition (a b c : ℚ) : ByPosition
  | .first => ofRat a
  | .second => ofRat b
  | .third => ofRat c

/-- The weights of the parts of a score. -/
structure Weights where
  raceScore : ByPosition
  S : ByPosition
  H : ByPosition
  B : ByPosition
  recentScore : ByPosition
  currentMeetScore : ByPosition
  conditionScore : ByPosition
  commentScore : ByPosition
  bankFitScore : ByPosition
  linePositionBonus : ByPosition
  lineLengthBonus : ByPosition

/-- `DEFAULT_POSITION_WEIGHTS` -/
def defaultPositionWeights : Weights where
  raceScore := byPosition 0.70 0.55 0.40
  S := byPosition 0.10 0.10 0.08
  H := byPosition 1.30 0.15 0.05
  B := byPosition 0.45 0.20 0.08
  recentScore := byPosition 1 0.85 0.70
  currentMeetScore := byPosition 0.90 0.80 0.70
  conditionScore := byPosition 0.90 0.80 0.70
  commentScore := byPosition 0.55 0.50 0.45
  bankFitScore := byPosition 0.45 0.40 0.35
  linePositionBonus := byPosition 1 1 1
  lineLengthBonus := byPosition 0.40 0.50 0.60

/-- `STYLE_BASE[style]` -/
def styleBase (style : JsVal) : Option ByPosition :=
  if isStr style "逃" then some (byPosition 8 4 2)
  else if isStr style "両" then some (byPosition 7 6 4)
  else if isStr style "追" then some (byPosition 4 6 7)
  else none

/-! ## Reading numbers -/

/-- `n(v, d)`: the number of a value, where it has a finite one. -/
def n (v : JsVal) (default : JsFloat) : JsResult JsFloat :=
  if isNullish v || isStr v "" then .ok default else (number v).map fun x => if x.isFinite then x else default

/-- `n(v)` -/
def n0 (v : JsVal) : JsResult JsFloat := n v zero

/-- `rnd(v, d)` -/
def rnd (v : JsFloat) (d : ℕ) : JsFloat :=
  div (mathRound (mul (add v (ofRat (1 / 2 ^ 52))) (ofRat (10 ^ d)))) (ofRat (10 ^ d))

/-- `avg(v)` -/
def avg (v : JsVal) : JsResult JsFloat :=
  (n0 v).map fun x => if JsFloat.le x zero then zero else JsFloat.max zero (sub (ofRat 6) x)

/-- `(v || []).map(…)`, which only an array has. -/
def listOf (v : JsVal) : JsResult (List JsDoc) :=
  if truthy v then match v with
    | some (.arr xs) => .ok xs
    | _ => .error "map is not a function"
  else .ok []

/-- `x && typeof x === 'object' ? x.finish : x` -/
def finishOf (x : JsDoc) : JsVal := if isObject (some x) then field x "finish" else some x

/-- The finishes of a list that are positive. -/
def finishes (v : JsVal) : JsResult (List JsFloat) := do
  let xs ← listOf v
  let xs ← xs.mapM fun x => n0 (finishOf x)
  return xs.filter fun x => lt zero x

/-- `Math.max(0, 5 - mean)` for finishes there are. -/
def finishScore (xs : List JsFloat) : JsFloat := JsFloat.max zero (sub (ofRat 5) (div (sum xs) (ofRat xs.length)))

/-- `recent(p)` -/
def recent (p : JsDoc) : JsResult JsFloat := do
  let r := field p "recent_form"
  let win ← n0 (orProp r "win_rate")
  let top2 ← n0 (orProp r "top2_rate")
  let top3 ← n0 (orProp r "top3_rate")
  let finish ← avg (orProp r "avg_finish")
  let s := add (add (add (mul win (ofRat 0.03)) (mul top2 (ofRat 0.02))) (mul top3 (ofRat 0.01))) finish
  let xs ← finishes (orProp r "last_3_races")
  return if xs = [] then s else add s (finishScore xs)

/-- `meet(p)` -/
def meet (p : JsDoc) : JsResult JsFloat := do
  let xs ← finishes (orProp (field p "current_meet") "results")
  return if xs = [] then zero else finishScore xs

/-- `(p.comments || {}).parsed_factors` -/
def factors (p : JsDoc) : JsVal := orProp (field p "comments") "parsed_factors"

/-- `comment(p)` -/
def comment (p : JsDoc) : JsResult JsFloat := do
  let condition ← n0 (orProp (factors p) "condition")
  let training ← n0 (orProp (factors p) "training")
  let equipment ← n0 (orProp (factors p) "equipment")
  let confidence ← n0 (orProp (factors p) "confidence")
  let motivation ← n0 (orProp (factors p) "motivation")
  let fatigue ← n0 (orProp (factors p) "fatigue")
  return sub (add (add (add (add condition training) equipment) confidence) motivation) fatigue

/-- `x === k` for a number of the source. -/
def isNat (x : JsFloat) (k : ℕ) : Bool := JsFloat.eq x (ofRat k)

/-- `lp(p, pos)` -/
def lp (p : JsDoc) (pos : Position) : JsResult JsFloat := do
  let x := trunc (← n0 (field p "line_position"))
  return match pos with
  | .first => if isNat x 1 then ofRat 2.5 else if isNat x 2 then ofRat 1 else zero
  | .second => if isNat x 2 then ofRat 3 else if isNat x 1 then ofRat 1.5 else if isNat x 3 then ofRat 1 else zero
  | .third => if isNat x 3 then ofRat 3 else if isNat x 2 then ofRat 2 else if isNat x 1 then ofRat 0.8 else zero

/-- `ll(p, pos)` -/
def ll (p : JsDoc) (pos : Position) : JsResult JsFloat := do
  let x := trunc (← n0 (field p "line_length"))
  let bonus := fun limit rate : ℚ => JsFloat.min (ofRat limit) (mul (ofRat rate) (sub x (ofRat 1)))
  return if JsFloat.le x (ofRat 1) then zero
  else match pos with
    | .first => bonus 2 0.5
    | .second => bonus 2.5 0.7
    | .third => bonus 3 0.9

/-! ## Rankings -/

/-- The score of a rider for a position. -/
structure PlayerScore where
  carNumber : JsVal
  name : JsVal
  position : Position
  score : JsFloat
  contributions : List (String × JsFloat)
  rank : ℕ

/-- `scorePlayer(p, pos, w)` -/
def scorePlayer (w : Weights) (pos : Position) (p : JsDoc) : JsResult PlayerScore := do
  let some base := styleBase (field p "style") | .error "unsupported style"
  let raceScore ← n (field p "race_score") (ofRat 80)
  let s ← n0 (field p "S")
  let h ← n0 (field p "H")
  let b ← n0 (field p "B")
  let recentForm ← recent p
  let currentMeet ← meet p
  let condition ← n0 (orProp (field p "condition") "score")
  let comments ← comment p
  let bankFit ← n0 (orProp (field p "bank_fit") "score")
  let linePosition ← lp p pos
  let lineLength ← ll p pos
  let c : List (String × JsFloat) :=
    [("style_base", base pos), ("race_score", JsFloat.max zero (mul (sub raceScore (ofRat 80)) (w.raceScore pos))),
      ("S", mul s (w.S pos)), ("H", mul h (w.H pos)), ("B", mul b (w.B pos)),
      ("recent_form", mul recentForm (w.recentScore pos)), ("current_meet", mul currentMeet (w.currentMeetScore pos)),
      ("condition", mul condition (w.conditionScore pos)), ("comments", mul comments (w.commentScore pos)),
      ("bank_fit", mul bankFit (w.bankFitScore pos)), ("line_position", mul linePosition (w.linePositionBonus pos)),
      ("line_length", mul lineLength (w.lineLengthBonus pos))]
  return {
    carNumber := field p "car_number"
    name := field p "name"
    position := pos
    score := rnd (sum (c.map Prod.snd)) 4
    contributions := c.map fun e => (e.1, rnd e.2 4)
    rank := 0 }

/-- The first of numbers that counts as true: `x || y || …`, the last where none does. -/
def firstTruthy : List JsFloat → JsFloat
  | [] => zero
  | [x] => x
  | x :: y :: xs => if JsFloat.truthy x then x else firstTruthy (y :: xs)

/-- `xs.sort(compare)`: stable, an element stays before a later one unless the comparison is positive. The language leaves the order
open where the comparison is not consistent, as NaN makes it. -/
def sortBy {α : Type} (compare : α → α → JsFloat) (xs : List α) : List α :=
  xs.insertionSort fun a b => lt zero (compare a b) = false

/-- `rank(ps, pos, w)` -/
def rank (w : Weights) (pos : Position) (ps : List JsDoc) : JsResult (List (JsFloat × PlayerScore)) := do
  let rows ← ps.mapM fun p => do
    let row ← scorePlayer w pos p
    let car ← number row.carNumber
    return (car, row)
  let rows := sortBy (fun a b => firstTruthy [sub b.2.score a.2.score, sub a.1 b.1]) rows
  return rows.zipIdx.map fun r => (r.1.1, { r.1.2 with rank := r.2 + 1 })

/-- The rankings, each entry with the number of its car. -/
structure Rankings where
  first : List (JsFloat × PlayerScore)
  second : List (JsFloat × PlayerScore)
  third : List (JsFloat × PlayerScore)

/-- `rankings(d, w)` -/
def rankings (w : Weights) (ps : List JsDoc) : JsResult Rankings := do
  let first ← rank w .first ps
  let second ← rank w .second ps
  let third ← rank w .third ps
  return { first := first, second := second, third := third }

/-! ## Triples -/

/-- An ordered triple of cars. -/
structure Combo where
  a : JsFloat
  b : JsFloat
  c : JsFloat
deriving DecidableEq

namespace Combo

/-- The key of a triple in the odds: `${a}-${b}-${c}`. -/
def key (t : Combo) : String := t.a.text ++ "-" ++ t.b.text ++ "-" ++ t.c.text

/-- `combo[0]-…||combo[1]-…||combo[2]-…` -/
def compare (t u : Combo) : List JsFloat := [sub t.a u.a, sub t.b u.b, sub t.c u.c]

end Combo

/-- `perms(ns)` -/
def perms (ns : List JsFloat) : List Combo :=
  ns.flatMap fun a => (ns.filter (· ≠ a)).flatMap fun b => (ns.filter fun c => c ≠ a ∧ c ≠ b).map fun c => ⟨a, b, c⟩

/-- `same(a, b, c)` -/
def same (a b c : JsDoc) : JsFloat :=
  let l1 := field a "line_id"
  let l2 := field b "line_id"
  let l3 := field c "line_id"
  let x := if !isNullish l1 && strictEq l1 l2 then add zero (ofRat 3) else zero
  let x := if !isNullish l2 && strictEq l2 l3 then add x (ofRat 1.5) else x
  if !isNullish l1 && strictEq l1 l2 && strictEq l2 l3 then add x (ofRat 1.5) else x

/-- `p.line_position === k` -/
def atPosition (p : JsDoc) (k : ℕ) : Bool :=
  match field p "line_position" with
  | some (.num x) => isNat (.num x) k
  | _ => false

/-- `order(a, b, c)` -/
def order (a b c : JsDoc) : JsFloat :=
  let ab := strictEq (field a "line_id") (field b "line_id")
  let bc := strictEq (field b "line_id") (field c "line_id")
  let x := if ab && atPosition a 1 && atPosition b 2 then add zero (ofRat 2) else zero
  let x := if ab && atPosition a 2 && atPosition b 1 then add x (ofRat 2) else x
  if ab && bc && atPosition a 1 && atPosition b 2 && atPosition c 3 then add x (ofRat 2.5) else x

/-- Whether a rider has one of the styles. -/
def hasStyle (p : JsDoc) (styles : List String) : Bool := styles.any fun s => isStr (field p "style") s

/-- `synergy(a, b, c)` -/
def synergy (a b c : JsDoc) : JsFloat :=
  let x := if hasStyle a ["逃"] && hasStyle b ["追", "両"] then add zero (ofRat 1.8) else zero
  let x := if hasStyle a ["両"] && hasStyle b ["追"] then add x (ofRat 1.2) else x
  if hasStyle b ["追"] && hasStyle c ["追", "両"] then add x (ofRat 0.7) else x

/-- A scored triple. -/
structure Row where
  combo : Combo
  score : JsFloat
  contributions : List (String × JsFloat)
  odds : Option JsFloat
  estimatedProbability : JsFloat
  oddsProbabilityProduct : Option JsFloat

/-- `combo_key` -/
def Row.key (r : Row) : String := r.combo.key

/-- `map.get(key)` for a `Map` made of entries: of entries with one key the last counts. -/
def mapGet {α : Type} (entries : List (JsFloat × α)) (key : JsFloat) : JsResult α :=
  match entries.reverse.find? fun e => e.1 = key with
  | some e => .ok e.2
  | none => .error "Cannot read properties of undefined"

/-- The odds of a triple: those of its key, where they are a finite number. -/
def oddsOf (odds : JsVal) (t : Combo) : JsResult (Option JsFloat) :=
  let raw := orProp odds t.key
  if isNullish raw then .ok none else (number raw).map fun x => if x.isFinite then some x else none

/-- `((d.odds || {}).trifecta) || {}` -/
def trifectaOdds (d : Dict JsDoc) : JsVal := orProp (Dict.get? "odds" d) "trifecta"

/-- One triple, scored. -/
def scoreCombo (rs : Rankings) (pm : List (JsFloat × JsDoc)) (odds : JsVal) (t : Combo) : JsResult Row := do
  let pa ← mapGet pm t.a
  let pb ← mapGet pm t.b
  let pc ← mapGet pm t.c
  let first ← mapGet rs.first t.a
  let second ← mapGet rs.second t.b
  let third ← mapGet rs.third t.c
  let con : List (String × JsFloat) :=
    [("first_position_score", first.score), ("second_position_score", second.score), ("third_position_score", third.score),
      ("same_line_bonus", same pa pb pc), ("line_order_bonus", order pa pb pc), ("style_synergy_bonus", synergy pa pb pc)]
  let o ← oddsOf odds t
  return {
    combo := t
    score := rnd (sum (con.map Prod.snd)) 6
    contributions := con.map fun e => (e.1, rnd e.2 6)
    odds := o
    estimatedProbability := zero
    oddsProbabilityProduct := none }

section Engine

variable (exp : JsFloat → JsFloat)

/-- `norm(rows)` -/
def norm (rows : List Row) : List Row :=
  let mx := maxAll (rows.map Row.score)
  let weight := fun r : Row => exp (div (sub r.score mx) (ofRat 6))
  let tot := sum (rows.map weight)
  rows.map fun r => { r with
    estimatedProbability := if lt zero tot then div (weight r) tot else div (ofRat 1) (ofRat rows.length) }

/-- What `generate` returns. -/
structure Generated where
  weightsUsed : Weights
  positionRankings : Rankings
  trifectaScores : List Row

/-- The riders with the numbers of their cars. -/
def playerMap (ps : List JsDoc) : JsResult (List (JsFloat × JsDoc)) :=
  ps.mapM fun p => (number (field p "car_number")).map fun car => (car, p)

/-- The numbers of the cars, in their order. -/
def carNumbers (pm : List (JsFloat × JsDoc)) : List JsFloat := sortBy sub (pm.map Prod.fst).dedup

/-- `generate(d, w)` -/
def generate (w : Weights) (d : Dict JsDoc) : JsResult Generated := do
  let ps ← listOf (Dict.get? "players" d)
  let rs ← rankings w ps
  let pm ← playerMap ps
  let rows ← (perms (carNumbers pm)).mapM (scoreCombo rs pm (trifectaOdds d))
  let rows := sortBy (fun x y => firstTruthy (sub y.score x.score :: Combo.compare x.combo y.combo)) rows
  let rows := (norm exp rows).map fun r => { r with oddsProbabilityProduct := r.odds.map (mul r.estimatedProbability) }
  return { weightsUsed := w, positionRankings := rs, trifectaScores := rows }

/-! ## Picks -/

/-- `prob(pool)` -/
def prob (pool : List Row) : List Row :=
  let value := fun x : JsFloat => JsFloat.or x zero
  sortBy (fun a b => firstTruthy [sub (value b.estimatedProbability) (value a.estimatedProbability),
    sub (value b.score) (value a.score)]) pool

/-- `inRange(o, min, max)` -/
def inRange (o : Option JsFloat) (min max : Option ℚ) : Bool :=
  match o with
  | none => false
  | some o => !(min.any fun m => lt o (ofRat m)) && !(max.any fun m => JsFloat.le (ofRat m) o)

/-- `take(rows, used, limit)`: up to `limit` rows whose keys were not used, and the keys that are used then. -/
def take : (limit : ℕ) → (used : List String) → List Row → List Row × List String
  | 0, used, _ => ([], used)
  | _ + 1, used, [] => ([], used)
  | limit + 1, used, r :: rows =>
    if r.key ∈ used then take (limit + 1) used rows
    else ((r :: (take limit (used ++ [r.key]) rows).1), (take limit (used ++ [r.key]) rows).2)

/-- A rule of a category. -/
structure CategoryRule where
  key : String
  name : String
  minOdds : Option ℚ
  maxOdds : Option ℚ

/-- The categories that go by the odds. -/
def oddsRules : List CategoryRule :=
  [⟨"balance", "穴＋バランス", some 20, some 60⟩, ⟨"middle", "中穴", some 60, some 100⟩, ⟨"longshot", "大穴", some 100, some 500⟩,
    ⟨"super_longshot", "超大穴", some 500, none⟩]

/-- A row that was picked. -/
structure Pick extends Row where
  rank : ℕ
  category : String
  categoryName : String
  fallback : Bool
  reason : Option String

/-- A category with its picks. -/
structure Category where
  key : String
  name : String
  candidateScope : String
  status : String
  availableCandidates : ℕ
  picks : List Pick
  note : Option String

/-- `status(n)` -/
def status (n : ℕ) : String := if 3 ≤ n then "ready" else if 0 < n then "partial" else "skipped"

/-- `note(name, n, hasOdds)` -/
def note (name : String) (n : ℕ) (hasOdds : Bool) : Option String :=
  if 3 ≤ n then none
  else if name = "的中率優先" then some s!"全組み合わせ内の候補が{n}点です。"
  else if hasOdds = false then some "3連単オッズ未取得のため見送り"
  else some s!"確認済みデータ内の候補が不足しているため{n}点。未確認オッズでは補完しません。"

/-- The category with these picks. -/
def category (key name scope : String) (available : ℕ) (picked : List Row) (hasOdds : Bool) : Category where
  key := key
  name := name
  candidateScope := scope
  status := status picked.length
  availableCandidates := available
  picks := picked.zipIdx.map fun r => { r.1 with
    rank := r.2 + 1, category := key, categoryName := name, fallback := false, reason := none }
  note := note name picked.length hasOdds

/-- The categories of rules, one after the other. -/
def oddsCategories (known : List Row) (hasOdds : Bool) : List CategoryRule → (used : List String) → List Category × List String
  | [], used => ([], used)
  | rule :: rules, used =>
    let eligible := if hasOdds then known.filter fun r => r.key ∉ used ∧ inRange r.odds rule.minOdds rule.maxOdds else []
    let (picked, used) := if hasOdds then take 3 used (prob eligible) else ([], used)
    let (rest, used) := oddsCategories known hasOdds rules used
    (category rule.key rule.name "confirmed_odds_only" eligible.length picked hasOdds :: rest, used)

/-- What `select` returns. -/
structure Selection where
  oddsAvailable : Bool
  knownOddsCount : ℕ
  categories : List Category
  totalPicks : ℕ
  uniquePicks : ℕ
  completeCategoryCount : ℕ
  insufficientCategories : List String

/-- `select(rows)` -/
def select (rows : List Row) : Selection :=
  let known := rows.filter fun r => r.odds.isSome
  let hasOdds := 0 < known.length
  let (hit, used) := take 3 [] (prob rows)
  let (bands, used) := oddsCategories known hasOdds oddsRules used
  let cats := category "hit_priority" "的中率優先" "all_combinations" rows.length hit hasOdds :: bands
  { oddsAvailable := hasOdds
    knownOddsCount := known.length
    categories := cats
    totalPicks := (cats.map fun c => c.picks.length).sum
    uniquePicks := used.length
    completeCategoryCount := cats.countP fun c => c.picks.length = 3
    insufficientCategories := (cats.filter fun c => c.picks.length < 3).map Category.key }

/-! ## Reasons -/

/-- The text of a value that is there, told by `tell`. -/
def optionalText (tell : String → String) (v : JsVal) : JsResult (List String) :=
  if isNullish v then .ok [] else (text v).map fun t => [tell t]

/-- `lineText(p)` -/
def lineText (p : JsDoc) : JsResult String :=
  if isNullish (field p "line_id") then .ok "ライン情報なし"
  else do
    let id ← text (field p "line_id")
    let position ← optionalText (· ++ "番手") (field p "line_position")
    let length ← optionalText (· ++ "車") (field p "line_length")
    return "・".intercalate (["ライン" ++ id] ++ position ++ length)

/-- `v != null && Number(v) >= 5` -/
def atLeastFive (v : JsVal) : JsResult Bool :=
  if isNullish v then .ok false else (number v).map fun x => JsFloat.le (ofRat 5) x

/-- The text of a count that is five or more. -/
def leading (tell : String → String) (v : JsVal) : JsResult (List String) := do
  if ← atLeastFive v then (text v).map fun t => [tell t] else return []

/-- The text of an evaluation that is there and not zero. -/
def evaluation (label : String) (v : JsVal) : JsResult (List String) :=
  if isNullish v then .ok []
  else do
    let x ← number v
    if JsFloat.eq x zero then return []
    else
      let t ← text v
      return [label ++ (if JsFloat.le zero x then "+" else "") ++ t]

/-- What speaks for the style of a rider at a position. -/
def styleFeature (p : JsDoc) : Position → JsResult (List String)
  | .first => do
    let style := if hasStyle p ["逃"] then ["逃げ脚質を1着向きに評価"] else if hasStyle p ["両"] then ["自在性を1着評価へ反映"] else []
    let b ← leading (fun t => "B" ++ t ++ "で主導権候補") (field p "B")
    let h ← leading (fun t => "H" ++ t ++ "で積極性あり") (field p "H")
    return style ++ b ++ h
  | .second => .ok (if hasStyle p ["追"] then ["追込脚質を2着候補として評価"] else if hasStyle p ["両"] then ["自在性を2着評価へ反映"] else [])
  | .third => .ok (if hasStyle p ["追"] then ["追込脚質を3着残り候補として評価"] else if hasStyle p ["両"] then ["自在性を3着評価へ反映"] else [])

/-- `feature(p, pos)` -/
def feature (p : JsDoc) (pos : Position) : JsResult (List String) := do
  let score ← optionalText ("競走得点" ++ ·) (field p "race_score")
  let style ← styleFeature p pos
  let condition ← evaluation "状態評価" (orProp (field p "condition") "score")
  let bank ← evaluation "バンク適性" (orProp (field p "bank_fit") "score")
  let line ← lineText p
  return score ++ style ++ condition ++ bank ++ if line = "ライン情報なし" then [] else [line]

/-- `LABELS` -/
def labels : List (String × String) :=
  [("first_position_score", "1着評価"), ("second_position_score", "2着評価"), ("third_position_score", "3着評価"),
    ("same_line_bonus", "同ライン評価"), ("line_order_bonus", "ライン順序評価"), ("style_synergy_bonus", "脚質相性評価")]

/-- The part of a reason that is about one rider. -/
def riderReason (label : String) (car : JsFloat) (p : JsDoc) (pos : Position) : JsResult String := do
  let name ← text (field p "name")
  let parts ← feature p pos
  return label ++ car.text ++ "番" ++ name ++ "は" ++ "、".intercalate (parts.take 3)

/-- `reason(d, row)` -/
def reason (pm : List (JsFloat × JsDoc)) (row : Row) : JsResult String := do
  let pa ← mapGet pm row.combo.a
  let pb ← mapGet pm row.combo.b
  let pc ← mapGet pm row.combo.c
  let first ← riderReason "1着" row.combo.a pa .first
  let second ← riderReason "2着" row.combo.b pb .second
  let third ← riderReason "3着" row.combo.c pc .third
  let sorted := sortBy (fun x y => sub (JsFloat.abs y.2) (JsFloat.abs x.2)) row.contributions
  let top := ((sorted.filter fun e => lt zero e.2).take 3).map fun e =>
    (Dict.get? e.1 labels).getD e.1 ++ "+" ++ toFixed 2 e.2
  let parts := [first, second, third] ++
    (if top = [] then [] else ["組み合わせ評価では" ++ "、".intercalate top ++ "を加点"]) ++
    ["AI暫定推定的中率" ++ toFixed 3 (mul row.estimatedProbability (ofRat 100)) ++ "%"] ++
    (match row.odds with
      | some o => ["予想時オッズ" ++ toFixed 1 o ++ "倍"]
      | none => ["予想時オッズ未確認"])
  return "。".intercalate parts ++ "。"

/-- `attach(d, s)`: every pick is given its reason. -/
def attach (pm : List (JsFloat × JsDoc)) (s : Selection) : JsResult Selection := do
  let cats ← s.categories.mapM fun c => do
    let picks ← c.picks.mapM fun p => (reason pm p.toRow).map fun t => { p with reason := some t }
    return { c with picks := picks }
  return { s with categories := cats }

/-! ## The prediction -/

/-- What is said of a prediction. -/
structure Validation where
  totalPicks : ℕ
  uniquePicks : ℕ
  fiveCategoriesPresent : Bool
  fiveCategoriesComplete : Bool
  maxThreePerCategory : Bool
  noFallbackFill : Bool
  partialOutputAllowed : Bool

structure Prediction where
  weightsUsed : Weights
  positionRankings : Rankings
  trifectaScores : List Row
  selectedPredictions : Selection
  validation : Validation

/-- `buildFullPredictionWithWeights(d, w)` -/
def buildFullPredictionWithWeights (w : Weights) (d : Dict JsDoc) : JsResult Prediction := do
  let g ← generate exp w d
  let ps ← listOf (Dict.get? "players" d)
  let pm ← playerMap ps
  let s ← attach pm (select g.trifectaScores)
  let picks := s.categories.flatMap Category.picks
  let total := picks.length
  let unique := (picks.map fun p => p.key).dedup.length
  let max3 := s.categories.all fun c => c.picks.length ≤ 3
  let present := s.categories.length = 5
  let noFill := s.categories.all fun c => c.picks.all fun p => !p.fallback
  if unique ≠ total then throw "選択買い目に重複があります"
  if max3 = false then throw "カテゴリ上限3点を超えています"
  if ¬present then throw "5カテゴリ構成が欠落しています"
  return {
    weightsUsed := g.weightsUsed
    positionRankings := g.positionRankings
    trifectaScores := g.trifectaScores
    selectedPredictions := s
    validation := {
      totalPicks := total
      uniquePicks := unique
      fiveCategoriesPresent := present
      fiveCategoriesComplete := s.categories.all fun c => c.picks.length = 3
      maxThreePerCategory := max3
      noFallbackFill := noFill
      partialOutputAllowed := true } }

end Engine

end PredictEngine

end Keirin
