import Keirin.Lib.JsMath

/-!
# The contract of the race data

`race_data_contract.ts` and the odds filter of `index.ts`: what is asked of the data of a race before a prediction is made of
it, and what is said of its quality. A number of a value is `Number(v)`, which throws where the value has no text.
-/

namespace Keirin

namespace RaceDataContract

open JsVal JsFloat

/-- `v.key` of a value that may be anything but `null` and `undefined`. -/
abbrev JsResult := Except String

/-- `isFiniteNumber(value)` -/
def isFiniteNumber (v : JsVal) : JsResult Bool :=
  if (match v with
    | some .null => true
    | some (.str s) => s = ""
    | _ => false) then .ok false
  else (number v).map JsFloat.isFinite

/-- `trifectaCount(riderCount)` -/
def trifectaCount (riders : ℕ) : ℕ := if 3 ≤ riders then riders * (riders - 1) * (riders - 2) else 0

/-- `/^\d{4}-\d{2}-\d{2}$/.test(s)` -/
def isDateText (s : String) : Bool :=
  match s.toList with
  | [a, b, c, d, e, f, g, h, i, j] => [a, b, c, d, f, g, i, j].all Char.isDigit && e = '-' && h = '-'
  | _ => false

/-- The integer of `Number(v)`, where it is one. -/
def integer? (v : JsVal) : JsResult (Option ℤ) := (number v).map JsFloat.int?

/-- `raceConditionErrors(input)` -/
def raceConditionErrors (input : Dict JsDoc) : List String :=
  match Dict.get? "race_conditions" input with
  | none => []
  | some (.obj c) =>
    if ",".intercalate ((c.map Prod.fst).insertionSort (· ≤ ·)) ≠ "race_status,withdrawn_car_numbers" then
      ["race_conditions_contract_invalid"]
    else if Dict.get? "race_status" c ≠ some (.str "scheduled") then ["nonstandard_race_requires_review"]
    else match Dict.get? "withdrawn_car_numbers" c with
      | some (.arr xs) => if xs = [] then [] else ["withdrawal_requires_review"]
      | _ => ["race_conditions_contract_invalid"]
  | some _ => ["race_conditions_contract_invalid"]

/-- The number of a value that is a number and an integer: `Number.isInteger(v)`. -/
def ownInteger? (v : JsVal) : Option ℤ :=
  match v with
  | some (.num n) => n.int?
  | _ => none

/-- The errors of the race itself. -/
def raceErrors (race : JsVal) : List String :=
  match race with
  | some (.obj r) =>
    (match Dict.get? "date" r with
      | some (.str s) => if isDateText s then [] else ["race.date must be YYYY-MM-DD"]
      | _ => ["race.date must be YYYY-MM-DD"]) ++
    (match Dict.get? "venue" r with
      | some (.str s) => if trim s = "" then ["race.venue is required"] else []
      | _ => ["race.venue is required"]) ++
    if (ownInteger? (Dict.get? "race_number" r)).any (1 ≤ ·) then [] else ["race.race_number must be a positive integer"]
  | _ => ["race is required"]

/-- An optional value that must be a positive integer. -/
def positiveErrors (v : JsVal) (message : String) : JsResult (List String) :=
  if isNullish v then .ok [] else (integer? v).map fun n => if n.any (1 ≤ ·) then [] else [message]

/-- The errors of an optional numeric field. -/
def numericErrors (i : ℕ) (key : String) (v : JsVal) : JsResult (List String) :=
  if isNullish v then .ok []
  else (isFiniteNumber v).map fun ok => if ok then [] else [s!"players[{i}].{key} must be numeric when provided"]

/-- The errors of an optional numeric field that must not be negative. -/
def negativeErrors (i : ℕ) (key : String) (v : JsVal) : JsResult (List String) := do
  if isNullish v then return []
  else if ← isFiniteNumber v then
    let x ← number v
    return if lt x zero then [s!"players[{i}].{key} must be >= 0"] else []
  else return []

/-- `VALID_STYLES` -/
def validStyles : List String := ["逃", "両", "追"]

/-- The errors of one rider; `cars` are the numbers of those before, and the number of this one is added. -/
def playerErrors (i : ℕ) (cars : List JsFloat) (p : Dict JsDoc) : JsResult (List JsFloat × List String) := do
  let car ← number (Dict.get? "car_number" p)
  let (cars, carErrors) :=
    if (car.int?.any (1 ≤ ·)) = false then (cars, [s!"players[{i}].car_number must be a positive integer"])
    else if car ∈ cars then (cars, [s!"duplicate car_number: {car.text}"])
    else (cars ++ [car], [])
  let nameErrors := match Dict.get? "name" p with
    | some (.str s) => if trim s = "" then [s!"players[{i}].name is required"] else []
    | _ => [s!"players[{i}].name is required"]
  let styleErrors := match Dict.get? "style" p with
    | some (.str s) => if s ∈ validStyles then [] else [s!"players[{i}].style must be one of 逃, 両, 追"]
    | _ => [s!"players[{i}].style must be one of 逃, 両, 追"]
  let numeric ← ["race_score", "S", "H", "B"].mapM fun key => numericErrors i key (Dict.get? key p)
  let negative ← ["S", "H", "B"].mapM fun key => negativeErrors i key (Dict.get? key p)
  let position ← positiveErrors (Dict.get? "line_position" p)
    s!"players[{i}].line_position must be a positive integer when provided"
  let length ← positiveErrors (Dict.get? "line_length" p)
    s!"players[{i}].line_length must be a positive integer when provided"
  return (cars, carErrors ++ nameErrors ++ styleErrors ++ numeric.flatten ++ negative.flatten ++ position ++ length)

/-- The errors of the riders from the `i`-th on, and the numbers of the cars. -/
def playersErrors : (i : ℕ) → List JsFloat → List JsDoc → JsResult (List JsFloat × List String)
  | _, cars, [] => .ok (cars, [])
  | i, cars, .obj p :: ps => do
    let (cars, errors) ← playerErrors i cars p
    let (cars, rest) ← playersErrors (i + 1) cars ps
    return (cars, errors ++ rest)
  | i, cars, _ :: ps => do
    let (cars, rest) ← playersErrors (i + 1) cars ps
    return (cars, s!"players[{i}] must be an object" :: rest)

/-- The errors of the riders, and the numbers of their cars. -/
def ridersErrors (players : JsVal) : JsResult (List JsFloat × List String) :=
  match players with
  | some (.arr ps) => if ps.length < 4 then .ok ([], ["players must contain at least 4 riders"]) else playersErrors 0 [] ps
  | _ => .ok ([], ["players must contain at least 4 riders"])

/-- The parts of `key.match(/^(\d+)-(\d+)-(\d+)$/)`. -/
def keyParts (key : String) : Option (List Char × List Char × List Char) :=
  let digits := fun cs : List Char => cs ≠ [] ∧ cs.all Char.isDigit = true
  match key.toList.splitOn '-' with
  | [a, b, c] => if digits a ∧ digits b ∧ digits c then some (a, b, c) else none
  | _ => none

/-- `Number(m)` for digits. -/
def carOf (digits : List Char) : JsFloat := JsFloat.ofString (String.ofList digits)

/-- The cars a key names. -/
def keyCars (key : String) : Option (JsFloat × JsFloat × JsFloat) :=
  (keyParts key).map fun m => (carOf m.1, carOf m.2.1, carOf m.2.2)

/-- The errors of one entry of the odds. -/
def entryErrors (cars : List JsFloat) (key : String) (value : JsDoc) : JsResult (List String) :=
  match keyCars key with
  | none => .ok [s!"invalid trifecta key: {key}"]
  | some (a, b, c) => do
    let distinct := if [a, b, c].dedup.length ≠ 3 then [s!"trifecta key must use 3 distinct riders: {key}"] else []
    let known := if cars ≠ [] ∧ ∃ car ∈ [a, b, c], car ∉ cars then [s!"trifecta key contains unknown rider: {key}"] else []
    let positive ← if ← isFiniteNumber (some value) then (number (some value)).map fun x => !(JsFloat.le x zero) else pure false
    return distinct ++ known ++ if positive then [] else [s!"odds.trifecta[{key}] must be a positive number"]

/-- The errors of the odds. -/
def oddsErrors (cars : List JsFloat) (odds : JsVal) : JsResult (List String) :=
  match odds with
  | none => .ok []
  | some .null => .ok []
  | some (.obj os) =>
    match Dict.get? "trifecta" os with
    | none => .ok []
    | some .null => .ok []
    | some (.obj entries) => (entries.mapM fun e => entryErrors cars e.1 e.2).map List.flatten
    | some _ => .ok ["odds.trifecta must be an object when provided"]
  | some _ => .ok ["odds must be an object when provided"]

/-- The errors of the context. -/
def contextErrors (context : JsVal) : List String :=
  match context with
  | none => []
  | some .null => []
  | some (.obj _) => []
  | some _ => ["prediction_context must be an object when provided"]

/-- `validateRaceData(input)` -/
def validateRaceData (input : JsDoc) : JsResult (List String) :=
  match input with
  | .obj d => do
    let (cars, players) ← ridersErrors (Dict.get? "players" d)
    let odds ← oddsErrors cars (Dict.get? "odds" d)
    return (raceConditionErrors d ++ raceErrors (Dict.get? "race" d) ++ players ++ odds ++
      contextErrors (Dict.get? "prediction_context" d)).eraseDups
  | _ => .ok ["race_data must be an object"]

/-! ## The odds filter -/

/-- A text begins with one of the names of the source: `/K[-\s]?Dreams|Kドリームス|ケイドリームス/i`. -/
def beginsSource (cs : List Char) : Bool :=
  let lower := cs.map Char.toLower
  let dreams := "dreams".toList
  match lower with
  | 'k' :: r => dreams.isPrefixOf r || (match r with
    | c :: r' => (c = '-' || JsVal.isSpace c) && dreams.isPrefixOf r'
    | [] => false) || "ドリームス".toList.isPrefixOf r
  | _ => "ケイドリームス".toList.isPrefixOf lower

/-- Whether the text names the source. -/
def namesSource (s : String) : Bool := s.toList.tails.any beginsSource

/-- The name of the source: `String(context.source ?? '')`. -/
def sourceText (context : JsVal) : JsResult String :=
  match context with
  | some (.obj c) => let source := Dict.get? "source" c; if isNullish source then .ok "" else text source
  | _ => .ok ""

/-- What the filter reports. -/
structure OddsReport where
  sourceMatched : Bool
  source : String
  ignored : List String

/-- Whether an entry of the odds shows that no ticket was sold. -/
def isUnbet (value : JsDoc) : JsResult Bool := (number (some value)).map fun x => JsFloat.eq x (ofRat (99999 / 10))

/-- `sanitizeKnownOdds(payload)` -/
def sanitizeKnownOdds (payload : JsDoc) : JsResult (JsDoc × OddsReport) :=
  match payload with
  | .obj d => do
    let source ← sourceText (Dict.get? "prediction_context" d)
    let same : JsDoc := .obj d
    if namesSource source then
      match Dict.get? "odds" d with
      | some (.obj odds) =>
        match Dict.get? "trifecta" odds with
        | some (.obj entries) =>
          let marked ← entries.mapM fun e => (isUnbet e.2).map fun unbet => (e, unbet)
          let kept := (marked.filter fun m => !m.2).map Prod.fst
          return (.obj (Dict.set "odds" (.obj (Dict.set "trifecta" (.obj kept) odds)) d),
            { sourceMatched := true, source := source, ignored := (marked.filter fun m => m.2).map fun m => m.1.1 })
        | _ => return (same, { sourceMatched := true, source := source, ignored := [] })
      | _ => return (same, { sourceMatched := true, source := source, ignored := [] })
    else return (same, { sourceMatched := false, source := source, ignored := [] })
  | _ => .ok (payload, { sourceMatched := false, source := "", ignored := [] })

/-! ## The quality of an input -/

/-- The report on the quality of an input. -/
structure InputQuality where
  level : String
  riderCount : ℕ
  missingRaceScoreCars : List JsFloat
  incompleteShbCars : List JsFloat
  incompleteLineCars : List JsFloat
  trifectaOddsCount : ℕ
  possibleTrifectaCount : ℕ
  trifectaOddsCoverage : JsFloat
  warnings : List String

/-- The riders of an input. -/
def playersOf (input : Dict JsDoc) : List JsDoc :=
  match Dict.get? "players" input with
  | some (.arr ps) => ps
  | _ => []

/-- The entries of the odds. -/
def trifectaOf (input : Dict JsDoc) : Dict JsDoc :=
  match Dict.get? "odds" input with
  | some (.obj odds) =>
    match Dict.get? "trifecta" odds with
    | some (.obj entries) => entries
    | _ => []
  | _ => []

/-- The cars of the riders for which `missing` holds. -/
def carsWhere (players : List JsDoc) (missing : JsDoc → JsResult Bool) : JsResult (List JsFloat) := do
  let marked ← players.mapM fun p => (missing p).map fun m => (p, m)
  (marked.filter Prod.snd).mapM fun m => number (field m.1 "car_number")

/-- The numbers of cars in a text. -/
def carsText (cars : List JsFloat) : String := ",".intercalate (cars.map JsFloat.text)

/-- `assessInputQuality(input)` -/
def assessInputQuality (input : Dict JsDoc) : JsResult InputQuality := do
  let players := playersOf input
  let missingRaceScore ← carsWhere players fun p => (isFiniteNumber (field p "race_score")).map not
  let missingShb ← carsWhere players fun p => do
    let finite ← ["S", "H", "B"].mapM fun key => isFiniteNumber (field p key)
    return finite.any not
  let missingLine ← carsWhere players fun p =>
    .ok (isNullish (field p "line_id") || isNullish (field p "line_position") || isNullish (field p "line_length"))
  let oddsCount := (trifectaOf input).length
  let possible := trifectaCount players.length
  let coverage := if 0 < possible then JsFloat.div (ofRat oddsCount) (ofRat possible) else zero
  let warnings :=
    (if missingRaceScore ≠ [] then [s!"race_score missing for cars: {carsText missingRaceScore}"] else []) ++
    (if missingShb ≠ [] then [s!"S/H/B incomplete for cars: {carsText missingShb}"] else []) ++
    (if missingLine ≠ [] then [s!"line data incomplete for cars: {carsText missingLine}"] else []) ++
    if lt coverage (ofRat 1) then
      [s!"trifecta odds coverage is {toFixed 1 (mul coverage (ofRat 100))}% ({oddsCount}/{possible})"] else []
  return {
    level := if warnings = [] then "complete" else "incomplete"
    riderCount := players.length
    missingRaceScoreCars := missingRaceScore
    incompleteShbCars := missingShb
    incompleteLineCars := missingLine
    trifectaOddsCount := oddsCount
    possibleTrifectaCount := possible
    trifectaOddsCoverage := JsFloat.ofString (toFixed 4 coverage)
    warnings := warnings }

end RaceDataContract

end Keirin
