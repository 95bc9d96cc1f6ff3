import Keirin.TaskBridge
import Mathlib.Data.Prod.Lex

/-!
# The bridge to the hosting service

`agent_github_sha_bridge.py`: the verification of the continuous integration at one commit. Each request names a path; the reply is
a document or an error. A `Commit` is a digest the source's pattern accepts.
-/

namespace Keirin

namespace GitHubBridge

open Doc

/-- The reply to a request. -/
abbrev Reply := Except PyError Doc

/-- A request and its reply. -/
abbrev Exchange := String × Reply

/-- A program that sends requests. -/
abbrev Api := Prog String (fun _ => Reply) PyError

/-- A commit: forty digits of base sixteen. -/
abbrev Commit := { s : String // TaskBridge.isSha s = true }

/-- `isinstance(v, str) and _SHA.fullmatch(v)` -/
def commit? (v : Doc) : Option Commit := (text? v).bind fun s => if h : TaskBridge.isSha s = true then some ⟨s, h⟩ else none

/-- `_REPOSITORY` -/
def repository : String := "bzlove178100/-keirin-ai-web"

/-- `_WORKFLOWS` -/
def workflows : List (String × ℤ) :=
  [(".github/workflows/regression.yml", 365001481), (".github/workflows/collection-progress-ui-regression.yml", 365889130),
    (".github/workflows/agent-checkpoint-postgres.yml", 366817234), (".github/workflows/agent-runtime-readonly.yml", 365961402)]

/-- The text `json.dumps` writes for a number with `allow_nan=True`. -/
def numText : Scalar → List Char
  | .nan => "NaN".toList
  | .inf neg => if neg then "-Infinity".toList else "Infinity".toList
  | n => n.text

/-- `_api_get(path)`: a reply that failed, that is no data or that repeats the token is not passed on. -/
def apiGet (token path : String) : Api Doc :=
  .cmd path fun reply =>
    match reply with
    | .error _ => .raise (.runtimeError "github_read_failed")
    | .ok result =>
      if encodable result = false ∨ token.toList <:+: result.spaced [' '] numText then .raise (.runtimeError "github_read_failed")
      else .ret result

/-- `_repository(context)` -/
def repositoryOf (context : Dict Doc) : Except PyError String := do
  let name ← pyGet (getOr context "task_inputs" (.obj [])) "repository"
  raiseIf (name ≠ .str repository) (.valueError "github_repository_outside_host_scope")
  return repository

/-- The path of the commit of main. -/
def mainPath (repository : String) : String := "/repos/" ++ repository ++ "/commits/main"

/-- `_main_sha(repository)` -/
def mainSha (token repository : String) : Api Commit := do
  let response ← apiGet token (mainPath repository)
  Prog.ofExcept ((commit? (response.field "sha")).elim (.error (.runtimeError "github_main_sha_invalid")) .ok)

/-- The files a step may read. -/
def allowedFiles : List String := ["AGENTS.md", "AI_AGENT_REQUIREMENTS.md", "WORK_STATUS.md"]

/-- `_required_files(args)` -/
def requiredFiles (args : Doc) : Except PyError (List String) :=
  match args with
  | .obj fs =>
    let files := ((elements? (Dict.getD fs "required_files" .null)).bind (·.mapM text?)).getD []
    if Dict.getD fs "ref" (.str "main") ≠ .str "main" ∨ files = [] ∨ (∃ p ∈ files, p ∉ allowedFiles) ∨ ¬files.Nodup then
      .error (.valueError "github_file_scope_invalid")
    else .ok files
  | _ => .error (.attributeError "get")

/-! ## The observation to verify -/

/-- What a verification is given: the commit that was observed, and the files read at it. -/
structure Observation where
  sha : Commit
  files : Dict Doc

/-- A file of an observation, as the reading reports it. -/
def isFileItem (item : Doc) : Bool :=
  item.field "verified_nonempty_text" = .bool true && (commit? (item.field "sha")).isSome &&
    (int? (item.field "size")).any (0 < ·)

/-- The fields of a value that is a mapping. -/
def fields? : Doc → Option (Dict Doc)
  | .obj fs => some fs
  | _ => none

/-- The observation of `args`, or the error that says what it lacks. -/
def observation (args : Dict Doc) (repository : String) : Except PyError Observation := do
  let evidence := field (Dict.getD args "action_result" .null) "data"
  let required ← requiredFiles (getOr args "step_args" (.obj []))
  let demanded : Option Observation := do
    guard (Dict.getD args "step_action" .null = .str "github.read_main")
    guard (evidence.field "repository" = .str repository ∧ evidence.field "ref" = .str "main")
    let sha ← commit? (evidence.field "observed_sha")
    let files ← fields? (evidence.field "files")
    guard ((∀ f ∈ files, f.1 ∈ required) ∧ ∀ p ∈ required, (Dict.get? p files).isSome = true)
    return ⟨sha, files⟩
  let o ← demanded.elim (.error (.runtimeError "github_observation_required")) .ok
  raiseIf (∃ f ∈ o.files, isFileItem f.2 = false) (.runtimeError "github_observation_invalid")
  return o

/-! ## The runs of a commit -/

/-- The path of a page of the runs of a commit. -/
def runsPath (repository : String) (sha : Commit) (page : ℕ) : String :=
  "/repos/" ++ repository ++ "/actions/runs?head_sha=" ++ sha.1 ++ "&branch=main&event=push&per_page=100&page=" ++ toString page

/-- The runs on a page. -/
def batchOf (payload : Doc) : Option (List (Dict Doc)) := (elements? (payload.field "workflow_runs")).bind (·.mapM fields?)

/-- The identities of runs: `[r.get("id") for r in runs]` -/
def ids (runs : List (Dict Doc)) : List Doc := runs.map fun r => Dict.getD r "id" .null

/-- One page more, after `total` was reported and `runs` were read: the number the page reports, its runs, and all runs. -/
def takePage (total : Option ℤ) (runs : List (Dict Doc)) (payload : Doc) :
    Except PyError (ℤ × List (Dict Doc) × List (Dict Doc)) := do
  raiseIf ((elements? (payload.field "workflow_runs")).isNone) (.runtimeError "github_actions_runs_missing")
  let page : Option (ℤ × List (Dict Doc) × List (Dict Doc)) := do
    let count ← int? (payload.field "total_count")
    let batch ← batchOf payload
    guard (0 ≤ count ∧ count ≤ 1000 ∧ (total = none ∨ total = some count) ∧ batch.length ≤ 100)
    let all := runs ++ batch
    guard ((∀ i ∈ ids all, (int? i).isSome = true) ∧ (ids all).Nodup ∧ (all.length : ℤ) ≤ count)
    return (count, batch, all)
  page.elim (.error (.runtimeError "github_ci_pagination_inconsistent")) .ok

/-- `_runs` from a page on, with this many pages left to read. -/
def runsFrom (token repository : String) (sha : Commit) :
    (left page : ℕ) → (total : Option ℤ) → (runs : List (Dict Doc)) → Api (List (Dict Doc))
  | 0, _, _, _ => .raise (.runtimeError "github_ci_pagination_incomplete")
  | left + 1, page, total, runs => do
    let payload ← apiGet token (runsPath repository sha page)
    let (count, batch, all) ← Prog.ofExcept (takePage total runs payload)
    if (all.length : ℤ) = count then .ret all
    else if batch.length < 100 then .raise (.runtimeError "github_ci_pagination_incomplete")
    else runsFrom token repository sha left (page + 1) (some count) all

/-- `_runs(repository, sha)` -/
def runs (token repository : String) (sha : Commit) : Api (List (Dict Doc)) := runsFrom token repository sha 10 1 none []

/-! ## The verification -/

/-- A push to main at the commit, run by the workflow. -/
def isCandidate (sha : Commit) (workflow : String × ℤ) (run : Dict Doc) : Bool :=
  pyEq (Dict.getD run "workflow_id" .null) (.num (.int workflow.2)) && Dict.getD run "path" .null = .str workflow.1 &&
    Dict.getD run "head_sha" .null = .str sha.1 && Dict.getD run "head_branch" .null = .str "main" &&
    Dict.getD run "event" .null = .str "push"

/-- `r[key]` for a field that is a number. -/
def number (run : Dict Doc) (key : String) : ℤ := (int? (Dict.getD run key .null)).getD 0

/-- `(r["run_number"], r["run_attempt"], r["id"])` -/
def runKey (run : Dict Doc) : ℤ ×ₗ ℤ ×ₗ ℤ := toLex (number run "run_number", toLex (number run "run_attempt", number run "id"))

/-- The order of the keys, by the numbers of the host language. -/
instance decidableLTKey : DecidableLT (ℤ ×ₗ ℤ ×ₗ ℤ) := fun a b =>
  decidable_of_iff ((ofLex a).1 < (ofLex b).1 ∨ (ofLex a).1 = (ofLex b).1 ∧
    ((ofLex (ofLex a).2).1 < (ofLex (ofLex b).2).1 ∨ (ofLex (ofLex a).2).1 = (ofLex (ofLex b).2).1 ∧
      (ofLex (ofLex a).2).2 < (ofLex (ofLex b).2).2)) (by simp only [Prod.Lex.lt_iff])

/-- `max(runs, key=runKey, default=best)`: the first of those with the greatest key. -/
def latestOf (best : Option (Dict Doc)) : List (Dict Doc) → Option (Dict Doc)
  | [] => best
  | run :: rest => latestOf (if best.all fun b => runKey b < runKey run then some run else best) rest

/-- A run completed with success. -/
def isSuccess (run : Dict Doc) : Bool :=
  Dict.getD run "status" .null = .str "completed" && Dict.getD run "conclusion" .null = .str "success"

/-- The state of a workflow: whether its latest run succeeded, and what is reported of it. -/
def workflowState (sha : Commit) (runs : List (Dict Doc)) (workflow : String × ℤ) : Except PyError (Bool × Dict Doc) := do
  let candidates := runs.filter (isCandidate sha workflow)
  raiseIf (∃ run ∈ candidates, ∃ k ∈ ["id", "run_number", "run_attempt"], (int? (Dict.getD run k .null)).any (0 < ·) = false)
    (.runtimeError "github_run_identity_invalid")
  let latest := latestOf none candidates
  let verified := latest.any isSuccess
  let state : Dict Doc := [("workflow_id", .num (.int workflow.2)), ("found", .bool latest.isSome), ("verified", .bool verified)]
  let told := latest.elim [] fun run =>
    if run = [] then []
    else ["id", "run_attempt", "head_sha", "status", "conclusion"].map fun k => (k, Dict.getD run k .null)
  return (verified, state ++ told)

/-- `_verify_ci(args, context)` -/
def verifyCi (token : String) (args context : Dict Doc) : Api Doc := do
  let repository ← Prog.ofExcept (repositoryOf context)
  let o ← Prog.ofExcept (observation args repository)
  let found ← runs token repository o.sha
  let states ← Prog.ofExcept (workflows.mapM (workflowState o.sha found))
  let current ← mainSha token repository
  let verified := decide (current = o.sha) && states.all Prod.fst
  let reason := if current ≠ o.sha then "main_changed" else if verified then "verified" else "required_ci_not_successful"
  return .obj [
    ("message", .str (if verified then "same-commit CI verified" else "same-commit CI not verified")),
    ("data", .obj [("verified", .bool verified), ("repository", .str repository), ("observed_sha", .str o.sha.1),
      ("current_sha", .str current.1), ("reason", .str reason), ("files", .obj o.files),
      ("workflows", .obj ((workflows.map Prod.fst).zip (states.map fun s => .obj s.2)))])]

end GitHubBridge

end Keirin
