import Keirin.GitHubBridge
import Keirin.Lemmas.HistoricalPayouts

/-!
# The verification of the continuous integration is sound

What the verification says is read off the replies: the pages of the runs, each reporting the number of all of them, and after
them the commit main is at. A run that is the latest by its key is the latest among the runs of every page.
-/

namespace Keirin

namespace GitHubBridge

open Doc

/-- The runs on the pages, in their order. -/
def runsOf (pages : List Doc) : List (Dict Doc) := pages.flatMap fun payload => (batchOf payload).getD []

/-- What was said when the pages were read, from a page on. -/
def pageLog (repository : String) (sha : Commit) (page : ℕ) : List Doc → List Exchange
  | [] => []
  | payload :: pages => (runsPath repository sha page, .ok payload) :: pageLog repository sha (page + 1) pages

/-- The pages hold all runs they report: every page reports the number of the runs on all pages, and no two runs share an
identity. -/
structure Whole (pages : List Doc) : Prop where
  total : ∀ payload ∈ pages, int? (payload.field "total_count") = some ((runsOf pages).length : ℤ)
  distinct : (ids (runsOf pages)).Nodup

/-- The latest run of the workflow, among the pushes to main at the commit, completed with success. -/
def Succeeded (sha : Commit) (runs : List (Dict Doc)) (workflow : String × ℤ) : Prop :=
  ∃ latest ∈ runs, isCandidate sha workflow latest = true ∧ isSuccess latest = true ∧
    ∀ run ∈ runs, isCandidate sha workflow run = true → runKey run ≤ runKey latest

/-! ## Reading -/

theorem follows_apiGet {token path : String} {log : List Exchange} :
    (apiGet token path).Follows Prog.recording (fun v log' => log' = log ++ [(path, .ok v)]) log := by
  refine ⟨trivial, fun r _ => ?_⟩
  cases r with
  | error e => trivial
  | ok result =>
    by_cases h : encodable result = false ∨ token.toList <:+: result.spaced [' '] numText
    · simp only [if_pos h]
      trivial
    · simp only [if_neg h]
      rfl

theorem commit?_eq_some {v : Doc} {sha : Commit} (h : commit? v = some sha) : v = .str sha.1 := by
  simp only [commit?, Option.bind_eq_some_iff, Option.dite_none_right_eq_some] at h
  obtain ⟨s, hs, _, he⟩ := h
  cases v with
  | str t =>
    cases hs
    rw [← Option.some.inj he]
  | _ => nomatch hs

/-- A value that is demanded of an option is its value. -/
theorem elim_ok {α : Type} {x : Option α} {e : PyError} {a : α} : x.elim (.error e) .ok = (.ok a : Except PyError α) ↔ x = some a := by
  cases x <;> simp

/-- The commit of main is what the reply says it is. -/
theorem follows_mainSha {token repository : String} {log : List Exchange} :
    (mainSha token repository).Follows Prog.recording
      (fun sha log' => ∃ response : Doc, log' = log ++ [(mainPath repository, .ok response)] ∧ response.field "sha" = .str sha.1) log := by
  refine Prog.Follows.bind follows_apiGet fun response log' hlog => Prog.follows_ofExcept fun sha hsha => ?_
  exact ⟨response, hlog, commit?_eq_some (elim_ok.1 hsha)⟩

theorem repositoryOf_ok {context : Dict Doc} {name : String} (h : repositoryOf context = .ok name) : name = repository := by
  obtain ⟨v, -, h⟩ := bind_ok.1 h
  rw [raiseIf_bind_ok] at h
  exact (Except.ok.inj h.2).symm

/-! ## The pages -/

/-- What is known of a page that was taken. -/
theorem takePage_ok {total : Option ℤ} {read batch all : List (Dict Doc)} {payload : Doc} {count : ℤ}
    (h : takePage total read payload = .ok (count, batch, all)) :
    int? (payload.field "total_count") = some count ∧ batchOf payload = some batch ∧ (total = none ∨ total = some count) ∧
      all = read ++ batch ∧ (ids all).Nodup := by
  rw [takePage, raiseIf_bind_ok] at h
  obtain ⟨-, h⟩ := h
  rw [elim_ok] at h
  obtain ⟨count', hcount, h⟩ := Option.bind_eq_some_iff.1 h
  obtain ⟨batch', hbatch, h⟩ := Option.bind_eq_some_iff.1 h
  obtain ⟨_, hrange, h⟩ := Option.bind_eq_some_iff.1 h
  obtain ⟨_, hids, h⟩ := Option.bind_eq_some_iff.1 h
  have hpage := Option.some.inj h
  simp only [Prod.mk.injEq] at hpage
  obtain ⟨rfl, rfl, rfl⟩ := hpage
  rw [Option.guard_eq_some'] at hrange hids
  exact ⟨hcount, hbatch, hrange.2.2.1, rfl, hids.2.1⟩

/-- Reading from a page on, after `read`: the pages read hold the rest of the runs. -/
theorem follows_runsFrom {token repository : String} {sha : Commit} (left page : ℕ) (total : Option ℤ)
    (read : List (Dict Doc)) (log : List Exchange) :
    (runsFrom token repository sha left page total read).Follows Prog.recording
      (fun all log' => ∃ pages, log' = log ++ pageLog repository sha page pages ∧ all = read ++ runsOf pages ∧
        (total = none ∨ total = some (all.length : ℤ)) ∧ (ids all).Nodup ∧
        ∀ payload ∈ pages, int? (payload.field "total_count") = some (all.length : ℤ)) log := by
  induction left generalizing page total read log with
  | zero => trivial
  | succ left ih =>
    refine Prog.Follows.bind follows_apiGet fun payload log' hlog => ?_
    refine Prog.Follows.bind (Q := fun r g => takePage total read payload = .ok r ∧ g = log')
      (Prog.follows_ofExcept fun r hr => ⟨hr, rfl⟩) fun r g hr => ?_
    obtain ⟨count, batch, all⟩ := r
    obtain ⟨hr, rfl⟩ := hr
    obtain ⟨hcount, hbatch, htotal, rfl, hnodup⟩ := takePage_ok hr
    dsimp only
    split_ifs with hall hshort
    · refine ⟨[payload], by rw [hlog]; rfl, by simp [runsOf, hbatch], hall ▸ htotal, hnodup, fun p hp => ?_⟩
      rw [List.mem_singleton.1 hp, hcount, hall]
    · trivial
    · refine (ih (page + 1) (some count) (read ++ batch) g).mono fun all log'' h => ?_
      obtain ⟨pages, hlog'', hall', hcount', hnodup', hpages⟩ := h
      rcases hcount' with hnone | hsome
      · nomatch hnone
      · have hc : count = (all.length : ℤ) := Option.some.inj hsome
        refine ⟨payload :: pages, ?_, ?_, hc ▸ htotal, hnodup', fun p hp => ?_⟩
        · rw [hlog'', hlog, List.append_assoc]
          rfl
        · rw [hall', List.append_assoc]
          simp [runsOf, hbatch]
        · rcases List.mem_cons.1 hp with rfl | hp
          · rw [hcount, hc]
          · exact hpages p hp

/-- The runs that were read are those of the pages, and the pages hold all of them. -/
theorem follows_runs {token repository : String} {sha : Commit} {log : List Exchange} :
    (runs token repository sha).Follows Prog.recording
      (fun all log' => ∃ pages, log' = log ++ pageLog repository sha 1 pages ∧ all = runsOf pages ∧ Whole pages) log := by
  refine (follows_runsFrom 10 1 none [] log).mono fun all log' h => ?_
  obtain ⟨pages, hlog, hall, -, hnodup, hpages⟩ := h
  rw [List.nil_append] at hall
  subst hall
  exact ⟨pages, hlog, rfl, hpages, hnodup⟩

/-! ## The workflows -/

/-- The latest of runs is one of them, and none has a greater key. -/
theorem latestOf_eq_some {runs : List (Dict Doc)} {best : Option (Dict Doc)} {latest : Dict Doc}
    (h : latestOf best runs = some latest) :
    (latest ∈ runs ∨ best = some latest) ∧ (∀ run ∈ runs, runKey run ≤ runKey latest) ∧
      ∀ b, best = some b → runKey b ≤ runKey latest := by
  induction runs generalizing best with
  | nil => exact ⟨.inr h, by simp, fun b hb => by rw [Option.some.inj (hb.symm.trans h)]⟩
  | cons run rest ih =>
    rw [latestOf] at h
    obtain ⟨hmem, hrest, hbest⟩ := ih h
    by_cases hlater : (best.all fun b => decide (runKey b < runKey run)) = true
    · rw [if_pos hlater] at hmem hbest
      have hrun := hbest run rfl
      refine ⟨?_, by simpa [hrun] using hrest, fun b hb => ?_⟩
      · rcases hmem with hmem | hmem
        · exact .inl (List.mem_cons_of_mem _ hmem)
        · exact .inl (by rw [Option.some.inj hmem]; exact List.mem_cons_self)
      · have hlt : runKey b < runKey run := by simpa [hb] using hlater
        exact hlt.le.trans hrun
    · rw [if_neg hlater] at hmem hbest
      have hrun : runKey run ≤ runKey latest := by
        cases best with
        | none => simp at hlater
        | some b =>
          have hnot : ¬runKey b < runKey run := by simpa using hlater
          exact (not_lt.1 hnot).trans (hbest b rfl)
      exact ⟨hmem.imp_left (List.mem_cons_of_mem _), by simpa [hrun] using hrest, hbest⟩

/-- The state of a workflow says it is verified only where its latest run succeeded. -/
theorem workflowState_verified {sha : Commit} {runs : List (Dict Doc)} {workflow : String × ℤ} {state : Bool × Dict Doc}
    (h : workflowState sha runs workflow = .ok state) (hv : state.1 = true) : Succeeded sha runs workflow := by
  rw [workflowState, raiseIf_bind_ok] at h
  obtain ⟨-, h⟩ := h
  have hstate := Except.ok.inj h
  rw [← hstate] at hv
  obtain ⟨latest, hlatest, hsuccess⟩ := Option.any_eq_true _ _ |>.1 hv
  obtain ⟨hmem, hmax, -⟩ := latestOf_eq_some hlatest
  replace hmem := hmem.resolve_right nofun
  rw [List.mem_filter] at hmem
  exact ⟨latest, hmem.1, hmem.2, hsuccess, fun run hrun hcand => hmax run (List.mem_filter.2 ⟨hrun, hcand⟩)⟩

/-- The answer of a verification that succeeded. -/
def isVerified (v : Doc) : Bool := (v.field "data").field "verified" = .bool true

/-- Each of the states is that of its workflow. -/
theorem workflowStates_verified {sha : Commit} {runs : List (Dict Doc)} {ws : List (String × ℤ)} {states : List (Bool × Dict Doc)}
    (h : ws.mapM (workflowState sha runs) = .ok states) (hv : states.all Prod.fst = true) :
    ∀ workflow ∈ ws, Succeeded sha runs workflow := by
  intro workflow hw
  obtain ⟨state, hmem, hstate⟩ := exists_of_mem_right (mapM_ok_iff.1 h).flip hw
  exact workflowState_verified hstate (List.all_eq_true.1 hv state hmem)

/-- What was said before an answer that all is verified. -/
theorem verifyCi_follows {token : String} {args context : Dict Doc} :
    (verifyCi token args context).Follows Prog.recording (fun v log => isVerified v = true →
      ∃ (o : Observation) (pages : List Doc) (response : Doc), observation args repository = .ok o ∧
        log = pageLog repository o.sha 1 pages ++ [(mainPath repository, .ok response)] ∧ response.field "sha" = .str o.sha.1 ∧
        Whole pages ∧ ∀ workflow ∈ workflows, Succeeded o.sha (runsOf pages) workflow) [] := by
  refine Prog.Follows.bind (Q := fun name log => name = repository ∧ log = [])
    (Prog.follows_ofExcept fun name hname => ⟨repositoryOf_ok hname, rfl⟩) fun name log h => ?_
  obtain ⟨rfl, rfl⟩ := h
  refine Prog.Follows.bind (Q := fun o log => observation args repository = .ok o ∧ log = [])
    (Prog.follows_ofExcept fun o ho => ⟨ho, rfl⟩) fun o log h => ?_
  obtain ⟨ho, rfl⟩ := h
  refine Prog.Follows.bind follows_runs fun found log h => ?_
  obtain ⟨pages, hlog, rfl, hwhole⟩ := h
  refine Prog.Follows.bind (Q := fun states g => workflows.mapM (workflowState o.sha (runsOf pages)) = .ok states ∧ g = log)
    (Prog.follows_ofExcept fun states hs => ⟨hs, rfl⟩) fun states g h => ?_
  obtain ⟨hstates, rfl⟩ := h
  refine Prog.Follows.bind follows_mainSha fun current log' h => ?_
  obtain ⟨response, hlog', hsha⟩ := h
  intro hv
  have hall : (decide (current = o.sha) && states.all Prod.fst) = true := by
    have hfield := of_decide_eq_true (show decide _ = true from hv)
    exact Json.bool.inj hfield
  rw [Bool.and_eq_true, decide_eq_true_eq] at hall
  obtain ⟨rfl, hall⟩ := hall
  exact ⟨o, pages, response, ho, by rw [hlog', hlog]; rfl, hsha, hwhole, workflowStates_verified hstates hall⟩

/-- For every sequence of replies, and any step and context. Where the verification answers that all is verified, the pages of
the runs of the observed commit were read, which hold all the runs they report; after them main was read, and it was at that
commit; and for each of the workflows the latest push to main at that commit, over all pages, completed with success. And the
runs of any commit are read whole or not at all: those returned are the runs of the pages, with distinct identities, and every page
reported their number. -/
theorem ci_verification_sound (token : String) :
    (∀ (args context : Dict Doc) (replies : List Reply) (log : List Exchange) (v : Doc),
      (verifyCi token args context).exec Prog.service replies [] = (log, .ret v) → isVerified v = true →
      ∃ (o : Observation) (pages : List Doc) (response : Doc), observation args repository = .ok o ∧
        log = pageLog repository o.sha 1 pages ++ [(mainPath repository, .ok response)] ∧ response.field "sha" = .str o.sha.1 ∧
        Whole pages ∧ ∀ workflow ∈ workflows, Succeeded o.sha (runsOf pages) workflow) ∧
    ∀ (name : String) (sha : Commit) (replies : List Reply) (log : List Exchange) (found : List (Dict Doc)),
      (runs token name sha).exec Prog.service replies [] = (log, .ret found) →
      ∃ pages, log = pageLog name sha 1 pages ∧ found = runsOf pages ∧ Whole pages := by
  refine ⟨fun args context replies log v hrun hv => ?_, fun name sha replies log found hrun => ?_⟩
  · exact verifyCi_follows.exec_service hrun hv
  · simpa using follows_runs.exec_service hrun

/-! ## A sample -/

/-- The commit of the sample. -/
def sampleSha : Commit := ⟨String.ofList (List.replicate 40 'a'), by decide +kernel⟩

/-- The context of the sample. -/
def sampleContext : Dict Doc := [("task_inputs", .obj [("repository", .str repository)])]

/-- One file was read at the commit. -/
def sampleArgs : Dict Doc :=
  [("step_action", .str "github.read_main"), ("step_args", .obj [("required_files", .arr [.str "AGENTS.md"])]),
    ("action_result", .obj [("data", .obj [("repository", .str repository), ("ref", .str "main"), ("observed_sha", .str sampleSha.1),
      ("files", .obj [("AGENTS.md", .obj [("sha", .str sampleSha.1), ("size", .num (.int 1)),
        ("verified_nonempty_text", .bool true)])])])])]

/-- A run of the workflow that succeeded at the commit. -/
def sampleRun (workflow : String × ℤ) : Doc :=
  .obj [("id", .num (.int workflow.2)), ("workflow_id", .num (.int workflow.2)), ("path", .str workflow.1),
    ("head_sha", .str sampleSha.1), ("head_branch", .str "main"), ("event", .str "push"), ("run_number", .num (.int 1)),
    ("run_attempt", .num (.int 1)), ("status", .str "completed"), ("conclusion", .str "success")]

def samplePage : Doc := .obj [("total_count", .num (.int 4)), ("workflow_runs", .arr (workflows.map sampleRun))]

def sampleReplies : List Reply := [.ok samplePage, .ok (.obj [("sha", .str sampleSha.1)])]

/-- Where the four workflows succeeded, the answer is that all is verified. -/
theorem ci_verification_sound_sample :
    (∃ log v, (verifyCi "token" sampleArgs sampleContext).exec Prog.service sampleReplies [] = (log, .ret v) ∧ isVerified v = true ∧
      ∃ (o : Observation) (pages : List Doc) (response : Doc), observation sampleArgs repository = .ok o ∧
        log = pageLog repository o.sha 1 pages ++ [(mainPath repository, .ok response)] ∧ response.field "sha" = .str o.sha.1 ∧
        Whole pages ∧ ∀ workflow ∈ workflows, Succeeded o.sha (runsOf pages) workflow) ∧
    ∃ log found, (runs "token" repository sampleSha).exec Prog.service sampleReplies [] = (log, .ret found) ∧
      ∃ pages, log = pageLog repository sampleSha 1 pages ∧ found = runsOf pages ∧ Whole pages := by
  have hverify := Prog.exists_of_value? (r := (verifyCi "token" sampleArgs sampleContext).exec Prog.service sampleReplies [])
    (P := isVerified) (by decide +kernel)
  have hruns := Prog.exists_of_value? (r := (runs "token" repository sampleSha).exec Prog.service sampleReplies [])
    (P := fun _ => true) (by decide +kernel)
  obtain ⟨log, v, hrun, hv⟩ := hverify
  obtain ⟨log', found, hrun', -⟩ := hruns
  exact ⟨⟨log, v, hrun, hv, (ci_verification_sound "token").1 _ _ _ _ _ hrun hv⟩,
    ⟨log', found, hrun', (ci_verification_sound "token").2 _ _ _ _ _ hrun'⟩⟩

end GitHubBridge

end Keirin
