import Keirin.Lemmas.TaskBridge

/-!
# The bridge publishes only the reviewed change

Whatever the service replies, every post of a publication is one its review allows, and the review was passed before the first
of them.
-/

namespace Keirin

namespace TaskBridge

/-- What a run knows is the state of the service's log. -/
theorem publication_step {event envelope : Doc} (g s : List Exchange) (c : ApiCmd) (x r : Except PyError Doc) (t : List Exchange)
    (ha : (publication event envelope).allowed g c) (hJ : g = s) (hi : Log.Holds (Permitted event envelope) s)
    (hm : service s c x = some (r, t)) :
    (publication event envelope).possible c r ∧ Log.Holds (Permitted event envelope) t ∧
      (publication event envelope).next g c r = t := by
  subst hJ
  cases hm
  exact ⟨trivial, hi.append ha, rfl⟩

/-- For any event, any envelope and any replies, wherever the run is cut off: every call of a publication reads, or it is a post
that comes after the validation has passed and that the review allows. So the branch of the task is made only where all matched
twice, and the tree differs from that of the base only at paths of the scope that are regular files there. -/
theorem publishes_only_reviewed_change (repr : Doc → String) (event envelope : Doc) (replies : List (Except PyError Doc)) :
    Log.Holds (Permitted event envelope) ((publish repr event envelope).exec service replies []).1 :=
  Prog.exec_inv_alone replies (Log.holds_nil _)
    ((publish_follows repr event envelope).safe_alone (J := fun g s => g = s) publication_step rfl)

/-! ## A sample -/

/-- The sender of the sample. -/
def sampleUser : Doc := .obj [("login", .str owner)]

/-- The issue of the sample. -/
def sampleIssue : Doc :=
  .obj [("number", .num (.int 7)), ("user", sampleUser), ("state", .str "open"), ("title", .str "t"),
    ("body", .str "### Allowed Python files\nml/a.py\n")]

/-- The comment of the sample. -/
def sampleComment : Doc :=
  .obj [("id", .num (.int 9)), ("user", sampleUser), ("body", .str "/claude-run"),
    ("issue_url", .str ("https://api.github.com/repos/" ++ repo ++ "/issues/7"))]

def sampleEvent : Doc :=
  .obj [("repository", .obj [("full_name", .str repo)]), ("action", .str "created"), ("sender", sampleUser),
    ("issue", sampleIssue), ("comment", sampleComment)]

/-- The base of the sample. -/
def sampleBase : String := String.ofList (List.replicate 40 'a')

/-- An object with a digest. -/
def sampleSha (sha : String) : Doc := .obj [("sha", .str sha)]

/-- The replies of one context of the sample. -/
def sampleContextReplies : List Doc := [.obj [("object", sampleSha sampleBase)], sampleIssue, sampleComment, .arr [], .arr []]

def sampleReplies : List Doc :=
  sampleContextReplies ++
    [.obj [("tree", sampleSha "t")],
      .obj [("truncated", .bool false), ("tree", .arr [.obj [("path", .str "ml/a.py"), ("type", .str "blob"), ("mode", .str "100644"),
        ("size", .num (.int 1)), ("sha", .str "b")]])],
      .obj [("encoding", .str "base64"), ("content", .str "eA==")],
      sampleSha "b2", sampleSha "t2", sampleSha "c2"] ++
    sampleContextReplies ++ [.obj [], .obj [("html_url", .str "u")]]

def sampleEnvelope : Doc :=
  .obj [("manifest", .obj [("base", .str sampleBase), ("issue", .num (.int 7)), ("comment", .num (.int 9)),
      ("issue_digest", .str "28343d8e0d3f33db3780a0af56e80794f168a10912f0744aa0a08935ff7f8ec3"),
      ("scope", .arr [.str "ml/a.py"]), ("branch", .str "claude/task-7"), ("tree", .str "t"),
      ("sources", .obj [("ml/a.py", .obj [("sha", .str "b"), ("content", .str "x")])])]),
    ("proposal", .obj [("files", .arr [.obj [("path", .str "ml/a.py"), ("content", .str "y")]])])]

/-- A publication that goes through posts the content, the tree, the commit, the branch and the draft. -/
example : ((publish (fun _ => "") sampleEvent sampleEnvelope).exec service (sampleReplies.map .ok) []).1.filterMap
    (fun x => match x.1 with
      | .get _ => none
      | .post path _ => some path) = ["git/blobs", "git/trees", "git/commits", "git/refs", "pulls"] := by decide +kernel

end TaskBridge

end Keirin
