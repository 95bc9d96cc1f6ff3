import Keirin.TaskBridge

/-!
# What a publication may post

A publication knows the calls it made and their replies. From these one reads off what it may post: `Matched` says what the
replies of a fresh context said, `SourcesRead` what those of the sources said, and `Permitted` which posts they allow.
-/

namespace Keirin

namespace TaskBridge

/-- A call and its reply. -/
abbrev Exchange := ApiCmd × Except PyError Doc

/-- A call that only reads. -/
def ApiCmd.reads : ApiCmd → Prop
  | .get _ => True
  | .post _ _ => False

/-- The exchanges have this document in reply to this call. -/
def Answered (log : List Exchange) (c : ApiCmd) (reply : Doc) : Prop := (c, .ok reply) ∈ log

/-- `v.get(key, {}).get("login")` is the owner. -/
def OwnedBy (v : Doc) (key : String) : Prop := (v.field key).field "login" = .str owner

/-- What the replies of a fresh context said: main was at the base, the issue and the comment were the owner's and as the event
has them, the scope is the one the issue allows, and the branch of the task was not there. -/
structure Matched (event : Doc) (context : Context) (log : List Exchange) : Prop where
  reads : ∀ x ∈ log, x.1.reads
  base : isSha context.base = true
  identified : identity event = .ok (context.issue, context.comment)
  main : ∃ reply, Answered log (.get "git/ref/heads/main") reply ∧ (reply.field "object").field "sha" = .str context.base
  issue : ∃ issue, Answered log (.get ("issues/" ++ intText context.issue)) issue ∧ OwnedBy issue "user" ∧
    issue.field "state" = .str "open" ∧ issue.get? "pull_request" = none ∧
    (∀ k ∈ ["title", "body"], ((event.field "issue").get? k).isSome ∧
      Doc.pyEq (issue.field k) ((event.field "issue").field k) = true) ∧
    allowedPaths (issue.field "body") = .ok context.scope ∧ issueDigest issue = .ok context.issueDigest
  comment : ∃ comment, Answered log (.get ("issues/comments/" ++ intText context.comment)) comment ∧ OwnedBy comment "user" ∧
    comment.field "body" = .str "/claude-run" ∧
    comment.field "issue_url" = .str ("https://api.github.com/repos/" ++ repo ++ "/issues/" ++ intText context.issue)
  branch : context.branch = "claude/task-" ++ intText context.issue
  absent : ∃ refs rs, Answered log (.get ("git/matching-refs/heads/" ++ context.branch)) refs ∧ refs.toList = .ok rs ∧
    ∀ r ∈ rs, r.field "ref" ≠ .str ("refs/heads/" ++ context.branch)

/-- A regular file of a listing. -/
def Regular (entries : Dict Doc) (path : String) : Prop :=
  ∃ entry, Dict.get? path entries = some entry ∧ entry.field "type" = .str "blob" ∧ entry.field "mode" = .str "100644"

/-- A source is what the listing and the reply for its blob say. -/
def SourceRead (entries : Dict Doc) (log : List Exchange) (path : String) (source : Source) : Prop :=
  Regular entries path ∧ ((Dict.getD entries path .null).field "sha" = .str source.sha) ∧
    ∃ blob, Answered log (.get ("git/blobs/" ++ source.sha)) blob ∧ blobText blob = .ok source.content

/-- What the replies of the sources said: `tree` is the tree of the base, `entries` its listing, and each path of the scope is a
regular file there, whose blob is the source. -/
structure SourcesRead (context : Context) (tree : String) (entries : Dict Doc) (sources : Dict Source) (log : List Exchange) :
    Prop where
  reads : ∀ x ∈ log, x.1.reads
  baseTree : ∃ commit, Answered log (.get ("git/commits/" ++ context.base)) commit ∧ (commit.field "tree").field "sha" = .str tree
  listing : ∃ listing, Answered log (.get ("git/trees/" ++ tree ++ "?recursive=1")) listing ∧ entriesOf listing = .ok entries
  scope : ∀ path ∈ context.scope, ∃ source, Dict.get? path sources = some source ∧ SourceRead entries log path source
  only : ∀ path source, Dict.get? path sources = some source → path ∈ context.scope

/-- What the validation found. -/
structure Review where
  context : Context
  tree : String
  entries : Dict Doc
  sources : Dict Source
  files : List Doc

/-- The validation passed, and the exchanges begin with what it read: the envelope is a manifest and a proposal, the manifest is
the one derived afresh, and the proposal is valid for it. -/
structure Review.Passed (r : Review) (event envelope : Doc) (log : List Exchange) : Prop where
  keys : hasKeys envelope ["manifest", "proposal"] = true
  manifest : Doc.pyEq (envelope.field "manifest") (manifestOf r.context r.tree r.sources) = true
  proposal : validateProposal (envelope.field "proposal") (manifestOf r.context r.tree r.sources) = .ok r.files
  read : ∃ first second rest, log = first ++ second ++ rest ∧ Matched event r.context first ∧
    SourcesRead r.context r.tree r.entries r.sources second

/-- The entry of a path in the tree the service makes of a base tree and listed changes: a change replaces the entry of its
path. -/
def overlay (entries : Dict Doc) (changes : List Doc) (path : String) : Option Doc :=
  (changes.find? fun c => c.field "path" = .str path).orElse fun _ => Dict.get? path entries

/-- A post the review allows. -/
inductive Review.Allows (r : Review) (event : Doc) (log : List Exchange) : ApiCmd → Prop
  /-- The content of a file of the proposal. -/
  | blob (item : Doc) (h : item ∈ r.files) :
      r.Allows event log (.post "git/blobs" (.obj [("content", item.field "content"), ("encoding", .str "utf-8")]))
  /-- A tree that differs from the base tree only at paths of the scope that are regular files there. -/
  | tree (changes : List Doc)
      (h : ∀ path, overlay r.entries changes path ≠ Dict.get? path r.entries → path ∈ r.context.scope ∧ Regular r.entries path)
      (hfiles : ∀ c ∈ changes, ∃ item ∈ r.files, ∃ sha, c = .obj [("path", item.field "path"), ("mode", .str "100644"),
        ("type", .str "blob"), ("sha", sha)]) :
      r.Allows event log (.post "git/trees" (.obj [("base_tree", .str r.tree), ("tree", .arr changes)]))
  /-- A commit of a tree made before, with the base as its parent. -/
  | commit (data reply newTree : Doc) (h : Answered log (.post "git/trees" data) reply) (hsha : subscript reply "sha" = .ok newTree) :
      r.Allows event log (.post "git/commits" (commitData r.context newTree))
  /-- The branch of the task at a commit made before, where all matched once more after it. -/
  | ref (data reply commit : Doc) (before after : List Exchange) (hlog : log = before ++ after)
      (h : Answered before (.post "git/commits" data) reply) (hsha : subscript reply "sha" = .ok commit)
      (hagain : Matched event r.context after) :
      r.Allows event log (.post "git/refs" (refData r.context commit))
  /-- The draft, once the branch was made. -/
  | pull (repr : Doc → String) (commit reply : Doc) (h : Answered log (.post "git/refs" (refData r.context commit)) reply) :
      r.Allows event log (.post "pulls" (pullData repr r.context commit))

/-- A call is in order: it reads, or the validation has passed and its review allows the post. -/
def Permitted (event envelope : Doc) (log : List Exchange) (x : Exchange) : Prop :=
  x.1.reads ∨ ∃ r : Review, r.Passed event envelope log ∧ r.Allows event log x.1

/-- What a publication may call, knowing the calls before. -/
def publication (event envelope : Doc) : Discipline (List Exchange) ApiCmd ApiReply where
  next log c reply := log ++ [(c, reply)]
  allowed log c := c.reads ∨ ∃ r : Review, r.Passed event envelope log ∧ r.Allows event log c

/-- The service answers each call as it chooses; the state is the calls and replies so far. -/
def service : Machine (List Exchange) ApiCmd ApiReply (Except PyError Doc) := fun log c reply => some (reply, log ++ [(c, reply)])

end TaskBridge

end Keirin
