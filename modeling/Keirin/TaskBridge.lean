import Keirin.PythonData
import Keirin.Ledger
import Keirin.Lib.Prog
import Keirin.Lib.Log
import Mathlib.Data.String.Basic

/-!
# The task bridge

`claude_task_bridge.py`: it publishes a proposal for the files an issue names as a draft. What it asks of the hosting service
and what it posts there are commands; a reply is a document or an error. A `Refused` is a `ValueError` with its code.
-/

namespace Keirin

namespace TaskBridge

/-- A call of the interface: without data it reads, with data it posts. -/
inductive ApiCmd
  | get (path : String)
  | post (path : String) (data : Doc)

/-- The reply to a call. -/
abbrev ApiReply (_ : ApiCmd) := Except PyError Doc

/-- A program over the interface. -/
abbrev Api := Prog ApiCmd ApiReply PyError

/-- Go on with the value of a computation, or raise its error. -/
def lift {α : Type} : Except PyError α → Api α
  | .ok a => .ret a
  | .error e => .raise e

/-- `api.call(path, data)` -/
def call (c : ApiCmd) : Api Doc := Prog.send (R := ApiReply) c >>= lift

def repo : String := "bzlove178100/-keirin-ai-web"

def owner : String := "bzlove178100"

def maxFile : ℕ := 24000

def maxTotal : ℕ := 60000

/-! ## Texts -/

/-- `PATH.fullmatch(p)` for `(?:ml|tests)/[A-Za-z][A-Za-z0-9_]*\.py` -/
def isPath (p : String) : Bool :=
  let cs := p.toList
  let rest := if "ml/".toList <+: cs then cs.drop 3 else if "tests/".toList <+: cs then cs.drop 6 else []
  let name := rest.take (rest.length - 3)
  ".py".toList <:+ rest &&
    match name with
    | [] => false
    | c :: cs => (Text.isAlnum c && !c.isDigit) && cs.all (fun c => Text.isAlnum c || c = '_')

/-- `SHA.fullmatch(s)` for `[0-9a-f]{40}` -/
def isSha (s : String) : Bool :=
  s.toList.length = 40 && s.toList.all (fun c => c.isDigit || ('a' ≤ c && c ≤ 'f'))

/-- The text after `\s*$`, as much blank as there can be. -/
def toLineEnd : List Char → Option (List Char)
  | [] => some []
  | c :: cs =>
    match if isSpace c then toLineEnd cs else none with
    | some r => some r
    | none => if c = '\n' then some (c :: cs) else none

/-- The text after the heading `### Allowed Python files`, where it stands alone in its line. -/
def afterHeading (cs : List Char) : Option (List Char) :=
  let heading := "### Allowed Python files".toList
  if heading <+: cs then toLineEnd (cs.drop heading.length) else none

/-- What follows each heading of the section with the files; `start` says that a line begins. -/
def sections : (start : Bool) → List Char → List (List Char)
  | _, [] => []
  | start, c :: cs =>
    let found := if start then afterHeading (c :: cs) else none
    found.toList ++ sections (c = '\n') cs

/-- The text up to the next line that begins with `### `. -/
def beforeHeading : (start : Bool) → List Char → List Char
  | _, [] => []
  | start, c :: cs => if start && "### ".toList <+: c :: cs then [] else c :: beforeHeading (c = '\n') cs

/-- The value of a character of the base64 alphabet. -/
def base64Value (c : Char) : Option ℕ :=
  let n := c.toNat
  if 'A' ≤ c && c ≤ 'Z' then some (n - 65)
  else if 'a' ≤ c && c ≤ 'z' then some (n - 71)
  else if c.isDigit then some (n + 4)
  else if c = '+' then some 62
  else if c = '/' then some 63
  else none

/-- `base64.b64decode(s)` from the position `quad` in a group of four: `left` holds the bits not yet written, `pads` counts the
padding since the last digit. Other characters are skipped. -/
def b64decode (quad left pads : ℕ) : List Char → Except PyError (List ℕ)
  | [] =>
    if quad = 0 then .ok []
    else if quad = 1 then .error (.valueError "Invalid base64-encoded string")
    else .error (.valueError "Incorrect padding")
  | c :: cs =>
    if c = '=' then
      if 2 ≤ quad then if 4 ≤ quad + (pads + 1) then .ok [] else b64decode quad left (pads + 1) cs
      else b64decode quad left pads cs
    else
      match base64Value c with
      | none => b64decode quad left pads cs
      | some v =>
        match quad with
        | 0 => b64decode 1 v 0 cs
        | 1 => (b64decode 2 (v % 16) 0 cs).map ((left * 4 + v / 16) :: ·)
        | 2 => (b64decode 3 (v % 4) 0 cs).map ((left * 16 + v / 4) :: ·)
        | _ => (b64decode 0 0 0 cs).map ((left * 64 + v) :: ·)

/-- The number of bytes of a text in UTF-8. -/
def byteLength (s : String) : ℕ := (Text.utf8 s.toList).length

/-! ## Checks -/

/-- `require(condition, code)` -/
def require (condition : Bool) (code : String) : Except PyError Unit := raiseIf (condition = false) (.valueError code)

/-- `x and y and …`, which ends at the first that is false. -/
def conj : List (Except PyError Bool) → Except PyError Bool
  | [] => .ok true
  | x :: xs =>
    match x with
    | .ok true => conj xs
    | .ok false => .ok false
    | .error e => .error e

/-- `any(p(x) for x in xs)`, which ends at the first that holds. -/
def anyOf (p : Doc → Except PyError Bool) : List Doc → Except PyError Bool
  | [] => .ok false
  | x :: xs =>
    match p x with
    | .ok true => .ok true
    | .ok false => anyOf p xs
    | .error e => .error e

/-- `v.get(key, default)` -/
def getWith (v : Doc) (key : String) (default : Doc) : Except PyError Doc :=
  match v with
  | .obj fs => .ok (Dict.getD fs key default)
  | _ => .error (.attributeError "get")

/-- `key in v` -/
def contains (v : Doc) (key : String) : Except PyError Bool :=
  match v with
  | .obj fs => .ok (Dict.get? key fs).isSome
  | .arr xs => .ok (xs.any fun x => Doc.pyEq x (.str key))
  | .str s => .ok (decide (key.toList <:+: s.toList))
  | _ => .error (.typeError "argument is not iterable")

/-- `x == text` -/
def equals (x : Except PyError Doc) (text : String) : Except PyError Bool := x.map fun v => Doc.pyEq v (.str text)

/-- `v.get(key, {}).get("login") == OWNER` -/
def byOwner (v : Doc) (key : String) : Except PyError Bool :=
  equals (getWith v key (.obj []) >>= fun user => user.pyGet "login") owner

/-- `len(v)` -/
def len : Doc → Except PyError ℕ
  | .str s => .ok s.toList.length
  | .arr xs => .ok xs.length
  | .obj fs => .ok fs.length
  | _ => .error (.typeError "object has no len()")

/-- The text that is joined to a path. -/
def asText : Doc → Except PyError String
  | .str s => .ok s
  | _ => .error (.typeError "can only concatenate str to str")

/-- `f"{n}"` -/
def intText (n : ℤ) : String := String.ofList (NumLit.ofInt n).render

/-- `type(value) is int and value > 0` -/
def identifier (value : Doc) : Except PyError ℤ :=
  match value.int? with
  | some n => if 0 < n then .ok n else .error (.valueError "INVALID_ID")
  | none => .error (.valueError "INVALID_ID")

/-- `hashlib.sha256(json.dumps(value, sort_keys=True).encode()).hexdigest()` -/
def digest (value : Doc) : Except PyError String := do
  raiseIf (value.encodable = false) (.typeError "Object is not JSON serializable")
  return String.ofList (Sha256.hexdigest (Text.utf8 (Doc.ascii (value.sortKeys.spaced [' '] Scalar.dumpText))))

/-! ## The event and the issue -/

/-- An open issue of the owner. -/
def ownIssue (issue : Doc) : List (Except PyError Bool) :=
  [byOwner issue "user", equals (issue.pyGet "state") "open", (contains issue "pull_request").map (!·)]

/-- The owner's comment that asks for a run. -/
def ownTrigger (comment : Doc) : List (Except PyError Bool) :=
  [byOwner comment "user", equals (comment.pyGet "body") "/claude-run"]

/-- The numbers of the issue and of the comment of an event the owner caused. -/
def identity (event : Doc) : Except PyError (ℤ × ℤ) := do
  let here ← equals (getWith event "repository" (.obj []) >>= fun r => r.pyGet "full_name") repo
  require here "WRONG_REPO"
  let issue ← getWith event "issue" (.obj [])
  let comment ← getWith event "comment" (.obj [])
  let authorized ← conj ([equals (event.pyGet "action") "created", byOwner event "sender"] ++ ownIssue issue ++ ownTrigger comment)
  require authorized "UNAUTHORIZED_EVENT"
  let number ← issue.pyGet "number"
  let commentId ← comment.pyGet "id"
  let n ← identifier number
  let c ← identifier commentId
  return (n, c)

/-- The paths an issue allows, sorted. -/
def allowedPaths (body : Doc) : Except PyError (List String) := do
  let text := body.text?.getD ""
  require (body.text?.isSome && text.toList.length ≤ 12000) "INVALID_ISSUE"
  let parts := sections true text.toList
  require (parts.length = 1) "SCOPE_SECTION_REQUIRED"
  let section' := beforeHeading true (parts.headD [])
  let paths := ((splitLines (strip (String.ofList section')).toList).map fun line => strip (String.ofList line)).filter (· ≠ "")
  require (1 ≤ paths.length && paths.length ≤ 4 && decide paths.Nodup &&
    paths.all fun p => isPath p && p ≠ "tests/test_claude_task_bridge.py") "INVALID_FILE_SCOPE"
  return paths.insertionSort (· ≤ ·)

/-! ## The context -/

/-- What `fresh_context` derives. -/
structure Context where
  base : String
  issue : ℤ
  comment : ℤ
  issueDigest : String
  scope : List String
  branch : String

namespace Context

/-- The fields of a manifest that come from the context. -/
def fields (c : Context) : Dict Doc :=
  [("base", .str c.base), ("issue", .num (.int c.issue)), ("comment", .num (.int c.comment)), ("issue_digest", .str c.issueDigest),
    ("scope", .arr (c.scope.map .str)), ("branch", .str c.branch)]

end Context

/-- `isinstance(base, str) and SHA.fullmatch(base)` -/
def baseOf (base : Doc) : Except PyError String := do
  let text := base.text?.getD ""
  require (base.text?.isSome && isSha text) "INVALID_BASE"
  return text

/-- `reply["object"]["sha"] == base` -/
def mainAt (reply : Doc) (base : String) : Except PyError Unit := do
  let object ← subscript reply "object"
  let sha ← subscript object "sha"
  require (Doc.pyEq sha (.str base)) "MAIN_MOVED"

/-- The issue and the comment still are what they must be. -/
def triggerStands (issue comment : Doc) (number : ℤ) : Except PyError Unit := do
  let stands ← conj (ownIssue issue ++ ownTrigger comment ++
    [equals (comment.pyGet "issue_url") ("https://api.github.com/repos/" ++ repo ++ "/issues/" ++ intText number)])
  require stands "ISSUE_OR_TRIGGER_CHANGED"

/-- `k in event["issue"] and issue.get(k) == event["issue"][k]` -/
def sameField (event issue : Doc) (k : String) : Except PyError Bool := do
  let original ← subscript event "issue"
  conj [contains original k, do
    let v ← issue.pyGet k
    let w ← subscript original k
    return Doc.pyEq v w]

/-- The issue has the title and the body it had when the owner asked. -/
def issueUnchanged (event issue : Doc) : Except PyError Unit := do
  let same ← conj [sameField event issue "title", sameField event issue "body"]
  require same "ISSUE_CHANGED_AFTER_OWNER_TRIGGER"

/-- No reference is the branch of the task. -/
def branchAbsent (refs : Doc) (branch : String) : Except PyError Unit := do
  let rs ← refs.toList
  let there ← anyOf (fun r => equals (subscript r "ref") ("refs/heads/" ++ branch)) rs
  require (!there) "TASK_BRANCH_EXISTS_REVIEW_BEFORE_RETRY"

/-- `x in scope` -/
def inScope (scope : List String) (x : Doc) : Bool := scope.any fun p => Doc.pyEq (.str p) x

/-- `f.get("filename") in scope or f.get("previous_filename") in scope` -/
def touches (scope : List String) (file : Doc) : Except PyError Bool := do
  let filename ← file.pyGet "filename"
  let previous ← file.pyGet "previous_filename"
  return inScope scope filename || inScope scope previous

/-- The files of a pull request are none of the scope. -/
def filesApart (scope : List String) (files : Doc) : Except PyError Unit := do
  let n ← len files
  require (n < 100) "PR_FILES_TRUNCATED"
  let fs ← files.toList
  let overlap ← anyOf (touches scope) fs
  require (!overlap) "OVERLAPPING_PR"

/-- Read the files of each pull request. -/
def pullsApart (repr : Doc → String) (scope : List String) : List Doc → Api Unit
  | [] => pure ()
  | pr :: prs => do
    let number ← lift (subscript pr "number")
    let files ← call (.get ("pulls/" ++ Doc.toStr repr number ++ "/files?per_page=100"))
    lift (filesApart scope files)
    pullsApart repr scope prs

/-- The pull requests, when the list of them is complete. -/
def pullsOf (prs : Doc) : Except PyError (List Doc) := do
  let n ← len prs
  require (n < 100) "PR_LIST_TRUNCATED"
  prs.toList

/-- The digest of the title and the body of an issue. -/
def issueDigest (issue : Doc) : Except PyError String := do
  let title ← issue.pyGet "title"
  let body ← issue.pyGet "body"
  digest (.obj [("title", title), ("body", body)])

/-- `fresh_context(api, event, base)`; `repr` gives the texts of containers. -/
def freshContext (repr : Doc → String) (event base : Doc) : Api (Context × Doc) := do
  let ids ← lift (identity event)
  let base ← lift (baseOf base)
  let main ← call (.get "git/ref/heads/main")
  lift (mainAt main base)
  let issue ← call (.get ("issues/" ++ intText ids.1))
  let comment ← call (.get ("issues/comments/" ++ intText ids.2))
  lift (triggerStands issue comment ids.1)
  lift (issueUnchanged event issue)
  let body ← lift (issue.pyGet "body")
  let scope ← lift (allowedPaths body)
  let branch := "claude/task-" ++ intText ids.1
  let refs ← call (.get ("git/matching-refs/heads/" ++ branch))
  lift (branchAbsent refs branch)
  let prs ← call (.get "pulls?state=open&per_page=100")
  let prs ← lift (pullsOf prs)
  pullsApart repr scope prs
  let issueDigest ← lift (issueDigest issue)
  return (⟨base, ids.1, ids.2, issueDigest, scope, branch⟩, issue)

/-! ## The sources -/

/-- A source file at the base. -/
structure Source where
  sha : String
  content : String

def Source.toDoc (s : Source) : Doc := .obj [("sha", .str s.sha), ("content", .str s.content)]

/-- The items of a listing by their paths; only texts are looked up. -/
def keyed : List Doc → Except PyError (Dict Doc)
  | [] => .ok []
  | x :: xs => do
    let path ← subscript x "path"
    raiseIf (path.hashable = false) (.typeError "unhashable type")
    let rest ← keyed xs
    return (path.text?.map fun p => (p, x)).toList ++ rest

/-- `{x["path"]: x for x in tree["tree"]}` -/
def entriesOf (tree : Doc) : Except PyError (Dict Doc) := do
  let listed ← subscript tree "tree"
  let xs ← listed.toList
  let items ← keyed xs
  return Dict.update [] items

/-- `commit["tree"]["sha"]` -/
def treeOf (commit : Doc) : Except PyError String := do
  let tree ← subscript commit "tree"
  let sha ← subscript tree "sha"
  asText sha

/-- The listing is complete. -/
def listingComplete (tree : Doc) : Except PyError Unit := do
  let truncated ← getWith tree "truncated" (.bool true)
  require (!Doc.truthy truncated) "TREE_TRUNCATED"

/-- The blob of a regular file that is not too large. -/
def regularBlob (entry : Doc) : Except PyError String := do
  let regular ← conj [equals (entry.pyGet "type") "blob", equals (entry.pyGet "mode") "100644"]
  require regular "ONLY_EXISTING_REGULAR_FILES"
  let size ← entry.pyGet "size"
  require (size.int?.any fun n => n ≤ (maxFile : ℤ)) "SOURCE_TOO_LARGE"
  let sha ← subscript entry "sha"
  asText sha

/-- `base64.b64decode(v)` -/
def decodeBase64 (v : Doc) : Except PyError (List ℕ) :=
  match v with
  | .str s =>
    if s.toList.all (fun c => c.toNat < 128) then b64decode 0 0 0 s.toList
    else .error (.valueError "string argument should contain only ASCII characters")
  | _ => .error (.typeError "argument should be a bytes-like object or ASCII string")

/-- The text of a blob. -/
def blobText (blob : Doc) : Except PyError String := do
  let encoded ← equals (blob.pyGet "encoding") "base64"
  require encoded "INVALID_SOURCE_ENCODING"
  let content ← subscript blob "content"
  let raw ← decodeBase64 content
  require (raw.length ≤ maxFile) "SOURCE_TOO_LARGE"
  decodeUtf8 raw

/-- Read the files of a scope. -/
def readSources (entries : Dict Doc) : List String → Dict Source → Api (Dict Source)
  | [], sources => pure sources
  | path :: scope, sources => do
    let sha ← lift (regularBlob (Dict.getD entries path (.obj [])))
    let blob ← call (.get ("git/blobs/" ++ sha))
    let content ← lift (blobText blob)
    readSources entries scope (Dict.set path ⟨sha, content⟩ sources)

/-- The bytes of the sources. -/
def totalBytes (sources : Dict Source) : ℕ := (sources.map fun s => byteLength s.2.content).sum

/-- `source_files(api, base, scope)` -/
def sourceFiles (base : String) (scope : List String) : Api (String × Dict Source) := do
  let commit ← call (.get ("git/commits/" ++ base))
  let treeSha ← lift (treeOf commit)
  let tree ← call (.get ("git/trees/" ++ treeSha ++ "?recursive=1"))
  lift (listingComplete tree)
  let entries ← lift (entriesOf tree)
  let sources ← readSources entries scope []
  lift (require (totalBytes sources ≤ maxTotal) "SOURCE_BUDGET_EXCEEDED")
  return (treeSha, sources)

/-! ## The proposal -/

/-- The keys of a mapping are these. -/
def hasKeys (v : Doc) (keys : List String) : Bool :=
  match v with
  | .obj fs => fs.all (fun f => f.1 ∈ keys) && keys.all fun k => (Dict.get? k fs).isSome
  | _ => false

/-- A path of an edit: a path of the scope that no edit before it has. -/
def editPath (manifest path : Doc) (seen : List String) : Except PyError Bool :=
  match path with
  | .str p => conj [.ok (isPath p), subscript manifest "scope" >>= fun scope => contains scope p, .ok (decide (p ∉ seen))]
  | _ => .ok false

/-- `manifest["sources"][path]["content"]` -/
def originalContent (manifest : Doc) (path : String) : Except PyError Doc := do
  let sources ← subscript manifest "sources"
  let source ← subscript sources path
  subscript source "content"

/-- One edit: its path and the size of its content. -/
def validateEdit (manifest : Doc) (seen : List String) (item : Doc) : Except PyError (String × ℕ) := do
  require (hasKeys item ["path", "content"]) "INVALID_EDIT"
  let path ← subscript item "path"
  let content ← subscript item "content"
  let inside ← editPath manifest path seen
  require inside "OUT_OF_SCOPE_OR_DUPLICATE"
  let text := content.text?.getD ""
  require (content.text?.isSome && decide ('\x00' ∉ text.toList)) "INVALID_CONTENT"
  let size := byteLength text
  require (0 < size && size ≤ maxFile) "EDIT_SIZE_LIMIT"
  let p := path.text?.getD ""
  let original ← originalContent manifest p
  require (!Doc.pyEq content original) "EMPTY_DIFF"
  return (p, size)

/-- The edits in their order; the result is the size of all of them. -/
def validateEdits (manifest : Doc) : (seen : List String) → (total : ℕ) → List Doc → Except PyError ℕ
  | _, total, [] => .ok total
  | seen, total, item :: items => do
    let edit ← validateEdit manifest seen item
    validateEdits manifest (edit.1 :: seen) (total + edit.2) items

/-- `validate_proposal(proposal, manifest)` -/
def validateProposal (proposal manifest : Doc) : Except PyError (List Doc) := do
  require (hasKeys proposal ["files"]) "INVALID_PROPOSAL"
  let files ← subscript proposal "files"
  let items := files.elements?.getD []
  require (files.elements?.isSome && 1 ≤ items.length && items.length ≤ 4) "INVALID_FILE_COUNT"
  let total ← validateEdits manifest [] 0 items
  require (total ≤ maxTotal) "PROPOSAL_BUDGET_EXCEEDED"
  return items

/-! ## Publication -/

/-- The manifest of a context and its sources. -/
def manifestOf (context : Context) (tree : String) (sources : Dict Source) : Doc :=
  .obj (context.fields ++ [("tree", .str tree), ("sources", .obj (sources.map fun s => (s.1, s.2.toDoc)))])

/-- Post the content of each file; the result is the list of the changes. -/
def postBlobs : List Doc → List Doc → Api (List Doc)
  | [], changes => pure changes
  | item :: items, changes => do
    let content ← lift (subscript item "content")
    let blob ← call (.post "git/blobs" (.obj [("content", content), ("encoding", .str "utf-8")]))
    let path ← lift (subscript item "path")
    let sha ← lift (subscript blob "sha")
    postBlobs items (changes ++ [.obj [("path", path), ("mode", .str "100644"), ("type", .str "blob"), ("sha", sha)]])

/-- The commit of a candidate. -/
def commitData (context : Context) (newTree : Doc) : Doc :=
  .obj [("message", .str ("Candidate for Claude task #" ++ intText context.issue ++ " (tests not run)")), ("tree", newTree),
    ("parents", .arr [.str context.base])]

/-- The reference of a candidate. -/
def refData (context : Context) (commit : Doc) : Doc := .obj [("ref", .str ("refs/heads/" ++ context.branch)), ("sha", commit)]

/-- The draft of a candidate. -/
def pullData (repr : Doc → String) (context : Context) (commit : Doc) : Doc :=
  .obj [("title", .str ("Claude task #" ++ intText context.issue ++ " (review required)")), ("head", .str context.branch),
    ("base", .str "main"), ("draft", .bool true),
    ("body", .str ("Candidate for #" ++ intText context.issue ++ ".\n\nBase: `" ++ context.base ++ "`\nHead: `" ++
      Doc.toStr repr commit ++ "`\n\nTests: NOT RUN. Review the diff before approving CI workflows. " ++
      "Generated code was not executed by the credentialed publisher. " ++
      "No merge, deployment or production activation. All existing stops remain."))]

/-- `all(fresh[k] == v for k, v in final_context.items())` -/
def unchanged (fresh : Doc) : Dict Doc → Except PyError Bool
  | [] => .ok true
  | (k, v) :: fs => do
    let w ← subscript fresh k
    if Doc.pyEq w v then unchanged fresh fs else return false

/-- `publish(api, event, envelope)` -/
def publish (repr : Doc → String) (event envelope : Doc) : Api Doc := do
  lift (require (hasKeys envelope ["manifest", "proposal"]) "INVALID_ENVELOPE")
  let manifest ← lift (subscript envelope "manifest")
  let proposal ← lift (subscript envelope "proposal")
  let base ← lift (subscript manifest "base")
  let context ← freshContext repr event base
  let context := context.1
  let read ← sourceFiles context.base context.scope
  let fresh := manifestOf context read.1 read.2
  lift (require (Doc.pyEq manifest fresh) "STALE_OR_TAMPERED_MANIFEST")
  let files ← lift (validateProposal proposal fresh)
  -- All validation precedes the first write.
  let changes ← postBlobs files []
  let tree ← call (.post "git/trees" (.obj [("base_tree", .str read.1), ("tree", .arr changes)]))
  let newTree ← lift (subscript tree "sha")
  let commit ← call (.post "git/commits" (commitData context newTree))
  let commit ← lift (subscript commit "sha")
  let final ← freshContext repr event (.str context.base)
  let same ← lift (unchanged fresh final.1.fields)
  lift (require same "ISSUE_CHANGED_BEFORE_PUBLISH")
  let _ ← call (.post "git/refs" (refData context commit))
  let pr ← call (.post "pulls" (pullData repr context commit))
  lift (subscript pr "html_url")

end TaskBridge

end Keirin
