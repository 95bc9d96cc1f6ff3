import Keirin.Ledger

/-!
# The credential adapter

What a tool returns is a Python value: dicts with keys of any kind, lists, tuples, results and artifact updates. The adapter looks
for the secrets of the active credential in its texts (`containsCredentialMaterial`) and hands the value on, and the runner
converts it (`returned`): into texts by `str`, into the fields of a document by `json.dumps`, into dicts by `asdict`.
-/

namespace Keirin

/-! ## Values -/

/-- A value a tool returns. -/
inductive PyValue
  | none
  | bool (b : Bool)
  | num (n : Scalar)
  | str (s : String)
  | list (xs : List PyValue)
  | tuple (xs : List PyValue)
  | dict (items : List (PyValue × PyValue))
  | actionResult (message artifacts data : PyValue)
  | artifactUpdate (artifactId kind locator created verified persistentSaved deviceSaved uiLoaded metadata : PyValue)
  | credentialSnapshot

namespace PyValue

/-- `bool(v)` -/
def truthy : PyValue → Bool
  | none => false
  | bool b => b
  | num n => n.truthy
  | str s => s ≠ ""
  | list xs => !xs.isEmpty
  | tuple xs => !xs.isEmpty
  | dict items => !items.isEmpty
  | _ => true

/-- `str(v)`; `repr` gives the text of containers and objects. -/
def toStr (repr : PyValue → String) : PyValue → String
  | none => Doc.toStr (fun _ => "") .null
  | bool b => Doc.toStr (fun _ => "") (.bool b)
  | num n => Doc.toStr (fun _ => "") (.num n)
  | str s => s
  | v => repr v

/-- `d.get(key)` -/
def get (key : String) (items : List (PyValue × PyValue)) : PyValue :=
  match items with
  | [] => none
  | (str k, v) :: rest => if k = key then v else get key rest
  | _ :: rest => get key rest

/-! ## The scan -/

/-- `secret and secret in value`, for one of the secrets. -/
def leaks (secrets : List String) (s : String) : Bool := secrets.any fun secret => secret ≠ "" && decide (secret.toList <:+: s.toList)

mutual

/-- `_contains_credential_material`; the identities it keeps serve to read a shared value once only. -/
def containsCredentialMaterial (secrets : List String) : PyValue → Bool
  | credentialSnapshot => true
  | str s => leaks secrets s
  | actionResult message artifacts data =>
    containsCredentialMaterial secrets message || containsCredentialMaterial secrets artifacts ||
      containsCredentialMaterial secrets data
  | artifactUpdate artifactId kind locator _ _ _ _ _ metadata =>
    containsCredentialMaterial secrets artifactId || containsCredentialMaterial secrets kind ||
      containsCredentialMaterial secrets locator || containsCredentialMaterial secrets metadata
  | dict items => containsItems secrets items
  | list xs => containsList secrets xs
  | tuple xs => containsList secrets xs
  | none => false
  | bool _ => false
  | num _ => false

def containsList (secrets : List String) : List PyValue → Bool
  | [] => false
  | x :: xs => containsCredentialMaterial secrets x || containsList secrets xs

def containsItems (secrets : List String) : List (PyValue × PyValue) → Bool
  | [] => false
  | (k, v) :: items =>
    containsCredentialMaterial secrets k || containsCredentialMaterial secrets v || containsItems secrets items

end

/-! ## Documents -/

/-- Where a value goes: to a verifier, into an event of the ledger, or into the state, which `asdict` converts first. -/
inductive Target
  | verifier
  | ledger
  | state
deriving DecidableEq

/-- The name `json.dumps` gives to the key of a dict. -/
def name? : PyValue → Option String
  | str s => some s
  | none => some "null"
  | bool true => some "true"
  | bool false => some "false"
  | num (.object _) => Option.none
  | num n => some (String.ofList n.dumpText)
  | _ => Option.none

def isStr : PyValue → Bool
  | str _ => true
  | _ => false

/-- Whether a key compares with numbers. -/
def isNumber : PyValue → Bool
  | bool _ => true
  | num _ => true
  | _ => false

/-- Whether `json.dumps` with sorted keys refuses a dict: a key has no name, or the keys cannot be compared. -/
def refused (items : List (PyValue × PyValue)) : Bool :=
  items.any (fun i => i.1.name? = Option.none) ||
    !(items.all (fun i => i.1.isStr) || items.all (fun i => i.1.isNumber) || items.length ≤ 1)

/-- The name of a key; one that has none is only ever looked past. -/
def keyName (k : PyValue) : String := k.name?.getD ""

mutual

/-- The document of a value. A value `json.dumps` refuses is an object; a verifier gets all of it. -/
def doc (target : Target) : PyValue → Doc
  | none => .null
  | bool b => .bool b
  | num n => .num n
  | str s => .str s
  | list xs => .arr (docList target xs)
  | tuple xs => .arr (docList target xs)
  | dict items => if target ≠ .verifier ∧ refused items then .num (.object true) else .obj (docItems target items)
  | actionResult message artifacts data =>
    if target = .state then
      .obj [("message", doc target message), ("artifacts", doc target artifacts), ("data", doc target data)]
    else .num (.object true)
  | artifactUpdate artifactId kind locator created verified persistentSaved deviceSaved uiLoaded metadata =>
    if target = .state then
      .obj [("artifact_id", doc target artifactId), ("kind", doc target kind), ("locator", doc target locator),
        ("created", doc target created), ("verified", doc target verified), ("persistent_saved", doc target persistentSaved),
        ("device_saved", doc target deviceSaved), ("ui_loaded", doc target uiLoaded), ("metadata", doc target metadata)]
    else .num (.object true)
  | credentialSnapshot => .num (.object true)

def docList (target : Target) : List PyValue → List Doc
  | [] => []
  | x :: xs => doc target x :: docList target xs

def docItems (target : Target) : List (PyValue × PyValue) → List (String × Doc)
  | [] => []
  | (k, v) :: items => (keyName k, doc target v) :: docItems target items

end

/-- A pair of a key and a value, as `dict` reads it from an element of a sequence. -/
def pair? : PyValue → Option (PyValue × PyValue)
  | list [k, v] => some (k, v)
  | tuple [k, v] => some (k, v)
  | dict [(k, _), (l, _)] => some (k, l)
  | str s =>
    match s.toList with
    | [c, d] => some (str (String.ofList [c]), str (String.ofList [d]))
    | _ => Option.none
  | _ => Option.none

/-- The pairs of a sequence. -/
def pairs? : PyValue → Option (List (PyValue × PyValue))
  | list xs => xs.mapM pair?
  | tuple xs => xs.mapM pair?
  | str s => if s = "" then some [] else Option.none
  | _ => Option.none

/-- The document of a value that `dict` or `dict.update` reads. -/
def mapping (target : Target) (v : PyValue) : Doc :=
  match v with
  | dict items => doc target (dict items)
  | v =>
    match pairs? v with
    | some items => .arr (items.map fun i => .arr [.str i.1.keyName, doc target i.2])
    | Option.none => .num (.object v.truthy)

/-! ## What the runner makes of a value -/

/-- The artifact update with the given fields. -/
def updateOf (artifactId kind locator created verified persistentSaved deviceSaved uiLoaded metadata : PyValue) : ArtifactUpdate :=
  { artifactId := doc .state artifactId
    kind := doc .state kind
    locator := doc .state locator
    created := doc .state created
    verified := doc .state verified
    persistentSaved := doc .state persistentSaved
    deviceSaved := doc .state deviceSaved
    uiLoaded := doc .state uiLoaded
    metadata := mapping .state metadata }

/-- The fields of an artifact that is given as a dict with names. -/
def kwargs (items : List (PyValue × PyValue)) : Dict Doc :=
  items.map fun i => (i.1.keyName, if i.1.keyName = "metadata" then mapping .state i.2 else doc .state i.2)

/-- An element of the artifacts of a result. -/
def artifactItem : PyValue → ArtifactItem
  | artifactUpdate artifactId kind locator created verified persistentSaved deviceSaved uiLoaded metadata =>
    .update (updateOf artifactId kind locator created verified persistentSaved deviceSaved uiLoaded metadata)
  | dict items => if items.all (fun i => i.1.isStr) then .mapping (kwargs items) else .other
  | _ => .other

/-- The elements of a value; a dict has its keys and a text its characters. -/
def elements : PyValue → Option (List PyValue)
  | list xs => some xs
  | tuple xs => some xs
  | dict items => some (items.map Prod.fst)
  | str s => some (s.toList.map fun c => str (String.ofList [c]))
  | _ => Option.none

/-- The artifacts of a result. -/
def artifacts (v : PyValue) : Iterable ArtifactItem :=
  match v.elements with
  | some xs => .ofList (xs.map artifactItem)
  | Option.none => .notIterable

/-- `value.get("artifacts", ())` -/
def artifactsOf (items : List (PyValue × PyValue)) : PyValue :=
  if items.any (fun i => i.1.isStr && i.1.keyName = "artifacts") then get "artifacts" items else tuple []

/-- `str(value.get("message") or "")` -/
def messageOf (repr : PyValue → String) (items : List (PyValue × PyValue)) : String :=
  if (get "message" items).truthy then (get "message" items).toStr repr else ""

/-- `dict(value.get("data") or {})` -/
def dataOf (items : List (PyValue × PyValue)) : Except ActionExc (Dict Doc) :=
  if (get "data" items).truthy then (Doc.toDict (mapping .verifier (get "data" items))).mapError fun _ => .other else .ok []

/-- What a value is to the runner. -/
def returned (repr : PyValue → String) : PyValue → Returned
  | none => .none
  | bool b => .bool b
  | actionResult message arts data =>
    .result { message := doc .ledger message, artifacts := artifacts arts, data := mapping .verifier data }
  | dict items =>
    .dict { artifacts := artifacts (artifactsOf items), message := .ok (messageOf repr items), data := dataOf items
            verified := match get "verified" items with
              | bool b => b
              | _ => false }
  | _ => .other

end PyValue

/-! ## The adapter -/

/-- What became of the credential provider and of the wrapped action. -/
inductive ToolReply
  | unavailable
  | providerFailure
  | invalidSnapshot
  | blocked
  | failed
  | value (v : PyValue)

/-- `invoke`, with the secrets of the snapshot. -/
def invoke (repr : PyValue → String) (secrets : List String) : ToolReply → Except ActionExc Returned
  | .unavailable => .error (.blocked "credential_unavailable")
  | .providerFailure => .error (.blocked "credential_provider_failure")
  | .invalidSnapshot => .error (.blocked "credential_provider_invalid_snapshot")
  | .blocked => .error (.blocked "credential_bound_provider_action_blocked")
  | .failed => .error (.safe "credential_bound_provider_action_failed")
  | .value v =>
    if v.containsCredentialMaterial secrets then .error (.safe "credential_material_return_forbidden")
    else .ok (v.returned repr)

/-! ## Texts -/

mutual

/-- The texts of a document: those of its values and the names of its fields. -/
def Doc.texts : Doc → List String
  | .str s => [s]
  | .arr xs => textsList xs
  | .obj fs => textsFields fs
  | .null => []
  | .bool _ => []
  | .num _ => []

def Doc.textsList : List Doc → List String
  | [] => []
  | x :: xs => Doc.texts x ++ Doc.textsList xs

def Doc.textsFields : List (String × Doc) → List String
  | [] => []
  | (k, x) :: fs => k :: (Doc.texts x ++ Doc.textsFields fs)

end

/-- The texts of what is merged into the metadata of an artifact. -/
def metadataTexts (metadata : Doc) : List String :=
  match metadata with
  | .obj fs => Doc.textsFields fs
  | .arr xs =>
    match xs.mapM Doc.toPair with
    | .ok kvs => Doc.textsFields kvs
    | .error _ => []
  | _ => []

/-- The texts an update leaves in an artifact: the identifier, the kind, the locator and the metadata. -/
def ArtifactUpdate.texts (u : ArtifactUpdate) : List String :=
  Doc.texts u.artifactId ++ Doc.texts u.kind ++ Doc.texts u.locator ++ metadataTexts u.metadata

/-- The texts of an item the runner applies. -/
def ArtifactItem.texts : ArtifactItem → List String
  | .update u => u.texts
  | _ => []

/-- The texts the runner takes over from a result: the message of the event `step_completed`, and those of the artifacts. -/
def ActionResult.texts (r : ActionResult) : List String :=
  Doc.texts r.message ++ (r.artifacts.pass 0).items.flatMap ArtifactItem.texts

/-- The texts of an artifact of a state, and the key it is kept under. -/
def artifactTexts (a : String × ArtifactState) : List String :=
  a.1 :: (Doc.texts a.2.artifactId ++ Doc.texts a.2.kind ++ Doc.texts a.2.locator ++ Doc.texts a.2.metadata)

/-! ## Texts that arise by conversion -/

namespace PyValue

/-- The text that becomes of a key that is none. -/
def keyTexts (k : PyValue) : List String := if k.isStr then [] else [k.keyName]

/-- The names of the fields of an action result. -/
def resultFields : List String := ["message", "artifacts", "data"]

mutual

/-- The texts of the document of a value that are not texts of the value: names of keys that are no texts, and, where `asdict`
converts a result or an update, the names of its fields and the texts of its flags. -/
def made (target : Target) : PyValue → List String
  | list xs => madeList target xs
  | tuple xs => madeList target xs
  | dict items => if target ≠ .verifier ∧ refused items then [] else madeItems target items
  | actionResult message artifacts data =>
    if target = .state then resultFields ++ (made target message ++ made target artifacts ++ made target data) else []
  | artifactUpdate artifactId kind locator created verified persistentSaved deviceSaved uiLoaded metadata =>
    if target = .state then
      ArtifactUpdate.fieldNames ++ (made target artifactId ++ made target kind ++ made target locator ++
        Doc.texts (doc target created) ++ Doc.texts (doc target verified) ++ Doc.texts (doc target persistentSaved) ++
        Doc.texts (doc target deviceSaved) ++ Doc.texts (doc target uiLoaded) ++ made target metadata)
    else []
  | none => []
  | bool _ => []
  | num _ => []
  | str _ => []
  | credentialSnapshot => []

def madeList (target : Target) : List PyValue → List String
  | [] => []
  | x :: xs => made target x ++ madeList target xs

def madeItems (target : Target) : List (PyValue × PyValue) → List String
  | [] => []
  | (k, v) :: items => keyTexts k ++ made target v ++ madeItems target items

end

/-- The same for a value that is merged into metadata. -/
def madeMapping (v : PyValue) : List String :=
  match v with
  | dict items => made .state (dict items)
  | v =>
    match pairs? v with
    | some items => madeItems .state items
    | Option.none => []

/-- The same for the parts of an update that are taken over. -/
def madeParts (artifactId kind locator metadata : PyValue) : List String :=
  made .state artifactId ++ made .state kind ++ made .state locator ++ madeMapping metadata

/-- The same for an element of the artifacts of an `ActionResult`, where only an update is taken over. -/
def madeUpdate : PyValue → List String
  | artifactUpdate artifactId kind locator _ _ _ _ _ metadata => madeParts artifactId kind locator metadata
  | _ => []

/-- The same for an element of the artifacts of a dict, which may give an update by its fields. -/
def madeItem : PyValue → List String
  | dict items =>
    if items.all (fun i => i.1.isStr) then
      madeParts (get "artifact_id" items) (get "kind" items) (get "locator" items) (get "metadata" items)
    else []
  | v => madeUpdate v

/-- The texts the runner takes over from a result that are not texts of the result; the message of a dict is one of them where
it is true and no text. -/
def converted (repr : PyValue → String) : PyValue → List String
  | actionResult message arts _ => made .ledger message ++ (arts.elements.getD []).flatMap madeUpdate
  | dict items =>
    (if (get "message" items).truthy && !(get "message" items).isStr then [(get "message" items).toStr repr] else []) ++
      ((artifactsOf items).elements.getD []).flatMap madeItem
  | _ => []

end PyValue

end Keirin
