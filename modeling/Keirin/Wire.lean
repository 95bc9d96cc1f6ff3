import Keirin.Ledger
import Keirin.Lib.JsDoc
import Keirin.PythonData

/-!
# Documents between the services

The clients write JSON and read it back; the edge function reads it with JavaScript and writes it again; the database keeps it.
A text is given by the document it writes out. Names under which no service accepts a value are the same on both sides.
-/

namespace Keirin

/-! ## The texts of Python -/

/-- What `json.dumps` writes for a number; the values it refuses are told apart before. -/
def Scalar.toLits : Scalar → JsonLits
  | .int n => .num (NumLit.ofInt n)
  | .float x => .num x.pyRepr
  | _ => .null

namespace Doc

/-- The document `json.dumps` writes out. -/
def toLits (v : Doc) : JsonLits := v.bindNum Scalar.toLits

/-- `json.loads(text)`; of the fields with one key the last counts. -/
def ofLits (text : JsonLits) : Doc := text.rebuild (fun l => .num (Scalar.ofLit l)) (Dict.update [])

/-- `json.dumps(v, allow_nan=False)` -/
def wire (v : Doc) : Except PyError JsonLits := do
  checkFinite v
  return toLits v

end Doc

/-- What Python reads of a document of JavaScript. -/
def JsDoc.received (v : JsDoc) : Doc := Doc.ofLits (JsDoc.stringify v)

/-! ## Forbidden names -/

/-- `_FORBIDDEN_KEYS`, `FORBIDDEN_SECRET_KEYS` -/
def FORBIDDEN_KEYS : List String :=
  ["token", "access_token", "refresh_token", "password", "secret", "service_role", "service_role_key", "api_key", "apikey",
    "authorization"]

/-- `key.lower()`, `key.toLowerCase()`, as far as it can give a name of ASCII: beyond ASCII only the sign of the kelvin does. -/
def lowerKey (key : String) : String := String.ofList (key.toList.map fun c => if c.toNat = 0x212a then 'k' else c.toLower)

section Secrets

variable {ν : Type}

mutual

/-- `_forbidden_secret_path`, `findForbiddenSecretPath`: the path of the first field with a forbidden name. -/
def forbiddenSecretPath (path : String) : Json ν → Option String
  | .obj fs => forbiddenField path fs
  | .arr xs => forbiddenElement path 0 xs
  | _ => none

def forbiddenField (path : String) : List (String × Json ν) → Option String
  | [] => none
  | (key, child) :: fs =>
    if lowerKey key ∈ FORBIDDEN_KEYS then some s!"{path}.{key}"
    else (forbiddenSecretPath s!"{path}.{key}" child).or (forbiddenField path fs)

def forbiddenElement (path : String) (index : ℕ) : List (Json ν) → Option String
  | [] => none
  | child :: xs => (forbiddenSecretPath s!"{path}[{index}]" child).or (forbiddenElement path (index + 1) xs)

end

end Secrets

end Keirin
