import Keirin.Wire

/-!
# Scans for forbidden names

`hosted_queue.py`, `hosted_activity.py` and `contract.ts`: each of them has a list of forbidden names of its own, and a recursion of
its own that looks for them in a document, in the order of its fields.
-/

namespace Keirin

namespace SecretPaths

/-! ## The clients -/

section Client

variable (keys : List String)

mutual

/-- `_forbidden_secret_path(value, path)`, `keys` being the forbidden ones. -/
def clientPath (path : String) : Doc → Option String
  | .obj fs => clientItems path fs
  | .arr xs => clientEnumerate path 0 xs
  | _ => none

/-- `for key, child in value.items()` -/
def clientItems (path : String) : List (String × Doc) → Option String
  | [] => none
  | (key, child) :: fs =>
    if lowerKey key ∈ keys then some (path ++ "." ++ key)
    else
      match clientPath (path ++ "." ++ key) child with
      | some found => some found
      | none => clientItems path fs

/-- `for index, child in enumerate(value)` -/
def clientEnumerate (path : String) (index : ℕ) : List Doc → Option String
  | [] => none
  | child :: xs =>
    match clientPath (path ++ "[" ++ toString index ++ "]") child with
    | some found => some found
    | none => clientEnumerate path (index + 1) xs

end

end Client

/-- `_FORBIDDEN_KEYS` of the client of the queue. -/
def queueKeys : List String :=
  ["token", "access_token", "refresh_token", "password", "secret", "service_role", "service_role_key", "api_key", "apikey", "authorization"]

/-- `_FORBIDDEN_KEYS` of the client of the activity ledger. -/
def activityKeys : List String :=
  ["token", "access_token", "refresh_token", "password", "secret", "service_role", "service_role_key", "api_key", "apikey", "authorization"]

/-- `_forbidden_secret_path` of the client of the queue. -/
def queueForbiddenSecretPath (value : Doc) (path : String) : Option String := clientPath queueKeys path value

/-- `_forbidden_secret_path` of the client of the activity ledger. -/
def activityForbiddenSecretPath (value : Doc) (path : String) : Option String := clientPath activityKeys path value

/-! ## The edge function -/

def FORBIDDEN_SECRET_KEYS : List String :=
  ["token", "access_token", "refresh_token", "password", "secret", "service_role", "service_role_key", "api_key", "apikey", "authorization"]

mutual

/-- `findForbiddenSecretPath(value, path)` -/
def findForbiddenSecretPath (path : String) : JsDoc → Option String
  | .arr xs => findInArray path 0 xs
  | .obj fs => findInEntries path fs
  | _ => none

/-- `for (let i = 0; i < value.length; i += 1)` -/
def findInArray (path : String) (i : ℕ) : List JsDoc → Option String
  | [] => none
  | child :: xs => (findForbiddenSecretPath (path ++ "[" ++ toString i ++ "]") child).or (findInArray path (i + 1) xs)

/-- `for (const [key, child] of Object.entries(value))` -/
def findInEntries (path : String) : List (String × JsDoc) → Option String
  | [] => none
  | (key, child) :: fs =>
    if lowerKey key ∈ FORBIDDEN_SECRET_KEYS then some (path ++ "." ++ key)
    else (findForbiddenSecretPath (path ++ "." ++ key) child).or (findInEntries path fs)

end

end SecretPaths

end Keirin
