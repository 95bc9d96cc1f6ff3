import Keirin.SecretPaths
import Keirin.Lib.JsonKeys

/-!
# The same payloads are rejected

The scans of the clients and of the edge function find a forbidden name just where a document has one, so that a document which one side
lets through is let through by the other.
-/

namespace Keirin.SecretPaths

open Json (HasKey hasKey_obj hasKey_arr)

/-! ## Scans -/

/-- A client finds a path just where some key is forbidden. -/
theorem clientPath_isSome (keys : List String) (v : Doc) (path : String) :
    (clientPath keys path v).isSome = true ↔ HasKey (fun key => lowerKey key ∈ keys) v := by
  induction v using Json.induct generalizing path with
  | null => exact ⟨fun h => (nomatch h), fun h => (nomatch h)⟩
  | bool b => exact ⟨fun h => (nomatch h), fun h => (nomatch h)⟩
  | num n => exact ⟨fun h => (nomatch h), fun h => (nomatch h)⟩
  | str s => exact ⟨fun h => (nomatch h), fun h => (nomatch h)⟩
  | arr xs ih =>
    have hlist : ∀ index, (clientEnumerate keys path index xs).isSome = true ↔ ∃ x ∈ xs, HasKey (fun key => lowerKey key ∈ keys) x := by
      induction xs with
      | nil => exact fun _ => ⟨fun h => (nomatch h), fun ⟨_, hx, _⟩ => (nomatch hx)⟩
      | cons x xs ihxs =>
        intro index
        rw [clientEnumerate, List.exists_mem_cons_iff, ← ih x List.mem_cons_self (path ++ "[" ++ toString index ++ "]"),
          ← ihxs (fun x hx => ih x (List.mem_cons_of_mem _ hx)) (index + 1)]
        cases clientPath keys (path ++ "[" ++ toString index ++ "]") x <;> simp
    rw [clientPath, hasKey_arr, hlist]
  | obj fs ih =>
    have hlist : (clientItems keys path fs).isSome = true ↔
        ∃ f ∈ fs, lowerKey f.1 ∈ keys ∨ HasKey (fun key => lowerKey key ∈ keys) f.2 := by
      induction fs with
      | nil => exact ⟨fun h => (nomatch h), fun ⟨_, hf, _⟩ => (nomatch hf)⟩
      | cons f fs ihfs =>
        rw [clientItems, List.exists_mem_cons_iff, ← ih f List.mem_cons_self (path ++ "." ++ f.1),
          ← ihfs fun f hf => ih f (List.mem_cons_of_mem _ hf)]
        split_ifs with hkey
        · simp [hkey]
        · cases clientPath keys (path ++ "." ++ f.1) f.2 <;> simp [hkey]
    rw [clientPath, hasKey_obj, hlist]

/-- The edge function finds a path just where some key is forbidden. -/
theorem findForbiddenSecretPath_isSome (v : JsDoc) (path : String) :
    (findForbiddenSecretPath path v).isSome = true ↔ HasKey (fun key => lowerKey key ∈ FORBIDDEN_SECRET_KEYS) v := by
  induction v using Json.induct generalizing path with
  | null => exact ⟨fun h => (nomatch h), fun h => (nomatch h)⟩
  | bool b => exact ⟨fun h => (nomatch h), fun h => (nomatch h)⟩
  | num n => exact ⟨fun h => (nomatch h), fun h => (nomatch h)⟩
  | str s => exact ⟨fun h => (nomatch h), fun h => (nomatch h)⟩
  | arr xs ih =>
    have hlist : ∀ i, (findInArray path i xs).isSome = true ↔ ∃ x ∈ xs, HasKey (fun key => lowerKey key ∈ FORBIDDEN_SECRET_KEYS) x := by
      induction xs with
      | nil => exact fun _ => ⟨fun h => (nomatch h), fun ⟨_, hx, _⟩ => (nomatch hx)⟩
      | cons x xs ihxs =>
        intro i
        rw [findInArray, List.exists_mem_cons_iff, Option.isSome_or, Bool.or_eq_true, ih x List.mem_cons_self,
          ihxs fun x hx => ih x (List.mem_cons_of_mem _ hx)]
    rw [findForbiddenSecretPath, hasKey_arr, hlist]
  | obj fs ih =>
    have hlist : (findInEntries path fs).isSome = true ↔
        ∃ f ∈ fs, lowerKey f.1 ∈ FORBIDDEN_SECRET_KEYS ∨ HasKey (fun key => lowerKey key ∈ FORBIDDEN_SECRET_KEYS) f.2 := by
      induction fs with
      | nil => exact ⟨fun h => (nomatch h), fun ⟨_, hf, _⟩ => (nomatch hf)⟩
      | cons f fs ihfs =>
        rw [findInEntries, List.exists_mem_cons_iff, ← ih f List.mem_cons_self (path ++ "." ++ f.1),
          ← ihfs fun f hf => ih f (List.mem_cons_of_mem _ hf)]
        split_ifs with hkey
        · simp [hkey]
        · simp [hkey, Option.isSome_or]
    rw [findForbiddenSecretPath, hasKey_obj, hlist]

/-! ## Documents between the services -/

/-- A document of a dict: the keys of an object stand once. -/
abbrev PyValue := { v : Doc // v.keysOnce = true }

/-- A document of JavaScript: the keys of an object stand once. -/
abbrev JsValue := { v : JsDoc // v.keysOnce = true }

/-- A document keeps its keys on its way to the edge function. -/
theorem hasKey_parse {p : String → Prop} {v : Doc} (hv : v.keysOnce = true) : HasKey p (JsDoc.parse v.toLits) ↔ HasKey p v := by
  have hkeys : (Doc.toLits v).keysOnce = true := by
    unfold Doc.toLits
    rw [Json.keysOnce_bindNum fun n => by cases n <;> rfl, hv]
  unfold JsDoc.parse
  rw [Json.hasKey_rebuild (fun fs => JsDoc.perm_object) (fun _ h => by cases h) hkeys]
  exact Json.hasKey_bindNum (fun n h => by cases n <;> cases h) v

/-- A document keeps its keys on its way back. -/
theorem hasKey_received {p : String → Prop} {v : JsDoc} (hv : v.keysOnce = true) : HasKey p (JsDoc.received v) ↔ HasKey p v := by
  have hkeys : (JsDoc.stringify v).keysOnce = true := by
    unfold JsDoc.stringify
    rw [Json.keysOnce_bindNum fun n => by cases n <;> rfl, hv]
  have hperm : ∀ fs : Dict Doc, (fs.map Prod.fst).Nodup → (Dict.update [] fs).Perm fs := by
    intro fs h
    rw [Json.update_nil h]
  unfold JsDoc.received Doc.ofLits
  rw [Json.hasKey_rebuild hperm (fun _ h => by cases h) hkeys]
  exact Json.hasKey_bindNum (fun n h => by cases n <;> cases h) v

/-- A key that is forbidden. -/
def Forbidden (key : String) : Prop := lowerKey key ∈ FORBIDDEN_KEYS

/-- The three scans hit just where an object of the document, at any depth, has a key that in small letters is a forbidden one. A payload
that a client sends is hit by the edge function if and only if the clients hit it, and a payload that the edge function returns is hit by
the clients if and only if the edge function hits it. -/
theorem scans_agree :
    (∀ (v : Doc) (path : String), (queueForbiddenSecretPath v path).isSome = true ↔ HasKey Forbidden v) ∧
      (∀ (v : Doc) (path : String), (activityForbiddenSecretPath v path).isSome = true ↔ HasKey Forbidden v) ∧
      (∀ (v : JsDoc) (path : String), (findForbiddenSecretPath path v).isSome = true ↔ HasKey Forbidden v) ∧
      (∀ (v : PyValue) (path path' : String), match v.1.wire with
        | .error _ => True
        | .ok text => (findForbiddenSecretPath path (JsDoc.parse text)).isSome = (queueForbiddenSecretPath v.1 path').isSome ∧
            (findForbiddenSecretPath path (JsDoc.parse text)).isSome = (activityForbiddenSecretPath v.1 path').isSome) ∧
      ∀ (v : JsValue) (path path' : String),
        (queueForbiddenSecretPath (JsDoc.received v.1) path').isSome = (findForbiddenSecretPath path v.1).isSome ∧
          (activityForbiddenSecretPath (JsDoc.received v.1) path').isSome = (findForbiddenSecretPath path v.1).isSome := by
  have hqueue : ∀ (v : Doc) (path : String), (queueForbiddenSecretPath v path).isSome = true ↔ HasKey Forbidden v := clientPath_isSome _
  have hactivity : ∀ (v : Doc) (path : String), (activityForbiddenSecretPath v path).isSome = true ↔ HasKey Forbidden v :=
    clientPath_isSome _
  have hedge : ∀ (v : JsDoc) (path : String), (findForbiddenSecretPath path v).isSome = true ↔ HasKey Forbidden v :=
    findForbiddenSecretPath_isSome
  refine ⟨hqueue, hactivity, hedge, fun v path path' => ?_, fun v path path' => ?_⟩
  · split
    · trivial
    · rename_i text hwire
      have htext : text = v.1.toLits := by
        obtain ⟨_, -, hwire⟩ := bind_ok.1 hwire
        cases hwire
        rfl
      have hsent := hasKey_parse (p := Forbidden) v.2
      rw [htext]
      exact ⟨Bool.eq_iff_iff.2 (((hedge _ _).trans hsent).trans (hqueue _ _).symm),
        Bool.eq_iff_iff.2 (((hedge _ _).trans hsent).trans (hactivity _ _).symm)⟩
  · have hsent := hasKey_received (p := Forbidden) v.2
    exact ⟨Bool.eq_iff_iff.2 (((hqueue _ _).trans hsent).trans (hedge _ _).symm),
      Bool.eq_iff_iff.2 (((hactivity _ _).trans hsent).trans (hedge _ _).symm)⟩

/-! ## The shared scan -/

/-- What the other parts of the model scan with is the scan of the clients. -/
theorem forbiddenSecretPath_client (v : Doc) (path : String) : forbiddenSecretPath path v = queueForbiddenSecretPath v path := by
  induction v using Json.induct generalizing path with
  | null => rfl
  | bool b => rfl
  | num n => rfl
  | str s => rfl
  | arr xs ih =>
    have hlist : ∀ index, forbiddenElement path index xs = clientEnumerate queueKeys path index xs := by
      induction xs with
      | nil => exact fun _ => rfl
      | cons x xs ihxs =>
        intro index
        have hx := ih x List.mem_cons_self (path ++ "[" ++ toString index ++ "]")
        have hxs := ihxs (fun x hx => ih x (List.mem_cons_of_mem _ hx)) (index + 1)
        have hpath : s!"{path}[{index}]" = path ++ "[" ++ toString index ++ "]" := rfl
        rw [forbiddenElement, clientEnumerate, hpath, hx, hxs, queueForbiddenSecretPath]
        cases clientPath queueKeys (path ++ "[" ++ toString index ++ "]") x <;> rfl
    exact hlist 0
  | obj fs ih =>
    show forbiddenField path fs = clientItems queueKeys path fs
    induction fs with
    | nil => rfl
    | cons f fs ihfs =>
      have hf := ih f List.mem_cons_self (path ++ "." ++ f.1)
      have hfs := ihfs fun f hf => ih f (List.mem_cons_of_mem _ hf)
      have hpath : s!"{path}.{f.1}" = path ++ "." ++ f.1 := rfl
      rw [forbiddenField, clientItems, hpath, hf, hfs, queueForbiddenSecretPath]
      have hkeys : FORBIDDEN_KEYS = queueKeys := rfl
      rw [hkeys]
      split_ifs
      · rfl
      · cases clientPath queueKeys (path ++ "." ++ f.1) f.2 <;> rfl

/-- And it is the scan of the edge function. -/
theorem forbiddenSecretPath_edge (v : JsDoc) (path : String) : forbiddenSecretPath path v = findForbiddenSecretPath path v := by
  induction v using Json.induct generalizing path with
  | null => rfl
  | bool b => rfl
  | num n => rfl
  | str s => rfl
  | arr xs ih =>
    have hlist : ∀ index, forbiddenElement path index xs = findInArray path index xs := by
      induction xs with
      | nil => exact fun _ => rfl
      | cons x xs ihxs =>
        intro index
        have hpath : s!"{path}[{index}]" = path ++ "[" ++ toString index ++ "]" := rfl
        rw [forbiddenElement, findInArray, hpath, ih x List.mem_cons_self, ihxs fun x hx => ih x (List.mem_cons_of_mem _ hx)]
    exact hlist 0
  | obj fs ih =>
    show forbiddenField path fs = findInEntries path fs
    induction fs with
    | nil => rfl
    | cons f fs ihfs =>
      have hpath : s!"{path}.{f.1}" = path ++ "." ++ f.1 := rfl
      have hkeys : FORBIDDEN_KEYS = FORBIDDEN_SECRET_KEYS := rfl
      rw [forbiddenField, findInEntries, hpath, hkeys, ih f List.mem_cons_self, ihfs fun f hf => ih f (List.mem_cons_of_mem _ hf)]

end Keirin.SecretPaths
