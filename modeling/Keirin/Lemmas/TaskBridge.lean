import Keirin.Lemmas.PythonData
import Keirin.PublicationDiscipline

/-!
# The calls of a publication

`ReadsTo` is the judgement about the parts that only read: whatever the replies, they make no post, and what they return is
bound to the replies they had. One rule for each form of a program; the context, the sources and then the whole publication
from these.
-/

namespace Keirin

namespace TaskBridge

/-! ## Checks -/

theorem require_ok {condition : Bool} {code : String} {u : Unit} : require condition code = .ok u ↔ condition = true := by
  cases condition <;> simp [require, raiseIf]

theorem conj_ok {xs : List (Except PyError Bool)} : conj xs = .ok true ↔ ∀ x ∈ xs, x = .ok true := by
  induction xs with
  | nil => simp [conj]
  | cons x xs ih =>
    rw [List.forall_mem_cons]
    match x with
    | .ok true => simp [conj, ih]
    | .ok false => simp [conj]
    | .error e => simp [conj]

/-- A search that finds nothing looked at everything. -/
theorem anyOf_false {p : Doc → Except PyError Bool} {xs : List Doc} (h : anyOf p xs = .ok false) : ∀ x ∈ xs, p x = .ok false := by
  induction xs with
  | nil => simp
  | cons x xs ih =>
    rw [anyOf] at h
    split at h
    · nomatch h
    · rename_i hx
      exact List.forall_mem_cons.2 ⟨hx, ih h⟩
    · nomatch h

theorem equals_ok {x : Except PyError Doc} {t : String} : equals x t = .ok true ↔ x = .ok (.str t) := by
  cases x with
  | error e => simp [equals, Except.map]
  | ok v => simp [equals, Except.map, Doc.pyEq_str]

theorem equals_false {x : Except PyError Doc} {t : String} (h : equals x t = .ok false) : ∃ v, x = .ok v ∧ v ≠ .str t := by
  cases x with
  | error e => nomatch h
  | ok v =>
    refine ⟨v, rfl, fun hv => ?_⟩
    have ht : equals (.ok v) t = .ok true := equals_ok.2 (by rw [hv])
    rw [h] at ht
    nomatch ht

theorem field_of_subscript {v w : Doc} {key : String} (h : subscript v key = .ok w) : v.field key = w := by
  rw [Doc.field, subscript_ok.1 h, Option.getD_some]

theorem field_of_pyGet {v w : Doc} {key : String} (h : v.pyGet key = .ok w) : v.field key = w := by
  cases v with
  | obj fs =>
    cases h
    rfl
  | _ => nomatch h

/-- A text under two keys, the first of which may be missing. -/
theorem field_of_getWith {v : Doc} {key key' t : String}
    (h : (getWith v key (.obj []) >>= fun w => w.pyGet key') = .ok (.str t)) : (v.field key).field key' = .str t := by
  obtain ⟨w, hw, h⟩ := bind_ok.1 h
  cases v with
  | obj fs =>
    cases hw
    cases hk : Dict.get? key fs with
    | none => simp [Dict.getD, hk, Doc.pyGet, Dict.get?] at h
    | some w =>
      simp only [Dict.getD, hk, Option.getD_some] at h
      have hf : Doc.field (.obj fs) key = w := by simp [Doc.field, Json.get?, hk]
      rw [hf]
      exact field_of_pyGet h
  | _ => cases hw

theorem byOwner_ok {v : Doc} {key : String} (h : byOwner v key = .ok true) : OwnedBy v key := field_of_getWith (equals_ok.1 h)

/-- What is not among the keys of a mapping is not there. -/
theorem get?_of_contains {v w : Doc} {key key' : String} (hv : v.pyGet key' = .ok w)
    (h : (contains v key).map (!·) = .ok true) : v.get? key = none := by
  cases v with
  | obj fs => simpa [contains, Except.map, Json.get?] using h
  | _ => cases hv

theorem ownIssue_ok {issue : Doc} (h : conj (ownIssue issue) = .ok true) :
    OwnedBy issue "user" ∧ issue.field "state" = .str "open" ∧ issue.get? "pull_request" = none := by
  simp only [ownIssue, conj_ok, List.forall_mem_cons] at h
  obtain ⟨huser, hstate, hpull, -⟩ := h
  have hstate := equals_ok.1 hstate
  exact ⟨byOwner_ok huser, field_of_pyGet hstate, get?_of_contains hstate hpull⟩

theorem conj_append {xs ys : List (Except PyError Bool)} (h : conj (xs ++ ys) = .ok true) : conj xs = .ok true ∧ conj ys = .ok true :=
  ⟨conj_ok.2 fun x hx => conj_ok.1 h x (List.mem_append_left _ hx), conj_ok.2 fun x hx => conj_ok.1 h x (List.mem_append_right _ hx)⟩

/-! ## What the checks of a context say -/

theorem baseOf_ok {base : Doc} {b : String} (h : baseOf base = .ok b) : base = .str b ∧ isSha b = true := by
  obtain ⟨u, hu, h⟩ := bind_ok.1 h
  have hu := require_ok.1 hu
  cases base with
  | str s =>
    cases h
    exact ⟨rfl, (Bool.and_eq_true_iff.1 hu).2⟩
  | _ => simp [Doc.text?] at hu

theorem baseOf_str {b : String} (h : isSha b = true) : baseOf (.str b) = .ok b := by
  have hr : require ((Doc.text? (.str b)).isSome && isSha ((Doc.text? (.str b)).getD "")) "INVALID_BASE" = .ok () :=
    require_ok.2 (by simp [Doc.text?, h])
  rw [baseOf, hr]
  rfl

theorem mainAt_ok {reply : Doc} {b : String} {u : Unit} (h : mainAt reply b = .ok u) :
    (reply.field "object").field "sha" = .str b := by
  obtain ⟨object, ho, h⟩ := bind_ok.1 h
  obtain ⟨sha, hs, h⟩ := bind_ok.1 h
  rw [field_of_subscript ho, field_of_subscript hs]
  exact Doc.pyEq_str.1 (require_ok.1 h)

theorem sameField_ok {event issue : Doc} {k : String} (h : sameField event issue k = .ok true) :
    ((event.field "issue").get? k).isSome ∧ Doc.pyEq (issue.field k) ((event.field "issue").field k) = true := by
  obtain ⟨original, ho, h⟩ := bind_ok.1 h
  rw [conj_ok] at h
  have hsame := h _ (List.mem_cons_of_mem _ List.mem_cons_self)
  obtain ⟨v, hv, hsame⟩ := bind_ok.1 hsame
  obtain ⟨w, hw, hsame⟩ := bind_ok.1 hsame
  rw [field_of_subscript ho, subscript_ok.1 hw, field_of_subscript hw, field_of_pyGet hv]
  exact ⟨rfl, Except.ok.inj hsame⟩

theorem branchAbsent_ok {refs : Doc} {branch : String} {u : Unit} (h : branchAbsent refs branch = .ok u) :
    ∃ rs, refs.toList = .ok rs ∧ ∀ r ∈ rs, r.field "ref" ≠ .str ("refs/heads/" ++ branch) := by
  obtain ⟨rs, hrs, h⟩ := bind_ok.1 h
  obtain ⟨there, hthere, h⟩ := bind_ok.1 h
  have hno : there = false := by simpa using require_ok.1 h
  subst hno
  refine ⟨rs, hrs, fun r hr => ?_⟩
  obtain ⟨v, hv, hne⟩ := equals_false (anyOf_false hthere r hr)
  rwa [field_of_subscript hv]

/-! ## Programs that only read -/

variable {event envelope : Doc} {α β : Type}

/-- The program only reads; what it returns is bound to its exchanges by `Q`. -/
def ReadsTo (event envelope : Doc) (Q : α → List Exchange → Prop) (p : Api α) : Prop :=
  ∀ g, p.Follows (publication event envelope) (fun a g' => ∃ seg, g' = g ++ seg ∧ (∀ x ∈ seg, x.1.reads) ∧ Q a seg) g

theorem follows_lift {D : Discipline (List Exchange) ApiCmd ApiReply} {Q : α → List Exchange → Prop} {x : Except PyError α}
    {g : List Exchange} (h : ∀ a, x = .ok a → Q a g) : (lift x).Follows D Q g := by
  cases x with
  | ok a => exact h a rfl
  | error e => trivial

/-- A call that is in order, and what follows its reply. -/
theorem follows_call {Q : Doc → List Exchange → Prop} {c : ApiCmd} {g : List Exchange}
    (hc : (publication event envelope).allowed g c) (h : ∀ v, Q v (g ++ [(c, .ok v)])) :
    (call c).Follows (publication event envelope) Q g := by
  refine ⟨hc, fun r _ => ?_⟩
  cases r with
  | ok v => exact h v
  | error e => trivial

theorem readsTo_pure {Q : α → List Exchange → Prop} {a : α} (h : Q a []) : ReadsTo event envelope Q (pure a) :=
  fun g => ⟨[], by simp, by simp, h⟩

theorem readsTo_lift_bind {Q : β → List Exchange → Prop} {x : Except PyError α} {f : α → Api β}
    (h : ∀ a, x = .ok a → ReadsTo event envelope Q (f a)) : ReadsTo event envelope Q (lift x >>= f) := by
  intro g
  cases x with
  | ok a => exact h a rfl g
  | error e => trivial

theorem readsTo_lift {Q : α → List Exchange → Prop} {x : Except PyError α} (h : ∀ a, x = .ok a → Q a []) :
    ReadsTo event envelope Q (lift x) :=
  fun _ => follows_lift fun a ha => ⟨[], by simp, by simp, h a ha⟩

theorem readsTo_get_bind {Q : β → List Exchange → Prop} {path : String} {f : Doc → Api β}
    (h : ∀ v, ReadsTo event envelope (fun b seg => Q b ((.get path, .ok v) :: seg)) (f v)) :
    ReadsTo event envelope Q (call (.get path) >>= f) := by
  intro g
  refine ⟨.inl trivial, fun r _ => ?_⟩
  cases r with
  | error e => trivial
  | ok v =>
    refine (h v _).mono fun b g' hb => ?_
    obtain ⟨seg, rfl, hseg, hQ⟩ := hb
    exact ⟨(.get path, .ok v) :: seg, by simp [publication], List.forall_mem_cons.2 ⟨trivial, hseg⟩, hQ⟩

theorem readsTo_bind {P : α → List Exchange → Prop} {Q : β → List Exchange → Prop} {p : Api α} {f : α → Api β}
    (hp : ReadsTo event envelope P p)
    (hf : ∀ a seg, P a seg → ReadsTo event envelope (fun b seg' => Q b (seg ++ seg')) (f a)) :
    ReadsTo event envelope Q (p >>= f) := by
  intro g
  refine (hp g).bind fun a g' ha => ?_
  obtain ⟨seg, rfl, hseg, hP⟩ := ha
  refine (hf a seg hP _).mono fun b g'' hb => ?_
  obtain ⟨seg', rfl, hseg', hQ⟩ := hb
  refine ⟨seg ++ seg', by simp, fun x hx => ?_, hQ⟩
  rcases List.mem_append.1 hx with hx | hx
  · exact hseg x hx
  · exact hseg' x hx

theorem readsTo_mono {P Q : α → List Exchange → Prop} {p : Api α} (hp : ReadsTo event envelope P p)
    (h : ∀ a seg, (∀ x ∈ seg, x.1.reads) → P a seg → Q a seg) : ReadsTo event envelope Q p :=
  fun g => (hp g).mono fun a g' ha => by
    obtain ⟨seg, hg, hseg, hP⟩ := ha
    exact ⟨seg, hg, hseg, h a seg hseg hP⟩

/-! ## The context -/

theorem pullsApart_reads (repr : Doc → String) (scope : List String) (prs : List Doc) :
    ReadsTo event envelope (fun _ _ => True) (pullsApart repr scope prs) := by
  induction prs with
  | nil => exact readsTo_pure trivial
  | cons pr prs ih =>
    exact readsTo_lift_bind fun number _ => readsTo_get_bind fun files => readsTo_lift_bind fun _ _ => ih

/-- What a fresh context returns matches the replies. -/
theorem freshContext_reads (repr : Doc → String) (base : Doc) :
    ReadsTo event envelope (fun r log => base = .str r.1.base ∧ Matched event r.1 log) (freshContext repr event base) := by
  suffices h : ReadsTo event envelope
      (fun r log => (∀ x ∈ log, x.1.reads) → base = .str r.1.base ∧ Matched event r.1 log) (freshContext repr event base) from
    readsTo_mono h fun _ _ hseg hQ => hQ hseg
  refine readsTo_lift_bind fun ids hids => readsTo_lift_bind fun b hb => readsTo_get_bind fun main =>
    readsTo_lift_bind fun _ hmain => readsTo_get_bind fun issue => readsTo_get_bind fun comment =>
    readsTo_lift_bind fun _ hstands => readsTo_lift_bind fun _ hsame => readsTo_lift_bind fun body hbody =>
    readsTo_lift_bind fun scope hscope => readsTo_get_bind fun refs => readsTo_lift_bind fun _ hrefs =>
    readsTo_get_bind fun prs => readsTo_lift_bind fun prs' _ => readsTo_bind (pullsApart_reads repr scope prs') fun _ seg _ =>
    readsTo_lift_bind fun digest hdigest => readsTo_pure fun hreads => ?_
  obtain ⟨rfl, hsha⟩ := baseOf_ok hb
  refine ⟨rfl, ?_⟩
  obtain ⟨stands, hconj, hstands⟩ := bind_ok.1 hstands
  obtain rfl := require_ok.1 hstands
  obtain ⟨hown, hurl⟩ := conj_append hconj
  obtain ⟨hissue, htrigger⟩ := conj_append hown
  obtain ⟨huser, hopen, hpull⟩ := ownIssue_ok hissue
  simp only [ownTrigger, conj_ok, List.forall_mem_cons] at htrigger hurl
  obtain ⟨hcuser, hcbody, -⟩ := htrigger
  obtain ⟨same, hconj, hsame⟩ := bind_ok.1 hsame
  obtain rfl := require_ok.1 hsame
  simp only [conj_ok, List.forall_mem_cons] at hconj
  obtain ⟨htitle, hbodySame, -⟩ := hconj
  obtain ⟨rs, hrs, habsent⟩ := branchAbsent_ok hrefs
  refine
    { reads := hreads
      base := hsha
      identified := hids
      main := ⟨main, by simp [Answered], mainAt_ok hmain⟩
      issue := ⟨issue, by simp [Answered], huser, hopen, hpull, ?_, ?_, hdigest⟩
      comment := ⟨comment, by simp [Answered], byOwner_ok hcuser, field_of_pyGet (equals_ok.1 hcbody),
        field_of_pyGet (equals_ok.1 hurl.1)⟩
      branch := rfl
      absent := ⟨refs, rs, by simp [Answered], hrs, habsent⟩ }
  · intro k hk
    rcases List.mem_pair.1 hk with rfl | rfl
    · exact sameField_ok htitle
    · exact sameField_ok hbodySame
  · rw [field_of_pyGet hbody]
    exact hscope

/-! ## The sources -/

theorem SourceRead.mono {entries : Dict Doc} {log log' : List Exchange} {path : String} {source : Source}
    (h : SourceRead entries log path source) (hlog : log ⊆ log') : SourceRead entries log' path source := by
  obtain ⟨hreg, hsha, blob, hb, ht⟩ := h
  exact ⟨hreg, hsha, blob, hlog hb, ht⟩

theorem regularBlob_ok {entries : Dict Doc} {path sha : String} (h : regularBlob (Dict.getD entries path (.obj [])) = .ok sha) :
    Regular entries path ∧ (Dict.getD entries path .null).field "sha" = .str sha := by
  obtain ⟨regular, hconj, h⟩ := bind_ok.1 h
  obtain ⟨u, hu, h⟩ := bind_ok.1 h
  rw [require_ok.1 hu] at hconj
  obtain ⟨size, -, h⟩ := bind_ok.1 h
  obtain ⟨_, -, h⟩ := bind_ok.1 h
  obtain ⟨v, hv, h⟩ := bind_ok.1 h
  simp only [conj_ok, List.forall_mem_cons] at hconj
  obtain ⟨htype, hmode, -⟩ := hconj
  cases hk : Dict.get? path entries with
  | none => simp [Dict.getD, hk, subscript, Dict.get?] at hv
  | some entry =>
    have hget : ∀ d, Dict.getD entries path d = entry := fun d => by rw [Dict.getD, hk, Option.getD_some]
    rw [hget] at htype hmode hv ⊢
    refine ⟨⟨entry, hk, field_of_pyGet (equals_ok.1 htype), field_of_pyGet (equals_ok.1 hmode)⟩, ?_⟩
    rw [field_of_subscript hv]
    cases v with
    | str s =>
      cases h
      rfl
    | _ => cases h

theorem readSources_reads (entries : Dict Doc) (scope : List String) (sources : Dict Source) :
    ReadsTo event envelope (fun sources' log =>
      (∀ path ∈ scope, ∃ source, Dict.get? path sources' = some source ∧ SourceRead entries log path source) ∧
      ∀ path, path ∉ scope → Dict.get? path sources' = Dict.get? path sources) (readSources entries scope sources) := by
  induction scope generalizing sources with
  | nil => exact readsTo_pure ⟨by simp, fun _ _ => rfl⟩
  | cons path scope ih =>
    refine readsTo_lift_bind fun sha hsha => readsTo_get_bind fun blob => readsTo_lift_bind fun content hcontent =>
      readsTo_mono (ih _) fun sources' seg _ hseg => ?_
    obtain ⟨hread, hrest⟩ := hseg
    have hmono : seg ⊆ (ApiCmd.get ("git/blobs/" ++ sha), .ok blob) :: seg := List.subset_cons_self _ _
    constructor
    · refine List.forall_mem_cons.2 ⟨?_, fun p hp => ?_⟩
      · by_cases hp : path ∈ scope
        · obtain ⟨source, hs, hr⟩ := hread path hp
          exact ⟨source, hs, hr.mono hmono⟩
        · obtain ⟨hreg, hs⟩ := regularBlob_ok hsha
          exact ⟨⟨sha, content⟩, by rw [hrest path hp, Dict.get?_set_self], hreg, hs, blob, List.mem_cons_self, hcontent⟩
      · obtain ⟨source, hs, hr⟩ := hread p hp
        exact ⟨source, hs, hr.mono hmono⟩
    · intro p hp
      rw [List.mem_cons, not_or] at hp
      rw [hrest p hp.2, Dict.get?_set_of_ne hp.1]

/-- What the sources return matches the replies. -/
theorem sourceFiles_reads (context : Context) :
    ReadsTo event envelope (fun r log => ∃ entries, SourcesRead context r.1 entries r.2 log)
      (sourceFiles context.base context.scope) := by
  suffices h : ReadsTo event envelope (fun r log => (∀ x ∈ log, x.1.reads) → ∃ entries, SourcesRead context r.1 entries r.2 log)
      (sourceFiles context.base context.scope) from readsTo_mono h fun _ _ hseg hQ => hQ hseg
  refine readsTo_get_bind fun commit => readsTo_lift_bind fun tree htree => readsTo_get_bind fun listing =>
    readsTo_lift_bind fun _ _ => readsTo_lift_bind fun entries hentries =>
    readsTo_bind (readSources_reads entries context.scope []) fun sources seg hseg =>
    readsTo_lift_bind fun _ _ => readsTo_pure fun hreads => ⟨entries, ?_⟩
  obtain ⟨hread, hrest⟩ := hseg
  refine
    { reads := hreads
      baseTree := ⟨commit, by simp [Answered], ?_⟩
      listing := ⟨listing, by simp [Answered], hentries⟩
      scope := fun path hp => ?_
      only := fun path source hs => ?_ }
  · obtain ⟨t, ht, h⟩ := bind_ok.1 htree
    obtain ⟨sha, hsha, h⟩ := bind_ok.1 h
    rw [field_of_subscript ht, field_of_subscript hsha]
    cases sha with
    | str s =>
      cases h
      rfl
    | _ => nomatch h
  · obtain ⟨source, hs, hr⟩ := hread path hp
    exact ⟨source, hs, hr.mono fun x hx => by simp [hx]⟩
  · by_contra hp
    rw [hrest path hp] at hs
    nomatch hs

/-! ## The proposal -/

theorem scope_of_manifest (context : Context) (tree : String) (sources : Dict Source) :
    subscript (manifestOf context tree sources) "scope" = .ok (.arr (context.scope.map .str)) := rfl

/-- The path of a valid edit is one of the scope. -/
theorem validateEdit_path {context : Context} {tree : String} {sources : Dict Source} {seen : List String} {item : Doc}
    {edit : String × ℕ} (h : validateEdit (manifestOf context tree sources) seen item = .ok edit) :
    ∃ path ∈ context.scope, item.field "path" = .str path := by
  obtain ⟨_, -, h⟩ := bind_ok.1 h
  obtain ⟨path, hpath, h⟩ := bind_ok.1 h
  obtain ⟨content, -, h⟩ := bind_ok.1 h
  obtain ⟨inside, hinside, h⟩ := bind_ok.1 h
  obtain ⟨u, hu, -⟩ := bind_ok.1 h
  obtain rfl := require_ok.1 hu
  rw [field_of_subscript hpath]
  cases path with
  | str p =>
    rw [editPath, conj_ok] at hinside
    have hscope := hinside _ (List.mem_cons_of_mem _ List.mem_cons_self)
    rw [scope_of_manifest] at hscope
    have hany : ((context.scope.map Json.str).any fun x => Doc.pyEq x (.str p)) = true := Except.ok.inj hscope
    obtain ⟨x, hx, hp⟩ := List.any_eq_true.1 hany
    obtain ⟨q, hq, rfl⟩ := List.mem_map.1 hx
    cases Doc.pyEq_str.1 hp
    exact ⟨p, hq, rfl⟩
  | _ => nomatch hinside

theorem validateEdits_paths {context : Context} {tree : String} {sources : Dict Source} {seen : List String} {total n : ℕ}
    {items : List Doc} (h : validateEdits (manifestOf context tree sources) seen total items = .ok n) :
    ∀ item ∈ items, ∃ path ∈ context.scope, item.field "path" = .str path := by
  induction items generalizing seen total with
  | nil => simp
  | cons item items ih =>
    obtain ⟨edit, hedit, h⟩ := bind_ok.1 h
    exact List.forall_mem_cons.2 ⟨validateEdit_path hedit, ih h⟩

/-- The path of every file of a valid proposal is one of the scope. -/
theorem validateProposal_paths {proposal : Doc} {context : Context} {tree : String} {sources : Dict Source} {files : List Doc}
    (h : validateProposal proposal (manifestOf context tree sources) = .ok files) :
    ∀ item ∈ files, ∃ path ∈ context.scope, item.field "path" = .str path := by
  obtain ⟨_, -, h⟩ := bind_ok.1 h
  obtain ⟨v, -, h⟩ := bind_ok.1 h
  obtain ⟨_, -, h⟩ := bind_ok.1 h
  obtain ⟨total, htotal, h⟩ := bind_ok.1 h
  obtain ⟨_, -, h⟩ := bind_ok.1 h
  cases h
  exact validateEdits_paths htotal

/-! ## The second context -/

theorem pyEqList_strs {xs ys : List String} (h : Doc.pyEqList (xs.map .str) (ys.map .str) = true) : xs = ys := by
  induction xs generalizing ys with
  | nil =>
    cases ys with
    | nil => rfl
    | cons y ys => simp [Doc.pyEqList] at h
  | cons x xs ih =>
    cases ys with
    | nil => simp [Doc.pyEqList] at h
    | cons y ys =>
      simp only [List.map_cons, Doc.pyEqList, Bool.and_eq_true] at h
      have hx : x = y := by simpa using Doc.pyEq_str.1 h.1
      rw [hx, ih h.2]

theorem pyEq_int {m n : ℤ} (h : Doc.pyEq (.num (.int m)) (.num (.int n)) = true) : m = n := by
  simpa [Doc.pyEq, Doc.eqNumber, Doc.number, Scalar.value] using h

theorem unchanged_cons {fresh v : Doc} {k : String} {fs : Dict Doc} (h : unchanged fresh ((k, v) :: fs) = .ok true) :
    (∃ w, subscript fresh k = .ok w ∧ Doc.pyEq w v = true) ∧ unchanged fresh fs = .ok true := by
  obtain ⟨w, hw, h⟩ := bind_ok.1 h
  split at h
  · rename_i heq
    exact ⟨⟨w, hw, heq⟩, h⟩
  · nomatch h

/-- A context whose fields are those of the manifest is the context of the manifest. -/
theorem unchanged_context {context final : Context} {tree : String} {sources : Dict Source}
    (h : unchanged (manifestOf context tree sources) final.fields = .ok true) : final = context := by
  obtain ⟨⟨w₁, hw₁, h₁⟩, h⟩ := unchanged_cons h
  obtain ⟨⟨w₂, hw₂, h₂⟩, h⟩ := unchanged_cons h
  obtain ⟨⟨w₃, hw₃, h₃⟩, h⟩ := unchanged_cons h
  obtain ⟨⟨w₄, hw₄, h₄⟩, h⟩ := unchanged_cons h
  obtain ⟨⟨w₅, hw₅, h₅⟩, h⟩ := unchanged_cons h
  obtain ⟨⟨w₆, hw₆, h₆⟩, -⟩ := unchanged_cons h
  cases hw₁
  cases hw₂
  cases hw₃
  cases hw₄
  cases hw₅
  cases hw₆
  have hbase : context.base = final.base := by simpa using Doc.pyEq_str.1 h₁
  have hissue : context.issue = final.issue := pyEq_int h₂
  have hcomment : context.comment = final.comment := pyEq_int h₃
  have hdigest : context.issueDigest = final.issueDigest := by simpa using Doc.pyEq_str.1 h₄
  have hscope : context.scope = final.scope := pyEqList_strs h₅
  have hbranch : context.branch = final.branch := by simpa using Doc.pyEq_str.1 h₆
  cases context
  cases final
  simp_all

/-! ## The posts -/

theorem Review.Passed.mono {r : Review} {log : List Exchange} (h : r.Passed event envelope log) (more : List Exchange) :
    r.Passed event envelope (log ++ more) := by
  obtain ⟨first, second, rest, rfl, hm, hs⟩ := h.read
  exact { h with read := ⟨first, second, rest ++ more, by simp, hm, hs⟩ }

/-- A change of a file of the proposal. -/
def IsChange (files : List Doc) (c : Doc) : Prop :=
  ∃ item ∈ files, ∃ sha, c = .obj [("path", item.field "path"), ("mode", .str "100644"), ("type", .str "blob"), ("sha", sha)]

theorem postBlobs_follows {r : Review} {items changes : List Doc} {g : List Exchange} (hr : r.Passed event envelope g)
    (hitems : items ⊆ r.files) (hchanges : ∀ c ∈ changes, IsChange r.files c) :
    (postBlobs items changes).Follows (publication event envelope)
      (fun changes' g' => r.Passed event envelope g' ∧ ∀ c ∈ changes', IsChange r.files c) g := by
  induction items generalizing changes g with
  | nil => exact ⟨hr, hchanges⟩
  | cons item items ih =>
    have hitem : item ∈ r.files := hitems List.mem_cons_self
    refine (follows_lift (Q := fun a g' => g' = g ∧ subscript item "content" = .ok a) fun a ha => ⟨rfl, ha⟩).bind
      fun content g' hc => ?_
    obtain ⟨rfl, hcontent⟩ := hc
    have hblob : r.Allows event g' (.post "git/blobs" (.obj [("content", content), ("encoding", .str "utf-8")])) := by
      rw [← field_of_subscript hcontent]
      exact .blob item hitem
    refine (follows_call (Q := fun v g'' => r.Passed event envelope g'') (.inr ⟨r, hr, hblob⟩) fun v => hr.mono _).bind
      fun blob g'' hr' => ?_
    refine (follows_lift (Q := fun a g₁ => g₁ = g'' ∧ subscript item "path" = .ok a) fun a ha => ⟨rfl, ha⟩).bind
      fun path g₁ hp => ?_
    obtain ⟨rfl, hpath⟩ := hp
    refine (follows_lift (Q := fun _ g₂ => g₂ = g₁) fun a _ => rfl).bind fun sha g₂ hg => ?_
    subst hg
    refine ih hr' (fun x hx => hitems (List.mem_cons_of_mem _ hx)) fun c hc => ?_
    rcases List.mem_append.1 hc with hc | hc
    · exact hchanges c hc
    · rw [List.mem_singleton.1 hc, ← field_of_subscript hpath]
      exact ⟨item, hitem, sha, rfl⟩

/-- The changes of a proposal leave every path alone that is not a regular file of the scope. -/
theorem overlay_differs {r : Review} {log : List Exchange} (hr : r.Passed event envelope log) {changes : List Doc}
    (hchanges : ∀ c ∈ changes, IsChange r.files c) {path : String}
    (h : overlay r.entries changes path ≠ Dict.get? path r.entries) : path ∈ r.context.scope ∧ Regular r.entries path := by
  obtain ⟨first, second, rest, -, -, hsources⟩ := hr.read
  unfold overlay at h
  cases hfind : changes.find? (fun c => c.field "path" = .str path) with
  | none =>
    rw [hfind] at h
    exact absurd rfl h
  | some c =>
    have hpath : c.field "path" = .str path := by simpa using List.find?_some hfind
    obtain ⟨item, hitem, sha, rfl⟩ := hchanges c (List.mem_of_find?_eq_some hfind)
    obtain ⟨p, hp, hitemPath⟩ := validateProposal_paths hr.proposal item hitem
    have he : item.field "path" = .str path := hpath
    rw [hitemPath] at he
    cases he
    obtain ⟨source, -, hread⟩ := hsources.scope path hp
    exact ⟨hp, hread.1⟩

/-! ## The publication -/

theorem publish_follows (repr : Doc → String) (event envelope : Doc) :
    (publish repr event envelope).Follows (publication event envelope) (fun _ _ => True) [] := by
  refine (follows_lift (Q := fun _ g => g = [] ∧ hasKeys envelope ["manifest", "proposal"] = true)
    fun _ h => ⟨rfl, require_ok.1 h⟩).bind fun _ g hkeys => ?_
  obtain ⟨rfl, hkeys⟩ := hkeys
  refine (follows_lift (Q := fun v g => g = [] ∧ envelope.field "manifest" = v) fun v h => ⟨rfl, field_of_subscript h⟩).bind
    fun manifest g hmanifest => ?_
  obtain ⟨rfl, rfl⟩ := hmanifest
  refine (follows_lift (Q := fun v g => g = [] ∧ envelope.field "proposal" = v) fun v h => ⟨rfl, field_of_subscript h⟩).bind
    fun proposal g hproposal => ?_
  obtain ⟨rfl, rfl⟩ := hproposal
  refine (follows_lift (Q := fun _ g => g = []) fun _ _ => rfl).bind fun base g hbase => ?_
  subst hbase
  -- what is read before the first post
  refine (freshContext_reads repr base []).bind fun found g hfound => ?_
  obtain ⟨first, hg, -, -, hmatched⟩ := hfound
  obtain rfl : first = g := hg.symm
  refine (sourceFiles_reads found.1 _).bind fun read g hread => ?_
  obtain ⟨second, rfl, -, entries, hsources⟩ := hread
  refine (follows_lift (Q := fun _ g => g = first ++ second ∧
    Doc.pyEq (envelope.field "manifest") (manifestOf found.1 read.1 read.2) = true) fun _ h => ⟨rfl, require_ok.1 h⟩).bind
    fun _ g hfresh => ?_
  obtain ⟨rfl, hfresh⟩ := hfresh
  refine (follows_lift (Q := fun files g => g = first ++ second ∧
    validateProposal (envelope.field "proposal") (manifestOf found.1 read.1 read.2) = .ok files) fun _ h => ⟨rfl, h⟩).bind
    fun files g hfiles => ?_
  obtain ⟨rfl, hfiles⟩ := hfiles
  have hpassed : Review.Passed ⟨found.1, read.1, entries, read.2, files⟩ event envelope (first ++ second) :=
    { keys := hkeys, manifest := hfresh, proposal := hfiles, read := ⟨first, second, [], by simp, hmatched, hsources⟩ }
  generalize hr : (⟨found.1, read.1, entries, read.2, files⟩ : Review) = r at hpassed
  have hcontext : found.1 = r.context := by rw [← hr]
  have htree : read.1 = r.tree := by rw [← hr]
  have hfilesEq : files = r.files := by rw [← hr]
  -- the posts up to the commit
  refine (postBlobs_follows hpassed (by rw [hfilesEq]; exact fun _ h => h) (by simp)).bind fun changes g hg => ?_
  obtain ⟨hpassed, hchanges⟩ := hg
  have hallow : r.Allows event g (.post "git/trees" (.obj [("base_tree", .str read.1), ("tree", .arr changes)])) := by
    rw [htree]
    exact .tree changes (fun path hp => overlay_differs hpassed hchanges hp) hchanges
  refine (follows_call (Q := fun v g' => r.Passed event envelope g' ∧
    Answered g' (.post "git/trees" (.obj [("base_tree", .str read.1), ("tree", .arr changes)])) v) (.inr ⟨r, hpassed, hallow⟩)
    fun v => ⟨hpassed.mono _, by simp [Answered]⟩).bind fun reply g hg => ?_
  obtain ⟨hpassed, htreePosted⟩ := hg
  refine (follows_lift (Q := fun v g' => g' = g ∧ subscript reply "sha" = .ok v) fun v h => ⟨rfl, h⟩).bind fun newTree g' hg => ?_
  obtain ⟨rfl, hnewTree⟩ := hg
  have hallow : r.Allows event g' (.post "git/commits" (commitData found.1 newTree)) := by
    rw [hcontext]
    exact .commit _ reply newTree htreePosted hnewTree
  refine (follows_call (Q := fun v g'' => r.Passed event envelope g'' ∧
    Answered g'' (.post "git/commits" (commitData found.1 newTree)) v) (.inr ⟨r, hpassed, hallow⟩)
    fun v => ⟨hpassed.mono _, by simp [Answered]⟩).bind fun reply' g hg => ?_
  obtain ⟨hpassed, hcommitted⟩ := hg
  refine (follows_lift (Q := fun v g' => g' = g ∧ subscript reply' "sha" = .ok v) fun v h => ⟨rfl, h⟩).bind fun commit g' hg => ?_
  obtain ⟨rfl, hcommit⟩ := hg
  -- the second context
  refine (freshContext_reads repr (.str found.1.base) g').bind fun final g hfinal => ?_
  obtain ⟨after, rfl, -, -, hagain⟩ := hfinal
  refine (follows_lift (Q := fun b g => g = g' ++ after ∧
    unchanged (manifestOf found.1 read.1 read.2) final.1.fields = .ok b) fun b h => ⟨rfl, h⟩).bind fun same g hsame => ?_
  obtain ⟨rfl, hsame⟩ := hsame
  refine (follows_lift (Q := fun _ g => g = g' ++ after ∧ same = true) fun _ h => ⟨rfl, require_ok.1 h⟩).bind fun _ g htrue => ?_
  obtain ⟨rfl, rfl⟩ := htrue
  rw [unchanged_context hsame, hcontext] at hagain
  have hallow : r.Allows event (g' ++ after) (.post "git/refs" (refData found.1 commit)) := by
    rw [hcontext]
    exact .ref _ reply' commit g' after rfl hcommitted hcommit hagain
  refine (follows_call (Q := fun v g => r.Passed event envelope g ∧ Answered g (.post "git/refs" (refData found.1 commit)) v)
    (.inr ⟨r, hpassed.mono _, hallow⟩) fun v => ⟨(hpassed.mono _).mono _, by simp [Answered]⟩).bind fun made g hg => ?_
  obtain ⟨hpassed, hmade⟩ := hg
  have hallow : r.Allows event g (.post "pulls" (pullData repr found.1 commit)) := by
    rw [hcontext] at hmade ⊢
    exact .pull repr commit made hmade
  exact (follows_call (Q := fun _ _ => True) (.inr ⟨r, hpassed, hallow⟩) fun _ => trivial).bind
    fun pr g _ => follows_lift fun _ _ => trivial

end TaskBridge

end Keirin
