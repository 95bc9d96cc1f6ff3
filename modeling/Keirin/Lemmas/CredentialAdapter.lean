import Keirin.CredentialAdapter
import Keirin.Lemmas.Model

/-!
# Texts of converted values

The scan sees every text of a value but those that arise only by its conversion, so the texts the runner takes over from a value
that passed the scan are clean just when the converted ones are (`texts_returned`).
-/

namespace Keirin

namespace PyValue

/-! ## Clean texts -/

/-- No text of the list holds a secret. -/
def AllClean (secrets ts : List String) : Prop := ∀ t ∈ ts, leaks secrets t = false

section Clean

variable {secrets : List String}

@[simp] theorem allClean_nil : AllClean secrets [] := fun _ ht => nomatch ht

@[simp] theorem allClean_cons {t : String} {ts : List String} :
    AllClean secrets (t :: ts) ↔ leaks secrets t = false ∧ AllClean secrets ts := List.forall_mem_cons

@[simp] theorem allClean_append {ts us : List String} : AllClean secrets (ts ++ us) ↔ AllClean secrets ts ∧ AllClean secrets us :=
  List.forall_mem_append

theorem allClean_flatMap {α : Type} {xs : List α} {f : α → List String} :
    AllClean secrets (xs.flatMap f) ↔ ∀ x ∈ xs, AllClean secrets (f x) := by
  simp only [AllClean, List.mem_flatMap]
  exact ⟨fun h x hx t ht => h t ⟨x, hx, ht⟩, fun h t ⟨x, hx, ht⟩ => h x hx t ht⟩

/-- A part of a clean text is clean. -/
theorem leaks_of_part {s t : String} (hst : s.toList <:+: t.toList) (ht : leaks secrets t = false) : leaks secrets s = false := by
  simp only [leaks, List.any_eq_false, Bool.and_eq_true, decide_eq_true_eq, not_and] at ht ⊢
  exact fun secret hs hne hin => ht secret hs hne (hin.trans hst)

theorem leaks_empty : leaks secrets "" = false := by
  simp only [leaks, List.any_eq_false, Bool.and_eq_true, decide_eq_true_eq, not_and]
  intro secret _ hne hin
  exact hne (String.toList_inj.1 (List.infix_nil.1 hin))

/-- The name of a key that passed the scan is clean, if it is a text. -/
theorem leaks_keyName {k : PyValue} (h : k.containsCredentialMaterial secrets = false) :
    leaks secrets k.keyName = false ↔ AllClean secrets k.keyTexts := by
  cases k with
  | str s =>
    rw [containsCredentialMaterial] at h
    exact ⟨fun _ => allClean_nil, fun _ => h⟩
  | _ => simp [keyTexts, isStr]

/-! ## Documents -/

/-- The texts of an object: the names of its fields, and the texts of their values. -/
theorem allClean_textsFields (fs : List (String × Doc)) :
    AllClean secrets (Doc.textsFields fs) ↔ AllClean secrets (fs.map Prod.fst) ∧ ∀ f ∈ fs, AllClean secrets (Doc.texts f.2) := by
  induction fs with
  | nil => simp [Doc.textsFields]
  | cons f fs ih =>
    simp only [Doc.textsFields, List.map_cons, allClean_cons, allClean_append, ih, List.forall_mem_cons]
    tauto

variable (target : Target)

mutual

/-- The texts of the document of a value that passed the scan are clean just when those made by its conversion are. -/
theorem texts_doc (v : PyValue) (h : v.containsCredentialMaterial secrets = false) :
    AllClean secrets (Doc.texts (doc target v)) ↔ AllClean secrets (made target v) := by
  match v with
  | none => simp [doc, Doc.texts, made]
  | bool b => simp [doc, Doc.texts, made]
  | num n => simp [doc, Doc.texts, made]
  | str s =>
    rw [containsCredentialMaterial] at h
    simp [doc, Doc.texts, made, h]
  | list xs =>
    rw [containsCredentialMaterial] at h
    simpa only [doc, Doc.texts, made] using texts_docList xs h
  | tuple xs =>
    rw [containsCredentialMaterial] at h
    simpa only [doc, Doc.texts, made] using texts_docList xs h
  | dict items =>
    rw [containsCredentialMaterial] at h
    unfold doc made
    split_ifs
    · simp [Doc.texts]
    · simpa only [Doc.texts] using texts_docItems items h
  | actionResult message artifacts data =>
    simp only [containsCredentialMaterial, Bool.or_eq_false_iff] at h
    have hm := texts_doc message h.1.1
    have ha := texts_doc artifacts h.1.2
    have hd := texts_doc data h.2
    unfold doc made
    split_ifs
    · simp only [Doc.texts, allClean_textsFields, resultFields, allClean_append, List.map_cons, List.map_nil, List.forall_mem_cons,
        hm, ha, hd, and_assoc]
      simp only [List.not_mem_nil, false_implies, implies_true, and_true]
    · simp [Doc.texts]
  | artifactUpdate artifactId kind locator created verified persistentSaved deviceSaved uiLoaded metadata =>
    simp only [containsCredentialMaterial, Bool.or_eq_false_iff] at h
    have hi := texts_doc artifactId h.1.1.1
    have hk := texts_doc kind h.1.1.2
    have hl := texts_doc locator h.1.2
    have hm := texts_doc metadata h.2
    unfold doc made
    split_ifs
    · simp only [Doc.texts, allClean_textsFields, ArtifactUpdate.fieldNames, allClean_append, List.map_cons, List.map_nil,
        List.forall_mem_cons, hi, hk, hl, hm, and_assoc]
      simp only [List.not_mem_nil, false_implies, implies_true, and_true]
    · simp [Doc.texts]
  | credentialSnapshot => simp [doc, Doc.texts, made]

theorem texts_docList (xs : List PyValue) (h : containsList secrets xs = false) :
    AllClean secrets (Doc.textsList (docList target xs)) ↔ AllClean secrets (madeList target xs) := by
  match xs with
  | [] => simp [docList, Doc.textsList, madeList]
  | x :: xs =>
    simp only [containsList, Bool.or_eq_false_iff] at h
    simp only [docList, Doc.textsList, madeList, allClean_append, texts_doc x h.1, texts_docList xs h.2]

theorem texts_docItems (items : List (PyValue × PyValue)) (h : containsItems secrets items = false) :
    AllClean secrets (Doc.textsFields (docItems target items)) ↔ AllClean secrets (madeItems target items) := by
  match items with
  | [] => simp [docItems, Doc.textsFields, madeItems]
  | (k, v) :: items =>
    simp only [containsItems, Bool.or_eq_false_iff] at h
    simp only [docItems, Doc.textsFields, madeItems, allClean_append, allClean_cons, leaks_keyName h.1.1, texts_doc v h.1.2,
      texts_docItems items h.2, and_assoc]

end

/-! ## Metadata -/

theorem docItems_eq_map (items : List (PyValue × PyValue)) :
    docItems target items = items.map fun i => (i.1.keyName, doc target i.2) := by
  induction items with
  | nil => rfl
  | cons i items ih => rw [docItems, ih, List.map_cons]

theorem containsItems_of_forall {items : List (PyValue × PyValue)}
    (h : ∀ i ∈ items, i.1.containsCredentialMaterial secrets = false ∧ i.2.containsCredentialMaterial secrets = false) :
    containsItems secrets items = false := by
  induction items with
  | nil => rfl
  | cons i items ih =>
    obtain ⟨hi, hitems⟩ := List.forall_mem_cons.1 h
    simp only [containsItems, hi.1, hi.2, ih hitems, Bool.or_self]

theorem forall_of_containsItems {items : List (PyValue × PyValue)} (h : containsItems secrets items = false) :
    ∀ i ∈ items, i.1.containsCredentialMaterial secrets = false ∧ i.2.containsCredentialMaterial secrets = false := by
  induction items with
  | nil => exact fun i hi => nomatch hi
  | cons i items ih =>
    simp only [containsItems, Bool.or_eq_false_iff] at h
    exact List.forall_mem_cons.2 ⟨h.1, ih h.2⟩

theorem forall_of_containsList {xs : List PyValue} (h : containsList secrets xs = false) :
    ∀ x ∈ xs, x.containsCredentialMaterial secrets = false := by
  induction xs with
  | nil => exact fun x hx => nomatch hx
  | cons x xs ih =>
    simp only [containsList, Bool.or_eq_false_iff] at h
    exact List.forall_mem_cons.2 ⟨h.1, ih h.2⟩

/-- A pair read from a value that passed the scan would pass it. -/
theorem pair?_contains {v : PyValue} {i : PyValue × PyValue} (h : v.containsCredentialMaterial secrets = false)
    (hi : v.pair? = some i) :
    i.1.containsCredentialMaterial secrets = false ∧ i.2.containsCredentialMaterial secrets = false := by
  unfold pair? at hi
  split at hi
  · cases hi
    simpa [containsCredentialMaterial, containsList] using h
  · cases hi
    simpa [containsCredentialMaterial, containsList] using h
  · rename_i k a l b
    cases hi
    simp only [containsCredentialMaterial, containsItems, Bool.or_eq_false_iff] at h
    exact ⟨h.1.1, h.2.1.1⟩
  · rename_i s
    split at hi
    · rename_i c d hs
      cases hi
      simp only [containsCredentialMaterial] at h ⊢
      exact ⟨leaks_of_part ⟨[], [d], by simp [hs]⟩ h, leaks_of_part ⟨[c], [], by simp [hs]⟩ h⟩
    · nomatch hi
  · nomatch hi

theorem mapM_pair?_contains {xs : List PyValue} {ps : List (PyValue × PyValue)} (h : containsList secrets xs = false)
    (hps : xs.mapM pair? = some ps) : containsItems secrets ps = false := by
  induction xs generalizing ps with
  | nil =>
    cases hps
    rfl
  | cons x xs ih =>
    simp only [containsList, Bool.or_eq_false_iff] at h
    simp only [List.mapM_cons, bind_pure_comp, Option.map_eq_map, Option.bind_eq_bind, Option.bind_eq_some_iff,
      Option.map_eq_some_iff] at hps
    obtain ⟨i, hi, ps, hps, rfl⟩ := hps
    have hc := pair?_contains h.1 hi
    simp only [containsItems, hc.1, hc.2, ih h.2 hps, Bool.or_self]

theorem pairs?_contains {v : PyValue} {ps : List (PyValue × PyValue)} (h : v.containsCredentialMaterial secrets = false)
    (hps : v.pairs? = some ps) : containsItems secrets ps = false := by
  unfold pairs? at hps
  split at hps
  · rw [containsCredentialMaterial] at h
    exact mapM_pair?_contains h hps
  · rw [containsCredentialMaterial] at h
    exact mapM_pair?_contains h hps
  · split_ifs at hps
    cases hps
    rfl
  · nomatch hps

theorem metadataTexts_pairs (ps : List (PyValue × PyValue)) :
    metadataTexts (.arr (ps.map fun i => .arr [.str i.1.keyName, doc target i.2])) = Doc.textsFields (docItems target ps) := by
  have hpairs : (ps.map fun i => Json.arr [.str i.1.keyName, doc target i.2]).mapM Doc.toPair = .ok (docItems target ps) := by
    induction ps with
    | nil => rfl
    | cons i ps ih =>
      rw [List.map_cons, List.mapM_cons, ih]
      rfl
  simp only [metadataTexts, hpairs]

/-- The same for a value that is merged into metadata. -/
theorem texts_mapping (v : PyValue) (h : v.containsCredentialMaterial secrets = false) :
    AllClean secrets (metadataTexts (mapping .state v)) ↔ AllClean secrets (madeMapping v) := by
  unfold mapping madeMapping
  split
  · rename_i items
    rw [← texts_doc .state (dict items) h]
    unfold doc
    split_ifs
    · rfl
    · rfl
  · rename_i hv
    cases hps : v.pairs? with
    | none => simp [metadataTexts]
    | some ps =>
      simp only [metadataTexts_pairs]
      exact texts_docItems .state ps (pairs?_contains h hps)

/-! ## Artifacts -/

omit target in
theorem texts_updateOf {artifactId kind locator metadata : PyValue} (hi : artifactId.containsCredentialMaterial secrets = false)
    (hk : kind.containsCredentialMaterial secrets = false) (hl : locator.containsCredentialMaterial secrets = false)
    (hm : metadata.containsCredentialMaterial secrets = false) {u : ArtifactUpdate} (hui : u.artifactId = doc .state artifactId)
    (huk : u.kind = doc .state kind) (hul : u.locator = doc .state locator)
    (hum : metadataTexts u.metadata = metadataTexts (mapping .state metadata)) :
    AllClean secrets u.texts ↔ AllClean secrets (madeParts artifactId kind locator metadata) := by
  simp only [ArtifactUpdate.texts, madeParts, allClean_append, hui, huk, hul, hum, texts_doc .state _ hi, texts_doc .state _ hk,
    texts_doc .state _ hl, texts_mapping metadata hm]

omit target in
theorem get_contains {items : List (PyValue × PyValue)} (h : containsItems secrets items = false) (key : String) :
    (get key items).containsCredentialMaterial secrets = false := by
  induction items with
  | nil => rfl
  | cons i items ih =>
    obtain ⟨k, v⟩ := i
    simp only [containsItems, Bool.or_eq_false_iff] at h
    cases k with
    | str s =>
      unfold get
      split_ifs
      · exact h.1.2
      · exact ih h.2
    | _ => exact ih h.2

/-- A field of an artifact given by a dict. -/
theorem get?_kwargs {items : List (PyValue × PyValue)} (hstr : items.all (fun i => i.1.isStr) = true) (key : String) :
    (Dict.get? key (kwargs items) = Option.none ∧ get key items = none) ∨
      Dict.get? key (kwargs items) =
        some (if key = "metadata" then mapping .state (get key items) else doc .state (get key items)) := by
  induction items with
  | nil => exact .inl ⟨rfl, rfl⟩
  | cons i items ih =>
    obtain ⟨k, v⟩ := i
    simp only [List.all_cons, Bool.and_eq_true] at hstr
    cases k with
    | str s =>
      by_cases hs : s = key
      · subst hs
        right
        by_cases hm : s = "metadata" <;> simp [kwargs, Dict.get?, get, keyName, name?, hm]
      · have hrest := ih hstr.2
        simpa [kwargs, Dict.get?, get, keyName, name?, hs] using hrest
    | _ => exact absurd hstr.1 (by simp [isStr])

omit target in
theorem getD_kwargs {items : List (PyValue × PyValue)} (hstr : items.all (fun i => i.1.isStr) = true) {key : String}
    (hkey : key ≠ "metadata") : Dict.getD (kwargs items) key .null = doc .state (get key items) := by
  rcases get?_kwargs hstr key with ⟨hnone, hget⟩ | hsome
  · rw [Dict.getD, hnone, hget]
    rfl
  · rw [Dict.getD, hsome, if_neg hkey]
    rfl

omit target in
theorem metadata_kwargs {items : List (PyValue × PyValue)} (hstr : items.all (fun i => i.1.isStr) = true) :
    metadataTexts (Dict.getD (kwargs items) "metadata" (.obj [])) = metadataTexts (mapping .state (get "metadata" items)) := by
  rcases get?_kwargs hstr "metadata" with ⟨hnone, hget⟩ | hsome
  · rw [Dict.getD, hnone, hget]
    rfl
  · rw [Dict.getD, hsome]
    rfl

/-- An update given by the fields of a dict. -/
theorem texts_ofKwargs {items : List (PyValue × PyValue)} (h : containsItems secrets items = false)
    (hstr : items.all (fun i => i.1.isStr) = true) {u : ArtifactUpdate} (hu : ArtifactUpdate.ofKwargs (kwargs items) = .ok u) :
    AllClean secrets u.texts ↔ AllClean secrets (madeItem (dict items)) := by
  have hitem : madeItem (dict items) =
      madeParts (get "artifact_id" items) (get "kind" items) (get "locator" items) (get "metadata" items) := if_pos hstr
  rw [hitem]
  unfold ArtifactUpdate.ofKwargs at hu
  split at hu
  · cases hu
  · rename_i artifactId kind _ hi hk
    have hgi := getD_kwargs hstr (show "artifact_id" ≠ "metadata" by decide)
    have hgk := getD_kwargs hstr (show "kind" ≠ "metadata" by decide)
    rw [Dict.getD, hi] at hgi
    rw [Dict.getD, hk] at hgk
    cases hu
    exact texts_updateOf (get_contains h _) (get_contains h _) (get_contains h _) (get_contains h _) hgi hgk
      (getD_kwargs hstr (by decide)) (metadata_kwargs hstr)
  · cases hu

/-- An update. -/
theorem texts_artifactUpdate {x : PyValue} (h : x.containsCredentialMaterial secrets = false) :
    AllClean secrets (artifactItem x).texts ↔ AllClean secrets (madeUpdate x) := by
  cases x with
  | artifactUpdate artifactId kind locator created verified persistentSaved deviceSaved uiLoaded metadata =>
    simp only [containsCredentialMaterial, Bool.or_eq_false_iff] at h
    exact texts_updateOf h.1.1.1 h.1.1.2 h.1.2 h.2 rfl rfl rfl rfl
  | dict items =>
    simp only [artifactItem]
    split_ifs <;> simp [ArtifactItem.texts, madeUpdate]
  | _ => simp [artifactItem, ArtifactItem.texts, madeUpdate]

theorem elements_contains {v : PyValue} (h : v.containsCredentialMaterial secrets = false) :
    ∀ x ∈ v.elements.getD [], x.containsCredentialMaterial secrets = false := by
  cases v with
  | list xs =>
    rw [containsCredentialMaterial] at h
    exact forall_of_containsList h
  | tuple xs =>
    rw [containsCredentialMaterial] at h
    exact forall_of_containsList h
  | dict items =>
    rw [containsCredentialMaterial] at h
    intro x hx
    obtain ⟨i, hi, rfl⟩ := List.mem_map.1 hx
    exact (forall_of_containsItems h i hi).1
  | str s =>
    rw [containsCredentialMaterial] at h
    intro x hx
    obtain ⟨c, hc, rfl⟩ := List.mem_map.1 hx
    rw [containsCredentialMaterial]
    refine leaks_of_part ?_ h
    obtain ⟨a, b, hab⟩ := List.append_of_mem hc
    exact ⟨a, b, by simp [hab]⟩
  | _ => exact fun x hx => nomatch hx

theorem pass_artifacts (v : PyValue) (n : Nat) : ((artifacts v).pass n).items = (v.elements.getD []).map artifactItem := by
  unfold artifacts
  cases v.elements <;> rfl

/-! ## Results -/

/-- An element of the artifacts of a dict, as it is normalised. -/
def normaliseItem : ArtifactItem → Except ActionExc ArtifactItem
  | .update u => .ok (.update u)
  | .mapping fields =>
    match ArtifactUpdate.ofKwargs fields with
    | .ok u => .ok (.update u)
    | .error _ => .error .other
  | .other => .error .other

theorem texts_normaliseItem {x : PyValue} (h : x.containsCredentialMaterial secrets = false) {u : ArtifactItem}
    (hu : normaliseItem (artifactItem x) = .ok u) : AllClean secrets u.texts ↔ AllClean secrets (madeItem x) := by
  cases x with
  | artifactUpdate artifactId kind locator created verified persistentSaved deviceSaved uiLoaded metadata =>
    cases hu
    exact texts_artifactUpdate h
  | dict items =>
    simp only [artifactItem] at hu
    split_ifs at hu with hstr
    · simp only [normaliseItem] at hu
      split at hu
      · rename_i w hw
        cases hu
        rw [containsCredentialMaterial] at h
        exact texts_ofKwargs h hstr hw
      · nomatch hu
    · nomatch hu
  | _ => nomatch hu

theorem texts_normalised {xs : List PyValue} (h : ∀ x ∈ xs, x.containsCredentialMaterial secrets = false)
    {us : List ArtifactItem} (hus : (xs.map artifactItem).mapM normaliseItem = .ok us) :
    AllClean secrets (us.flatMap ArtifactItem.texts) ↔ AllClean secrets (xs.flatMap madeItem) := by
  induction xs generalizing us with
  | nil =>
    cases hus
    rfl
  | cons x xs ih =>
    obtain ⟨hx, hxs⟩ := List.forall_mem_cons.1 h
    rw [List.map_cons, List.mapM_cons] at hus
    obtain ⟨u, hu, hus⟩ := bind_ok.1 hus
    obtain ⟨us, hus', hcons⟩ := bind_ok.1 hus
    cases hcons
    rw [List.flatMap_cons, List.flatMap_cons, allClean_append, allClean_append, ih hxs hus', texts_normaliseItem hx hu]

/-- The message of a dict. -/
theorem texts_message {items : List (PyValue × PyValue)} (h : containsItems secrets items = false) (repr : PyValue → String) :
    leaks secrets (messageOf repr items) = false ↔
      AllClean secrets (if (get "message" items).truthy && !(get "message" items).isStr then
        [(get "message" items).toStr repr] else []) := by
  have hget := get_contains h "message"
  unfold messageOf
  cases hm : get "message" items with
  | str s =>
    rw [hm, containsCredentialMaterial] at hget
    by_cases hs : (str s).truthy = true
    · simpa [hs, isStr, toStr] using hget
    · simpa [hs, isStr] using leaks_empty
  | _ =>
    split_ifs with ht ht' ht'
    · simp
    · simp [ht, isStr] at ht'
    · simp [ht] at ht'
    · simpa using leaks_empty

/-- The texts the runner takes over from a value that passed the scan are clean just when those are that its conversion makes. -/
theorem texts_returned (repr : PyValue → String) {v : PyValue} (h : v.containsCredentialMaterial secrets = false)
    {r : ActionResult} (hr : normaliseActionResult (v.returned repr) = .ok r) :
    AllClean secrets r.texts ↔ AllClean secrets (v.converted repr) := by
  cases v with
  | none =>
    cases hr
    simp [ActionResult.texts, Iterable.ofList, converted, Doc.texts, leaks_empty]
  | actionResult message arts data =>
    cases hr
    simp only [containsCredentialMaterial, Bool.or_eq_false_iff] at h
    have hels := elements_contains h.1.2
    simp only [ActionResult.texts, converted, allClean_append, texts_doc .ledger message h.1.1, pass_artifacts, allClean_flatMap,
      List.forall_mem_map]
    exact and_congr_right fun _ => forall₂_congr fun x hx => texts_artifactUpdate (hels x hx)
  | dict items =>
    rw [containsCredentialMaterial] at h
    simp only [returned, normaliseActionResult] at hr
    obtain ⟨xs, hxs, hr⟩ := bind_ok.1 hr
    obtain ⟨us, hus, hr⟩ := bind_ok.1 hr
    obtain ⟨message, hmessage, hr⟩ := bind_ok.1 hr
    obtain ⟨data, -, hr⟩ := bind_ok.1 hr
    cases hmessage
    cases hr
    have hcontains : (artifactsOf items).containsCredentialMaterial secrets = false := by
      unfold artifactsOf
      split_ifs
      · exact get_contains h _
      · rfl
    have hxs : xs = ((artifactsOf items).elements.getD []).map artifactItem := by
      unfold artifacts at hxs
      cases hel : (artifactsOf items).elements with
      | none =>
        rw [hel] at hxs
        nomatch hxs
      | some ys =>
        rw [hel] at hxs
        cases hxs
        rfl
    have hfun : (fun item => match item with
        | .update u => Except.ok (ArtifactItem.update u)
        | .mapping fields =>
          match ArtifactUpdate.ofKwargs fields with
          | .ok u => .ok (.update u)
          | .error _ => .error ActionExc.other
        | .other => .error .other) = normaliseItem := by
      funext item
      cases item <;> rfl
    rw [hxs] at hus
    have htexts := texts_normalised (elements_contains hcontains) (hfun ▸ hus)
    simp only [ActionResult.texts, converted, allClean_append, Iterable.ofList, htexts, Doc.texts, allClean_cons, allClean_nil,
      and_true]
    exact and_congr_left fun _ => texts_message h repr
  | _ => nomatch hr

end Clean

end PyValue

end Keirin
