import Keirin.HistoricalDetails
import Keirin.Theorems.ReplayClosure

/-!
# What an intake gathers

Row after row, the origins gathered are those of the rows seen so far, each under the fingerprint of its row, and the rows without a
race are listed once. The sources have distinct roles or digests, and their rows stand at different lines.
-/

namespace Keirin.HistoricalDetails

open HistoricalPayouts

/-! ## Sources -/

/-- The lines of the rows that are read are among those of the records, in their order. -/
theorem readRows_ok {columns : List String} {records : List (Except String Csv.Record)} {rows : List SourceRow} {blanks : ℕ}
    (h : readRows columns records = .ok (rows, blanks)) : (rows.map SourceRow.lineEnd).Sublist (records.filterMap Csv.lineNum?) := by
  induction records generalizing rows blanks with
  | nil =>
    cases h
    exact List.Sublist.refl _
  | cons r rs ih =>
    obtain ⟨record, hrecord, h⟩ := bind_ok.1 h
    obtain ⟨-, h⟩ := demand_bind_ok.1 h
    obtain ⟨rest, hrest, h⟩ := bind_ok.1 h
    have hr : r = .ok record := by
      cases r with
      | error e => nomatch hrecord
      | ok r =>
        cases hrecord
        rfl
    have hcons : (r :: rs).filterMap Csv.lineNum? = record.lineNum :: rs.filterMap Csv.lineNum? := by
      subst hr
      rfl
    rw [hcons]
    split_ifs at h with hblank
    · cases h
      exact (ih hrest).cons _
    · cases h
      exact (ih hrest).cons_cons _

section Load

variable {files : String → Option (List ℕ)} {netloc : String → Bool}

/-- A source is new, its role is one of the catalog, and its rows stand at different lines. -/
theorem loadSource_ok {seen : List (String × String)} {spec : Doc} {source : Source} (h : loadSource files netloc seen spec = .ok source) :
    (source.role, source.sha256) ∉ seen ∧ source.role ∈ roles ∧ (source.rows.map SourceRow.lineEnd).Nodup := by
  obtain ⟨key, -, h⟩ := bind_ok.1 h
  obtain ⟨role, hrole, h⟩ := require_bind_ok.1 h
  obtain ⟨-, h⟩ := demand_bind_ok.1 h
  obtain ⟨path, -, h⟩ := require_bind_ok.1 h
  obtain ⟨data, -, h⟩ := require_bind_ok.1 h
  obtain ⟨address, -, h⟩ := bind_ok.1 h
  obtain ⟨url, -, h⟩ := bind_ok.1 h
  obtain ⟨-, h⟩ := demand_bind_ok.1 h
  have hafter : ∀ {f : Except PyError Source}, (if spec.field "observed_at" ≠ .null then do
      let _ ← timestamp (spec.field "observed_at")
      f else f) = .ok source → f = .ok source := by
    intro f hf
    split_ifs at hf with hnull
    · obtain ⟨-, -, hf⟩ := bind_ok.1 hf
      exact hf
    · exact hf
  replace h := hafter h
  obtain ⟨evidence, -, h⟩ := require_bind_ok.1 h
  obtain ⟨-, h⟩ := demand_bind_ok.1 h
  obtain ⟨hseen, h⟩ := demand_bind_ok.1 h
  obtain ⟨text, -, h⟩ := bind_ok.1 h
  obtain ⟨⟨columns, records⟩, hheader, h⟩ := bind_ok.1 h
  obtain ⟨-, -, h⟩ := bind_ok.1 h
  obtain ⟨⟨rows, blanks⟩, hrows, h⟩ := bind_ok.1 h
  cases h
  have hread : Csv.header (Csv.read text) = .ok (columns, records) := by
    cases hread : Csv.header (Csv.read text) with
    | error e =>
      rw [hread] at hheader
      nomatch hheader
    | ok header =>
      rw [hread] at hheader
      cases hheader
      rfl
  have hlines := Csv.lines_header hread
  refine ⟨of_decide_eq_true hseen, ?_, ?_⟩
  · obtain ⟨-, hmem⟩ := Option.filter_eq_some_iff.1 hrole
    exact of_decide_eq_true hmem
  · exact (hlines.sublist (readRows_ok hrows)).imp fun hlt => hlt.ne

/-- What holds of the sources of a manifest. -/
structure Loaded (sources : List Source) : Prop where
  distinct : (sources.map fun s => (s.role, s.sha256)).Nodup
  roles : ∀ s ∈ sources, s.role ∈ roles
  lines : ∀ s ∈ sources, (s.rows.map SourceRow.lineEnd).Nodup

theorem loadFiles_ok {seen : List (String × String)} {specs : List Doc} {sources : List Source}
    (h : loadFiles files netloc seen specs = .ok sources) : Loaded sources ∧ ∀ s ∈ sources, (s.role, s.sha256) ∉ seen := by
  induction specs generalizing seen sources with
  | nil =>
    cases h
    exact ⟨⟨.nil, fun _ hs => (nomatch hs), fun _ hs => (nomatch hs)⟩, fun _ hs => (nomatch hs)⟩
  | cons spec specs ih =>
    obtain ⟨source, hsource, h⟩ := bind_ok.1 h
    obtain ⟨rest, hrest, h⟩ := bind_ok.1 h
    cases h
    obtain ⟨hfresh, hrole, hlines⟩ := loadSource_ok hsource
    obtain ⟨hloaded, hnew⟩ := ih hrest
    refine ⟨⟨List.nodup_cons.2 ⟨fun hmem => ?_, hloaded.distinct⟩, List.forall_mem_cons.2 ⟨hrole, hloaded.roles⟩,
      List.forall_mem_cons.2 ⟨hlines, hloaded.lines⟩⟩, List.forall_mem_cons.2 ⟨hfresh, fun s hs => ?_⟩⟩
    · obtain ⟨s, hs, he⟩ := List.mem_map.1 hmem
      exact hnew s hs (he ▸ List.mem_cons_self)
    · exact fun hmem => hnew s hs (List.mem_cons_of_mem _ hmem)

theorem loadSources_ok {manifest : Doc} {sources : List Source} (h : loadSources files netloc manifest = .ok sources) :
    Loaded sources := by
  obtain ⟨schema, -, h⟩ := bind_ok.1 h
  obtain ⟨-, h⟩ := demand_bind_ok.1 h
  obtain ⟨specs, -, h⟩ := require_bind_ok.1 h
  exact (loadFiles_ok h).1

end Load

/-- The rows of the sources, each with its source. -/
def itemsOf (sources : List Source) : List (Source × SourceRow) := sources.flatMap fun s => s.rows.map fun item => (s, item)

/-- Where a row of a source stands. -/
def placeOf (p : Source × SourceRow) : String × Origin := (p.1.role, originOf p.1 p.2)

/-- No two rows stand at one place. -/
theorem nodup_places {sources : List Source} (h : Loaded sources) : ((itemsOf sources).map placeOf).Nodup := by
  rw [itemsOf, List.map_flatMap, List.nodup_flatMap]
  constructor
  · intro s hs
    rw [List.map_map]
    have hlines := h.lines s hs
    refine List.Nodup.of_map (fun place : String × Origin => place.2.lineEnd) ?_
    rw [List.map_map]
    exact hlines
  · have hdistinct := List.pairwise_map.1 h.distinct
    refine hdistinct.imp fun hne => ?_
    intro place hleft hright
    obtain ⟨p, hp, rfl⟩ := List.mem_map.1 hleft
    obtain ⟨q, hq, he⟩ := List.mem_map.1 hright
    obtain ⟨item, -, rfl⟩ := List.mem_map.1 hp
    obtain ⟨item', -, rfl⟩ := List.mem_map.1 hq
    simp only [placeOf, originOf, Prod.mk.injEq, Origin.mk.injEq] at he
    exact hne (Prod.ext he.1.symm he.2.1.symm)

/-! ## Gathering -/

/-- What has been gathered of the rows `done`. -/
structure Gathered (done : List (Source × SourceRow)) (g : Collected) : Prop where
  keys : (g.unique.map Prod.fst).Nodup
  contents : ∀ e ∈ g.unique, ∃ p ∈ done, p.1.role = e.2.role ∧ p.2.raw = e.2.raw ∧ fingerprint p.1.role p.2.raw = .ok e.1
  found : ∀ e ∈ g.unique, e.2.origins ≠ []
  origins : (g.unique.flatMap fun e => e.2.origins.map fun o => ((.ok e.1 : Except PyError String), o)).Perm
    (done.map fun p => (fingerprint p.1.role p.2.raw, originOf p.1 p.2))
  invalid : g.invalidIds = (g.unique.filter fun e => isBlank (raceId e.2.raw)).map Prod.fst

theorem gathered_nil : Gathered [] {} :=
  ⟨.nil, fun _ h => (nomatch h), fun _ h => (nomatch h), List.Perm.refl _, rfl⟩

/-- The row of a fingerprint that is known: its origin is noted. -/
theorem gathered_known {done : List (Source × SourceRow)} {g : Collected} {p : Source × SourceRow} {print : String} {row : DetailRow}
    (hg : Gathered done g) (hprint : fingerprint p.1.role p.2.raw = .ok print) (hrow : Dict.get? print g.unique = some row) :
    Gathered (done ++ [p])
      { g with unique := Dict.set print { row with origins := row.origins ++ [originOf p.1 p.2] } g.unique } := by
  obtain ⟨before, after, hunique, hset⟩ := Dict.set_of_get? hrow { row with origins := row.origins ++ [originOf p.1 p.2] }
  obtain ⟨hkeys, hcontents, hfound, horigins, hinvalid⟩ := hg
  rw [hunique] at hkeys hcontents hfound horigins hinvalid
  rw [hset]
  have hall : ∀ {P : String × DetailRow → Prop}, (∀ e ∈ before ++ (print, row) :: after, P e) →
      P (print, { row with origins := row.origins ++ [originOf p.1 p.2] }) →
      ∀ e ∈ before ++ (print, { row with origins := row.origins ++ [originOf p.1 p.2] }) :: after, P e := by
    intro P hP hnew
    rw [List.forall_mem_append, List.forall_mem_cons] at hP ⊢
    exact ⟨hP.1, hnew, hP.2.2⟩
  have hmem : (print, row) ∈ before ++ (print, row) :: after := List.mem_append_right _ List.mem_cons_self
  constructor
  · simpa using hkeys
  · have hcontents' : ∀ e ∈ before ++ (print, row) :: after,
        ∃ q ∈ done ++ [p], q.1.role = e.2.role ∧ q.2.raw = e.2.raw ∧ fingerprint q.1.role q.2.raw = .ok e.1 := by
      intro e he
      obtain ⟨q, hq, hcontent⟩ := hcontents e he
      exact ⟨q, List.mem_append_left _ hq, hcontent⟩
    have hrow' := hcontents' _ hmem
    exact hall hcontents' hrow'
  · exact hall hfound (by simp)
  · have hsplit : ((before ++ (print, { row with origins := row.origins ++ [originOf p.1 p.2] }) :: after).flatMap
        fun e => e.2.origins.map fun o => ((.ok e.1 : Except PyError String), o)).Perm
        (((before ++ (print, row) :: after).flatMap fun e => e.2.origins.map fun o => ((.ok e.1 : Except PyError String), o)) ++
          [(.ok print, originOf p.1 p.2)]) := by
      simp only [List.flatMap_append, List.flatMap_cons, List.map_append, List.map_cons, List.map_nil, List.append_assoc]
      exact (List.perm_append_comm.append_left _).append_left _
    rw [List.map_append, List.map_cons, List.map_nil, hprint]
    exact hsplit.trans (horigins.append_right _)
  · rw [hinvalid]
    simp [List.filter_append, List.filter_cons, apply_ite]

/-- A row of a new fingerprint. -/
theorem gathered_new {done : List (Source × SourceRow)} {g : Collected} {p : Source × SourceRow} {print : String} {row : DetailRow}
    (coverage : Dict (Dict ℕ)) (hg : Gathered done g) (hprint : fingerprint p.1.role p.2.raw = .ok print)
    (hnone : Dict.get? print g.unique = none) (hrole : row.role = p.1.role) (hraw : row.raw = p.2.raw)
    (horigin : row.origins = [originOf p.1 p.2]) :
    Gathered (done ++ [p]) ⟨Dict.set print row g.unique, coverage,
      if isBlank (raceId p.2.raw) then g.invalidIds ++ [print] else g.invalidIds⟩ := by
  rw [Dict.set_of_get?_none hnone]
  constructor
  · have hkeys : ((Dict.set print row g.unique).map Prod.fst).Nodup := Dict.nodup_set hg.keys
    rwa [Dict.set_of_get?_none hnone] at hkeys
  · rw [List.forall_mem_append, List.forall_mem_singleton]
    constructor
    · intro e he
      obtain ⟨q, hq, hcontent⟩ := hg.contents e he
      exact ⟨q, List.mem_append_left _ hq, hcontent⟩
    · exact ⟨p, List.mem_append_right _ (List.mem_singleton_self p), hrole.symm, hraw.symm, hprint⟩
  · rw [List.forall_mem_append, List.forall_mem_singleton]
    exact ⟨hg.found, by simp [horigin]⟩
  · have hnew : ([(print, row)].flatMap fun e => e.2.origins.map fun o => ((.ok e.1 : Except PyError String), o)) =
        [p].map fun p => (fingerprint p.1.role p.2.raw, originOf p.1 p.2) := by
      simp [horigin, hprint]
    rw [List.flatMap_append, List.map_append, hnew]
    exact hg.origins.append_right _
  · simp only [hg.invalid, List.filter_append, List.map_append, List.filter_singleton, hraw]
    cases isBlank (raceId p.2.raw)
    · exact (List.append_nil _).symm
    · rfl

theorem gathered_step {done : List (Source × SourceRow)} {g g' : Collected} {p : Source × SourceRow} (hg : Gathered done g)
    (h : collectRow p.1 g p.2 = .ok g') : Gathered (done ++ [p]) g' := by
  obtain ⟨print, hprint, h⟩ := bind_ok.1 h
  split at h
  · rename_i row hrow
    cases h
    exact gathered_known hg hprint hrow
  · rename_i hnone
    obtain ⟨sha, -, h⟩ := bind_ok.1 h
    cases h
    exact gathered_new _ hg hprint hnone rfl rfl rfl

/-- What is gathered of the sources is gathered of their rows. -/
theorem gathered_sources {sources : List Source} {done : List (Source × SourceRow)} {g g' : Collected} (hg : Gathered done g)
    (h : sources.foldlM collectSource g = .ok g') : Gathered (done ++ itemsOf sources) g' := by
  have hrows : ∀ {source : Source} {rows : List SourceRow} {done : List (Source × SourceRow)} {g g' : Collected}, Gathered done g →
      rows.foldlM (collectRow source) g = .ok g' → Gathered (done ++ rows.map fun item => (source, item)) g' := by
    intro source rows
    induction rows with
    | nil =>
      intro done g g' hg h
      cases h
      simpa using hg
    | cons item rows ih =>
      intro done g g' hg h
      rw [List.foldlM_cons] at h
      obtain ⟨next, hnext, h⟩ := bind_ok.1 h
      have hdone := ih (gathered_step (p := (source, item)) hg hnext) h
      rwa [List.append_assoc] at hdone
  induction sources generalizing done g with
  | nil =>
    cases h
    simpa [itemsOf] using hg
  | cons source sources ih =>
    rw [List.foldlM_cons] at h
    obtain ⟨next, hnext, h⟩ := bind_ok.1 h
    have hdone := ih (hrows hg hnext) h
    rwa [List.append_assoc] at hdone

/-! ## Intakes -/

/-- The rows in the tables of the records, and those without a race. -/
def Intake.placedRows (c : Intake) : List DetailRow := c.records.flatMap RaceRecord.rows ++ c.unassignedRows

/-- Noting conflicts changes nothing else of the rows. -/
theorem map_markConflicts {α : Type} (unique : Dict DetailRow) (f : String × DetailRow → α)
    (hf : ∀ e reasons, f (e.1, { e.2 with quarantineReasons := reasons }) = f e) : (markConflicts unique).map f = unique.map f := by
  rw [markConflicts, List.map_map]
  refine List.map_congr_left fun e _ => ?_
  simp only [Function.comp]
  split_ifs
  · exact hf e _
  · rfl

/-- The records have the rows with a race, each once. -/
theorem records_perm {rows : List DetailRow} (hroles : ∀ row ∈ rows, row.role ∈ roles) :
    ((raceRecords rows).flatMap RaceRecord.rows).Perm (rows.filter fun row => !isBlank (raceId row.raw)) := by
  set named := rows.filter fun row => !isBlank (raceId row.raw) with hnamed
  have hrows : (raceRecords rows).flatMap RaceRecord.rows =
      ((named.map fun row => raceId row.raw).dedup.insertionSort (· ≤ ·)).flatMap fun key =>
        roles.flatMap fun role => (named.filter fun row => raceId row.raw = key).filter fun row => row.role = role := by
    rw [raceRecords, List.flatMap_map]
    refine List.flatMap_congr fun key _ => ?_
    rw [RaceRecord.rows, List.flatMap_map]
    refine List.flatMap_congr fun role _ => ?_
    show named.filter (fun row => raceId row.raw = key && row.role = role) = _
    refine Eq.trans (List.filter_congr fun row _ => ?_) List.filter_filter.symm
    rw [Bool.and_comm]
  have hrace : ∀ key : String, (roles.flatMap fun role =>
      (named.filter fun row => raceId row.raw = key).filter fun row => row.role = role).Perm
      (named.filter fun row => raceId row.raw = key) := by
    intro key
    refine Grouped.flatMap_filter_perm DetailRow.role (by decide) fun row hrow => ?_
    exact hroles row (List.mem_filter.1 (List.mem_filter.1 hrow).1).1
  rw [hrows]
  refine (List.Perm.flatMap_left _ fun key _ => hrace key).trans ?_
  refine Grouped.flatMap_filter_perm (fun row : DetailRow => raceId row.raw) ?_ fun row hrow => ?_
  · exact (List.perm_insertionSort _ _).nodup_iff.2 (List.nodup_dedup _)
  · rw [List.mem_insertionSort, List.mem_dedup]
    exact List.mem_map_of_mem hrow

/-- What an intake is made of. -/
structure Collects (files : String → Option (List ℕ)) (netloc : String → Bool) (manifest : Doc) (c : Intake) (g : Collected) : Prop where
  sources : loadSources files netloc manifest = .ok c.sources
  gathered : Gathered (itemsOf c.sources) g
  rows : c.rows = (markConflicts g.unique).map Prod.snd
  unassigned : c.unassignedRows = g.invalidIds.filterMap fun k => Dict.get? k (markConflicts g.unique)

section Collects

variable {files : String → Option (List ℕ)} {netloc : String → Bool} {manifest : Doc} {c : Intake} {g : Collected}

theorem collect_ok (h : collect files netloc manifest = .ok c) : ∃ g, Collects files netloc manifest c g := by
  obtain ⟨sources, hsources, h⟩ := bind_ok.1 h
  obtain ⟨g, hg, h⟩ := bind_ok.1 h
  obtain ⟨hash, -, h⟩ := bind_ok.1 h
  obtain ⟨hashes, -, h⟩ := bind_ok.1 h
  cases h
  exact ⟨g, hsources, gathered_sources gathered_nil hg, rfl, rfl⟩

/-- Every row stands in one of the tables or among those without a race, once. -/
theorem placedRows_perm (h : Collects files netloc manifest c g) : c.placedRows.Perm c.rows := by
  have hkeys : ((markConflicts g.unique).map Prod.fst).Nodup := by
    rw [map_markConflicts _ _ fun _ _ => rfl]
    exact h.gathered.keys
  have hroles : ∀ row ∈ c.rows, row.role ∈ roles := by
    intro row hrow
    have hrole : row.role ∈ c.rows.map DetailRow.role := List.mem_map_of_mem hrow
    rw [h.rows, List.map_map, map_markConflicts _ _ fun _ _ => rfl] at hrole
    obtain ⟨e, he, hrole⟩ := List.mem_map.1 hrole
    obtain ⟨p, hp, hp', -⟩ := h.gathered.contents e he
    obtain ⟨source, hsource, hp⟩ := List.mem_flatMap.1 hp
    obtain ⟨item, -, rfl⟩ := List.mem_map.1 hp
    have hmem := (loadSources_ok h.sources).roles source hsource
    rw [← hrole]
    exact (congrArg (· ∈ roles) hp').mp hmem
  have hblank : ((markConflicts g.unique).filter fun e => isBlank (raceId e.2.raw)).map Prod.fst = g.invalidIds := by
    rw [h.gathered.invalid, markConflicts, List.filter_map, List.map_map]
    refine congrArg (List.map Prod.fst) (List.filter_congr fun e _ => ?_)
    simp only [Function.comp]
    split_ifs <;> rfl
  have hunassigned : c.unassignedRows = c.rows.filter fun row => isBlank (raceId row.raw) := by
    rw [h.unassigned, h.rows, List.filter_map, ← hblank]
    exact Dict.filterMap_get? hkeys fun e he => (List.mem_filter.1 he).1
  rw [Intake.placedRows, Intake.records, hunassigned]
  refine ((records_perm hroles).append_right _).trans ?_
  have hperm := List.filter_append_perm (fun row : DetailRow => !isBlank (raceId row.raw)) c.rows
  simpa using hperm

/-- The rows of the sources are the unique ones and the others. -/
theorem sourceRows_eq (h : Collects files netloc manifest c g) : c.sourceRows = c.uniqueRows + c.duplicateRows := by
  have hitems : c.sourceRows = (itemsOf c.sources).length := by
    rw [itemsOf, List.length_flatMap, Intake.sourceRows]
    simp
  have hlength := h.gathered.origins.length_eq
  rw [List.length_map, List.length_flatMap] at hlength
  have horigins : c.rows.map (fun r => r.origins.length) = g.unique.map fun e => e.2.origins.length := by
    rw [h.rows, List.map_map]
    exact map_markConflicts g.unique _ fun _ _ => rfl
  have hpos : ∀ row ∈ c.rows, 0 < row.origins.length := by
    intro row hrow
    have hmem : row.origins.length ∈ c.rows.map fun r => r.origins.length := List.mem_map.2 ⟨row, hrow, rfl⟩
    rw [horigins] at hmem
    obtain ⟨e, he, hlen⟩ := List.mem_map.1 hmem
    rw [← hlen]
    exact List.length_pos_iff.2 (h.gathered.found e he)
  have hsum : ∀ {rows : List DetailRow}, (∀ row ∈ rows, 0 < row.origins.length) →
      (rows.map fun r => r.origins.length).sum = rows.length + (rows.map fun r => r.origins.length - 1).sum := by
    intro rows
    induction rows with
    | nil => exact fun _ => rfl
    | cons row rows ih =>
      intro hrows
      rw [List.forall_mem_cons] at hrows
      simp only [List.map_cons, List.sum_cons, List.length_cons, ih hrows.2]
      omega
  rw [hitems, ← hlength, Intake.uniqueRows, Intake.duplicateRows, ← hsum hpos, horigins]
  simp

/-- The origins of the rows of an intake are those of the rows of the sources. -/
theorem origins_perm (h : Collects files netloc manifest c g) :
    (c.placedRows.flatMap DetailRow.origins).Perm ((itemsOf c.sources).map fun p => originOf p.1 p.2) := by
  have hgathered : (g.unique.flatMap fun e => e.2.origins.map fun o => ((.ok e.1 : Except PyError String), o)).map Prod.snd =
      c.rows.flatMap DetailRow.origins := by
    rw [h.rows, List.flatMap_map, List.flatMap_def, List.flatMap_def, map_markConflicts _ _ fun _ _ => rfl, List.map_flatten, List.map_map]
    refine congrArg List.flatten (List.map_congr_left fun e _ => ?_)
    simp [Function.comp]
  have hperm := h.gathered.origins.map Prod.snd
  rw [hgathered, List.map_map] at hperm
  exact ((placedRows_perm h).flatMap_right _).trans hperm

end Collects

/-! ## Contents -/

/-- Two rows of one role with the same value, or none, in every column. -/
def SameContent (p q : Source × SourceRow) : Prop := p.1.role = q.1.role ∧ ∀ column, Dict.get? column p.2.raw = Dict.get? column q.2.raw

/-- Two rows of different contents with one digest. -/
def Intake.Collides (c : Intake) : Prop :=
  ∃ p ∈ itemsOf c.sources, ∃ q ∈ itemsOf c.sources, ∃ print, fingerprint p.1.role p.2.raw = .ok print ∧
    fingerprint q.1.role q.2.raw = .ok print ∧ ¬SameContent p q

/-- The places of rows. -/
def placesOf (rows : List DetailRow) : List (String × Origin) := rows.flatMap fun r => r.origins.map fun o => (r.role, o)

theorem SameContent.groupKey {p q : Source × SourceRow} (h : SameContent p q) :
    logicalKey p.1.role p.2.raw = logicalKey q.1.role q.2.raw := by
  rw [logicalKey, logicalKey, h.1]
  exact List.map_congr_left fun f _ => by rw [Dict.getD, Dict.getD, h.2 f]

section Contents

variable {files : String → Option (List ℕ)} {netloc : String → Bool} {manifest : Doc} {c : Intake} {g : Collected}

/-- Where no digests collide, the row of a fingerprint has the content of all rows with this fingerprint. -/
theorem content_of_entry (h : Collects files netloc manifest c g) (hc : ¬c.Collides) {p : Source × SourceRow} (hp : p ∈ itemsOf c.sources)
    {e : String × DetailRow} (he : e ∈ g.unique) (hprint : fingerprint p.1.role p.2.raw = .ok e.1) :
    e.2.role = p.1.role ∧ ∀ column, Dict.get? column e.2.raw = Dict.get? column p.2.raw := by
  obtain ⟨q, hq, hrole, hraw, hqprint⟩ := h.gathered.contents e he
  have hsame : SameContent q p := by
    by_contra hne
    exact hc ⟨q, hq, p, hp, e.1, hqprint, hprint, hne⟩
  exact ⟨hrole ▸ hsame.1, fun column => hraw ▸ hsame.2 column⟩

/-- A row of a source is gathered under its fingerprint, with its origin. -/
theorem exists_entry (h : Collects files netloc manifest c g) {p : Source × SourceRow} (hp : p ∈ itemsOf c.sources) :
    ∃ e ∈ g.unique, fingerprint p.1.role p.2.raw = .ok e.1 ∧ originOf p.1 p.2 ∈ e.2.origins := by
  have hmem := h.gathered.origins.mem_iff.2 (List.mem_map_of_mem (f := fun p => (fingerprint p.1.role p.2.raw, originOf p.1 p.2)) hp)
  obtain ⟨e, he, hplace⟩ := List.mem_flatMap.1 hmem
  obtain ⟨o, ho, hpair⟩ := List.mem_map.1 hplace
  obtain ⟨hprint, rfl⟩ := Prod.mk.inj hpair
  exact ⟨e, he, hprint.symm, ho⟩

/-- Where no digests collide, the rows of the tables and those without a race stand where the rows of the sources stand. -/
theorem places_perm (h : Collects files netloc manifest c g) (hc : ¬c.Collides) :
    (placesOf c.placedRows).Perm ((itemsOf c.sources).map placeOf) := by
  refine ((placedRows_perm h).flatMap_right _).trans ?_
  have hmarked : placesOf c.rows = g.unique.flatMap fun e => e.2.origins.map fun o => (e.2.role, o) := by
    rw [placesOf, h.rows, List.flatMap_map, List.flatMap_def, map_markConflicts _ _ fun _ _ => rfl, ← List.flatMap_def]
  -- the role under a fingerprint is that of the row gathered under it
  have hperm := h.gathered.origins.map fun x : Except PyError String × Origin =>
    ((x.1.toOption.bind fun print => Dict.get? print g.unique).map DetailRow.role, x.2)
  have hgathered : (g.unique.flatMap fun e => e.2.origins.map fun o => ((.ok e.1 : Except PyError String), o)).map
      (fun x => ((x.1.toOption.bind fun print => Dict.get? print g.unique).map DetailRow.role, x.2)) =
      (placesOf c.rows).map fun place => (some place.1, place.2) := by
    rw [hmarked, List.map_flatMap, List.map_flatMap]
    refine List.flatMap_congr fun e he => ?_
    rw [List.map_map, List.map_map]
    refine List.map_congr_left fun o _ => ?_
    have hget : Dict.get? e.1 g.unique = some e.2 := Dict.get?_of_mem h.gathered.keys he
    simp [Except.toOption, hget]
  have hitems : ((itemsOf c.sources).map fun p => (fingerprint p.1.role p.2.raw, originOf p.1 p.2)).map
      (fun x => ((x.1.toOption.bind fun print => Dict.get? print g.unique).map DetailRow.role, x.2)) =
      ((itemsOf c.sources).map placeOf).map fun place => (some place.1, place.2) := by
    rw [List.map_map, List.map_map]
    refine List.map_congr_left fun p hp => ?_
    obtain ⟨e, he, hprint, -⟩ := exists_entry h hp
    have hget : Dict.get? e.1 g.unique = some e.2 := Dict.get?_of_mem h.gathered.keys he
    have hrole := (content_of_entry h hc hp he hprint).1
    simp [placeOf, hprint, Except.toOption, hget, hrole]
  rw [hgathered, hitems] at hperm
  refine (List.map_perm_map_iff ?_).1 hperm
  intro a b hab
  simpa [Prod.ext_iff] using hab

end Contents

end Keirin.HistoricalDetails
