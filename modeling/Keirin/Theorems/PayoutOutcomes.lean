import Keirin.Lib.Returns
import Keirin.Lemmas.PayoutOutcomes

/-!
# Payouts and dead heats

The outcomes of a finish are the first places of the orders of the finishers that break the ties, however many tie and wherever. The
rows of the results give groups exactly where their ranks are those of a competition, and the rows of the payouts settle a bet exactly
where they pay each outcome once, or refund everything where there is no outcome.
-/

namespace Keirin.HistoricalPayouts

open WeakOrder OfficialDetail

/-! ## The rows of the results -/

/-- What a row of the results says: the car, the rider, and the rank of a rider that finished. -/
structure ResultEntry where
  car : ℕ
  identity : String
  rank : Option ℕ

/-- The rank a row gives: that of a finish, or none with one of the reasons for it. -/
def RankIs (row : Doc) : Option ℕ → Prop
  | some n => row.get? "Status" = some (.str "") ∧ ∃ s, row.get? "Rank" = some (.str s) ∧ carText s.toList = some n
  | none => (row.get? "Status" = some (.str "") ∧ row.get? "Rank" = some (.str "故") ∧ Returns (digest row)) ∨
      (row.get? "Rank" = some (.str "") ∧ ∃ s ∈ NONFINISH.map Prod.fst, row.get? "Status" = some (.str s))

/-- The row says what the entry says. -/
structure Says (row : Doc) (e : ResultEntry) : Prop where
  car : ∃ s, row.get? "Car" = some (.str s) ∧ carText s.toList = some e.car
  identity : row.get? "Player_ID" = some (.str e.identity) ∧ isDigits e.identity = true
  rank : RankIs row e.rank

theorem car_ok {v : Doc} {n : ℕ} : car v = .ok n ↔ ∃ s, v = .str s ∧ carText s.toList = some n := by
  unfold car
  cases v with
  | str s =>
    simp only [Doc.text?, Option.bind_some]
    cases hs : carText s.toList with
    | none => exact ⟨fun h => (nomatch h), fun ⟨t, ht, h⟩ => by cases ht; rw [hs] at h; nomatch h⟩
    | some m => exact ⟨fun h => ⟨s, rfl, hs.trans (congrArg some (Except.ok.inj h))⟩, fun ⟨t, ht, h⟩ => by cases ht; rw [hs] at h; cases h; rfl⟩
  | _ => exact ⟨fun h => (nomatch h), fun ⟨t, ht, _⟩ => (nomatch ht)⟩

theorem playerIdentity_ok {row : Doc} {identity : String} :
    playerIdentity row = .ok identity ↔ row.get? "Player_ID" = some (.str identity) ∧ isDigits identity = true := by
  unfold playerIdentity
  constructor
  · intro h
    obtain ⟨v, hv, h⟩ := bind_ok.1 h
    obtain ⟨htext, h⟩ := demand_bind_ok.1 h
    rw [Bool.and_eq_true] at htext
    cases v with
    | str s =>
      cases Except.ok.inj h
      exact ⟨subscript_ok.1 hv, htext.2⟩
    | _ => nomatch htext.1
  · rintro ⟨hv, hdigits⟩
    exact bind_ok.2 ⟨_, subscript_ok.2 hv, demand_bind_ok.2 ⟨hdigits, rfl⟩⟩

theorem isKey_some {v : Doc} {s : String} (h : isKey v = .ok (some s)) : v = .str s := by
  unfold isKey at h
  split at h
  · cases h
    rfl
  · split_ifs at h
    nomatch h

/-- The rank and the state of a row are read exactly where the row gives them, and the rank is within the roster. -/
theorem finish_ok {row : Doc} {carNumber size : ℕ} {rank : Option ℕ} :
    (∃ found finish, rankAndStatus row carNumber = .ok found ∧ finishOf found.1 found.2.1 size = .ok finish ∧ finish.1 = rank) ↔
      RankIs row rank ∧ ∀ n ∈ rank, n ≤ size := by
  constructor
  · rintro ⟨found, finish, hfound, hfinish, rfl⟩
    unfold rankAndStatus at hfound
    obtain ⟨rankText, hrank, hread⟩ := bind_ok.1 hfound
    obtain ⟨status, hstatus, h⟩ := bind_ok.1 hread
    rw [subscript_ok] at hrank hstatus
    clear hfound hread
    split_ifs at h with hfault
    · obtain ⟨rfl, rfl⟩ := hfault
      obtain ⟨source, hsource, h⟩ := bind_ok.1 h
      cases Except.ok.inj h
      cases hfinish
      exact ⟨.inl ⟨hstatus, hrank, source, hsource⟩, fun n hn => (nomatch hn)⟩
    · cases Except.ok.inj h
      unfold finishOf at hfinish
      simp only at hfinish
      split_ifs at hfinish with hempty hblank
      · obtain ⟨n, hn, h⟩ := bind_ok.1 hfinish
        obtain ⟨hle, h⟩ := demand_bind_ok.1 h
        cases Except.ok.inj h
        obtain ⟨s, rfl, hs⟩ := car_ok.1 hn
        exact ⟨⟨hempty ▸ hstatus, s, hrank, hs⟩, fun m hm => Option.some.inj hm ▸ of_decide_eq_true hle⟩
      · obtain ⟨key, hkey, h⟩ := bind_ok.1 hfinish
        cases hstate : key.bind fun s => Dict.get? s NONFINISH with
        | none =>
          rw [hstate] at h
          nomatch h
        | some state =>
          rw [hstate] at h
          cases Except.ok.inj h
          obtain ⟨s, rfl, hs⟩ := Option.bind_eq_some_iff.1 hstate
          have hmem : s ∈ NONFINISH.map Prod.fst := List.mem_map_of_mem (Dict.mem_of_get? hs)
          have htext := isKey_some hkey
          exact ⟨.inr ⟨hblank ▸ hrank, s, hmem, htext ▸ hstatus⟩, fun n hn => (nomatch hn)⟩
      · obtain ⟨key, -, h⟩ := bind_ok.1 hfinish
        cases hstate : key.bind fun s => Dict.get? s NONFINISH with
        | none =>
          rw [hstate] at h
          nomatch h
        | some state =>
          rw [hstate] at h
          nomatch h
  · rintro ⟨hrank, hsize⟩
    cases rank with
    | some n =>
      obtain ⟨hstatus, s, hs, htext⟩ := hrank
      have hfault : ¬((Json.str s : Doc) = .str "故" ∧ (Json.str "" : Doc) = .str "") := by
        rintro ⟨h, -⟩
        have hnone : carText "故".toList = none := by decide
        rw [Json.str.inj h, hnone] at htext
        nomatch htext
      refine ⟨(.str s, .str "", []), (some n, "FINISHED"), ?_, ?_, rfl⟩
      · refine bind_ok.2 ⟨_, subscript_ok.2 hs, bind_ok.2 ⟨_, subscript_ok.2 hstatus, ?_⟩⟩
        rw [if_neg hfault]
        rfl
      · exact bind_ok.2 ⟨n, car_ok.2 ⟨s, rfl, htext⟩, demand_bind_ok.2 ⟨decide_eq_true (hsize n rfl), rfl⟩⟩
    | none =>
      rcases hrank with ⟨hstatus, hfault, source, hsource⟩ | ⟨hblank, s, hmem, hstatus⟩
      · have hfound : ∃ changes, rankAndStatus row carNumber = .ok (.str "", .str "故障", changes) := by
          simp only [rankAndStatus, subscript_ok.2 hfault, subscript_ok.2 hstatus, hsource, bind, Except.bind, and_self, if_true]
          exact ⟨_, rfl⟩
        obtain ⟨changes, hfound⟩ := hfound
        exact ⟨_, (none, "DNF"), hfound, rfl, rfl⟩
      · have hne : (Json.str s : Doc) ≠ .str "" := by
          intro h
          cases Json.str.inj h
          revert hmem
          decide
        have hstate : ∃ state, Dict.get? s NONFINISH = some state := by
          obtain ⟨entry, hentry, rfl⟩ := List.mem_map.1 hmem
          exact ⟨entry.2, Dict.get?_of_mem (by decide) hentry⟩
        obtain ⟨state, hstate⟩ := hstate
        refine ⟨(.str "", .str s, []), (none, state), ?_, ?_, rfl⟩
        · refine bind_ok.2 ⟨_, subscript_ok.2 hblank, bind_ok.2 ⟨_, subscript_ok.2 hstatus, ?_⟩⟩
          rw [if_neg fun h => hne h.2]
          rfl
        · unfold finishOf
          rw [if_neg hne]
          refine bind_ok.2 ⟨some s, rfl, ?_⟩
          simp only [Option.bind_some, hstate, if_true]

/-- What has been gathered from the rows of some entries. -/
structure Gathers (g : Gathered) (entries : List ResultEntry) (g' : Gathered) : Prop where
  cars : g'.cars = g.cars ++ entries.map ResultEntry.car
  ids : g'.ids = g.ids ++ entries.map ResultEntry.identity
  ranks : g'.ranks = g.ranks ++ entries.filterMap fun e => e.rank.map fun n => (n, e.car)

/-- A row is gathered exactly where it says something new whose rank is within the roster. -/
theorem gatherRow_ok {size : ℕ} {g : Gathered} {row : Doc} :
    (∀ g', gatherRow size g row = .ok g' → ∃ e, Says row e ∧ e.car ∉ g.cars ∧ e.identity ∉ g.ids ∧ Gathers g [e] g') ∧
      ∀ e, Says row e → e.car ∉ g.cars → e.identity ∉ g.ids → (∀ n ∈ e.rank, n ≤ size) →
        ∃ g', gatherRow size g row = .ok g' ∧ Gathers g [e] g' := by
  unfold gatherRow
  constructor
  · intro g' h
    obtain ⟨v, hv, h⟩ := bind_ok.1 h
    obtain ⟨n, hn, h⟩ := bind_ok.1 h
    obtain ⟨identity, hid, h⟩ := bind_ok.1 h
    obtain ⟨hnew, h⟩ := demand_bind_ok.1 h
    obtain ⟨found, hfound, h⟩ := bind_ok.1 h
    obtain ⟨finish, hfinish, h⟩ := bind_ok.1 h
    cases Except.ok.inj h
    obtain ⟨hcar, hidentity⟩ := of_decide_eq_true hnew
    obtain ⟨s, rfl, hs⟩ := car_ok.1 hn
    obtain ⟨hrank, -⟩ := finish_ok.1 ⟨found, finish, hfound, hfinish, rfl⟩
    refine ⟨⟨n, identity, finish.1⟩, ⟨⟨s, subscript_ok.1 hv, hs⟩, playerIdentity_ok.1 hid, hrank⟩, hcar, hidentity, rfl, rfl, ?_⟩
    cases finish.1 <;> simp
  · intro e he hcar hidentity hsize
    obtain ⟨s, hs, htext⟩ := he.car
    obtain ⟨found, finish, hfound, hfinish, hrank⟩ := finish_ok.2 ⟨he.rank, hsize⟩
    refine ⟨_, bind_ok.2 ⟨_, subscript_ok.2 hs, bind_ok.2 ⟨e.car, car_ok.2 ⟨s, rfl, htext⟩, bind_ok.2 ⟨e.identity,
      playerIdentity_ok.2 he.identity, demand_bind_ok.2 ⟨decide_eq_true ⟨hcar, hidentity⟩, bind_ok.2 ⟨found, hfound,
      bind_ok.2 ⟨finish, hfinish, rfl⟩⟩⟩⟩⟩⟩, rfl, rfl, ?_⟩
    rw [hrank]
    cases hr : e.rank <;> simp [hr]

/-- The rows are gathered exactly where they say new things whose ranks are within the roster. -/
theorem gatherRows_ok {size : ℕ} {g : Gathered} {rows : List Doc} :
    (∀ g', gatherRows size g rows = .ok g' → ∃ entries, List.Forall₂ Says rows entries ∧ (∀ e ∈ entries, e.car ∉ g.cars) ∧
        (∀ e ∈ entries, e.identity ∉ g.ids) ∧ (entries.map ResultEntry.car).Nodup ∧ (entries.map ResultEntry.identity).Nodup ∧
        Gathers g entries g') ∧
      ∀ entries, List.Forall₂ Says rows entries → (∀ e ∈ entries, e.car ∉ g.cars) → (∀ e ∈ entries, e.identity ∉ g.ids) →
        (entries.map ResultEntry.car).Nodup → (entries.map ResultEntry.identity).Nodup → (∀ e ∈ entries, ∀ n ∈ e.rank, n ≤ size) →
        ∃ g', gatherRows size g rows = .ok g' ∧ Gathers g entries g' := by
  induction rows generalizing g with
  | nil =>
    constructor
    · intro g' h
      cases h
      exact ⟨[], .nil, fun _ he => (nomatch he), fun _ he => (nomatch he), .nil, .nil, by simp, by simp, by simp⟩
    · intro entries h _ _ _ _ _
      cases h
      exact ⟨g, rfl, by simp, by simp, by simp⟩
  | cons row rows ih =>
    constructor
    · intro g' h
      obtain ⟨g₁, hg₁, h⟩ := bind_ok.1 h
      obtain ⟨e, he, hcar, hid, hcars, hids, hranks⟩ := gatherRow_ok.1 g₁ hg₁
      obtain ⟨entries, hentries, hfresh, hfresh', hcarsNodup, hidsNodup, hcars', hids', hranks'⟩ := ih.1 g' h
      rw [hcars] at hfresh hcars'
      rw [hids] at hfresh' hids'
      rw [hranks] at hranks'
      simp only [List.map_cons, List.map_nil, List.mem_append, List.mem_singleton, not_or] at hfresh hfresh'
      refine ⟨e :: entries, .cons he hentries, ?_, ?_, ?_, ?_, ?_, ?_, ?_⟩
      · exact List.forall_mem_cons.2 ⟨hcar, fun x hx => (hfresh x hx).1⟩
      · exact List.forall_mem_cons.2 ⟨hid, fun x hx => (hfresh' x hx).1⟩
      · refine List.nodup_cons.2 ⟨fun hmem => ?_, hcarsNodup⟩
        obtain ⟨x, hx, hxe⟩ := List.mem_map.1 hmem
        exact (hfresh x hx).2 hxe
      · refine List.nodup_cons.2 ⟨fun hmem => ?_, hidsNodup⟩
        obtain ⟨x, hx, hxe⟩ := List.mem_map.1 hmem
        exact (hfresh' x hx).2 hxe
      · rw [hcars', List.append_assoc]
        rfl
      · rw [hids', List.append_assoc]
        rfl
      · rw [hranks', List.append_assoc, ← List.filterMap_append]
        rfl
    · intro entries hentries hfresh hfresh' hcarsNodup hidsNodup hsize
      cases hentries with
      | cons he hrest =>
        rename_i e entries
        rw [List.forall_mem_cons] at hfresh hfresh' hsize
        rw [List.map_cons, List.nodup_cons] at hcarsNodup hidsNodup
        obtain ⟨g₁, hg₁, hcars, hids, hranks⟩ := gatherRow_ok.2 e he hfresh.1 hfresh'.1 hsize.1
        have hcarsFresh : ∀ x ∈ entries, x.car ∉ g₁.cars := by
          intro x hx hmem
          rw [hcars, List.map_cons, List.map_nil, List.mem_append, List.mem_singleton] at hmem
          exact hmem.elim (hfresh.2 x hx) fun heq => hcarsNodup.1 (heq ▸ List.mem_map_of_mem hx)
        have hidsFresh : ∀ x ∈ entries, x.identity ∉ g₁.ids := by
          intro x hx hmem
          rw [hids, List.map_cons, List.map_nil, List.mem_append, List.mem_singleton] at hmem
          exact hmem.elim (hfresh'.2 x hx) fun heq => hidsNodup.1 (heq ▸ List.mem_map_of_mem hx)
        obtain ⟨g', hg', hcars', hids', hranks'⟩ := ih.2 entries hrest hcarsFresh hidsFresh hcarsNodup.2 hidsNodup.2 hsize.2
        refine ⟨g', bind_ok.2 ⟨g₁, hg₁, hg'⟩, ?_, ?_, ?_⟩
        · rw [hcars', hcars, List.append_assoc]
          rfl
        · rw [hids', hids, List.append_assoc]
          rfl
        · rw [hranks', hranks, List.append_assoc, ← List.filterMap_append]
          rfl

/-- The ranks the entries give, with the cars. -/
def entryRanks (entries : List ResultEntry) : List (ℕ × ℕ) := entries.filterMap fun e => e.rank.map fun n => (n, e.car)

/-- The entries are those of a roster: of three to nine riders, in different cars. -/
structure IsRoster (entries : List ResultEntry) : Prop where
  size : 3 ≤ entries.length ∧ entries.length ≤ 9
  cars : (entries.map ResultEntry.car).Nodup
  identities : (entries.map ResultEntry.identity).Nodup

theorem mem_entryRanks {entries : List ResultEntry} {e : ResultEntry} (he : e ∈ entries) {n : ℕ} (hn : n ∈ e.rank) :
    n ∈ (entryRanks entries).map Prod.fst := by
  refine List.mem_map.2 ⟨(n, e.car), List.mem_filterMap.2 ⟨e, he, ?_⟩, rfl⟩
  rw [Option.mem_def.1 hn]
  rfl

/-- The rows of a roster give groups exactly where their ranks are those of a competition, and the groups are those of the ranks. -/
theorem resultGroups_ok {rows : List Doc} {groups : List (List ℕ)} :
    (∃ participants changes, resultGroups rows = .ok (groups, participants, changes)) ↔
      ∃ entries, List.Forall₂ Says rows entries ∧ IsRoster entries ∧ Competition ((entryRanks entries).map Prod.fst) ∧
        groups = finishGroups (entryRanks entries) := by
  constructor
  · rintro ⟨participants, changes, h⟩
    obtain ⟨hsize, h⟩ := demand_bind_ok.1 h
    obtain ⟨g, hg, h⟩ := bind_ok.1 h
    obtain ⟨groups', hgroups, h⟩ := bind_ok.1 h
    cases Except.ok.inj h
    obtain ⟨entries, hentries, -, -, hcars, hids, -, -, hranks⟩ := gatherRows_ok.1 g hg
    rw [Bool.and_eq_true, decide_eq_true_iff, decide_eq_true_iff, hentries.length_eq] at hsize
    have hsame : g.ranks = entryRanks entries := hranks
    rw [hsame, rankGroups_iff] at hgroups
    exact ⟨entries, hentries, ⟨hsize, hcars, hids⟩, hgroups⟩
  · rintro ⟨entries, hentries, ⟨hsize, hcars, hids⟩, hranks, rfl⟩
    have hwithin : ∀ e ∈ entries, ∀ n ∈ e.rank, n ≤ rows.length := by
      intro e he n hn
      have hmem := mem_entryRanks he hn
      have hbetter : ((entryRanks entries).map Prod.fst).countP (· < n) < ((entryRanks entries).map Prod.fst).length := by
        rw [List.countP_eq_length_filter]
        exact List.length_filter_lt_length_iff_exists.2 ⟨n, hmem, by simp⟩
      have hfew : ((entryRanks entries).map Prod.fst).length ≤ entries.length := by
        rw [List.length_map]
        exact List.length_filterMap_le _ _
      rw [hranks n hmem, hentries.length_eq]
      omega
    obtain ⟨g, hg, -, -, hgranks⟩ := (@gatherRows_ok rows.length {} rows).2 entries hentries (fun _ _ h => (nomatch h))
      (fun _ _ h => (nomatch h)) hcars hids hwithin
    have hsame : g.ranks = entryRanks entries := hgranks
    refine ⟨_, _, demand_bind_ok.2 ⟨?_, bind_ok.2 ⟨g, hg, bind_ok.2 ⟨_, ?_, rfl⟩⟩⟩⟩
    · rw [hentries.length_eq, Bool.and_eq_true]
      exact ⟨decide_eq_true hsize.1, decide_eq_true hsize.2⟩
    · rw [hsame, rankGroups_iff]
      exact ⟨hranks, rfl⟩

/-! ## The rows of the payouts -/

/-- The row pays an amount for a combination of the width. -/
def PaysFor (width : ℕ) (row : Doc) (combination : List ℕ) : Prop :=
  ∃ raw rule, row.get? "Outcome" = some raw ∧ parseOrdered raw width = .ok (combination, rule) ∧
    (∃ paid, row.get? "Payout" = some paid ∧ Returns (money paid)) ∧ Returns (changeOf row raw combination rule)

/-- The row refunds everything. -/
def RefundsAll (row : Doc) : Prop := row.get? "Outcome" = some (.str "全返還") ∧ row.get? "Payout" = some (.str "全返還")

/-- The rows are read exactly where each of them pays for an expected outcome that none before it pays for. -/
theorem payoutsOf_ok {expected found : List (List ℕ)} {width : ℕ} {rows : List Doc} {combinations : List (List ℕ)} :
    (∃ paid, payoutsOf expected width found rows = .ok paid ∧ paid.1.map Payout.combination = combinations) ↔
      List.Forall₂ (PaysFor width) rows combinations ∧ combinations.Nodup ∧ ∀ c ∈ combinations, c ∈ expected ∧ c ∉ found := by
  induction rows generalizing found combinations with
  | nil =>
    constructor
    · rintro ⟨paid, h, rfl⟩
      cases h
      exact ⟨.nil, .nil, fun _ hc => (nomatch hc)⟩
    · rintro ⟨h, -⟩
      cases h
      exact ⟨_, rfl, rfl⟩
  | cons row rows ih =>
    constructor
    · rintro ⟨paid, h, rfl⟩
      obtain ⟨raw, hraw, h⟩ := bind_ok.1 h
      obtain ⟨⟨c, rule⟩, hread, h⟩ := bind_ok.1 h
      obtain ⟨hexpected, h⟩ := demand_bind_ok.1 h
      obtain ⟨hfound, h⟩ := demand_bind_ok.1 h
      obtain ⟨amountText, hpaid, h⟩ := bind_ok.1 h
      obtain ⟨amount, hamount, h⟩ := bind_ok.1 h
      obtain ⟨change, hchange, h⟩ := bind_ok.1 h
      obtain ⟨rest, hrest, h⟩ := bind_ok.1 h
      cases Except.ok.inj h
      obtain ⟨hpays, hnodup, hall⟩ := ih.1 ⟨rest, hrest, rfl⟩
      refine ⟨.cons ⟨raw, rule, subscript_ok.1 hraw, hread, ⟨amountText, subscript_ok.1 hpaid, amount, hamount⟩, change, hchange⟩ hpays,
        List.nodup_cons.2 ⟨fun hmem => (hall _ hmem).2 List.mem_cons_self, hnodup⟩, List.forall_mem_cons.2 ⟨?_, fun x hx => ?_⟩⟩
      · exact ⟨of_decide_eq_true hexpected, of_decide_eq_true hfound⟩
      · exact ⟨(hall x hx).1, fun hmem => (hall x hx).2 (List.mem_cons_of_mem _ hmem)⟩
    · rintro ⟨hpays, hnodup, hall⟩
      cases hpays with
      | cons hrow hrows =>
        rename_i c combinations
        obtain ⟨raw, rule, hraw, hread, ⟨amountText, hpaid, amount, hamount⟩, change, hchange⟩ := hrow
        obtain ⟨hfirst, hrest⟩ := List.forall_mem_cons.1 hall
        obtain ⟨hnot, hnodup⟩ := List.nodup_cons.1 hnodup
        have hfresh : ∀ x ∈ combinations, x ∈ expected ∧ x ∉ c :: found := by
          intro x hx
          refine ⟨(hrest x hx).1, fun hmem => ?_⟩
          rcases List.mem_cons.1 hmem with rfl | hmem
          · exact hnot hx
          · exact (hrest x hx).2 hmem
        obtain ⟨paid, hok, rfl⟩ := ih.2 ⟨hrows, hnodup, hfresh⟩
        exact ⟨_, bind_ok.2 ⟨raw, subscript_ok.2 hraw, bind_ok.2 ⟨_, hread, demand_bind_ok.2 ⟨decide_eq_true hfirst.1,
          demand_bind_ok.2 ⟨decide_eq_true hfirst.2, bind_ok.2 ⟨amountText, subscript_ok.2 hpaid, bind_ok.2 ⟨amount, hamount,
          bind_ok.2 ⟨change, hchange, bind_ok.2 ⟨paid, hok, rfl⟩⟩⟩⟩⟩⟩⟩⟩, rfl⟩

/-- One row refunds everything. -/
theorem fullRefund_ok {rows : List Doc} : fullRefund rows = .ok true ↔ ∃ row, rows = [row] ∧ RefundsAll row := by
  constructor
  · intro h
    unfold fullRefund at h
    split at h
    · rename_i row
      obtain ⟨outcome, houtcome, h⟩ := bind_ok.1 h
      obtain ⟨payout, hpayout, h⟩ := bind_ok.1 h
      obtain ⟨hsame, hpaid⟩ := Bool.and_eq_true_iff.1 (Except.ok.inj h)
      rw [subscript_ok] at houtcome hpayout
      cases of_decide_eq_true hpaid
      rw [Doc.pyEq_str] at hsame
      exact ⟨row, rfl, hsame ▸ houtcome, hpayout⟩
    · nomatch h
  · rintro ⟨row, rfl, houtcome, hpayout⟩
    exact bind_ok.2 ⟨_, subscript_ok.2 houtcome, bind_ok.2 ⟨_, subscript_ok.2 hpayout, rfl⟩⟩

/-- Rows settle a bet exactly where each pays for an outcome and each outcome is paid for once, or where there is no outcome and one row
refunds everything. -/
theorem settlement_iff {rows : List Doc} {groups : List (List ℕ)} {width : ℕ} :
    Returns (settlement rows groups width) ↔
      ((Prefixes groups width).Nonempty ∧ ∃ combinations, List.Forall₂ (PaysFor width) rows combinations ∧ combinations.Nodup ∧
        ∀ l, l ∈ combinations ↔ l ∈ Prefixes groups width) ∨
      (Prefixes groups width = ∅ ∧ ∃ row, rows = [row] ∧ RefundsAll row) := by
  have hempty : outcomes groups width = [] ↔ Prefixes groups width = ∅ := by
    rw [List.eq_nil_iff_forall_not_mem, Set.eq_empty_iff_forall_notMem]
    simp only [mem_outcomes]
  unfold settlement
  by_cases hnone : Prefixes groups width = ∅
  · rw [or_iff_right fun h => h.1.ne_empty hnone, and_iff_right hnone, ← fullRefund_ok]
    simp only [hempty.2 hnone, List.isEmpty_nil, if_true]
    constructor
    · rintro ⟨s, h⟩
      obtain ⟨-, h⟩ := demand_bind_ok.1 h
      obtain ⟨refund, hrefund, h⟩ := bind_ok.1 h
      obtain ⟨htrue, -⟩ := demand_bind_ok.1 h
      exact htrue ▸ hrefund
    · intro h
      obtain ⟨row, rfl, -⟩ := fullRefund_ok.1 h
      exact ⟨_, demand_bind_ok.2 ⟨rfl, bind_ok.2 ⟨true, h, demand_bind_ok.2 ⟨rfl, rfl⟩⟩⟩⟩
  · have hsome := Set.nonempty_iff_ne_empty.2 hnone
    have hfalse : ¬(outcomes groups width).isEmpty = true := fun h => hnone (hempty.1 (List.isEmpty_iff.1 h))
    rw [or_iff_left fun h => hnone h.1, and_iff_right hsome]
    simp only [if_neg hfalse]
    constructor
    · rintro ⟨s, h⟩
      obtain ⟨-, h⟩ := demand_bind_ok.1 h
      obtain ⟨paid, hpaid, h⟩ := bind_ok.1 h
      obtain ⟨hall, -⟩ := demand_bind_ok.1 h
      obtain ⟨hpays, hnodup, hsub⟩ := payoutsOf_ok.1 ⟨paid, hpaid, rfl⟩
      rw [List.all_eq_true] at hall
      refine ⟨_, hpays, hnodup, fun l => ⟨fun hl => mem_outcomes.1 (hsub l hl).1, fun hl => ?_⟩⟩
      exact of_decide_eq_true (hall l (mem_outcomes.2 hl))
    · rintro ⟨combinations, hpays, hnodup, hall⟩
      obtain ⟨paid, hpaid, rfl⟩ := payoutsOf_ok.2 ⟨hpays, hnodup, fun c hc => ⟨mem_outcomes.2 ((hall c).1 hc), List.not_mem_nil⟩⟩
      have hrows : (!rows.isEmpty) = true := by
        obtain ⟨l, hl⟩ := hsome
        cases rows with
        | cons row rows => rfl
        | nil =>
          have hl := (hall l).2 hl
          rw [List.forall₂_nil_left_iff.1 hpays] at hl
          nomatch hl
      refine ⟨_, demand_bind_ok.2 ⟨hrows, bind_ok.2 ⟨paid, hpaid, demand_bind_ok.2 ⟨?_, rfl⟩⟩⟩⟩
      rw [List.all_eq_true]
      exact fun l hl => decide_eq_true ((hall l).2 (mem_outcomes.1 hl))

/-! ## The outcomes -/

/-- The outcomes of a width are the first places of the orders of the finishers that break the ties of the groups, and the two ways to
build them come to the same; of three finishers or more, the outcomes of two places are those of three without the last. Rows of results
give the groups of their ranks exactly where the ranks are those of a competition, and rows of payouts settle the bet exactly where they
pay each outcome once, or where there is no outcome and one row refunds everything. -/
theorem payout_outcomes :
    (∀ groups width, {l | l ∈ outcomes groups width} = Prefixes groups width) ∧
    (∀ groups : List (List ℕ), groups.flatten.Nodup → ∀ order, Refines groups order ↔
      order.Perm groups.flatten ∧ order.Pairwise fun a b => place groups a ≤ place groups b) ∧
    (∀ rows width found, tiedRankOutcomes rows width = .ok found →
      {l | l ∈ found} = {l | l ∈ outcomes (finishGroups (rankings rows)) width}) ∧
    (∀ groups : List (List ℕ), 3 ≤ (groups.map List.length).sum →
      {l | l ∈ outcomes groups 2} = (fun l => l.take 2) '' {l | l ∈ outcomes groups 3}) ∧
    (∀ rows groups, (∃ participants changes, resultGroups rows = .ok (groups, participants, changes)) ↔
      ∃ entries, List.Forall₂ Says rows entries ∧ IsRoster entries ∧ Competition ((entryRanks entries).map Prod.fst) ∧
        groups = finishGroups (entryRanks entries)) ∧
    ∀ rows groups width, Returns (settlement rows groups width) ↔
      ((Prefixes groups width).Nonempty ∧ ∃ combinations, List.Forall₂ (PaysFor width) rows combinations ∧ combinations.Nodup ∧
        {l | l ∈ combinations} = Prefixes groups width) ∨
      (Prefixes groups width = ∅ ∧ ∃ row, rows = [row] ∧ RefundsAll row) := by
  have hset : ∀ groups width, {l | l ∈ outcomes groups width} = Prefixes groups width := fun groups width => Set.ext fun l => mem_outcomes
  refine ⟨hset, fun groups hd order => refines_iff_pairwise hd, ?_, ?_, fun rows groups => resultGroups_ok, ?_⟩
  · intro rows width found h
    exact Set.ext fun l => mem_tiedRankOutcomes h
  · intro groups hmany
    rw [hset, hset]
    exact prefixes_take (by decide) hmany
  · intro rows groups width
    rw [settlement_iff]
    simp only [Set.ext_iff, Set.mem_setOf_eq]

theorem payout_outcomes_sample : {l | l ∈ outcomes [[1, 2], [3]] 2} = (fun l => l.take 2) '' {l | l ∈ outcomes [[1, 2], [3]] 3} ∧
    (Refines [[1, 2], [3]] [2, 1, 3] ↔ [2, 1, 3].Perm [1, 2, 3] ∧
      [2, 1, 3].Pairwise fun a b => place [[1, 2], [3]] a ≤ place [[1, 2], [3]] b) ∧
    {l | l ∈ [[1, 2], [2, 1]]} = {l | l ∈ outcomes (finishGroups (rankings [⟨3, some 3⟩, ⟨1, some 1⟩, ⟨2, some 1⟩, ⟨4, none⟩])) 2} :=
  ⟨payout_outcomes.2.2.2.1 _ (by decide), payout_outcomes.2.1 [[1, 2], [3]] (by decide) _,
    payout_outcomes.2.2.1 [⟨3, some 3⟩, ⟨1, some 1⟩, ⟨2, some 1⟩, ⟨4, none⟩] 2 _ (by decide)⟩

end Keirin.HistoricalPayouts
