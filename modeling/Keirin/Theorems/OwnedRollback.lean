import Keirin.Lemmas.OwnedRollback

/-!
# The rollback touches nothing foreign

The removal of the custody package, step by step: the checks, which change nothing; the files and the directories; the user and
the group, the numbers of the user written to the receipt first; the receipt and its directory.
-/

namespace Keirin

namespace Custody

open Fs

variable {h0 h : Host} {r : Receipt} {gid : Option ℤ}

/-! ## The stages -/

/-- A stage of the removal: the accounts are as they were, and these paths are gone. -/
structure Stage (h0 : Host) (gone : List String) (h : Host) : Prop where
  passwd : h.passwd = h0.passwd
  groups : h.groups = h0.groups
  gone : ∀ path ∈ gone, Plain path ∧ h.fs.find path = none

theorem Stage.onFs {gone : List String} {fs' : Fs} (hs : Stage h0 gone h) (hw : Fs.Within (stateSlot h0) h.fs fs') :
    Stage h0 gone { h with fs := fs' } :=
  { passwd := hs.passwd
    groups := hs.groups
    gone := fun path hp => ⟨(hs.gone path hp).1, absent_within hw (hs.gone path hp).1 (hs.gone path hp).2⟩ }

theorem Stage.add {gone : List String} {path : String} (hs : Stage h0 gone h) (hpl : Plain path) (ha : h.fs.find path = none) :
    Stage h0 (path :: gone) h :=
  { hs with gone := List.forall_mem_cons.2 ⟨⟨hpl, ha⟩, hs.gone⟩ }

/-- The paths that are removed before the unit is reloaded. -/
def removedPaths : List String := [gatesPath, unitPath, etcDir, optDir]

theorem plain_files : ∀ path ∈ FILES.map Prod.fst, Plain path ∧ path ∈ ownPaths ∧ path ∈ [gatesPath, unitPath, RECEIPT] := by
  decide +kernel

theorem plain_dirs : ∀ path ∈ (DIRS.map Prod.fst).reverse, Plain path ∧ path ∈ ownPaths := by decide +kernel

/-- A system call on the files that keeps the stage. -/
theorem removes_onFiles {a : Act} {Q : Unit → Host → Prop} {result : Option Fs} (hk : Kept h0 h)
    (hperform : ∀ x res h', perform h a x = some (res, h') → (res, h') = onFiles h result ∨ (res, h') = onFiles h none)
    (hok : ∀ fs', result = some fs' → Kept h0 { h with fs := fs' } ∧ Q () { h with fs := fs' }) : Removes h0 Q (act a) h := by
  refine removes_act fun x res h' hx => ?_
  have hfail : ∀ {res : Except Fault Unit} {h' : Host}, (res, h') = onFiles h none →
      Kept h0 h' ∧ (res = .ok () → Q () h') ∧ ∀ e, res = .error e → Harmless e := by
    intro res h' he
    cases he
    exact ⟨hk, nofun, fun e he => by cases he; exact harmless_error _⟩
  rcases hperform x res h' hx with he | he
  · cases hr : result with
    | none => exact hfail (by rw [he, hr])
    | some fs' =>
      rw [hr] at he
      cases he
      obtain ⟨hk', hq⟩ := hok fs' hr
      exact ⟨hk', fun _ => hq, nofun⟩
  · exact hfail he

theorem perform_unlink {path : String} {x : Outcome} {res : Except Fault Unit} {h' : Host}
    (hx : perform h (.unlink path) x = some (res, h')) : (res, h') = onFiles h (h.fs.unlink path) ∨ (res, h') = onFiles h none := by
  cases x with
  | done => exact .inl (Option.some.inj hx).symm
  | fails => exact .inr (Option.some.inj hx).symm
  | _ => nomatch hx

theorem perform_rmdir {path : String} {x : Outcome} {res : Except Fault Unit} {h' : Host}
    (hx : perform h (.rmdir path) x = some (res, h')) : (res, h') = onFiles h (h.fs.rmdir path) ∨ (res, h') = onFiles h none := by
  cases x with
  | done => exact .inl (Option.some.inj hx).symm
  | fails => exact .inr (Option.some.inj hx).symm
  | _ => nomatch hx

theorem perform_replace {src dst : String} {x : Outcome} {res : Except Fault Unit} {h' : Host}
    (hx : perform h (.replace src dst) x = some (res, h')) :
    (res, h') = onFiles h (h.fs.replace src dst) ∨ (res, h') = onFiles h none := by
  cases x with
  | done => exact .inl (Option.some.inj hx).symm
  | fails => exact .inr (Option.some.inj hx).symm
  | _ => nomatch hx

/-- What is not absent is removed, and the path is gone. -/
theorem removes_unlessAbsent {gone : List String} {path : String} {a : Act} (hk : Kept h0 h) (hs : Stage h0 gone h)
    (hpl : Plain path) (ha : Removes h0 (fun _ => Stage h0 (path :: gone)) (act a) h) :
    Removes h0 (fun _ => Stage h0 (path :: gone)) (unlessAbsent path a) h := by
  refine removes_look hk ?_
  split
  · rename_i habs
    exact removes_ret (hs.add hpl (by simpa [absent] using habs))
  · exact ha

theorem removes_each {a : String → Act} {paths gone : List String} (hk : Kept h0 h) (hs : Stage h0 gone h)
    (ha : ∀ path ∈ paths, ∀ gone h, Kept h0 h → Stage h0 gone h →
      Removes h0 (fun _ => Stage h0 (path :: gone)) (unlessAbsent path (a path)) h) :
    Removes h0 (fun _ => Stage h0 (paths.reverse ++ gone)) (removeEach a paths) h := by
  induction paths generalizing gone h with
  | nil => exact removes_ret hs
  | cons path paths ih =>
    refine removes_bind hk (ha path List.mem_cons_self gone h hk hs) fun _ t hkt hst => ?_
    have hrest := ih hkt hst fun p hp => ha p (List.mem_cons_of_mem _ hp)
    rw [List.reverse_cons, List.append_assoc]
    exact hrest

/-- A file of the package that is still there is a regular file of the package. -/
theorem file_of_owned (ho : Owned h0 r gid) (hk : Kept h0 h) {path : String} (hpath : path ∈ FILES.map Prod.fst) {p : Ino × String}
    {i : Ino} (hp : h.fs.place path = some p) (hi : h.fs.at' p = some i) : ownObject h0 i ∧ h.fs.Inert i := by
  obtain ⟨hplain, -, hfiles⟩ := plain_files path hpath
  have hfind : h0.fs.find path = some i := hk.within.find (find_some.2 ⟨p, hp, hi⟩) fun q hq => hplain.not_stateSlot hq
  refine ⟨.inl ⟨path, hfiles, hfind⟩, hk.within.inert fun n hn => ?_⟩
  obtain ⟨f, hf, rfl⟩ := List.mem_map.1 hpath
  rcases ho.files f hf with ha | ⟨m, owner, hm, -, hkind, -⟩
  · rw [absent, hfind] at ha
    nomatch ha
  · obtain ⟨j, hj, hmj⟩ := lstat_ok.1 hm
    rw [hfind] at hj
    cases hj
    rw [hn] at hmj
    cases hmj
    rw [Node.walkable, hkind]
    rfl

theorem removes_file (ho : Owned h0 r gid) {path : String} (hpath : path ∈ FILES.map Prod.fst) {gone : List String}
    (hk : Kept h0 h) (hs : Stage h0 gone h) :
    Removes h0 (fun _ => Stage h0 (path :: gone)) (unlessAbsent path (.unlink path)) h := by
  obtain ⟨hplain, hown, -⟩ := plain_files path hpath
  refine removes_unlessAbsent hk hs hplain (removes_onFiles hk (fun x res h' hx => perform_unlink hx) fun fs' hu => ?_)
  obtain ⟨hk', hw, ha⟩ := hk.unlink hown (fun p i hp hi => file_of_owned ho hk hpath hp hi) hu
  exact ⟨hk', (hs.onFs hw).add hplain ha⟩

theorem removes_dir {path : String} (hpath : path ∈ (DIRS.map Prod.fst).reverse) {gone : List String} (hk : Kept h0 h)
    (hs : Stage h0 gone h) : Removes h0 (fun _ => Stage h0 (path :: gone)) (unlessAbsent path (.rmdir path)) h := by
  obtain ⟨hplain, hown⟩ := plain_dirs path hpath
  refine removes_unlessAbsent hk hs hplain (removes_onFiles hk (fun x res h' hx => perform_rmdir hx) fun fs' hu => ?_)
  obtain ⟨hk', hw, ha⟩ := hk.rmdir hown hu
  exact ⟨hk', (hs.onFs hw).add hplain ha⟩

/-! ## The receipt and the identity -/

theorem Kept.unitShow (hk : Kept h0 h) (unitShow : Except RunFault String) : Kept h0 { h with unitShow := unitShow } :=
  { changes := hk.changes
    within := hk.within
    receipt := hk.receipt
    users := hk.users
    groups := hk.groups
    members := hk.members
    grouplist := hk.grouplist
    status := hk.status
    processes := hk.processes }

theorem removes_reload {gone : List String} (hk : Kept h0 h) (hs : Stage h0 gone h) :
    Removes h0 (fun _ => Stage h0 gone) (act .reload) h := by
  refine removes_act fun x res h' hx => ?_
  cases x with
  | reloaded fault unitShow =>
    cases hx
    exact ⟨hk.unitShow unitShow, fun _ => ⟨hs.passwd, hs.groups, hs.gone⟩, fun e he => harmless_afterRun (by simp) he⟩
  | _ => nomatch hx

theorem removes_saveReceipt {gone : List String} (hk : Kept h0 h) (hs : Stage h0 gone h) :
    Removes h0 (fun _ => Stage h0 gone) (saveReceipt r) h := by
  refine removes_bind (Q := fun _ t => Stage h0 gone t ∧ ∃ p, h0.fs.place receiptNext = some p ∧
    ∀ j, t.fs.at' p = some j → ownObject h0 j ∧ t.fs.Inert j) hk (removes_act fun x res h' hx => ?_) fun _ t hkt hst => ?_
  · cases x with
    | created i =>
      cases hc : h.fs.create receiptNext i ⟨.file r.data, 0, 0, 0o600, 1⟩ with
      | none =>
        simp only [perform, hc] at hx
        cases hx
        exact ⟨hk, nofun, fun e he => by cases he; exact harmless_error _⟩
      | some fs' =>
        simp only [perform, hc] at hx
        cases hx
        obtain ⟨hk', hw, hp⟩ := hk.create rfl hc
        exact ⟨hk', fun _ => ⟨hs.onFs hw, hp⟩, nofun⟩
    | broken i content gid mode =>
      cases hc : h.fs.create receiptNext i ⟨.file content, 0, gid, mode, 1⟩ with
      | none =>
        simp only [perform, hc] at hx
        cases hx
        exact ⟨hk, nofun, fun e he => by cases he; exact harmless_error _⟩
      | some fs' =>
        simp only [perform, hc] at hx
        cases hx
        exact ⟨(hk.create rfl hc).1, nofun, fun e he => by cases he; exact harmless_error _⟩
    | fails =>
      cases hx
      exact ⟨hk, nofun, fun e he => by cases he; exact harmless_error _⟩
    | _ => nomatch hx
  · obtain ⟨hst, p, hp, hnext⟩ := hst
    refine removes_bind (Q := fun _ t => Stage h0 gone t) hkt
      (removes_onFiles hkt (fun x res h' hx => perform_replace hx) fun fs' hu => ?_) fun _ u hku hsu => removes_act fun x res h' hx => ?_
    · obtain ⟨hk', hw⟩ := hkt.replace hp hnext hu
      exact ⟨hk', hst.onFs hw⟩
    · cases x with
      | done =>
        cases hx
        exact ⟨hku, fun _ => hsu, nofun⟩
      | fails =>
        cases hx
        exact ⟨hku, nofun, fun e he => by cases he; exact harmless_error _⟩
      | _ => nomatch hx

/-- After the user was dealt with: the paths are gone, and the check that comes before the group is removed passes. -/
structure Dismissed (h0 : Host) (gone : List String) (r : Receipt) (h : Host) : Prop where
  gone : ∀ path ∈ gone, Plain path ∧ h.fs.find path = none
  checked : ∀ g, h.group = some g → ∃ x, identity h r true = .ok x

theorem removes_user {gone : List String} (hid : identity h0 r true = .ok gid) (hk : Kept h0 h) (hs : Stage h0 gone h) :
    Removes h0 (fun r' => Dismissed h0 gone r') (removeUser r) h := by
  have hfirst := hid
  obtain ⟨user, huser, hid⟩ := bind_ok.1 hid
  have huser' : h.user = .ok user := (user_same hk hs.passwd).trans huser
  refine removes_look hk (removes_lift (fun user' hu => ?_) fun e he => by rw [huser'] at he; nomatch he)
  rw [huser'] at hu
  cases hu
  cases user with
  | none => exact removes_ret ⟨hs.gone, fun _ _ => ⟨gid, (identity_same hk hs.passwd hs.groups r true).trans hfirst⟩⟩
  | some u =>
    have hthere : ∀ {t : Host}, Kept h0 t → Stage h0 gone t → userThere t = .ok u := fun hkt hst =>
      bind_ok.2 ⟨some u, (user_same hkt hst.passwd).trans huser, rfl⟩
    refine removes_look hk (removes_lift (fun u' hu => ?_) fun e he => by rw [hthere hk hs] at he; nomatch he)
    rw [hthere hk hs] at hu
    cases hu
    refine removes_bind hk (removes_saveReceipt hk hs) fun _ t hkt hst => removes_look hkt ?_
    have hagain : identity t (r.numbered u) false = .ok (some u.gid) :=
      (identity_same hkt hst.passwd hst.groups _ _).trans (bind_ok.2 ⟨some u, huser, identityOfUser_numbered hid⟩)
    refine removes_lift (fun _ _ => ?_) fun e he => by
      have hne : identity t (r.numbered u) false = .error e := he
      rw [hagain] at hne
      nomatch hne
    refine removes_bind (Q := fun _ => Dismissed h0 gone (r.numbered u)) hkt (removes_act fun x res h' hx => ?_)
      fun _ _ _ hd => removes_ret hd
    cases x with
    | removed fault user group =>
      simp only [perform] at hx
      split at hx
      · nomatch hx
      · rename_i hopen
        cases hx
        refine ⟨hkt.accounts user group, fun hres => ⟨fun path hp => hst.gone path hp, fun g _ => ?_⟩,
          fun e he => harmless_afterRun (by simp) he⟩
        have hfault : fault = none := by
          cases fault with
          | none => rfl
          | some f => nomatch hres
        have hremoved : user = true := by simpa [hfault] using hopen
        subst hremoved
        exact identity_withoutUser hkt hst.passwd hst.groups hid group
    | _ => nomatch hx

theorem removes_group {gone : List String} {r' : Receipt} (hk : Kept h0 h) (hd : Dismissed h0 gone r' h) :
    Removes h0 (fun _ t => ∀ path ∈ gone, Plain path ∧ t.fs.find path = none) (removeGroup r') h := by
  refine removes_look hk ?_
  cases hg : h.group with
  | none => exact removes_ret hd.gone
  | some g =>
    obtain ⟨x, hx⟩ := hd.checked g hg
    refine removes_look hk (removes_lift (fun _ _ => ?_) fun e he => by rw [hx] at he; nomatch he)
    refine removes_act fun x res h' hx => ?_
    cases x with
    | removed fault user group =>
      simp only [perform] at hx
      split at hx
      · nomatch hx
      · cases hx
        exact ⟨hk.accounts false group, fun _ path hp => hd.gone path hp, fun e he => harmless_afterRun (by simp) he⟩
    | _ => nomatch hx

/-! ## The removal -/

theorem rest_of_own : ∀ path ∈ ownPaths, path ∉ removedPaths → path = RECEIPT ∨ path = receiptNext ∨ path = STATE := by
  decide +kernel

theorem removed_gone : ∀ path ∈ removedPaths, path ∈ (DIRS.map Prod.fst).reverse.reverse ++ ((FILES.map Prod.fst).reverse ++ []) := by
  decide +kernel

theorem gone_of_state {t : Host} (hpaths : ∀ path ∈ removedPaths, t.fs.find path = none) (hstate : t.fs.find STATE = none)
    (huser : ∀ p ∈ t.passwd, p.name ≠ NAME) (hgroup : ∀ g ∈ t.groups, g.1 ≠ NAME) : Gone t := by
  have hlast : (parts STATE).getLast? = some "keirin-custody-h2" := by decide +kernel
  have hreceipt : t.fs.find RECEIPT = none := find_none_below hlast (by decide) (by decide +kernel) hstate
  have hnext : t.fs.find receiptNext = none := find_none_below hlast (by decide) (by decide +kernel) hstate
  refine ⟨fun path hp => ?_, huser, hgroup⟩
  rw [absent, Option.isNone_iff_eq_none]
  by_cases hr : path ∈ removedPaths
  · exact hpaths path hr
  · rcases rest_of_own path hp hr with rfl | rfl | rfl
    · exact hreceipt
    · exact hnext
    · exact hstate

theorem identityGone_ok {u : Unit} (hi : identityGone h = .ok u) : (∀ p ∈ h.passwd, p.name ≠ NAME) ∧ ∀ g ∈ h.groups, g.1 ≠ NAME := by
  obtain ⟨user, huser, hi⟩ := bind_ok.1 hi
  have hi := need_ok.1 hi
  simp only [Bool.and_eq_true, Option.isNone_iff_eq_none] at hi
  obtain ⟨rfl, hgroup⟩ := hi
  constructor
  · unfold Host.user at huser
    split at huser
    · rename_i hnone
      exact fun p hp => by simpa using List.find?_eq_none.1 hnone p hp
    · obtain ⟨output, -, huser⟩ := bind_ok.1 huser
      nomatch huser
  · unfold Host.group at hgroup
    rw [Option.map_eq_none_iff] at hgroup
    exact fun g hg => by simpa using List.find?_eq_none.1 hgroup g hg

/-- A host is kept at first. -/
theorem Kept.refl (ho : Owned h0 r gid) : Kept h0 h0 := by
  refine ⟨.refl _ _ _, .refl _ _, fun p i hp hi => ?_, rfl, rfl, rfl, rfl, rfl, rfl⟩
  have hfind : h0.fs.find RECEIPT = some i := find_some.2 ⟨p, hp, hi⟩
  refine ⟨.inl ⟨RECEIPT, by simp, hfind⟩, fun n hn => ?_⟩
  obtain ⟨m, hm, hfile, -⟩ := ho.receiptFile
  obtain ⟨j, hj, hmj⟩ := lstat_ok.1 hm
  rw [hfind] at hj
  cases hj
  rw [hn] at hmj
  cases hmj
  obtain ⟨content, hk⟩ := kind_of_isFile hfile
  rw [Node.walkable, hk]
  rfl

theorem removes_owned (hv : validation h0 = .ok (r, gid)) : Removes h0 (fun _ => Gone) removeOwned h0 := by
  have ho := owned_of_validation hv
  have hk := Kept.refl ho
  obtain ⟨r', hr, hv⟩ := bind_ok.1 hv
  obtain ⟨gid', hid, hv⟩ := bind_ok.1 hv
  obtain ⟨_, hfiles, hv⟩ := bind_ok.1 hv
  obtain ⟨_, hunit, hv⟩ := bind_ok.1 hv
  cases hv
  have hvalidate : Removes h0 (fun a t => a = r ∧ t = h0) validate h0 := by
    refine removes_look hk (removes_lift (fun a ha => ?_) fun e he => by rw [hr] at he; nomatch he)
    rw [hr] at ha
    cases ha
    refine removes_look hk (removes_lift (fun a ha => ?_) fun e he => by rw [hid] at he; nomatch he)
    rw [hid] at ha
    cases ha
    refine removes_look hk (removes_lift (fun _ _ => ?_) fun e he => by rw [hfiles] at he; nomatch he)
    exact removes_look hk (removes_lift (fun _ _ => removes_ret ⟨rfl, rfl⟩) fun e he => by rw [hunit] at he; nomatch he)
  refine removes_bind hk hvalidate fun a t hkt hat => ?_
  obtain ⟨rfl, rfl⟩ := hat
  refine removes_bind hk (removes_each hk (⟨rfl, rfl, nofun⟩ : Stage _ [] _) fun path hp gone h hk hs => removes_file ho hp hk hs)
    fun _ t hkt hst => ?_
  refine removes_bind hkt (removes_each hkt hst fun path hp gone h hk hs => removes_dir hp hk hs) fun _ t hkt hst => ?_
  refine removes_bind hkt (removes_reload hkt hst) fun _ t hkt hst => removes_look hkt (removes_lift (fun _ _ => ?_)
    fun e he => harmless_unitGone he)
  refine removes_bind hkt (removes_user hid hkt hst) fun r' t hkt hd => removes_bind hkt (removes_group hkt hd)
    fun _ t hkt hgone => removes_look hkt (removes_lift (fun _ hidentity => ?_) fun e he => harmless_identityGone he)
  obtain ⟨husers, hgroups⟩ := identityGone_ok hidentity
  -- the receipt and its directory
  refine removes_bind (Q := fun _ s => (∀ path ∈ removedPaths, Plain path ∧ s.fs.find path = none) ∧
    (∀ p ∈ s.passwd, p.name ≠ NAME) ∧ ∀ g ∈ s.groups, g.1 ≠ NAME) hkt
    (removes_onFiles hkt (fun x res h' hx => perform_unlink hx) fun fs' hu => ?_) fun _ s hks hs => ?_
  · obtain ⟨hk', hw, -⟩ := hkt.unlink receipt_own (fun p i hp hi => hkt.receipt p i (hkt.within.place hp) hi) hu
    refine ⟨hk', fun path hp => ?_, husers, hgroups⟩
    obtain ⟨hpl, ha⟩ := hgone path (removed_gone path hp)
    exact ⟨hpl, absent_within hw hpl ha⟩
  · obtain ⟨hpaths, husers, hgroups⟩ := hs
    refine removes_bind (Q := fun _ => Gone) hks (removes_onFiles hks (fun x res h' hx => perform_rmdir hx) fun fs' hu => ?_)
      fun _ _ _ hg => removes_ret hg
    obtain ⟨hk', hw, ha⟩ := hks.rmdir (by decide +kernel) hu
    exact ⟨hk', gone_of_state (fun path hp => absent_within hw (hpaths path hp).1 (hpaths path hp).2) ha husers hgroups⟩

/-- The checks are the first thing a removal does. -/
theorem exec_invalid {e : Fault} (hv : validation h0 = .error e) (xs : List Outcome) :
    removeOwned.exec machine (List.replicate 4 .done ++ xs) h0 = (h0, .raise e) := by
  refine Prog.exec_bind_raise ?_ _
  have hlook : ∀ (ys : List Outcome) (f : Host → Work Receipt),
      (look >>= f).exec machine (.done :: ys) h0 = (f h0).exec machine ys h0 := fun _ _ => rfl
  have hlift : ∀ {α : Type} {x : Except Fault α} {f : α → Work Receipt} (ys : List Outcome), x = .error e →
      (lift x >>= f).exec machine ys h0 = (h0, .raise e) := fun ys hx => by
    subst hx
    exact Prog.exec_raise machine ys h0 e
  change validate.exec machine (.done :: .done :: .done :: .done :: xs) h0 = _
  rw [validate, hlook]
  rcases bind_error hv with he | ⟨r, hr, hv⟩
  · exact hlift _ he
  rw [hr, lift, Prog.ret_bind, hlook]
  rcases bind_error hv with he | ⟨gid, hid, hv⟩
  · exact hlift _ he
  rw [hid, lift, Prog.ret_bind, hlook]
  rcases bind_error hv with he | ⟨_, hfiles, hv⟩
  · exact hlift _ he
  rw [hfiles, lift, Prog.ret_bind, hlook]
  rcases bind_error hv with he | ⟨_, -, hv⟩
  · exact hlift _ he
  · nomatch hv

/-- Where a check fails, a removal changes nothing and does not return. -/
theorem invalid_safe {e : Fault} (hv : validation h0 = .error e) :
    removeOwned.Safe (Setting.alone machine (· = h0)) (fun _ _ => False) (fun e' _ => e' = e) h0 := by
  have hlook : ∀ {α : Type} {f : Host → Work α}, (f h0).Safe (Setting.alone machine (· = h0)) (fun _ _ => False) (fun e' _ => e' = e) h0 →
      (look >>= f).Safe (Setting.alone machine (· = h0)) (fun _ _ => False) (fun e' _ => e' = e) h0 := by
    intro α f hf
    refine Prog.safe_cmd_alone fun x s t hm => ?_
    cases x with
    | done =>
      cases hm
      exact ⟨rfl, hf⟩
    | _ => nomatch hm
  have hlift : ∀ {α β : Type} {x : Except Fault α} {f : α → Work β}, x = .error e →
      (lift x >>= f).Safe (Setting.alone machine (· = h0)) (fun _ _ => False) (fun e' _ => e' = e) h0 := by
    intro α β x f hx
    subst hx
    exact fun _ _ _ => rfl
  refine Prog.safe_bind_alone (Q := fun _ _ => False) rfl ?_ fun _ _ _ hf => hf.elim
  refine hlook ?_
  rcases bind_error hv with he | ⟨r, hr, hv⟩
  · exact hlift he
  rw [hr]
  refine hlook ?_
  rcases bind_error hv with he | ⟨gid, hid, hv⟩
  · exact hlift he
  rw [hid]
  refine hlook ?_
  rcases bind_error hv with he | ⟨_, hfiles, hv⟩
  · exact hlift he
  rw [hfiles]
  refine hlook ?_
  rcases bind_error hv with he | ⟨_, -, hv⟩
  · exact hlift he
  · nomatch hv

/-- For any host, any receipt on it and any behaviour of the system. Where a check on the receipt, the identity, the files or the
inactivity fails, the removal raises its error and the host is as it was. Otherwise what is there of the package is the package,
nothing else ever differs, no such check fails once something was removed, and when the removal returns nothing of the package is
left. -/
theorem rollback_touches_nothing_foreign (h0 : Host) (xs : List Outcome) :
    match validation h0 with
    | .error e => (removeOwned.exec machine xs h0).1 = h0 ∧ (∀ s, (removeOwned.exec machine xs h0).2 ≠ .ret s) ∧
        removeOwned.exec machine (List.replicate 4 .done ++ xs) h0 = (h0, .raise e)
    | .ok (r, gid) => Owned h0 r gid ∧ Frame h0 (removeOwned.exec machine xs h0).1 ∧
        (∀ s, (removeOwned.exec machine xs h0).2 = .ret s → Gone (removeOwned.exec machine xs h0).1) ∧
        ∀ e, (removeOwned.exec machine xs h0).2 = .raise e → Harmless e := by
  cases hv : validation h0 with
  | error e =>
    obtain ⟨hinv, hrest⟩ := (invalid_safe hv).exec (fun _ => rfl) xs rfl
    refine ⟨hinv, fun s hs => ?_, exec_invalid hv xs⟩
    have hret : Prog.Safe (Setting.alone machine (· = h0)) (fun _ _ => False) (fun e' _ => e' = e)
      (removeOwned.exec machine xs h0).2 (removeOwned.exec machine xs h0).1 := hrest
    rw [hs] at hret
    exact hret _ rfl hinv
  | ok a =>
    obtain ⟨r, gid⟩ := a
    have ho := owned_of_validation hv
    obtain ⟨hk, hrest⟩ := (removes_owned hv).exec (fun _ => rfl) xs (Kept.refl ho)
    have hend : Removes h0 (fun _ => Gone) (removeOwned.exec machine xs h0).2 (removeOwned.exec machine xs h0).1 := hrest
    refine ⟨ho, hk.frame, fun s hs => ?_, fun e he => ?_⟩
    · rw [hs] at hend
      exact hend _ rfl hk
    · rw [he] at hend
      exact hend _ rfl hk

/-! ## A sample -/

/-- The objects of the sample, by their numbers. -/
def sampleNodes : List (Ino × Node) :=
  [0, 1, 2, 3, 4, 5].map (fun i => (i, ⟨.dir 0, 0, 0, 0o755, 1⟩)) ++
    [(6, ⟨.dir 3, 0, 500, 0o750, 1⟩), (7, ⟨.file (encodeLines GATES), 0, 500, 0o640, 1⟩),
      (8, ⟨.file (encodeLines UNIT), 0, 0, 0o644, 1⟩), (9, ⟨.dir 1, 0, 0, 0o755, 1⟩), (10, ⟨.dir 2, 0, 0, 0o700, 1⟩),
      (11, ⟨.file (Receipt.data ⟨String.ofList (List.replicate 32 'a'), none, none⟩), 0, 0, 0o600, 1⟩)]

/-- A host with the package, its installation cut off before the receipt had the numbers of the user. -/
def sampleHost : Host where
  fs :=
    { root := 0
      limit := 40
      node := fun i => (sampleNodes.find? fun n => n.1 = i).map Prod.snd
      entries := fun
        | 0 => [("opt", 1), ("var", 2), ("etc", 3)]
        | 1 => [("keirin-custody", 9)]
        | 2 => [("lib", 4)]
        | 3 => [("systemd", 5), ("keirin-custody", 6)]
        | 4 => [("keirin-custody-h2", 10)]
        | 5 => [("system", 5), ("keirin-custody.service", 8)]
        | 6 => [("gates.json", 7)]
        | 10 => [("receipt.json", 11)]
        | _ => [] }
  passwd := [⟨"root", 0, 0, "root", "/root", "/bin/bash"⟩,
    ⟨NAME, 500, 500, SCHEMA ++ "-" ++ String.ofList (List.replicate 32 'a'), "/nonexistent", "/usr/sbin/nologin"⟩]
  groups := [("root", 0), (NAME, 500)]
  members := []
  grouplist := [500]
  status := .ok "keirin-custody L 2026-01-01"
  processes := [("1", some "Name:\tinit\nUid:\t0\t0\t0\t0\n")]
  unitShow := .ok "LoadState=not-found\nActiveState=inactive\n"

/-- The behaviour of the system in the sample. -/
def sampleOutcomes : List Outcome :=
  List.replicate 12 .done ++ [.reloaded none (.ok "LoadState=not-found\n"), .done, .done, .done, .created 12, .done, .done, .done,
    .removed none true true, .done, .done, .done, .done]

/-- The removal returns, and only the foreign accounts are left. -/
example : ((removeOwned.exec machine sampleOutcomes sampleHost).1.passwd.map PwEntry.name,
    match (removeOwned.exec machine sampleOutcomes sampleHost).2 with
    | .ret s => s
    | _ => "") = (["root"], "ROLLED_BACK_NO_RUNTIME") := by decide +kernel

end Custody

end Keirin
