import Keirin.OwnedPackage

/-!
# The removal of the custody package

First what the checks say of the host they pass on; then one lemma per action, on the invariant `Kept` that ties the host to
the one the removal began with; then the removal from these.
-/

namespace Keirin

namespace Custody

open Fs

/-! ## Checks -/

theorem need_ok {condition : Bool} {code : String} {u : Unit} : need condition code = .ok u ↔ condition = true := by
  cases condition <;> simp [need, raiseIf]

theorem each_ok {α : Type} {check : α → Except Fault Unit} {xs : List α} {u : Unit} :
    each check xs = .ok u ↔ ∀ x ∈ xs, check x = .ok () := by
  induction xs with
  | nil => simp [each]
  | cons x xs ih =>
    rw [each, bind_ok, List.forall_mem_cons]
    constructor
    · rintro ⟨_, hx, hxs⟩
      exact ⟨hx, ih.1 hxs⟩
    · rintro ⟨hx, hxs⟩
      exact ⟨(), hx, ih.2 hxs⟩

theorem lstat_ok {h : Host} {path : String} {n : Node} :
    h.lstat path = .ok n ↔ ∃ i, h.fs.find path = some i ∧ h.fs.node i = some n := by
  unfold Host.lstat
  cases hn : (h.fs.find path).bind h.fs.node with
  | none =>
    simp only [reduceCtorEq, false_iff, not_exists, not_and]
    intro i hi hni
    simp [hi, hni] at hn
  | some m =>
    obtain ⟨i, hi, hm⟩ := Option.bind_eq_some_iff.1 hn
    constructor
    · rintro he
      cases he
      exact ⟨i, hi, hm⟩
    · rintro ⟨j, hj, hnj⟩
      rw [hi] at hj
      cases hj
      rw [hm] at hnj
      cases hnj
      rfl

theorem metadata_ok {h : Host} {path : String} {mode : ℕ} {gid : ℤ} {directory : Bool} {u : Unit}
    (hm : metadata h path mode gid directory = .ok u) :
    ∃ n, h.lstat path = .ok n ∧ (if directory then n.isDir else n.isFile) = true ∧ n.uid = 0 ∧ n.gid = gid ∧ n.mode = mode ∧
      (directory = false → n.nlink = 1) := by
  obtain ⟨n, hn, hm⟩ := bind_ok.1 hm
  obtain ⟨_, hdrift, hlink⟩ := bind_ok.1 hm
  have hdrift := need_ok.1 hdrift
  have hlink := need_ok.1 hlink
  simp only [Bool.and_eq_true, decide_eq_true_eq] at hdrift
  obtain ⟨⟨⟨hkind, huid⟩, hgid⟩, hmode⟩ := hdrift
  refine ⟨n, hn, hkind, huid, hgid, hmode, fun hd => ?_⟩
  subst hd
  simpa using hlink

/-- What is at a path and is no link is what reading the path finds. -/
theorem follow_of_find {fs : Fs} {path : String} {i : Ino} {n : Node} (hi : fs.find path = some i) (hn : fs.node i = some n)
    (hlink : ∀ target, n.kind ≠ .link target) : fs.follow path = some i := by
  obtain ⟨p, hp, hat⟩ := find_some.1 hi
  unfold follow
  simp only [hp, hat, hn, Option.map_some]
  split
  · rename_i target ht
    exact absurd (Option.some.inj ht) (hlink target)
  · rfl

theorem kind_of_isFile {n : Node} (h : n.isFile = true) : ∃ content, n.kind = .file content := by
  unfold Node.isFile at h
  split at h
  · rename_i content hk
    exact ⟨content, hk⟩
  · nomatch h

theorem kind_of_isDir {n : Node} (h : n.isDir = true) : ∃ parent, n.kind = .dir parent := by
  unfold Node.isDir at h
  split at h
  · rename_i parent hk
    exact ⟨parent, hk⟩
  · nomatch h

/-- What is read of a regular file is its content. -/
theorem readBytes_of_isFile {h : Host} {path : String} {n : Node} {data : List ℕ} (hn : h.lstat path = .ok n) (hf : n.isFile = true)
    (hd : h.readBytes path = .ok data) : n.kind = .file data := by
  obtain ⟨i, hi, hni⟩ := lstat_ok.1 hn
  obtain ⟨content, hk⟩ := kind_of_isFile hf
  have hfollow := follow_of_find hi hni (fun target => by rw [hk]; exact nofun)
  unfold Host.readBytes at hd
  simp only [hfollow, Option.bind_some, hni, Option.map_some, hk] at hd
  cases hd
  exact hk

theorem provenOwner_ok {gid : Option ℤ} {g : ℤ} : provenOwner gid = .ok g ↔ gid = some g := by
  cases gid <;> simp [provenOwner]

theorem checkDir_ok {h : Host} {gid : Option ℤ} {d : String × ℕ} (hd : checkDir h gid true d = .ok ()) :
    absent h d.1 = true ∨ ∃ n owner names, h.lstat d.1 = .ok n ∧ (if d.1 = etcDir then gid else some 0) = some owner ∧
      n.isDir = true ∧ n.uid = 0 ∧ n.gid = owner ∧ n.mode = d.2 ∧ h.iterdir d.1 = .ok names ∧
      ∀ name ∈ names, d.1 = etcDir ∧ name = "gates.json" := by
  unfold checkDir at hd
  split at hd
  · rename_i ha
    exact .inl (by simpa using ha)
  · right
    obtain ⟨owner, howner, hd⟩ := bind_ok.1 hd
    obtain ⟨_, hmeta, hd⟩ := bind_ok.1 hd
    obtain ⟨names, hnames, hd⟩ := bind_ok.1 hd
    obtain ⟨n, hn, hkind, huid, hgid, hmode, -⟩ := metadata_ok hmeta
    refine ⟨n, owner, names, hn, provenOwner_ok.1 howner, hkind, huid, hgid, hmode, hnames, fun name hname => ?_⟩
    have hall := (Bool.and_eq_true_iff.1 (need_ok.1 hd)).1
    have hin := List.all_eq_true.1 hall name hname
    by_cases he : d.1 = etcDir
    · exact ⟨he, by simpa [he] using hin⟩
    · simp [he] at hin

theorem checkFile_ok {h : Host} {gid : Option ℤ} {f : String × List ℕ × ℕ} (hf : checkFile h gid true f = .ok ()) :
    absent h f.1 = true ∨ ∃ n owner, h.lstat f.1 = .ok n ∧
      (if "/gates.json".toList <:+ f.1.toList then gid else some 0) = some owner ∧
      n.kind = .file f.2.1 ∧ n.uid = 0 ∧ n.gid = owner ∧ n.mode = f.2.2 ∧ n.nlink = 1 := by
  unfold checkFile at hf
  split at hf
  · rename_i ha
    exact .inl (by simpa using ha)
  · right
    obtain ⟨owner, howner, hf⟩ := bind_ok.1 hf
    obtain ⟨_, hmeta, hf⟩ := bind_ok.1 hf
    obtain ⟨data, hdata, hf⟩ := bind_ok.1 hf
    obtain ⟨n, hn, hkind, huid, hgid, hmode, hlink⟩ := metadata_ok hmeta
    have hsame : data = f.2.1 := by simpa using (Bool.and_eq_true_iff.1 (need_ok.1 hf)).2
    exact ⟨n, owner, hn, provenOwner_ok.1 howner, hsame ▸ readBytes_of_isFile hn hkind hdata, huid, hgid, hmode, hlink rfl⟩

theorem ownerOf_file {gid : Option ℤ} : ∀ f ∈ FILES,
    (if "/gates.json".toList <:+ f.1.toList then gid else some 0) = ownerOf gid f.1 := by
  intro f hf
  rcases List.mem_pair.1 hf with rfl | rfl
  · rw [if_pos (by decide +kernel), ownerOf, if_pos (.inl rfl)]
  · rw [if_neg (by decide +kernel), ownerOf, if_neg (by decide +kernel)]

theorem ownerOf_dir {gid : Option ℤ} : ∀ d ∈ DIRS, (if d.1 = etcDir then gid else some 0) = ownerOf gid d.1 := by
  intro d hd
  rcases List.mem_pair.1 hd with rfl | rfl
  · rw [if_neg (by decide +kernel), ownerOf, if_neg (by decide +kernel)]
  · rw [if_pos rfl, ownerOf, if_pos (.inr rfl)]

theorem own_iff {group : Group} {gid : ℤ} : group.own gid = true ↔ group.gid = gid ∧ group.members = [] ∧ group.otherPrimary = [] := by
  simp [Group.own, and_assoc]

theorem Group.own_gid {group : Group} {gid : ℤ} (h : group.own gid = true) : group.gid = gid := (own_iff.1 h).1

/-- What the identity check says of a user. -/
theorem identityOfUser_ok {h : Host} {r : Receipt} {user : User} {gid : Option ℤ} (hi : identityOfUser h r user = .ok gid) :
    (user.tag = SCHEMA ++ "-" ++ r.id ∧ user.locked = true ∧ user.home = "/nonexistent" ∧ user.shell = "/usr/sbin/nologin" ∧
      (0 < user.uid ∧ user.uid < 1000) ∧ (0 < user.gid ∧ user.gid < 1000) ∧ ∀ g ∈ user.groups, g = user.gid) ∧
    gid = some user.gid ∧ (r.uid = none ∨ r.uid = some user.uid) ∧ (r.gid = none ∨ r.gid = some user.gid) ∧
    ∃ group, h.group = some group ∧ group.own user.gid = true := by
  obtain ⟨_, hdrift, hi⟩ := bind_ok.1 hi
  obtain ⟨_, hgroup, hi⟩ := bind_ok.1 hi
  obtain ⟨_, hreplaced, hi⟩ := bind_ok.1 hi
  obtain ⟨_, -, hi⟩ := bind_ok.1 hi
  have hdrift := need_ok.1 hdrift
  have hgroup := need_ok.1 hgroup
  have hreplaced := need_ok.1 hreplaced
  simp only [Bool.and_eq_true, decide_eq_true_eq, Bool.or_eq_true, List.all_eq_true] at hdrift hreplaced
  obtain ⟨⟨⟨⟨⟨⟨htag, hlocked⟩, hhome⟩, hshell⟩, huid⟩, hgid⟩, hgroups, -⟩ := hdrift
  cases hi
  cases hg : h.group with
  | none => simp [hg] at hgroup
  | some group =>
  have hown : group.own user.gid = true := by simpa [hg] using hgroup
  exact ⟨⟨htag, hlocked, hhome, hshell, huid, hgid, hgroups⟩, rfl, hreplaced.1, hreplaced.2, group, rfl, hown⟩

/-- What the identity check says of the group, with a user or without. -/
theorem identity_group {h : Host} {r : Receipt} {gid : Option ℤ} (hi : identity h r true = .ok gid) {g : Group}
    (hg : h.group = some g) : gid = some g.gid ∧ g.members = [] ∧ g.otherPrimary = [] := by
  obtain ⟨user, -, hi⟩ := bind_ok.1 hi
  cases user with
  | none =>
    obtain ⟨_, -, hi⟩ := bind_ok.1 hi
    obtain ⟨_, hown, hi⟩ := bind_ok.1 hi
    obtain ⟨_, -, hi⟩ := bind_ok.1 hi
    cases hi
    rw [groupOwned, hg] at hown
    have hown := need_ok.1 hown
    cases hr : r.gid with
    | none => simp [hr] at hown
    | some n =>
      have hn : g.own n = true := by simpa [hr] using hown
      obtain ⟨he, hm, ho⟩ := own_iff.1 hn
      exact ⟨by rw [he], hm, ho⟩
  | some u =>
    obtain ⟨-, hgid, -, -, group, hgroup, hown⟩ := identityOfUser_ok hi
    rw [hg] at hgroup
    cases hgroup
    obtain ⟨he, hm, ho⟩ := own_iff.1 hown
    exact ⟨by rw [hgid, he], hm, ho⟩

/-- What passes the checks is the package. -/
theorem owned_of_validation {h : Host} {r : Receipt} {gid : Option ℤ} (hv : validation h = .ok (r, gid)) : Owned h r gid := by
  obtain ⟨r', hr, hv⟩ := bind_ok.1 hv
  obtain ⟨gid', hid, hv⟩ := bind_ok.1 hv
  obtain ⟨_, hfiles, hv⟩ := bind_ok.1 hv
  obtain ⟨_, hunit, hv⟩ := bind_ok.1 hv
  cases hv
  obtain ⟨_, hdirs, hfiles⟩ := bind_ok.1 hfiles
  have hdirs := each_ok.1 hdirs
  have hfiles := each_ok.1 hfiles
  have hreceipt := hr
  obtain ⟨_, hstate, hr⟩ := bind_ok.1 hr
  obtain ⟨_, hfile, -⟩ := bind_ok.1 hr
  obtain ⟨n, hn, hkind, huid, hgid, hmode, -⟩ := metadata_ok hstate
  obtain ⟨n', hn', hkind', huid', hgid', hmode', hlink'⟩ := metadata_ok hfile
  refine
    { state := ⟨n, hn, hkind, huid, hgid, hmode⟩
      receiptFile := ⟨n', hn', hkind', huid', hgid', hmode', hlink' rfl⟩
      receipt := hreceipt
      files := fun f hf => ?_
      dirs := fun d hd => ?_
      user := ?_
      group := fun g hg => identity_group hid hg
      unit := ?_ }
  · rcases checkFile_ok (hfiles f hf) with ha | ⟨n, owner, hl, howner, hrest⟩
    · exact .inl ha
    · exact .inr ⟨n, owner, hl, ownerOf_file f hf ▸ howner, hrest⟩
  · rcases checkDir_ok (hdirs d hd) with ha | ⟨n, owner, names, hl, howner, hrest⟩
    · exact .inl ha
    · exact .inr ⟨n, owner, names, hl, ownerOf_dir d hd ▸ howner, hrest⟩
  · obtain ⟨user, huser, hid⟩ := bind_ok.1 hid
    refine ⟨user, huser, fun u hu => ?_⟩
    cases hu
    obtain ⟨⟨h1, h2, h3, h4, h5, h6, h7⟩, h8, h9, h10, -⟩ := identityOfUser_ok hid
    exact ⟨h1, h2, h3, h4, h5, h6, h7, h8, h9, h10⟩
  · obtain ⟨unit, hu, hunit⟩ := bind_ok.1 hunit
    obtain ⟨_, hactive, -⟩ := bind_ok.1 hunit
    have hactive := (Bool.and_eq_true_iff.1 (need_ok.1 hactive)).1
    exact ⟨unit, hu, by simpa using hactive⟩

end Custody

end Keirin
