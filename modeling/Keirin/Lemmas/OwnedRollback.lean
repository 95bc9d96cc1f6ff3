import Keirin.Lemmas.Custody

/-!
# What each action of a removal does

`Kept` ties the host to the one the removal began with. Each action keeps it, whatever its outcome; what was found absent stays
absent; and the later checks of the identity pass.
-/

namespace Keirin

namespace Custody

open Fs

/-! ## The invariant -/

/-- The entries a receipt is written under. -/
def stateSlot (h : Host) (d : Ino) (name : String) : Prop := ∃ path ∈ [RECEIPT, receiptNext], h.fs.place path = some (d, name)

/-- The host `h` while the package of `h0` is removed. -/
structure Kept (h0 h : Host) : Prop where
  changes : Fs.Changes (ownSlot h0) (ownObject h0) h0.fs h.fs
  within : Fs.Within (stateSlot h0) h0.fs h.fs
  receipt : ∀ p i, h0.fs.place RECEIPT = some p → h.fs.at' p = some i → ownObject h0 i ∧ h.fs.Inert i
  users : h.passwd.filter (fun p => p.name ≠ NAME) = h0.passwd.filter fun p => p.name ≠ NAME
  groups : h.groups.filter (fun g => g.1 ≠ NAME) = h0.groups.filter fun g => g.1 ≠ NAME
  members : h.members = h0.members
  grouplist : h.grouplist = h0.grouplist
  status : h.status = h0.status
  processes : h.processes = h0.processes

variable {h0 h h' : Host} {fs' : Fs} {path : String}

/-- Nothing foreign differs on such a host. -/
theorem Kept.frame (hk : Kept h0 h) : Frame h0 h := ⟨hk.changes, hk.users, hk.groups, hk.processes⟩

/-- The files may change as the package's may; the accounts stay. -/
theorem Kept.onFs (hk : Kept h0 h) (hc : Fs.Changes (ownSlot h0) (ownObject h0) h.fs fs')
    (hw : Fs.Within (stateSlot h0) h.fs fs')
    (hr : ∀ p i, h0.fs.place RECEIPT = some p → fs'.at' p = some i → ownObject h0 i ∧ fs'.Inert i) :
    Kept h0 { h with fs := fs' } :=
  { changes := hk.changes.trans hc
    within := hk.within.trans hw
    receipt := hr
    users := hk.users
    groups := hk.groups
    members := hk.members
    grouplist := hk.grouplist
    status := hk.status
    processes := hk.processes }

/-- A place of a path that is looked up now is the one the path had. -/
theorem Kept.slot (hk : Kept h0 h) {p : Ino × String} (hpath : path ∈ ownPaths) (hp : h.fs.place path = some p) :
    ownSlot h0 p := ⟨path, hpath, hk.within.place hp⟩

theorem receipt_own : RECEIPT ∈ ownPaths := by decide +kernel

theorem receiptNext_own : receiptNext ∈ ownPaths := by decide +kernel

/-! ## Names -/

/-- The last name of a path is none of the names of a receipt. -/
def Plain (path : String) : Prop := (parts path).getLast? ≠ some "receipt.json" ∧ (parts path).getLast? ≠ some "receipt.json.next"

instance (path : String) : Decidable (Plain path) := inferInstanceAs (Decidable (_ ∧ _))

theorem name_of_place {fs : Fs} {p : Ino × String} (hp : fs.place path = some p) : (parts path).getLast? = some p.2 := by
  obtain ⟨d, name⟩ := p
  exact (place_some.1 hp).1

theorem stateSlot_name {d : Ino} {name : String} (hs : stateSlot h d name) : name = "receipt.json" ∨ name = "receipt.json.next" := by
  obtain ⟨path, hpath, hp⟩ := hs
  have hname := name_of_place hp
  rcases List.mem_pair.1 hpath with rfl | rfl
  · have hlast : (parts RECEIPT).getLast? = some "receipt.json" := by decide +kernel
    rw [hlast] at hname
    exact .inl (Option.some.inj hname).symm
  · have hlast : (parts receiptNext).getLast? = some "receipt.json.next" := by decide +kernel
    rw [hlast] at hname
    exact .inr (Option.some.inj hname).symm

theorem Plain.not_stateSlot (hpl : Plain path) {fs : Fs} {p : Ino × String} (hp : fs.place path = some p) :
    ¬stateSlot h p.1 p.2 := by
  intro hs
  have hname := name_of_place hp
  rcases stateSlot_name hs with he | he
  · exact hpl.1 (by rw [hname, he])
  · exact hpl.2 (by rw [hname, he])

/-- What is absent stays absent. -/
theorem absent_within {fs fs' : Fs} (hw : Fs.Within (stateSlot h) fs fs') (hpl : Plain path) (ha : fs.find path = none) :
    fs'.find path = none := by
  by_contra hne
  obtain ⟨i, hi⟩ := Option.ne_none_iff_exists'.1 hne
  rw [hw.find hi fun p hp => hpl.not_stateSlot hp] at ha
  nomatch ha

/-! ## Removals -/

/-- The removal of a file of the package. -/
theorem Kept.unlink (hk : Kept h0 h) (hpath : path ∈ ownPaths)
    (hobj : ∀ p i, h.fs.place path = some p → h.fs.at' p = some i → ownObject h0 i ∧ h.fs.Inert i)
    (hu : h.fs.unlink path = some fs') :
    Kept h0 { h with fs := fs' } ∧ Fs.Within (stateSlot h0) h.fs fs' ∧ fs'.find path = none := by
  obtain ⟨p, i, hp, hi, -, rfl⟩ := unlink_some hu
  obtain ⟨hown, hinert⟩ := hobj p i hp hi
  have hpop : Fs.Within (stateSlot h0) h.fs (h.fs.setEntries p.1 (Dict.pop p.2)) := pop_within _ _ _
  have hw := hpop.trans (dropLink_within (hpop.inert hinert))
  have hslot := hk.slot hpath hp
  have hc : Fs.Changes (ownSlot h0) (ownObject h0) h.fs ((h.fs.setEntries p.1 (Dict.pop p.2)).dropLink i) :=
    ((pop_changes h.fs p).mono (fun q hq => hq ▸ hslot) fun _ hf => hf.elim).trans
      ((dropLink_changes _ i).mono (fun _ hf => hf.elim) fun j hj => hj ▸ hown)
  refine ⟨hk.onFs hc hw fun q j hq hj => ?_, hw, hw.find_none hp (by simp)⟩
  rw [at'_dropLink, at'_pop] at hj
  split_ifs at hj
  obtain ⟨ho, hn⟩ := hk.receipt q j hq hj
  exact ⟨ho, hw.inert hn⟩

/-- The removal of a directory of the package. -/
theorem Kept.rmdir (hk : Kept h0 h) (hpath : path ∈ ownPaths) (hu : h.fs.rmdir path = some fs') :
    Kept h0 { h with fs := fs' } ∧ Fs.Within (stateSlot h0) h.fs fs' ∧ fs'.find path = none := by
  obtain ⟨p, i, hp, hi, -, -, rfl⟩ := rmdir_some hu
  have hw : Fs.Within (stateSlot h0) h.fs (h.fs.setEntries p.1 (Dict.pop p.2)) := pop_within _ _ _
  have hslot := hk.slot hpath hp
  have hc : Fs.Changes (ownSlot h0) (ownObject h0) h.fs (h.fs.setEntries p.1 (Dict.pop p.2)) :=
    (pop_changes h.fs p).mono (fun q hq => hq ▸ hslot) fun _ hf => hf.elim
  refine ⟨hk.onFs hc hw fun q j hq hj => ?_, hw, hw.find_none hp (by simp)⟩
  rw [at'_pop] at hj
  split_ifs at hj
  obtain ⟨ho, hn⟩ := hk.receipt q j hq hj
  exact ⟨ho, hw.inert hn⟩

/-! ## The receipt -/

/-- A new receipt file. -/
theorem Kept.create (hk : Kept h0 h) {i : Ino} {n : Node} (hn : n.walkable = false) (hu : h.fs.create receiptNext i n = some fs') :
    Kept h0 { h with fs := fs' } ∧ Fs.Within (stateSlot h0) h.fs fs' ∧
      ∃ p, h0.fs.place receiptNext = some p ∧ ∀ j, fs'.at' p = some j → ownObject h0 j ∧ fs'.Inert j := by
  obtain ⟨p, hp, hfree, hnew, rfl⟩ := create_some hu
  have hslot := hk.slot receiptNext_own hp
  have hplace : h0.fs.place receiptNext = some p := hk.within.place hp
  have hstate : stateSlot h0 p.1 p.2 := ⟨receiptNext, by simp, hplace⟩
  have hinert : h.fs.Inert i := fun m hm => by
    rw [hnew] at hm
    nomatch hm
  have hset : Fs.Within (stateSlot h0) h.fs (h.fs.setEntries p.1 (Dict.set p.2 i)) := set_within hstate hinert
  have hw := hset.trans (setNode_within (hset.inert hinert) hn)
  have hown : ownObject h0 i := by
    by_contra hno
    rw [hk.changes.nodes i hno] at hnew
    exact hno (.inr hnew)
  have hi : ((h.fs.setEntries p.1 (Dict.set p.2 i)).setNode i n).Inert i := fun m hm => by
    rw [node_setNode_self] at hm
    cases hm
    exact hn
  have hc : Fs.Changes (ownSlot h0) (ownObject h0) h.fs ((h.fs.setEntries p.1 (Dict.set p.2 i)).setNode i n) :=
    ((set_changes h.fs p i).mono (fun q hq => hq ▸ hslot) fun _ hf => hf.elim).trans
      ((setNode_changes _ i n).mono (fun _ hf => hf.elim) fun j hj => hj ▸ hown)
  refine ⟨hk.onFs hc hw fun q j hq hj => ?_, hw, p, hplace, fun j hj => ?_⟩
  · rw [at'_setNode, at'_set] at hj
    split_ifs at hj with he
    · cases hj
      exact ⟨hown, hi⟩
    · obtain ⟨ho, hin⟩ := hk.receipt q j hq hj
      exact ⟨ho, hw.inert hin⟩
  · rw [at'_setNode, at'_set, if_pos rfl] at hj
    cases hj
    exact ⟨hown, hi⟩

/-- The new receipt file takes the place of the old one. -/
theorem Kept.replace (hk : Kept h0 h) {p : Ino × String} (hplace : h0.fs.place receiptNext = some p)
    (hnext : ∀ j, h.fs.at' p = some j → ownObject h0 j ∧ h.fs.Inert j) (hu : h.fs.replace receiptNext RECEIPT = some fs') :
    Kept h0 { h with fs := fs' } ∧ Fs.Within (stateSlot h0) h.fs fs' := by
  obtain ⟨p', q, i, hp, hq, hi, hcase⟩ := replace_some hu
  have hpp := hk.within.place hp
  rw [hplace] at hpp
  cases hpp
  have hqplace : h0.fs.place RECEIPT = some q := hk.within.place hq
  obtain ⟨hown, hinert⟩ := hnext i hi
  have hpop : Fs.Within (stateSlot h0) h.fs (h.fs.setEntries p.1 (Dict.pop p.2)) := pop_within _ _ _
  have hset : Fs.Within (stateSlot h0) (h.fs.setEntries p.1 (Dict.pop p.2))
      ((h.fs.setEntries p.1 (Dict.pop p.2)).setEntries q.1 (Dict.set q.2 i)) :=
    set_within ⟨RECEIPT, by simp, hqplace⟩ (hpop.inert hinert)
  have hw := hpop.trans hset
  have hc : Fs.Changes (ownSlot h0) (ownObject h0) h.fs
      ((h.fs.setEntries p.1 (Dict.pop p.2)).setEntries q.1 (Dict.set q.2 i)) :=
    ((pop_changes h.fs p).mono (fun r hr => hr ▸ hk.slot receiptNext_own hp) fun _ hf => hf.elim).trans
      ((set_changes _ q i).mono (fun r hr => hr ▸ hk.slot receipt_own hq) fun _ hf => hf.elim)
  rcases hcase with ⟨-, rfl⟩ | ⟨j, hj, -, -, rfl⟩
  · refine ⟨hk.onFs hc hw fun r k hr hk' => ?_, hw⟩
    rw [hqplace] at hr
    cases hr
    rw [at'_set, if_pos rfl] at hk'
    cases hk'
    exact ⟨hown, hw.inert hinert⟩
  · obtain ⟨hjown, hjinert⟩ := hk.receipt q j hqplace hj
    have hw' := hw.trans (dropLink_within (hw.inert hjinert))
    have hc' := hc.trans ((dropLink_changes ((h.fs.setEntries p.1 (Dict.pop p.2)).setEntries q.1 (Dict.set q.2 i)) j).mono
      (fun _ hf => hf.elim) fun k hk' => hk' ▸ hjown)
    refine ⟨hk.onFs hc' hw' fun r k hr hk' => ?_, hw'⟩
    rw [hqplace] at hr
    cases hr
    rw [at'_dropLink, at'_set, if_pos rfl] at hk'
    cases hk'
    exact ⟨hown, hw'.inert hinert⟩

/-! ## The identity -/

theorem user_same (hk : Kept h0 h) (hp : h.passwd = h0.passwd) : h.user = h0.user := by
  unfold Host.user
  rw [hp, hk.status, hk.grouplist]

theorem identity_same (hk : Kept h0 h) (hp : h.passwd = h0.passwd) (hg : h.groups = h0.groups) (r : Receipt) (partially : Bool) :
    identity h r partially = identity h0 r partially := by
  have hgroup : h.group = h0.group := by
    unfold Host.group
    rw [hg, hp, hk.members]
  have hfree : ∀ uid, h.noProcesses uid = h0.noProcesses uid := fun uid => by rw [Host.noProcesses, hk.processes, Host.noProcesses]
  unfold identity identityWithoutUser identityOfUser groupOwned receiptFree
  rw [user_same hk hp, hgroup]
  simp only [hfree]

/-- A receipt with the numbers of the user. -/
def Receipt.numbered (r : Receipt) (u : User) : Receipt := { r with uid := some u.uid, gid := some u.gid }

/-- The check of the user passes again once its numbers are in the receipt. -/
theorem identityOfUser_numbered {r : Receipt} {u : User} {gid : Option ℤ} (hi : identityOfUser h r u = .ok gid) :
    identityOfUser h (r.numbered u) u = .ok (some u.gid) := by
  obtain ⟨_, hdrift, hi⟩ := bind_ok.1 hi
  obtain ⟨_, hgroup, hi⟩ := bind_ok.1 hi
  obtain ⟨_, -, hi⟩ := bind_ok.1 hi
  obtain ⟨_, hfree, -⟩ := bind_ok.1 hi
  exact bind_ok.2 ⟨(), hdrift, bind_ok.2 ⟨(), hgroup, bind_ok.2 ⟨(), need_ok.2 (by simp [Receipt.numbered]),
    bind_ok.2 ⟨(), hfree, rfl⟩⟩⟩⟩

/-- A user that is removed leaves the group as it was, or no group. -/
theorem group_withoutAccounts (hk : Kept h0 h) (hp : h.passwd = h0.passwd) (hg : h.groups = h0.groups) {group : Bool} {g : Group}
    (hgroup : (withoutAccounts h true group).group = some g) : h0.group = some g := by
  cases group with
  | true =>
    obtain ⟨x, hx, -⟩ := Option.map_eq_some_iff.1 hgroup
    have hname := List.find?_some hx
    have hmem := List.mem_of_find?_eq_some hx
    simp only [withoutAccounts, if_true, List.mem_filter] at hmem
    simp [decide_eq_true_eq] at hname hmem
    exact absurd hname hmem.2
  | false =>
    unfold Host.group withoutAccounts at hgroup
    unfold Host.group
    simp only [if_true, Bool.false_eq_true, if_false, hp, hg, hk.members, List.filter_filter] at hgroup
    rw [← hgroup]
    congr 1
    funext x
    congr 2
    exact List.filter_congr fun p _ => by simp [and_assoc]

/-- The check of the identity passes once the user is gone. -/
theorem identity_withoutUser (hk : Kept h0 h) (hp : h.passwd = h0.passwd) (hg : h.groups = h0.groups) {r : Receipt} {u : User}
    {gid : Option ℤ} (hi : identityOfUser h0 r u = .ok gid) (group : Bool) :
    ∃ x, identity (withoutAccounts h true group) (r.numbered u) true = .ok x := by
  obtain ⟨_, -, hi⟩ := bind_ok.1 hi
  obtain ⟨_, hany, hi⟩ := bind_ok.1 hi
  obtain ⟨_, -, hi⟩ := bind_ok.1 hi
  obtain ⟨_, hfree, -⟩ := bind_ok.1 hi
  have huser : (withoutAccounts h true group).user = .ok none := by
    have hnone : (withoutAccounts h true group).passwd.find? (fun p => p.name = NAME) = none := by
      simp [withoutAccounts]
    rw [Host.user, hnone]
  have howned : groupOwned (withoutAccounts h true group) (r.numbered u) = .ok () := by
    unfold groupOwned
    cases hgr : (withoutAccounts h true group).group with
    | none => rfl
    | some g =>
      have hown := need_ok.1 hany
      rw [group_withoutAccounts hk hp hg hgr] at hown
      exact need_ok.2 (by simpa [Receipt.numbered] using hown)
  have hreceipt : receiptFree (withoutAccounts h true group) (r.numbered u) = .ok () := by
    have hproc : (withoutAccounts h true group).noProcesses u.uid = h0.noProcesses u.uid := by
      unfold Host.noProcesses
      rw [← hk.processes]
      rfl
    exact hproc.trans hfree
  exact ⟨some u.gid, bind_ok.2 ⟨none, huser, bind_ok.2 ⟨(), rfl, bind_ok.2 ⟨(), howned, bind_ok.2 ⟨(), hreceipt, rfl⟩⟩⟩⟩⟩

/-- The accounts lose at most the package's. -/
theorem Kept.accounts (hk : Kept h0 h) (user group : Bool) : Kept h0 (withoutAccounts h user group) :=
  { changes := hk.changes
    within := hk.within
    receipt := hk.receipt
    users := by
      rw [← hk.users]
      cases user <;> simp [withoutAccounts]
    groups := by
      rw [← hk.groups]
      cases group <;> simp [withoutAccounts]
    members := hk.members
    grouplist := hk.grouplist
    status := hk.status
    processes := hk.processes }

/-! ## Rules for programs -/

/-- An exception that is none of a check on the receipt, the identity, the files or the inactivity. -/
def Harmless (e : Fault) : Prop := ∀ code, e = .stop code → code ∉ checkCodes

/-- The setting of a removal that began with `h0`. -/
abbrev setting (h0 : Host) : Setting Host HostCmd HostCmd.Reply Outcome := Setting.alone machine (Kept h0)

/-- The judgement about the parts of a removal. -/
abbrev Removes {α : Type} (h0 : Host) (Q : α → Host → Prop) (p : Work α) (h : Host) : Prop :=
  p.Safe (setting h0) Q (fun e _ => Harmless e) h

variable {α β : Type} {Q : α → Host → Prop}

theorem removes_ret {a : α} (hq : Q a h) : Removes h0 Q (.ret a) h := by
  intro t he _
  cases he
  exact hq

theorem removes_look {f : Host → Work α} (hk : Kept h0 h) (hf : Removes h0 Q (f h) h) : Removes h0 Q (look >>= f) h := by
  refine Prog.safe_cmd_alone fun x r t hm => ?_
  cases x with
  | done =>
    cases hm
    exact ⟨hk, hf⟩
  | _ => nomatch hm

theorem removes_lift {x : Except Fault α} {f : α → Work β} {Q : β → Host → Prop} (ha : ∀ a, x = .ok a → Removes h0 Q (f a) h)
    (he : ∀ e, x = .error e → Harmless e) : Removes h0 Q (lift x >>= f) h := by
  cases x with
  | ok a => exact ha a rfl
  | error e =>
    intro t _ _
    exact he e rfl

theorem removes_act {a : Act} {Q : Unit → Host → Prop}
    (ha : ∀ x res h', perform h a x = some (res, h') → Kept h0 h' ∧ (res = .ok () → Q () h') ∧ ∀ e, res = .error e → Harmless e) :
    Removes h0 Q (act a) h := by
  refine Prog.safe_cmd_alone fun x r t hm => ?_
  obtain ⟨hk, hq, he⟩ := ha x r t hm
  refine ⟨hk, ?_⟩
  cases r with
  | ok u => exact removes_ret (hq rfl)
  | error e =>
    intro t' _ _
    exact he e rfl

theorem removes_bind {p : Work α} {f : α → Work β} {Q' : β → Host → Prop} (hk : Kept h0 h) (hp : Removes h0 Q p h)
    (hf : ∀ a t, Kept h0 t → Q a t → Removes h0 Q' (f a) t) : Removes h0 Q' (p >>= f) h :=
  Prog.safe_bind_alone hk hp hf

theorem harmless_error (e : PyError) : Harmless (.error e) := fun _ h => nomatch h

theorem harmless_stop {code : String} (h : code ∉ checkCodes) : Harmless (.stop code) := fun _ he => by
  cases he
  exact h

/-- The commands of the host have codes of their own. -/
theorem harmless_run {stage : String} (hs : stage ∈ ["USER_STATUS", "UNIT_SHOW", "UNIT_RELOAD", "USER_REMOVE", "GROUP_REMOVE"])
    (f : RunFault) : Harmless (f.fault stage) := by
  cases f with
  | undecodable => exact harmless_error _
  | _ => exact harmless_stop (by fin_cases hs <;> decide +kernel)

theorem harmless_afterRun {stage : String} (hs : stage ∈ ["USER_STATUS", "UNIT_SHOW", "UNIT_RELOAD", "USER_REMOVE", "GROUP_REMOVE"])
    {fault : Option RunFault} {e : Fault} (he : afterRun stage fault = .error e) : Harmless e := by
  cases fault with
  | none => nomatch he
  | some f =>
    cases he
    exact harmless_run hs f

theorem harmless_runResult {stage : String} (hs : stage ∈ ["USER_STATUS", "UNIT_SHOW", "UNIT_RELOAD", "USER_REMOVE", "GROUP_REMOVE"])
    {x : Except RunFault α} {e : Fault} (he : runResult stage x = .error e) : Harmless e := by
  cases x with
  | ok a => nomatch he
  | error f =>
    cases he
    exact harmless_run hs f

theorem bind_error {x : Except Fault α} {f : α → Except Fault β} {e : Fault} (h : (x >>= f) = .error e) :
    x = .error e ∨ ∃ a, x = .ok a ∧ f a = .error e := by
  cases x with
  | ok a => exact .inr ⟨a, rfl, h⟩
  | error e' =>
    cases h
    exact .inl rfl

theorem need_error {condition : Bool} {code : String} {e : Fault} (h : need condition code = .error e) : e = .stop code := by
  cases condition with
  | true => nomatch h
  | false =>
    cases h
    rfl

theorem harmless_unit {e : Fault} (he : h.unit = .error e) : Harmless e := by
  rcases bind_error he with he | ⟨output, -, he⟩
  · exact harmless_runResult (by simp) he
  · nomatch he

theorem harmless_user {e : Fault} (he : h.user = .error e) : Harmless e := by
  unfold Host.user at he
  split at he
  · nomatch he
  · rcases bind_error he with he | ⟨output, -, he⟩
    · exact harmless_runResult (by simp) he
    · nomatch he

theorem harmless_unitGone {e : Fault} (he : unitGone h = .error e) : Harmless e := by
  rcases bind_error he with he | ⟨unit, -, he⟩
  · exact harmless_unit he
  · rw [need_error he]
    exact harmless_stop (by decide +kernel)

theorem harmless_identityGone {e : Fault} (he : identityGone h = .error e) : Harmless e := by
  rcases bind_error he with he | ⟨user, -, he⟩
  · exact harmless_user he
  · rw [need_error he]
    exact harmless_stop (by decide +kernel)

end Custody

end Keirin
