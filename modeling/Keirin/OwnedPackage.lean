import Keirin.Custody

/-!
# What belongs to the custody package

What the package owns on a host, what a removal may change there, and what is left when it is done.
-/

namespace Keirin

namespace Custody

/-- The paths of the package. -/
def ownPaths : List String := [gatesPath, unitPath, etcDir, optDir, RECEIPT, receiptNext, STATE]

/-- The group a path of the package belongs to. -/
def ownerOf (gid : Option ℤ) (path : String) : Option ℤ := if path = gatesPath ∨ path = etcDir then gid else some 0

/-- The package on a host: its receipt, its files with the content and the metadata they must have, its directories with no
foreign entry, the identity of the receipt, and the unit that does not run. -/
structure Owned (h : Host) (r : Receipt) (gid : Option ℤ) : Prop where
  state : ∃ n, h.lstat STATE = .ok n ∧ n.isDir = true ∧ n.uid = 0 ∧ n.gid = 0 ∧ n.mode = 0o700
  receiptFile : ∃ n, h.lstat RECEIPT = .ok n ∧ n.isFile = true ∧ n.uid = 0 ∧ n.gid = 0 ∧ n.mode = 0o600 ∧ n.nlink = 1
  receipt : receipt h = .ok r
  files : ∀ f ∈ FILES, absent h f.1 = true ∨ ∃ n owner, h.lstat f.1 = .ok n ∧ ownerOf gid f.1 = some owner ∧
    n.kind = .file f.2.1 ∧ n.uid = 0 ∧ n.gid = owner ∧ n.mode = f.2.2 ∧ n.nlink = 1
  dirs : ∀ d ∈ DIRS, absent h d.1 = true ∨ ∃ n owner names, h.lstat d.1 = .ok n ∧ ownerOf gid d.1 = some owner ∧
    n.isDir = true ∧ n.uid = 0 ∧ n.gid = owner ∧ n.mode = d.2 ∧ h.iterdir d.1 = .ok names ∧
    ∀ name ∈ names, d.1 = etcDir ∧ name = "gates.json"
  user : ∃ user, h.user = .ok user ∧ ∀ u ∈ user, u.tag = SCHEMA ++ "-" ++ r.id ∧ u.locked = true ∧ u.home = "/nonexistent" ∧
    u.shell = "/usr/sbin/nologin" ∧ (0 < u.uid ∧ u.uid < 1000) ∧ (0 < u.gid ∧ u.gid < 1000) ∧ (∀ g ∈ u.groups, g = u.gid) ∧
    gid = some u.gid ∧ (r.uid = none ∨ r.uid = some u.uid) ∧ (r.gid = none ∨ r.gid = some u.gid)
  group : ∀ g, h.group = some g → gid = some g.gid ∧ g.members = [] ∧ g.otherPrimary = []
  unit : ∃ unit, h.unit = .ok unit ∧ Dict.get? "ActiveState" unit = some "inactive"

/-- The entry of a path of the package. -/
def ownSlot (h : Host) (p : Ino × String) : Prop := ∃ path ∈ ownPaths, h.fs.place path = some p

/-- A file of the package, or an object that was not there. -/
def ownObject (h : Host) (i : Ino) : Prop := (∃ path ∈ [gatesPath, unitPath, RECEIPT], h.fs.find path = some i) ∨ h.fs.node i = none

/-- Nothing foreign differs: every entry of every directory is the same but those of the package's paths, every object but the
package's files, and every account but the package's. -/
structure Frame (h h' : Host) : Prop where
  files : Fs.Changes (ownSlot h) (ownObject h) h.fs h'.fs
  users : h'.passwd.filter (fun p => p.name ≠ NAME) = h.passwd.filter fun p => p.name ≠ NAME
  groups : h'.groups.filter (fun g => g.1 ≠ NAME) = h.groups.filter fun g => g.1 ≠ NAME
  processes : h'.processes = h.processes

/-- Nothing of the package is left. -/
structure Gone (h : Host) : Prop where
  paths : ∀ path ∈ ownPaths, absent h path = true
  user : ∀ p ∈ h.passwd, p.name ≠ NAME
  group : ∀ g ∈ h.groups, g.1 ≠ NAME

/-- The codes of the checks on the receipt, the identity, the files and the inactivity. -/
def checkCodes : List String :=
  ["ARTIFACT_METADATA_DRIFT", "ARTIFACT_LINK_DRIFT", "RECEIPT_PARTIAL_OR_DRIFT", "RECEIPT_INVALID", "IDENTITY_MISSING",
    "GROUP_OWNERSHIP_UNPROVEN", "IDENTITY_DRIFT", "GROUP_DRIFT", "IDENTITY_REPLACED", "IDENTITY_HAS_PROCESSES",
    "ARTIFACT_OWNER_UNPROVEN", "DIRECTORY_CONTENT_DRIFT", "ARTIFACT_CONTENT_DRIFT", "UNIT_STATE_DRIFT"]

/-- The checks before the first removal, all on one host. -/
def validation (h : Host) : Except Fault (Receipt × Option ℤ) := do
  let r ← receipt h
  let gid ← identity h r true
  files h gid true
  inactive h false
  return (r, gid)

end Custody

end Keirin
