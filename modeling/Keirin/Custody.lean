import Keirin.Ledger
import Keirin.PythonData
import Keirin.Lib.FileSystem
import Keirin.Lib.Prog

/-!
# The custody package

`secret_custody_h2.py`: the files, the unit and the identity of the package, and their removal. The host is its file system, its
accounts, its processes and what its unit manager says of the unit; a check reads it, a removal acts on it by commands.
-/

namespace Keirin

namespace Custody

/-! ## Constants -/

def NAME : String := "keirin-custody"

def unitName : String := NAME ++ ".service"

def STATE : String := "/var/lib/keirin-custody-h2"

def RECEIPT : String := STATE ++ "/receipt.json"

/-- The file a receipt is written to before it takes its place. -/
def receiptNext : String := RECEIPT ++ ".next"

def unitPath : String := "/etc/systemd/system/" ++ unitName

def SCHEMA : String := "keirin-custody-h2a-v1"

def UNIT : List String :=
  ["[Unit]", "Description=Keirin custody H2a disabled placeholder (no runtime payload)", "RefuseManualStart=yes", "",
    "[Service]", "Type=oneshot", "User=keirin-custody", "Group=keirin-custody", "ExecStart=/usr/bin/false", "Restart=no",
    "NoNewPrivileges=yes", "CapabilityBoundingSet=", "AmbientCapabilities=", "ProtectSystem=strict", "ProtectHome=yes",
    "PrivateTmp=yes", "PrivateDevices=yes", "PrivateNetwork=yes", "RestrictAddressFamilies=AF_UNIX", "RestrictNamespaces=yes",
    "RestrictRealtime=yes", "RestrictSUIDSGID=yes", "LockPersonality=yes", "ProtectKernelTunables=yes",
    "ProtectKernelModules=yes", "ProtectKernelLogs=yes", "ProtectControlGroups=yes", "ProtectClock=yes", "ProtectHostname=yes",
    "ProtectProc=invisible", "ProcSubset=pid", "SystemCallArchitectures=native", "UMask=0077", "LimitCORE=0",
    "MemoryMax=128M", "MemorySwapMax=0", "TasksMax=24", "CPUQuota=50%", "KillMode=control-group", "TimeoutStartSec=10s",
    "TimeoutStopSec=10s", "StandardOutput=null", "StandardError=null"]

def GATES : List String :=
  ["\x7b", "  \"credential_binding\": false,", "  \"data_fetch\": false,", "  \"prediction\": false,", "  \"provider\": false,",
    "  \"report_delivery\": false,", "  \"runtime\": false,", "  \"scheduler\": false,",
    "  \"schema\": \"keirin-custody-h2a-v1\"", "\x7d"]

/-- The bytes of a text given by its lines. -/
def encodeLines (lines : List String) : List ℕ := Text.utf8 (lines.flatMap fun line => line.toList ++ ['\n'])

def gatesPath : String := "/etc/keirin-custody/gates.json"

def etcDir : String := "/etc/keirin-custody"

def optDir : String := "/opt/keirin-custody"

/-- The files of the package, with their content and their mode. -/
def FILES : List (String × List ℕ × ℕ) := [(gatesPath, encodeLines GATES, 0o640), (unitPath, encodeLines UNIT, 0o644)]

/-- The directories of the package, with their mode. -/
def DIRS : List (String × ℕ) := [(optDir, 0o755), (etcDir, 0o750)]

/-! ## The host -/

/-- An exception: one of the fixed codes, or another one. -/
inductive Fault
  | stop (code : String)
  | error (e : PyError)
deriving DecidableEq

/-- `need(condition, code)` -/
def need (condition : Bool) (code : String) : Except Fault Unit := raiseIf (condition = false) (.stop code)

/-- How a host command can fail. -/
inductive RunFault
  | unavailable
  | failed
  | tooLarge
  | undecodable
deriving DecidableEq

/-- The exception of a command of a stage. -/
def RunFault.fault (f : RunFault) (stage : String) : Fault :=
  match f with
  | .unavailable => .stop (stage ++ "_UNAVAILABLE")
  | .failed => .stop (stage ++ "_FAILED")
  | .tooLarge => .stop (stage ++ "_OUTPUT_TOO_LARGE")
  | .undecodable => .error (.valueError "utf-8 codec can't decode")

/-- An entry of the user database. -/
structure PwEntry where
  name : String
  uid : ℤ
  gid : ℤ
  gecos : String
  dir : String
  shell : String
deriving DecidableEq

/-- A host: its files, its users, its groups by name and number, the members of the package's group, the groups the package's
user is in, the account status of that user, the status files of the processes, and what the unit manager shows of the unit. -/
structure Host where
  fs : Fs
  passwd : List PwEntry
  groups : List (String × ℤ)
  members : List String
  grouplist : List ℤ
  status : Except RunFault String
  processes : List (String × Option String)
  unitShow : Except RunFault String

/-- The result of a host command. -/
def runResult {α : Type} (stage : String) : Except RunFault α → Except Fault α
  | .ok a => .ok a
  | .error f => .error (f.fault stage)

/-- `s.split()` -/
def words (s : List Char) : List String := ((s.splitOnP isSpace).filter (· ≠ [])).map String.ofList

/-- `int(x)` -/
def toInt (x : String) : Except Fault ℤ :=
  match intOfText x with
  | .ok n => .ok n
  | .error e => .error (.error e)

/-- The user of the package as `Host.user` gives it. -/
structure User where
  uid : ℤ
  gid : ℤ
  tag : String
  home : String
  shell : String
  locked : Bool
  groups : List ℤ

/-- The group of the package as `Host.group` gives it. -/
structure Group where
  gid : ℤ
  members : List String
  otherPrimary : List String

namespace Host

/-- `Host.user` -/
def user (h : Host) : Except Fault (Option User) :=
  match h.passwd.find? fun p => p.name = NAME with
  | none => .ok none
  | some p => do
    let output ← runResult "USER_STATUS" h.status
    let status := words output.toList
    let locked := 2 ≤ status.length && status[0]? = some NAME && status[1]? = some "L"
    return some ⟨p.uid, p.gid, p.gecos, p.dir, p.shell, locked, h.grouplist⟩

/-- `Host.group` -/
def group (h : Host) : Option Group :=
  (h.groups.find? fun g => g.1 = NAME).map fun g =>
    ⟨g.2, h.members, (h.passwd.filter fun p => p.gid = g.2 ∧ p.name ≠ NAME).map PwEntry.name⟩

/-- The numbers of the users of a process, where the line has them. -/
def idsOf (line : List Char) : Except Fault (List ℤ) :=
  if "Uid:".toList <+: line then (words line).tail.mapM toInt else .ok []

/-- The lines of a status file name no process of the user. -/
def linesFree (uid : ℤ) : List (List Char) → Except Fault Unit
  | [] => .ok ()
  | line :: lines => do
    let ids ← idsOf line
    need (decide (uid ∉ ids)) "IDENTITY_HAS_PROCESSES"
    linesFree uid lines

/-- `entry.name.isdecimal()` -/
def isDecimal (name : String) : Bool := name ≠ "" && name.toList.all fun c => (decimalDigit c).isSome

/-- The processes are none of the user's. -/
def processesFree (uid : ℤ) : List (String × Option String) → Except Fault Unit
  | [] => .ok ()
  | (name, status) :: rest => do
    let lines := if isDecimal name then (status.map fun text => splitLines text.toList).getD [] else []
    linesFree uid lines
    processesFree uid rest

/-- `Host.no_processes` -/
def noProcesses (h : Host) (uid : ℤ) : Except Fault Unit := processesFree uid h.processes

/-- `line.split("=", 1)` where there is one. -/
def property (line : List Char) : Option (String × String) :=
  if '=' ∈ line then
    some (String.ofList (line.takeWhile (· ≠ '=')), String.ofList (line.dropWhile (· ≠ '=')).tail)
  else none

/-- `Host.unit` -/
def unit (h : Host) : Except Fault (Dict String) := do
  let output ← runResult "UNIT_SHOW" h.unitShow
  return Dict.update [] ((splitLines output.toList).filterMap property)

/-! ## Files -/

/-- `path.lstat()` -/
def lstat (h : Host) (path : String) : Except Fault Node :=
  match (h.fs.find path).bind h.fs.node with
  | some n => .ok n
  | none => .error (.error (.osError "No such file or directory"))

/-- `path.read_bytes()`; the size of a file is that of its content. -/
def readBytes (h : Host) (path : String) : Except Fault (List ℕ) :=
  match ((h.fs.follow path).bind h.fs.node).map Node.kind with
  | some (.file content) => .ok content
  | _ => .error (.error (.osError "No such file or directory"))

/-- `path.iterdir()` -/
def iterdir (h : Host) (path : String) : Except Fault (List String) :=
  match h.fs.follow path with
  | some i => if h.fs.isDir i then .ok ((h.fs.entries i).map Prod.fst) else .error (.error (.osError "Not a directory"))
  | none => .error (.error (.osError "No such file or directory"))

end Host

/-! ## Checks -/

/-- `Package.absent` -/
def absent (h : Host) (path : String) : Bool := (h.fs.find path).isNone

/-- `Package.metadata` -/
def metadata (h : Host) (path : String) (mode : ℕ) (gid : ℤ) (directory : Bool) : Except Fault Unit := do
  let s ← h.lstat path
  let kind := if directory then s.isDir else s.isFile
  need (kind && s.uid = 0 && s.gid = gid && s.mode = mode) "ARTIFACT_METADATA_DRIFT"
  need (directory || s.nlink = 1) "ARTIFACT_LINK_DRIFT"

/-- A receipt: the mark of an installation, and the numbers of its user and group once they are known. -/
structure Receipt where
  id : String
  uid : Option ℤ
  gid : Option ℤ
deriving DecidableEq

/-- `{x for x in names} == {...}` -/
def sameNames (names expected : List String) : Bool := names.all (· ∈ expected) && expected.all (· ∈ names)

/-- `re.fullmatch(r"[a-f0-9]{32}", id)` -/
def isId (id : String) : Bool := id.toList.length = 32 && id.toList.all fun c => c.isDigit || ('a' ≤ c && c ≤ 'f')

/-- The numbers of a receipt: both missing, or both those of a system account. -/
def receiptNumbers (uid gid : Doc) : Except Fault (Option ℤ × Option ℤ) :=
  match uid, gid with
  | .null, .null => .ok (none, none)
  | .num (.int u), .num (.int g) =>
    if 0 < u ∧ u < 1000 ∧ 0 < g ∧ g < 1000 then .ok (some u, some g) else .error (.stop "RECEIPT_INVALID")
  | _, _ => .error (.stop "RECEIPT_INVALID")

/-- The checks of a receipt that was read. -/
def receiptOf (r : Doc) : Except Fault Receipt :=
  match r with
  | .obj fs => do
    need (sameNames (fs.map Prod.fst) ["schema", "id", "uid", "gid"] && Dict.getD fs "schema" .null = .str SCHEMA)
      "RECEIPT_INVALID"
    let id := (Doc.text? (Dict.getD fs "id" .null)).getD ""
    need ((Doc.text? (Dict.getD fs "id" .null)).isSome && isId id) "RECEIPT_INVALID"
    let numbers ← receiptNumbers (Dict.getD fs "uid" .null) (Dict.getD fs "gid" .null)
    return ⟨id, numbers.1, numbers.2⟩
  | .str _ => .error (.stop "RECEIPT_INVALID")
  | .arr xs =>
    if xs.all Doc.hashable && !sameNames (xs.filterMap Doc.text?) ["schema", "id", "uid", "gid"] then .error (.stop "RECEIPT_INVALID")
    else .error (.error (.typeError "list indices must be integers or slices, not str"))
  | _ => .error (.error (.typeError "object is not iterable"))

/-- Raise the error of a reading. -/
def other {α : Type} : Except PyError α → Except Fault α
  | .ok a => .ok a
  | .error e => .error (.error e)

/-- `Package.receipt` -/
def receipt (h : Host) : Except Fault Receipt := do
  metadata h STATE 0o700 0 true
  metadata h RECEIPT 0o600 0 false
  let names ← h.iterdir STATE
  need (sameNames names ["receipt.json"]) "RECEIPT_PARTIAL_OR_DRIFT"
  let data ← h.readBytes RECEIPT
  need (data.length < 4096) "RECEIPT_INVALID"
  let text ← other (decodeUtf8 data)
  let r ← other (Doc.loads (universalNewlines text.toList))
  receiptOf r

/-- A group nobody else uses. -/
def Group.own (group : Group) (gid : ℤ) : Bool := group.gid = gid && group.members.isEmpty && group.otherPrimary.isEmpty

/-- The group, where there is one without a user, is the one of the receipt. -/
def groupOwned (h : Host) (r : Receipt) : Except Fault Unit :=
  match h.group with
  | none => .ok ()
  | some group => need (r.gid.any group.own) "GROUP_OWNERSHIP_UNPROVEN"

/-- The user of the receipt, where it has one, has no processes. -/
def receiptFree (h : Host) (r : Receipt) : Except Fault Unit :=
  match r.uid with
  | none => .ok ()
  | some uid => h.noProcesses uid

/-- The checks of `Package.identity` where there is no user. -/
def identityWithoutUser (h : Host) (r : Receipt) (partially : Bool) : Except Fault (Option ℤ) := do
  need partially "IDENTITY_MISSING"
  groupOwned h r
  receiptFree h r
  return r.gid

/-- The checks of `Package.identity` where there is a user. -/
def identityOfUser (h : Host) (r : Receipt) (user : User) : Except Fault (Option ℤ) := do
  need (user.tag = SCHEMA ++ "-" ++ r.id && user.locked && user.home = "/nonexistent" && user.shell = "/usr/sbin/nologin" &&
    decide (0 < user.uid ∧ user.uid < 1000) && decide (0 < user.gid ∧ user.gid < 1000) &&
    (user.groups.all (· = user.gid) && !user.groups.isEmpty)) "IDENTITY_DRIFT"
  need (h.group.any fun group => group.own user.gid) "GROUP_DRIFT"
  need ((r.uid = none || r.uid = some user.uid) && (r.gid = none || r.gid = some user.gid)) "IDENTITY_REPLACED"
  h.noProcesses user.uid
  return some user.gid

/-- `Package.identity` -/
def identity (h : Host) (r : Receipt) (partially : Bool) : Except Fault (Option ℤ) := do
  let user ← h.user
  match user with
  | none => identityWithoutUser h r partially
  | some user => identityOfUser h r user

/-- Do a check for each. -/
def each {α : Type} (check : α → Except Fault Unit) : List α → Except Fault Unit
  | [] => .ok ()
  | x :: xs => do
    check x
    each check xs

/-- `need(owner_group is not None, …)` -/
def provenOwner (group : Option ℤ) : Except Fault ℤ :=
  match group with
  | some g => .ok g
  | none => .error (.stop "ARTIFACT_OWNER_UNPROVEN")

/-- The checks of a directory. -/
def checkDir (h : Host) (gid : Option ℤ) (partially : Bool) (d : String × ℕ) : Except Fault Unit :=
  if partially && absent h d.1 then .ok ()
  else do
    let owner ← provenOwner (if d.1 = etcDir then gid else some 0)
    metadata h d.1 d.2 owner true
    let expected := if d.1 = etcDir then ["gates.json"] else []
    let actual ← h.iterdir d.1
    need (actual.all (· ∈ expected) && (partially || sameNames actual expected)) "DIRECTORY_CONTENT_DRIFT"

/-- The checks of a file. -/
def checkFile (h : Host) (gid : Option ℤ) (partially : Bool) (f : String × List ℕ × ℕ) : Except Fault Unit :=
  if partially && absent h f.1 then .ok ()
  else do
    let owner ← provenOwner (if "/gates.json".toList <:+ f.1.toList then gid else some 0)
    metadata h f.1 f.2.2 owner false
    let data ← h.readBytes f.1
    need (data.length = f.2.1.length && data = f.2.1) "ARTIFACT_CONTENT_DRIFT"

/-- `Package.files` -/
def files (h : Host) (gid : Option ℤ) (partially : Bool) : Except Fault Unit := do
  each (checkDir h gid partially) DIRS
  each (checkFile h gid partially) FILES

/-- `not unit.get(key)` -/
def missing (unit : Dict String) (key : String) : Bool := (Dict.get? key unit).all (· = "")

/-- The checks of a unit that is installed. -/
def loadedHere (unit : Dict String) : Bool :=
  Dict.get? "FragmentPath" unit = some unitPath && Dict.get? "RefuseManualStart" unit = some "yes"

/-- `Package.inactive` -/
def inactive (h : Host) (installed : Bool) : Except Fault Unit := do
  let unit ← h.unit
  need (Dict.get? "ActiveState" unit = some "inactive" && missing unit "DropInPaths") "UNIT_STATE_DRIFT"
  need (if installed then
      Dict.get? "LoadState" unit = some "loaded" && Dict.get? "UnitFileState" unit = some "static" && loadedHere unit
    else
      (Dict.get? "LoadState" unit = some "loaded" || Dict.get? "LoadState" unit = some "not-found") &&
        (missing unit "UnitFileState" || Dict.get? "UnitFileState" unit = some "static") &&
        (Dict.get? "LoadState" unit ≠ some "loaded" || loadedHere unit)) "UNIT_STATE_DRIFT"

/-! ## Actions -/

/-- What changes the host. -/
inductive Act
  | unlink (path : String)
  | rmdir (path : String)
  | create (path : String) (data : List ℕ) (mode : ℕ)
  | replace (src dst : String)
  | sync (path : String)
  | reload
  | removeUser
  | removeGroup

/-- A command: look at the host, or act on it. -/
inductive HostCmd
  | look
  | act (a : Act)

def HostCmd.Reply : HostCmd → Type
  | .look => Host
  | .act _ => Except Fault Unit

/-- A program on a host. -/
abbrev Work := Prog HostCmd HostCmd.Reply Fault

/-- Go on with the value of a computation, or raise its error. -/
def lift {α : Type} : Except Fault α → Work α
  | .ok a => .ret a
  | .error e => .raise e

def look : Work Host := Prog.send (R := HostCmd.Reply) .look

def act (a : Act) : Work Unit := Prog.send (R := HostCmd.Reply) (.act a) >>= lift

/-- What the source leaves to the system: whether a call goes through, the object of a new file, what the unit manager shows after
it was reloaded, and what a command for the accounts removed. A command that succeeds removed what it was told to. -/
inductive Outcome
  | done
  | fails
  | created (i : Ino)
  | broken (i : Ino) (content : List ℕ) (gid : ℤ) (mode : ℕ)
  | reloaded (fault : Option RunFault) (unitShow : Except RunFault String)
  | removed (fault : Option RunFault) (user group : Bool)

/-- The result of a system call on the files. -/
def onFiles (h : Host) : Option Fs → Except Fault Unit × Host
  | some fs => (.ok (), { h with fs := fs })
  | none => (.error (.error (.osError "system call")), h)

/-- The result of a host command that prints nothing. -/
def afterRun (stage : String) (fault : Option RunFault) : Except Fault Unit :=
  match fault with
  | none => .ok ()
  | some f => .error (f.fault stage)

/-- The host without its user, its group, or both. -/
def withoutAccounts (h : Host) (user group : Bool) : Host :=
  { h with
    passwd := if user then h.passwd.filter fun p => p.name ≠ NAME else h.passwd
    groups := if group then h.groups.filter fun g => g.1 ≠ NAME else h.groups }

/-- What an action does; `none` where the outcome is not open. -/
def perform (h : Host) : Act → Outcome → Option (Except Fault Unit × Host)
  | .unlink path, .done => some (onFiles h (h.fs.unlink path))
  | .rmdir path, .done => some (onFiles h (h.fs.rmdir path))
  | .create path data mode, .created i => some (onFiles h (h.fs.create path i ⟨.file data, 0, 0, mode, 1⟩))
  | .create path _ _, .broken i content gid mode =>
    some (.error (.error (.osError "system call")), (onFiles h (h.fs.create path i ⟨.file content, 0, gid, mode, 1⟩)).2)
  | .replace src dst, .done => some (onFiles h (h.fs.replace src dst))
  | .sync _, .done => some (.ok (), h)
  | .reload, .reloaded fault unitShow => some (afterRun "UNIT_RELOAD" fault, { h with unitShow := unitShow })
  | .removeUser, .removed fault user group =>
    if fault = none ∧ user = false then none else some (afterRun "USER_REMOVE" fault, withoutAccounts h user group)
  | .removeGroup, .removed fault _ group =>
    if fault = none ∧ group = false then none else some (afterRun "GROUP_REMOVE" fault, withoutAccounts h false group)
  | .unlink _, .fails => some (onFiles h none)
  | .rmdir _, .fails => some (onFiles h none)
  | .create _ _ _, .fails => some (onFiles h none)
  | .replace _ _, .fails => some (onFiles h none)
  | .sync _, .fails => some (onFiles h none)
  | _, _ => none

/-- The host as a machine: nothing else writes to it. -/
def machine : Machine Host HostCmd HostCmd.Reply Outcome
  | h, .look, .done => some (h, h)
  | _, .look, _ => none
  | h, .act a, x => perform h a x

/-! ## Removal -/

/-- The text of a receipt, with sorted keys. -/
def Receipt.data (r : Receipt) : List ℕ :=
  let number : Option ℤ → Doc
    | none => .null
    | some n => .num (.int n)
  let doc : Doc := .obj [("gid", number r.gid), ("id", .str r.id), ("schema", .str SCHEMA), ("uid", number r.uid)]
  Text.utf8 (Doc.ascii (doc.spaced [' '] Scalar.dumpText) ++ ['\n'])

/-- `Package.save_receipt(r)` -/
def saveReceipt (r : Receipt) : Work Unit := do
  act (.create receiptNext r.data 0o600)
  act (.replace receiptNext RECEIPT)
  act (.sync STATE)

/-- `if not self.absent(path): …` -/
def unlessAbsent (path : String) (a : Act) : Work Unit := do
  let h ← look
  if absent h path then pure () else act a

/-- Remove each path that is there. -/
def removeEach (a : String → Act) : List String → Work Unit
  | [] => pure ()
  | path :: paths => do
    unlessAbsent path (a path)
    removeEach a paths

/-- `self.h.user()` where there must be one. -/
def userThere (h : Host) : Except Fault User := do
  let user ← h.user
  match user with
  | some user => .ok user
  | none => .error (.error (.typeError "'NoneType' object is not subscriptable"))

/-- Remove the user, its numbers written to the receipt before. -/
def removeIdentity (r : Receipt) : Work Receipt := do
  let h ← look
  let user ← lift (userThere h)
  let r : Receipt := { r with uid := some user.uid, gid := some user.gid }
  saveReceipt r
  let h ← look
  let _ ← lift (identity h r false)
  act .removeUser
  return r

def removeUser (r : Receipt) : Work Receipt := do
  let h ← look
  let user ← lift h.user
  match user with
  | none => pure r
  | some _ => removeIdentity r

def removeGroup (r : Receipt) : Work Unit := do
  let h ← look
  match h.group with
  | none => pure ()
  | some _ => do
    let h ← look
    let _ ← lift (identity h r true)
    act .removeGroup

/-- The checks that come before the first removal. -/
def validate : Work Receipt := do
  let h ← look
  let r ← lift (receipt h)
  let h ← look
  let gid ← lift (identity h r true)
  let h ← look
  lift (files h gid true)
  let h ← look
  lift (inactive h false)
  return r

/-- The unit manager no longer has the unit. -/
def unitGone (h : Host) : Except Fault Unit := do
  let unit ← h.unit
  need (Dict.get? "LoadState" unit = some "not-found") "UNIT_REMOVAL_UNCONFIRMED"

/-- Neither the user nor the group is there. -/
def identityGone (h : Host) : Except Fault Unit := do
  let user ← h.user
  need (user.isNone && h.group.isNone) "IDENTITY_REMOVAL_UNCONFIRMED"

/-- `Package.remove_owned` -/
def removeOwned : Work String := do
  let r ← validate
  removeEach .unlink (FILES.map Prod.fst)
  removeEach .rmdir (DIRS.map Prod.fst).reverse
  act .reload
  let h ← look
  lift (unitGone h)
  let r ← removeUser r
  removeGroup r
  let h ← look
  lift (identityGone h)
  act (.unlink RECEIPT)
  act (.rmdir STATE)
  return "ROLLED_BACK_NO_RUNTIME"

end Custody

end Keirin
