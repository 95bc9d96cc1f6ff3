import Keirin.Lib.Dict

/-!
# File systems

A file system is a graph of objects: files, directories and symbolic links. A directory lists its entries by name; a path is
walked entry by entry, from link to link. `Within` relates a file system to a later one in which names were removed, and nothing
was added but files under given names: every walk that still arrives at a directory arrives at the one it arrived at before.
-/

abbrev Ino := ℕ

/-- What an object is. -/
inductive Kind
  | file (content : List ℕ)
  | dir (parent : Ino)
  | link (target : String)
  | other
deriving DecidableEq

/-- An object. The links of a directory are not counted. -/
structure Node where
  kind : Kind
  uid : ℤ
  gid : ℤ
  mode : ℕ
  nlink : ℕ
deriving DecidableEq

/-- A walk goes on at a directory or a link. -/
def Kind.walkable : Kind → Bool
  | .dir _ => true
  | .link _ => true
  | _ => false

namespace Node

def walkable (n : Node) : Bool := n.kind.walkable

def isDir (n : Node) : Bool :=
  match n.kind with
  | .dir _ => true
  | _ => false

def isFile (n : Node) : Bool :=
  match n.kind with
  | .file _ => true
  | _ => false

end Node

/-- A file system; a walk takes at most `limit` steps. -/
structure Fs where
  root : Ino
  limit : ℕ
  node : Ino → Option Node
  entries : Ino → Dict Ino

namespace Fs

/-! ## Paths -/

/-- The names of a path. -/
def parts (path : String) : List String :=
  ((path.toList.splitOn '/').map String.ofList).filter fun name => name ≠ "" ∧ name ≠ "."

/-- Where the walk to a target begins. -/
def start (fs : Fs) (cur : Ino) (target : String) : Ino := if target.toList.head? = some '/' then fs.root else cur

/-- One step of a walk: where it goes on, and along which names. -/
def next (fs : Fs) (cur : Ino) (name : String) (rest : List String) : Option (Ino × List String) :=
  match (fs.node cur).map Node.kind with
  | some (.dir parent) =>
    if name = ".." then some (parent, rest)
    else (Dict.get? name (fs.entries cur)).map fun i =>
      match (fs.node i).map Node.kind with
      | some (.link target) => (fs.start cur target, parts target ++ rest)
      | _ => (i, rest)
  | _ => none

/-- Walk from an object along names, following links. -/
def walk (fs : Fs) : (steps : ℕ) → Ino → List String → Option Ino
  | _, cur, [] => some cur
  | 0, _, _ :: _ => none
  | steps + 1, cur, name :: rest =>
    match fs.next cur name rest with
    | none => none
    | some p => fs.walk steps p.1 p.2

/-- Whether an object is a directory. -/
def isDir (fs : Fs) (i : Ino) : Bool := (fs.node i).any Node.isDir

/-- The directory and the name a path stands for. -/
def place (fs : Fs) (path : String) : Option (Ino × String) :=
  match (parts path).getLast? with
  | none => none
  | some name => ((fs.walk fs.limit fs.root (parts path).dropLast).filter fun d => fs.isDir d).map fun d => (d, name)

/-- The entry of a place. -/
def at' (fs : Fs) (p : Ino × String) : Option Ino := Dict.get? p.2 (fs.entries p.1)

/-- The object at a path, a link itself. -/
def find (fs : Fs) (path : String) : Option Ino := (fs.place path).bind fs.at'

/-- The object at a path, the link followed. -/
def follow (fs : Fs) (path : String) : Option Ino :=
  match fs.place path with
  | none => none
  | some p =>
    match fs.at' p with
    | none => none
    | some i =>
      match (fs.node i).map Node.kind with
      | some (.link target) => fs.walk fs.limit (fs.start p.1 target) (parts target)
      | _ => some i

/-! ## Changes -/

/-- Set an object. -/
def setNode (fs : Fs) (i : Ino) (n : Node) : Fs := { fs with node := Function.update fs.node i (some n) }

/-- Change the entries of a directory. -/
def setEntries (fs : Fs) (d : Ino) (f : Dict Ino → Dict Ino) : Fs :=
  { fs with entries := Function.update fs.entries d (f (fs.entries d)) }

/-- One link less. -/
def dropLink (fs : Fs) (i : Ino) : Fs :=
  match fs.node i with
  | some n => fs.setNode i { n with nlink := n.nlink - 1 }
  | none => fs

/-- Remove the entry of an object that is no directory. -/
def unlink (fs : Fs) (path : String) : Option Fs :=
  match fs.place path with
  | none => none
  | some p =>
    match fs.at' p with
    | none => none
    | some i => if fs.isDir i then none else some ((fs.setEntries p.1 (Dict.pop p.2)).dropLink i)

/-- Remove the entry of an empty directory. -/
def rmdir (fs : Fs) (path : String) : Option Fs :=
  match fs.place path with
  | none => none
  | some p =>
    match fs.at' p with
    | none => none
    | some i => if fs.isDir i && (fs.entries i).isEmpty then some (fs.setEntries p.1 (Dict.pop p.2)) else none

/-- Add an object where nothing is. -/
def create (fs : Fs) (path : String) (i : Ino) (n : Node) : Option Fs :=
  match fs.place path with
  | none => none
  | some p =>
    if (fs.at' p).isNone && (fs.node i).isNone then some ((fs.setEntries p.1 (Dict.set p.2 i)).setNode i n) else none

/-- Give the object of one path the name of another, in the place of the file that was there. -/
def replace (fs : Fs) (src dst : String) : Option Fs :=
  match fs.place src, fs.place dst with
  | some p, some q =>
    match fs.at' p with
    | none => none
    | some i =>
      match fs.at' q with
      | none => some ((fs.setEntries p.1 (Dict.pop p.2)).setEntries q.1 (Dict.set q.2 i))
      | some j =>
        if fs.isDir i || fs.isDir j then none
        else some (((fs.setEntries p.1 (Dict.pop p.2)).setEntries q.1 (Dict.set q.2 i)).dropLink j)
  | _, _ => none

/-! ## Later file systems -/

/-- Names may have gone, and under the names of `new` there may be objects no walk goes on at; directories and links are the
same. -/
structure Within (new : Ino → String → Prop) (fs fs' : Fs) : Prop where
  root : fs'.root = fs.root
  limit : fs'.limit = fs.limit
  same : ∀ i n, n.walkable = true → (fs'.node i = some n ↔ fs.node i = some n)
  names : ∀ d name i, Dict.get? name (fs'.entries d) = some i → Dict.get? name (fs.entries d) = some i ∨
    (new d name ∧ ∀ n, fs'.node i = some n → n.walkable = false)

variable {new : Ino → String → Prop} {fs fs' fs'' : Fs}

theorem Within.refl (new : Ino → String → Prop) (fs : Fs) : Within new fs fs :=
  ⟨rfl, rfl, fun _ _ _ => Iff.rfl, fun _ _ _ h => .inl h⟩

theorem Within.trans (h : Within new fs fs') (h' : Within new fs' fs'') : Within new fs fs'' := by
  refine ⟨h'.root.trans h.root, h'.limit.trans h.limit, fun i n hn => (h'.same i n hn).trans (h.same i n hn), fun d name i hi => ?_⟩
  rcases h'.names d name i hi with hi' | hi'
  · rcases h.names d name i hi' with hi'' | ⟨hnew, hinert⟩
    · exact .inl hi''
    · refine .inr ⟨hnew, fun n hn => ?_⟩
      by_contra hw
      have hw : n.walkable = true := by simpa using hw
      exact absurd (hinert n ((h'.same i n hw).1 hn)) (by simp [hw])
  · exact .inr hi'

/-- The kinds at which a walk goes on are the same. -/
theorem Within.kind (h : Within new fs fs') {i : Ino} {k : Kind} (hw : k.walkable = true) :
    (fs'.node i).map Node.kind = some k ↔ (fs.node i).map Node.kind = some k := by
  constructor
  · intro hk
    obtain ⟨n, hn, rfl⟩ := Option.map_eq_some_iff.1 hk
    rw [(h.same i n hw).1 hn]
    rfl
  · intro hk
    obtain ⟨n, hn, rfl⟩ := Option.map_eq_some_iff.1 hk
    rw [(h.same i n hw).2 hn]
    rfl

theorem isDir_iff {fs : Fs} {i : Ino} : fs.isDir i = true ↔ ∃ p, (fs.node i).map Node.kind = some (.dir p) := by
  unfold isDir
  cases fs.node i with
  | none => simp
  | some n =>
    cases hk : n.kind <;> simp [Node.isDir, hk]

theorem Within.isDir (h : Within new fs fs') (i : Ino) : fs'.isDir i = fs.isDir i := by
  rw [Bool.eq_iff_iff, isDir_iff, isDir_iff]
  exact exists_congr fun p => h.kind rfl

/-- No walk goes on at the object. -/
def Inert (fs : Fs) (i : Ino) : Prop := ∀ n, fs.node i = some n → n.walkable = false

theorem Inert.not_dir {i : Ino} (h : fs.Inert i) : fs.isDir i = false := by
  by_contra hd
  obtain ⟨p, hp⟩ := isDir_iff.1 (by simpa using hd)
  obtain ⟨n, hn, hk⟩ := Option.map_eq_some_iff.1 hp
  have hw := h n hn
  rw [Node.walkable, hk] at hw
  nomatch hw

/-- A walk from where none goes on arrives at no directory. -/
theorem Inert.walk {steps : ℕ} {cur x : Ino} {names : List String} (h : fs.Inert cur) (hx : fs.walk steps cur names = some x) :
    fs.isDir x = false := by
  cases names with
  | nil =>
    have hcur : cur = x := by cases steps <;> simpa [Fs.walk] using hx
    exact hcur ▸ h.not_dir
  | cons name rest =>
    cases steps with
    | zero => nomatch hx
    | succ steps =>
      have hnone : fs.next cur name rest = none := by
        unfold next
        split
        · rename_i parent hp
          have hd : fs.isDir cur = true := isDir_iff.2 ⟨parent, hp⟩
          rw [h.not_dir] at hd
          nomatch hd
        · rfl
      rw [Fs.walk, hnone] at hx
      nomatch hx

/-- A step goes where it went before, or to something that was added. -/
theorem Within.next (h : Within new fs fs') {cur : Ino} {name : String} {rest : List String} {p : Ino × List String}
    (hp : fs'.next cur name rest = some p) : fs.next cur name rest = some p ∨ fs'.Inert p.1 := by
  unfold Fs.next at hp ⊢
  cases hcur : (fs'.node cur).map Node.kind with
  | none => simp [hcur] at hp
  | some k =>
    cases k with
    | dir parent =>
      rw [(h.kind rfl).1 hcur]
      simp only [hcur] at hp ⊢
      split_ifs at hp ⊢ with hname
      · exact .inl hp
      · obtain ⟨i, hi, rfl⟩ := Option.map_eq_some_iff.1 hp
        rcases h.names cur name i hi with hi' | ⟨-, hinert⟩
        · left
          rw [hi', Option.map_some]
          cases hk : (fs'.node i).map Node.kind with
          | some k =>
            cases k with
            | link target => simp only [(h.kind rfl).1 hk, start, h.root]
            | _ =>
              split
              · rename_i target ht
                rw [(h.kind rfl).2 ht] at hk
                nomatch hk
              · rfl
          | none =>
            split
            · rename_i target ht
              rw [(h.kind rfl).2 ht] at hk
              nomatch hk
            · rfl
        · right
          split
          · rename_i target ht
            obtain ⟨n, hn, hk⟩ := Option.map_eq_some_iff.1 ht
            have hw := hinert n hn
            rw [Node.walkable, hk] at hw
            nomatch hw
          · exact hinert
    | _ => simp [hcur] at hp

/-- A walk that still arrives at a directory arrived there before. -/
theorem Within.walk (h : Within new fs fs') {steps : ℕ} {cur x : Ino} {names : List String}
    (hx : fs'.walk steps cur names = some x) (hdir : fs'.isDir x = true) : fs.walk steps cur names = some x := by
  induction steps generalizing cur names with
  | zero =>
    cases names with
    | nil => exact hx
    | cons name rest => nomatch hx
  | succ steps ih =>
    cases names with
    | nil => exact hx
    | cons name rest =>
      rw [Fs.walk] at hx ⊢
      cases hp : fs'.next cur name rest with
      | none => simp [hp] at hx
      | some p =>
        simp only [hp] at hx
        rcases h.next hp with hp' | hinert
        · simp only [hp']
          exact ih hx
        · rw [hinert.walk hx] at hdir
          nomatch hdir

theorem place_some {fs : Fs} {path name : String} {d : Ino} : fs.place path = some (d, name) ↔
    (parts path).getLast? = some name ∧ fs.walk fs.limit fs.root (parts path).dropLast = some d ∧ fs.isDir d = true := by
  unfold place
  cases (parts path).getLast? with
  | none => simp
  | some name' =>
    simp only [Option.map_eq_some_iff, Option.filter_eq_some_iff, Prod.mk.injEq, Option.some.injEq]
    constructor
    · rintro ⟨d', ⟨hw, hd⟩, rfl, rfl⟩
      exact ⟨rfl, hw, hd⟩
    · rintro ⟨rfl, hw, hd⟩
      exact ⟨d, ⟨hw, hd⟩, rfl, rfl⟩

/-- A path that still has a place has the place it had. -/
theorem Within.place (h : Within new fs fs') {path : String} {p : Ino × String} (hp : fs'.place path = some p) :
    fs.place path = some p := by
  obtain ⟨d, name⟩ := p
  obtain ⟨hname, hwalk, hdir⟩ := place_some.1 hp
  rw [h.limit, h.root] at hwalk
  exact place_some.2 ⟨hname, h.walk hwalk hdir, by rw [← h.isDir]; exact hdir⟩

theorem find_some {fs : Fs} {path : String} {i : Ino} :
    fs.find path = some i ↔ ∃ p, fs.place path = some p ∧ fs.at' p = some i := by
  simp [find, Option.bind_eq_some_iff]

/-- What a path still leads to it led to before, if its name is none of the new ones. -/
theorem Within.find (h : Within new fs fs') {path : String} {i : Ino} (hi : fs'.find path = some i)
    (hnew : ∀ p, fs'.place path = some p → ¬new p.1 p.2) : fs.find path = some i := by
  obtain ⟨p, hp, hat⟩ := find_some.1 hi
  refine find_some.2 ⟨p, h.place hp, ?_⟩
  rcases h.names p.1 p.2 i hat with hat | ⟨hn, -⟩
  · exact hat
  · exact absurd hn (hnew p hp)

/-- What no walk went on at is nothing a walk goes on at. -/
theorem Within.inert (hw : Within new fs fs') {i : Ino} (hi : fs.Inert i) :
    fs'.Inert i := by
  intro n hn
  by_contra hwalk
  have hwalk : n.walkable = true := by simpa using hwalk
  rw [hi n ((hw.same i n hwalk).1 hn)] at hwalk
  nomatch hwalk

/-- A path whose entry is gone leads nowhere. -/
theorem Within.find_none {path : String} {p : Ino × String} (hp : fs.place path = some p)
    (hw : Within new fs fs') (hat : fs'.at' p = none) : fs'.find path = none := by
  by_contra hne
  obtain ⟨i, hi⟩ := Option.ne_none_iff_exists'.1 hne
  obtain ⟨q, hq, hqi⟩ := find_some.1 hi
  have hqp := hw.place hq
  rw [hp] at hqp
  cases hqp
  rw [hat] at hqi
  nomatch hqi

theorem next_append (fs : Fs) (cur : Ino) (name : String) (rest t : List String) :
    fs.next cur name (rest ++ t) = (fs.next cur name rest).map fun p => (p.1, p.2 ++ t) := by
  unfold Fs.next
  split
  · split_ifs
    · rfl
    · rw [Option.map_map]
      congr 1
      funext i
      simp only [Function.comp]
      split <;> simp
  · rfl

/-- A walk along two lists of names is a walk along the first and then along the second. -/
theorem walk_append {fs : Fs} {steps : ℕ} {cur x : Ino} {names t : List String} (hx : fs.walk steps cur (names ++ t) = some x) :
    ∃ d steps', fs.walk steps cur names = some d ∧ fs.walk steps' d t = some x := by
  induction steps generalizing cur names with
  | zero =>
    cases names with
    | nil => exact ⟨cur, 0, rfl, hx⟩
    | cons name rest => nomatch hx
  | succ steps ih =>
    cases names with
    | nil => exact ⟨cur, steps + 1, rfl, hx⟩
    | cons name rest =>
      rw [List.cons_append, Fs.walk, next_append] at hx
      cases hp : fs.next cur name rest with
      | none => simp [hp] at hx
      | some p =>
        simp only [hp, Option.map_some] at hx
        obtain ⟨d, steps', hd, hx⟩ := ih hx
        refine ⟨d, steps', ?_, hx⟩
        rw [Fs.walk, hp]
        exact hd

/-- Where there is no directory, there is nothing in it. -/
theorem find_none_below {fs : Fs} {dir below name : String} (hd : (parts dir).getLast? = some name) (hname : name ≠ "..")
    (hb : (parts below).dropLast = parts dir) (h : fs.find dir = none) : fs.find below = none := by
  by_contra hne
  obtain ⟨i, hi⟩ := Option.ne_none_iff_exists'.1 hne
  obtain ⟨⟨s, last⟩, hp, -⟩ := find_some.1 hi
  obtain ⟨-, hwalk, -⟩ := place_some.1 hp
  have hsplit : parts dir = (parts dir).dropLast ++ [name] := (List.dropLast_append_getLast? name hd).symm
  rw [hb, hsplit] at hwalk
  obtain ⟨d, steps', hwd, hwx⟩ := walk_append hwalk
  cases steps' with
  | zero => nomatch hwx
  | succ steps' =>
    rw [Fs.walk] at hwx
    cases hn : fs.next d name [] with
    | none => simp [hn] at hwx
    | some p =>
      unfold Fs.next at hn
      split at hn
      · rename_i parent hk
        rw [if_neg hname] at hn
        obtain ⟨j, hj, -⟩ := Option.map_eq_some_iff.1 hn
        have hplace : fs.place dir = some (d, name) := place_some.2 ⟨hd, hwd, isDir_iff.2 ⟨parent, hk⟩⟩
        have hfind : fs.find dir = some j := find_some.2 ⟨(d, name), hplace, hj⟩
        rw [h] at hfind
        nomatch hfind
      · nomatch hn

end Fs

/-! ## What an operation changes -/

namespace Fs

variable {fs fs' fs'' : Fs}

/-- Only entries of these places and these objects were changed. -/
structure Changes (slot : Ino × String → Prop) (object : Ino → Prop) (fs fs' : Fs) : Prop where
  root : fs'.root = fs.root
  limit : fs'.limit = fs.limit
  names : ∀ d name, ¬slot (d, name) → Dict.get? name (fs'.entries d) = Dict.get? name (fs.entries d)
  nodes : ∀ i, ¬object i → fs'.node i = fs.node i

variable {slot slot' : Ino × String → Prop} {object object' : Ino → Prop}

theorem Changes.refl (slot : Ino × String → Prop) (object : Ino → Prop) (fs : Fs) : Changes slot object fs fs :=
  ⟨rfl, rfl, fun _ _ _ => rfl, fun _ _ => rfl⟩

theorem Changes.trans (h : Changes slot object fs fs') (h' : Changes slot object fs' fs'') : Changes slot object fs fs'' :=
  ⟨h'.root.trans h.root, h'.limit.trans h.limit, fun d name hn => (h'.names d name hn).trans (h.names d name hn),
    fun i hi => (h'.nodes i hi).trans (h.nodes i hi)⟩

theorem Changes.mono (h : Changes slot object fs fs') (hs : ∀ p, slot p → slot' p) (ho : ∀ i, object i → object' i) :
    Changes slot' object' fs fs' :=
  ⟨h.root, h.limit, fun d name hn => h.names d name fun hp => hn (hs _ hp), fun i hi => h.nodes i fun hp => hi (ho _ hp)⟩

@[simp] theorem entries_setEntries_self (fs : Fs) (d : Ino) (f : Dict Ino → Dict Ino) :
    (fs.setEntries d f).entries d = f (fs.entries d) := by simp [setEntries]

theorem entries_setEntries_of_ne (fs : Fs) {d d' : Ino} (f : Dict Ino → Dict Ino) (h : d' ≠ d) :
    (fs.setEntries d f).entries d' = fs.entries d' := by simp [setEntries, h]

@[simp] theorem node_setEntries (fs : Fs) (d : Ino) (f : Dict Ino → Dict Ino) : (fs.setEntries d f).node = fs.node := rfl

@[simp] theorem entries_setNode (fs : Fs) (i : Ino) (n : Node) : (fs.setNode i n).entries = fs.entries := rfl

@[simp] theorem node_setNode_self (fs : Fs) (i : Ino) (n : Node) : (fs.setNode i n).node i = some n := by simp [setNode]

theorem node_setNode_of_ne (fs : Fs) {i j : Ino} (n : Node) (h : j ≠ i) : (fs.setNode i n).node j = fs.node j := by
  simp [setNode, h]

@[simp] theorem entries_dropLink (fs : Fs) (i : Ino) : (fs.dropLink i).entries = fs.entries := by
  unfold dropLink
  split <;> rfl

/-- An entry after it was set, or another one. -/
theorem get?_setEntries (fs : Fs) (p q : Ino × String) (f : Dict Ino → Dict Ino)
    (hf : ∀ name, name ≠ p.2 → ∀ e, Dict.get? name (f e) = Dict.get? name e) :
    Dict.get? q.2 ((fs.setEntries p.1 f).entries q.1) =
      if q = p then Dict.get? p.2 (f (fs.entries p.1)) else Dict.get? q.2 (fs.entries q.1) := by
  obtain ⟨d, name⟩ := p
  obtain ⟨d', name'⟩ := q
  by_cases hd : d' = d
  · subst hd
    by_cases hn : name' = name
    · simp [hn]
    · simp [hn, hf name' hn]
  · simp [entries_setEntries_of_ne fs f hd, hd]

@[simp] theorem at'_pop (fs : Fs) (p q : Ino × String) :
    (fs.setEntries p.1 (Dict.pop p.2)).at' q = if q = p then none else fs.at' q := by
  rw [at', get?_setEntries fs p q _ fun _ hn e => Dict.get?_pop_of_ne hn e, Dict.get?_pop_self]
  rfl

@[simp] theorem at'_set (fs : Fs) (p q : Ino × String) (i : Ino) :
    (fs.setEntries p.1 (Dict.set p.2 i)).at' q = if q = p then some i else fs.at' q := by
  rw [at', get?_setEntries fs p q _ fun _ hn e => Dict.get?_set_of_ne hn i e, Dict.get?_set_self]
  rfl

@[simp] theorem at'_setNode (fs : Fs) (i : Ino) (n : Node) (q : Ino × String) : (fs.setNode i n).at' q = fs.at' q := rfl

@[simp] theorem at'_dropLink (fs : Fs) (i : Ino) (q : Ino × String) : (fs.dropLink i).at' q = fs.at' q := by
  rw [at', entries_dropLink, at']

theorem pop_changes (fs : Fs) (p : Ino × String) :
    Changes (fun q => q = p) (fun _ => False) fs (fs.setEntries p.1 (Dict.pop p.2)) :=
  ⟨rfl, rfl, fun d name hn => by simpa [at', hn] using at'_pop fs p (d, name), fun _ _ => rfl⟩

theorem set_changes (fs : Fs) (p : Ino × String) (i : Ino) :
    Changes (fun q => q = p) (fun _ => False) fs (fs.setEntries p.1 (Dict.set p.2 i)) :=
  ⟨rfl, rfl, fun d name hn => by simpa [at', hn] using at'_set fs p (d, name) i, fun _ _ => rfl⟩

theorem setNode_changes (fs : Fs) (i : Ino) (n : Node) : Changes (fun _ => False) (fun j => j = i) fs (fs.setNode i n) :=
  ⟨rfl, rfl, fun _ _ _ => rfl, fun j hj => node_setNode_of_ne fs n hj⟩

theorem dropLink_changes (fs : Fs) (i : Ino) : Changes (fun _ => False) (fun j => j = i) fs (fs.dropLink i) := by
  unfold dropLink
  split
  · exact setNode_changes fs i _
  · exact .refl _ _ fs

theorem pop_within (new : Ino → String → Prop) (fs : Fs) (p : Ino × String) :
    Within new fs (fs.setEntries p.1 (Dict.pop p.2)) := by
  refine ⟨rfl, rfl, fun _ _ _ => Iff.rfl, fun d name i hi => .inl ?_⟩
  have hat : (fs.setEntries p.1 (Dict.pop p.2)).at' (d, name) = some i := hi
  rw [at'_pop] at hat
  split_ifs at hat
  exact hat

/-- A place is given an object at which no walk goes on. -/
theorem set_within {new : Ino → String → Prop} {fs : Fs} {p : Ino × String} {i : Ino} (hp : new p.1 p.2) (hi : fs.Inert i) :
    Within new fs (fs.setEntries p.1 (Dict.set p.2 i)) := by
  refine ⟨rfl, rfl, fun _ _ _ => Iff.rfl, fun d name j hj => ?_⟩
  have hat : (fs.setEntries p.1 (Dict.set p.2 i)).at' (d, name) = some j := hj
  rw [at'_set] at hat
  split_ifs at hat with hq
  · cases hat
    cases hq
    exact .inr ⟨hp, hi⟩
  · exact .inl hat

/-- An object at which no walk goes on is changed to another such. -/
theorem setNode_within {new : Ino → String → Prop} {fs : Fs} {i : Ino} {n : Node} (hi : fs.Inert i) (hn : n.walkable = false) :
    Within new fs (fs.setNode i n) := by
  refine ⟨rfl, rfl, fun j m hm => ?_, fun _ _ _ h => .inl h⟩
  by_cases hj : j = i
  · subst hj
    rw [node_setNode_self, Option.some.injEq]
    constructor
    · rintro rfl
      rw [hn] at hm
      nomatch hm
    · intro h
      rw [hi m h] at hm
      nomatch hm
  · rw [node_setNode_of_ne fs n hj]

theorem dropLink_within {new : Ino → String → Prop} {fs : Fs} {i : Ino} (hi : fs.Inert i) : Within new fs (fs.dropLink i) := by
  unfold dropLink
  split
  · rename_i n hn
    exact setNode_within hi (hi n hn)
  · exact .refl _ _

/-- An unlinked file leaves its entry and one of its links. -/
theorem unlink_some {path : String} (h : fs.unlink path = some fs') :
    ∃ p i, fs.place path = some p ∧ fs.at' p = some i ∧ fs.isDir i = false ∧
      fs' = (fs.setEntries p.1 (Dict.pop p.2)).dropLink i := by
  unfold unlink at h
  split at h
  · nomatch h
  · rename_i p hp
    split at h
    · nomatch h
    · rename_i i hi
      split_ifs at h with hd
      cases h
      exact ⟨p, i, hp, hi, by simpa using hd, rfl⟩

theorem rmdir_some {path : String} (h : fs.rmdir path = some fs') :
    ∃ p i, fs.place path = some p ∧ fs.at' p = some i ∧ fs.isDir i = true ∧ fs.entries i = [] ∧
      fs' = fs.setEntries p.1 (Dict.pop p.2) := by
  unfold rmdir at h
  split at h
  · nomatch h
  · rename_i p hp
    split at h
    · nomatch h
    · rename_i i hi
      split_ifs at h with hd
      cases h
      simp only [Bool.and_eq_true, List.isEmpty_iff] at hd
      exact ⟨p, i, hp, hi, hd.1, hd.2, rfl⟩

theorem create_some {path : String} {i : Ino} {n : Node} (h : fs.create path i n = some fs') :
    ∃ p, fs.place path = some p ∧ fs.at' p = none ∧ fs.node i = none ∧
      fs' = (fs.setEntries p.1 (Dict.set p.2 i)).setNode i n := by
  unfold create at h
  split at h
  · nomatch h
  · rename_i p hp
    split_ifs at h with hfree
    cases h
    simp only [Bool.and_eq_true, Option.isNone_iff_eq_none] at hfree
    exact ⟨p, hp, hfree.1, hfree.2, rfl⟩

theorem replace_some {src dst : String} (h : fs.replace src dst = some fs') :
    ∃ p q i, fs.place src = some p ∧ fs.place dst = some q ∧ fs.at' p = some i ∧
      ((fs.at' q = none ∧ fs' = (fs.setEntries p.1 (Dict.pop p.2)).setEntries q.1 (Dict.set q.2 i)) ∨
        ∃ j, fs.at' q = some j ∧ fs.isDir i = false ∧ fs.isDir j = false ∧
          fs' = ((fs.setEntries p.1 (Dict.pop p.2)).setEntries q.1 (Dict.set q.2 i)).dropLink j) := by
  unfold replace at h
  split at h
  · rename_i p q hp hq
    split at h
    · nomatch h
    · rename_i i hi
      split at h
      · rename_i hj
        cases h
        exact ⟨p, q, i, hp, hq, hi, .inl ⟨hj, rfl⟩⟩
      · rename_i j hj
        split_ifs at h with hd
        cases h
        simp only [Bool.or_eq_true, not_or, Bool.not_eq_true] at hd
        exact ⟨p, q, i, hp, hq, hi, .inr ⟨j, hj, hd.1, hd.2, rfl⟩⟩
  · nomatch h

end Fs
