import Mathlib.Tactic

/-!
# Trees in a heap

Nodes that refer to each other by their numbers, as objects do. A tree that is built from the outside in, node after node, has its
nodes in document order: what is below a node is an interval of numbers, and a change at the end of the document leaves what was
completed before as it is.
-/

namespace TreeHeap

/-- A child: another node, or a piece of text. -/
inductive Child
  | node (id : ℕ)
  | text (data : String)
deriving DecidableEq

/-- A node: what it is, and its children. -/
structure Cell (L : Type) where
  label : L
  children : List Child

/-- The nodes by their numbers; the root has the number zero. -/
abbrev Heap (L : Type) := List (Cell L)

variable {L : Type} {h h' : Heap L} {cs pre : List Child} {lo mid hi fuel : ℕ} {s t d : String}

/-- The text below a node, so many levels down. -/
def text (h : Heap L) : (fuel : ℕ) → ℕ → String
  | 0, _ => ""
  | fuel + 1, id => String.join (((h[id]?.map Cell.children).getD []).map fun
    | .node c => text h fuel c
    | .text data => data)

/-- The nodes below a node in the order of the document, so many levels down. -/
def descendants (h : Heap L) : (fuel : ℕ) → ℕ → List ℕ
  | 0, _ => []
  | fuel + 1, id => ((h[id]?.map Cell.children).getD []).flatMap fun
    | .node c => c :: descendants h fuel c
    | .text _ => []

/-- A child is added at the end of a node. -/
def addChild (h : Heap L) (id : ℕ) (c : Child) : Heap L := h.modify id fun cell => { cell with children := cell.children ++ [c] }

theorem getElem?_addChild_self {id : ℕ} {cell : Cell L} (hcell : h[id]? = some cell) (c : Child) :
    (addChild h id c)[id]? = some { cell with children := cell.children ++ [c] } := by
  rw [addChild, List.getElem?_modify_eq, hcell]
  rfl

theorem getElem?_addChild_of_ne {id i : ℕ} (hne : id ≠ i) (c : Child) : (addChild h id c)[i]? = h[i]? :=
  List.getElem?_modify_ne _ h hne

@[simp] theorem length_addChild (h : Heap L) (id : ℕ) (c : Child) : (addChild h id c).length = h.length := List.length_modify _ _ _

/-! ## Completed parts -/

/-- The children `cs` have the nodes from `lo` up to `hi` below them, in the order of the document, and the text `s`. -/
inductive Covers (h : Heap L) : List Child → ℕ → ℕ → String → Prop
  | nil (lo : ℕ) : Covers h [] lo lo ""
  | text {cs : List Child} {lo hi : ℕ} {s : String} (d : String) : Covers h cs lo hi s → Covers h (cs ++ [.text d]) lo hi (s ++ d)
  | node {cs : List Child} {lo mid hi : ℕ} {s t : String} {cell : Cell L} : Covers h cs lo mid s → h[mid]? = some cell →
      Covers h cell.children (mid + 1) hi t → Covers h (cs ++ [.node mid]) lo hi (s ++ t)

namespace Covers

theorem le (hc : Covers h cs lo hi s) : lo ≤ hi := by
  induction hc with
  | nil lo => exact le_rfl
  | text _ _ ih => exact ih
  | node _ _ _ ih ih' => omega

/-- Changes outside of its nodes do not concern a completed part. -/
theorem frame (hc : Covers h cs lo hi s) (hsame : ∀ i, lo ≤ i → i < hi → h'[i]? = h[i]?) : Covers h' cs lo hi s := by
  induction hc with
  | nil lo => exact .nil lo
  | text d _ ih => exact .text d (ih hsame)
  | @node cs lo mid hi s t cell hc hcell hbelow ih ih' =>
    have hlo := hc.le
    have hhi := hbelow.le
    refine .node (ih fun i hlow hhigh => hsame i hlow (by omega)) ?_ (ih' fun i hlow hhigh => hsame i (by omega) hhigh)
    rw [hsame mid hlo (by omega), hcell]

/-- The text of a completed part. -/
theorem text_eq (hc : Covers h cs lo hi s) (hfuel : hi - lo ≤ fuel) : String.join (cs.map fun
    | .node c => TreeHeap.text h fuel c
    | .text data => data) = s := by
  induction hc generalizing fuel with
  | nil lo => rfl
  | text d _ ih => rw [List.map_append, String.join_append, ih hfuel, List.map_singleton, String.join_cons, String.join_nil, String.append_empty]
  | @node cs lo mid hi s t cell hc hcell hbelow ih ih' =>
    have hlo := hc.le
    have hhi := hbelow.le
    obtain ⟨fuel, rfl⟩ : ∃ n, fuel = n + 1 := ⟨fuel - 1, by omega⟩
    have htext : TreeHeap.text h (fuel + 1) mid = t := by
      rw [TreeHeap.text, hcell]
      exact ih' (by omega)
    rw [List.map_append, String.join_append, ih (by omega), List.map_singleton, String.join_cons, String.join_nil, String.append_empty]
    exact congrArg (s ++ ·) htext

/-- The nodes of a completed part: each once, and in their order. -/
theorem descendants_eq (hc : Covers h cs lo hi s) (hfuel : hi - lo ≤ fuel) : (cs.flatMap fun
    | .node c => c :: descendants h fuel c
    | .text _ => []) = List.range' lo (hi - lo) := by
  induction hc generalizing fuel with
  | nil lo => simp
  | text d _ ih => rw [List.flatMap_append, ih hfuel, List.flatMap_singleton, List.append_nil]
  | @node cs lo mid hi s t cell hc hcell hbelow ih ih' =>
    have hlo := hc.le
    have hhi := hbelow.le
    obtain ⟨fuel, rfl⟩ : ∃ n, fuel = n + 1 := ⟨fuel - 1, by omega⟩
    have hnodes : descendants h (fuel + 1) mid = List.range' (mid + 1) (hi - (mid + 1)) := by
      rw [descendants, hcell]
      exact ih' (by omega)
    rw [List.flatMap_append, ih (by omega), List.flatMap_singleton]
    have hlast : mid :: List.range' (mid + 1) (hi - (mid + 1)) = List.range' mid (hi - mid) := by
      rw [← List.range'_succ, show hi - (mid + 1) + 1 = hi - mid by omega]
    have hstart : lo + 1 * (mid - lo) = mid := by omega
    calc List.range' lo (mid - lo) ++ (mid :: descendants h (fuel + 1) mid)
        = List.range' lo (mid - lo) ++ List.range' (lo + 1 * (mid - lo)) (hi - mid) := by rw [hnodes, hlast, hstart]
      _ = List.range' lo (hi - lo) := by rw [List.range'_append, show (mid - lo) + (hi - mid) = hi - lo by omega]

end Covers

/-! ## Open nodes -/

/-- The nodes `stack` wait for the node `c` to be completed: `c` is the last child of the first of them, which in turn is the last
child of the next, up to the root. The text before `c` is `s`. -/
inductive Waits (h : Heap L) : (c : ℕ) → (stack : List ℕ) → (s : String) → Prop
  | root : Waits h 0 [] ""
  | node {c p : ℕ} {stack : List ℕ} {pre : List Child} {cell : Cell L} {s t : String} : h[p]? = some cell →
      cell.children = pre ++ [.node c] → Covers h pre (p + 1) c s → Waits h p stack t → Waits h c (p :: stack) (t ++ s)

/-- The nodes `stack` are open, and the document has the text `s`. -/
structure Open (h : Heap L) (stack : List ℕ) (s : String) : Prop where
  opened : ∃ top rest cell before after, stack = top :: rest ∧ h[top]? = some cell ∧ Covers h cell.children (top + 1) h.length after ∧
    Waits h top rest before ∧ s = before ++ after

theorem Waits.frame {c : ℕ} {stack : List ℕ} (hw : Waits h c stack s) (hsame : ∀ i, i < c → h'[i]? = h[i]?) : Waits h' c stack s := by
  induction hw with
  | root => exact .root
  | @node c p stack pre cell s t hcell hlast hcovers _ ih =>
    have hlt := hcovers.le
    refine .node (by rw [hsame p (by omega), hcell]) hlast (hcovers.frame fun i _ hi => hsame i hi) (ih fun i hi => hsame i (by omega))

/-- Each open node is a child of the one below it, and the last one is the root. -/
theorem Waits.chain {c : ℕ} {stack : List ℕ} (hw : Waits h c stack s) : (c :: stack).getLast? = some 0 ∧
    (c :: stack).IsChain fun c p => ∃ cell, h[p]? = some cell ∧ .node c ∈ cell.children := by
  induction hw with
  | root => exact ⟨rfl, .singleton 0⟩
  | @node c p stack pre cell s t hcell hlast _ _ ih =>
    refine ⟨by rw [List.getLast?_cons_cons, ih.1], .cons_cons ⟨cell, hcell, ?_⟩ ih.2⟩
    rw [hlast]
    exact List.mem_append_right _ List.mem_cons_self

namespace Open

variable {stack : List ℕ}

/-- A document of nothing but a root. -/
theorem start (label : L) : Open [⟨label, []⟩] [0] "" := ⟨0, [], ⟨label, []⟩, "", "", rfl, rfl, .nil 1, .root, rfl⟩

theorem chain (ho : Open h stack s) : stack.getLast? = some 0 ∧
    stack.IsChain fun c p => ∃ cell, h[p]? = some cell ∧ .node c ∈ cell.children := by
  obtain ⟨top, rest, cell, before, after, rfl, -, -, hwaits, -⟩ := ho
  exact hwaits.chain

/-- Text is added to the innermost open node. -/
theorem addText {top : ℕ} (ho : Open h (top :: stack) s) (d : String) : Open (addChild h top (.text d)) (top :: stack) (s ++ d) := by
  obtain ⟨top, rest, cell, before, after, heq, hcell, hcovers, hwaits, rfl⟩ := ho
  obtain ⟨rfl, rfl⟩ := List.cons.inj heq
  refine ⟨_, _, _, before, after ++ d, rfl, getElem?_addChild_self hcell _, ?_, ?_, String.append_assoc⟩
  · rw [length_addChild]
    exact (hcovers.text d).frame fun i hi _ => getElem?_addChild_of_ne (by omega) _
  · exact hwaits.frame fun i hi => getElem?_addChild_of_ne (by omega) _

/-- A node is added to the innermost open node, and opened. -/
theorem push {top : ℕ} (ho : Open h (top :: stack) s) (label : L) :
    Open (addChild h top (.node h.length) ++ [⟨label, []⟩]) (h.length :: top :: stack) s := by
  obtain ⟨top, rest, cell, before, after, heq, hcell, hcovers, hwaits, rfl⟩ := ho
  obtain ⟨rfl, rfl⟩ := List.cons.inj heq
  have htop : top < h.length := (List.getElem?_eq_some_iff.1 hcell).1
  have hold : ∀ i, i < h.length → (addChild h top (.node h.length) ++ [⟨label, []⟩])[i]? = (addChild h top (.node h.length))[i]? := by
    intro i hi
    exact List.getElem?_append_left (by rwa [length_addChild])
  have hnew : (addChild h top (.node h.length) ++ [⟨label, []⟩])[h.length]? = some ⟨label, []⟩ := by
    rw [List.getElem?_append_right (by rw [length_addChild]), length_addChild, Nat.sub_self]
    rfl
  refine ⟨h.length, top :: stack, _, before ++ after, "", rfl, hnew, ?_, ?_, String.append_empty.symm⟩
  · rw [List.length_append, length_addChild]
    exact .nil _
  · refine .node (by rw [hold top htop, getElem?_addChild_self hcell]) rfl (hcovers.frame fun i hlow hhigh => ?_) (hwaits.frame fun i hi => ?_)
    · rw [hold i hhigh, getElem?_addChild_of_ne (by omega)]
    · rw [hold i (by omega), getElem?_addChild_of_ne (by omega)]

/-- The innermost open node is completed. -/
theorem pop {top next : ℕ} (ho : Open h (top :: next :: stack) s) : Open h (next :: stack) s := by
  obtain ⟨top, rest, cell, before, after, heq, hcell, hcovers, hwaits, rfl⟩ := ho
  obtain ⟨rfl, rfl⟩ := List.cons.inj heq
  cases hwaits with
  | @node _ _ _ pre parent s t hparent hlast hpre hrest =>
    refine ⟨next, stack, parent, t, s ++ after, rfl, hparent, ?_, hrest, String.append_assoc⟩
    rw [hlast]
    exact .node hpre hcell hcovers

/-- Nodes are completed as long as one is left. -/
theorem drop {inner : List ℕ} (hne : stack ≠ []) (ho : Open h (inner ++ stack) s) : Open h stack s := by
  induction inner with
  | nil => exact ho
  | cons c inner ih =>
    obtain ⟨next, rest, hnext⟩ := List.exists_cons_of_ne_nil (l := inner ++ stack) (by simp [hne])
    rw [List.cons_append, hnext] at ho
    refine ih ?_
    rw [hnext]
    exact ho.pop

/-- When all nodes are completed the root covers the whole document. -/
theorem covers (ho : Open h stack s) : ∃ cell, h[0]? = some cell ∧ Covers h cell.children 1 h.length s := by
  obtain ⟨hlast, -⟩ := ho.chain
  obtain ⟨inner, rfl⟩ := List.getLast?_eq_some_iff.1 hlast
  obtain ⟨top, rest, cell, before, after, heq, hcell, hcovers, hwaits, rfl⟩ := drop (List.cons_ne_nil 0 []) ho
  obtain ⟨rfl, rfl⟩ := List.cons.inj heq
  cases hwaits with
  | root => exact ⟨cell, hcell, by rwa [String.empty_append]⟩

/-- The text of the document. -/
theorem text_root (ho : Open h stack s) : text h h.length 0 = s := by
  obtain ⟨cell, hcell, hcovers⟩ := ho.covers
  obtain ⟨hlength, -⟩ := List.getElem?_eq_some_iff.1 hcell
  obtain ⟨n, hn⟩ : ∃ n, h.length = n + 1 := ⟨h.length - 1, by omega⟩
  rw [hn, text, hcell]
  exact hcovers.text_eq (by omega)

/-- The nodes of the document: all but the root, each once, in the order in which they were opened. -/
theorem descendants_root (ho : Open h stack s) : descendants h h.length 0 = List.range' 1 (h.length - 1) := by
  obtain ⟨cell, hcell, hcovers⟩ := ho.covers
  obtain ⟨hlength, -⟩ := List.getElem?_eq_some_iff.1 hcell
  obtain ⟨n, hn⟩ : ∃ n, h.length = n + 1 := ⟨h.length - 1, by omega⟩
  have hfuel : h.length - 1 ≤ n := by omega
  have hnodes := hcovers.descendants_eq hfuel
  rw [hn] at hnodes ⊢
  rw [descendants, hcell]
  exact hnodes

end Open

end TreeHeap
