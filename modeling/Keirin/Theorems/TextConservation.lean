import Keirin.OfficialResults

/-!
# No text is lost

Whatever the parser is told of, in whatever order, its open nodes are a chain of ancestors that ends at the root, and the text of the
root is what it was given.
-/

namespace Keirin.OfficialResults.Html

open TreeHeap

variable {p : Html} {s : String}

/-- The open nodes are open in the tree, and the document has the text `s`. -/
def Holds (p : Html) (s : String) : Prop := Open p.nodes p.stack s

theorem holds_init : Holds init "" := Open.start _

/-- There is always an open node. -/
theorem Holds.cons (h : Holds p s) : ∃ rest, p.stack = p.top :: rest := by
  obtain ⟨innermost, rest, -, -, -, hstack, -⟩ := h
  exact ⟨rest, by rw [Html.top, hstack]; rfl⟩

theorem Holds.starttag (h : Holds p s) (tag : String) (attrs : List (String × Option String)) : Holds (p.handleStarttag tag attrs) s := by
  obtain ⟨rest, hstack⟩ := h.cons
  have hopen : Open p.nodes (p.top :: rest) s := hstack ▸ h
  have hpushed := hopen.push (Node.new tag attrs).label
  unfold Holds handleStarttag
  rw [hstack]
  split_ifs
  · -- a void tag is completed at once
    exact hpushed.pop
  · exact hpushed

/-- An end tag closes open nodes, but never the last one. -/
theorem closeTag_suffix {nodes : Heap Tag} {tag : String} {stack left : List ℕ} (h : closeTag nodes tag stack = some left) :
    left ≠ [] ∧ left <:+ stack := by
  induction stack with
  | nil => nomatch h
  | cons id stack ih =>
    cases stack with
    | nil => nomatch h
    | cons next rest =>
      rw [closeTag] at h
      split_ifs at h with htag
      · cases h
        exact ⟨List.cons_ne_nil _ _, List.suffix_cons _ _⟩
      · obtain ⟨hne, hsuffix⟩ := ih h
        exact ⟨hne, hsuffix.trans (List.suffix_cons _ _)⟩

theorem Holds.endtag (h : Holds p s) (tag : String) : Holds (p.handleEndtag tag) s := by
  unfold Holds handleEndtag
  cases hclose : closeTag p.nodes tag p.stack with
  | none => exact h
  | some left =>
    obtain ⟨hne, inner, hinner⟩ := closeTag_suffix hclose
    unfold Holds at h
    rw [← hinner] at h
    exact h.drop hne

theorem Holds.data (h : Holds p s) (data : String) : Holds (p.handleData data) (s ++ data) := by
  obtain ⟨rest, hstack⟩ := h.cons
  have hopen : Open p.nodes (p.top :: rest) s := hstack ▸ h
  unfold Holds handleData
  rw [hstack]
  exact hopen.addText data

theorem Holds.handle (h : Holds p s) (e : Event) : Holds (p.handle e) (s ++ e.text) := by
  cases e with
  | starttag tag attrs => exact String.append_empty.symm ▸ h.starttag tag attrs
  | startendtag tag attrs =>
    show Holds (p.handleStartendtag tag attrs) (s ++ "")
    rw [String.append_empty, handleStartendtag]
    split_ifs
    · exact h.starttag tag attrs
    · exact (h.starttag tag attrs).endtag tag
  | endtag tag => exact String.append_empty.symm ▸ h.endtag tag
  | data data => exact h.data data

/-- A run keeps what holds, and adds the texts it brings. -/
theorem Holds.run (h : Holds p s) (events : List Event) : Holds (events.foldl Html.handle p) (s ++ String.join (events.map Event.text)) := by
  induction events generalizing p s with
  | nil => exact String.append_empty.symm ▸ h
  | cons e events ih =>
    have hrest := ih (h.handle e)
    rwa [String.append_assoc, ← String.join_cons, ← List.map_cons] at hrest

/-- After any events the root is the last of the open nodes, every other of them is a child of the one after it, the tree has every node
once, in the order of the document, and the text of the root is the texts that came, one after the other. -/
theorem text_conserved (events : List Event) :
    (events.foldl handle init).stack.getLast? = some 0 ∧
      ((events.foldl handle init).stack.IsChain fun c q =>
        ∃ node, (events.foldl handle init).nodes[q]? = some node ∧ .node c ∈ node.children) ∧
      (events.foldl handle init).rootNodes = List.range' 1 ((events.foldl handle init).nodes.length - 1) ∧
      (events.foldl handle init).rootText = String.join (events.map Event.text) := by
  have h := Holds.run holds_init events
  rw [String.empty_append] at h
  obtain ⟨hlast, hchain⟩ := Open.chain h
  exact ⟨hlast, hchain, Open.descendants_root h, Open.text_root h⟩

end Keirin.OfficialResults.Html
