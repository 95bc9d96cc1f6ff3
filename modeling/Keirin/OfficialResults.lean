import Keirin.Lib.Dict
import Keirin.Lib.TreeHeap

/-!
# Trees of result pages

`historical_official_results.py`: the parser makes a tree of the tags and texts it is told of. Tags that do not match are no error: an
end tag closes the innermost open node of its name with all that is open in it, and where there is none it is ignored.
-/

namespace Keirin

namespace OfficialResults

open TreeHeap (Heap Cell Child addChild)

/-- What a node is: its tag, and its attributes, whose values may be missing. -/
structure Tag where
  tag : String
  attrs : Dict (Option String)

/-- `_Node`, with its children. -/
abbrev Node := Cell Tag

/-- `_Node(tag, attrs)`: of attributes given twice the last one counts. -/
def Node.new (tag : String) (attrs : List (String × Option String)) : Node := ⟨⟨tag, Dict.update [] attrs⟩, []⟩

/-- The parser: the nodes by their numbers, and the open ones, from the innermost to the root. -/
structure Html where
  nodes : Heap Tag
  stack : List ℕ

namespace Html

def VOID : List String :=
  ["area", "base", "br", "col", "embed", "hr", "img", "input", "link", "meta", "param", "source", "track", "wbr"]

def init : Html := ⟨[Node.new "" []], [0]⟩

/-- `self.stack[-1]` -/
def top (p : Html) : ℕ := p.stack.headD 0

def handleStarttag (p : Html) (tag : String) (attrs : List (String × Option String)) : Html where
  nodes := addChild p.nodes p.top (.node p.nodes.length) ++ [Node.new tag attrs]
  stack := if tag ∈ VOID then p.stack else p.nodes.length :: p.stack

/-- What stays open when a tag ends: what is below the innermost node of that name. The root is never closed. -/
def closeTag (nodes : Heap Tag) (tag : String) : List ℕ → Option (List ℕ)
  | [] => none
  | [_] => none
  | id :: next :: rest =>
    if (nodes[id]?.map fun node => node.label.tag) = some tag then some (next :: rest) else closeTag nodes tag (next :: rest)

def handleEndtag (p : Html) (tag : String) : Html := { p with stack := (closeTag p.nodes tag p.stack).getD p.stack }

def handleStartendtag (p : Html) (tag : String) (attrs : List (String × Option String)) : Html :=
  if tag ∈ VOID then p.handleStarttag tag attrs else (p.handleStarttag tag attrs).handleEndtag tag

def handleData (p : Html) (data : String) : Html := { p with nodes := addChild p.nodes p.top (.text data) }

/-- What the parser is told of. -/
inductive Event
  | starttag (tag : String) (attrs : List (String × Option String))
  | startendtag (tag : String) (attrs : List (String × Option String))
  | endtag (tag : String)
  | data (data : String)

def handle (p : Html) : Event → Html
  | .starttag tag attrs => p.handleStarttag tag attrs
  | .startendtag tag attrs => p.handleStartendtag tag attrs
  | .endtag tag => p.handleEndtag tag
  | .data data => p.handleData data

/-- The text an event brings. -/
def Event.text : Event → String
  | .data d => d
  | _ => ""

/-- `self.root.text()`; no node is further down than there are nodes. -/
def rootText (p : Html) : String := TreeHeap.text p.nodes p.nodes.length 0

/-- `self.root.nodes()` -/
def rootNodes (p : Html) : List ℕ := TreeHeap.descendants p.nodes p.nodes.length 0

end Html

end OfficialResults

end Keirin
