/-! Paths, which say where in a document or in a graph a value stands. A path grows at its end: each
member of an object and each position in a list that is entered adds one segment. -/

namespace ShapedGraph

inductive Segment where
  | name (text : String)
  | index (position : Nat)
deriving DecidableEq

/-- Names are written as they are and positions in square brackets; nothing is escaped. -/
def Segment.text : Segment → String
  | .name text => text
  | .index position => "[" ++ toString position ++ "]"

/-- The steps from the root to a value, outermost first. -/
structure Path where
  segments : List Segment
deriving DecidableEq

namespace Path

def root : Path := ⟨[]⟩

def push (path : Path) (segment : Segment) : Path := ⟨path.segments ++ [segment]⟩

/-- The path of the member `name` of the value at `path`. -/
def member (path : Path) (name : String) : Path := path.push (.name name)

/-- The path of the element at `position` of the list at `path`. -/
def item (path : Path) (position : Nat) : Path := path.push (.index position)

def length (path : Path) : Nat := path.segments.length

/-- A dot, then the segments divided by dots: the root is a lone dot. -/
def text (path : Path) : String := "." ++ ".".intercalate (path.segments.map Segment.text)

@[simp] theorem segments_push (path : Path) (segment : Segment) :
    (path.push segment).segments = path.segments ++ [segment] := rfl

@[simp] theorem length_root : root.length = 0 := rfl

@[simp] theorem length_push (path : Path) (segment : Segment) :
    (path.push segment).length = path.length + 1 := by
  simp [length]

@[simp] theorem length_member (path : Path) (name : String) :
    (path.member name).length = path.length + 1 := length_push ..

@[simp] theorem length_item (path : Path) (position : Nat) :
    (path.item position).length = path.length + 1 := length_push ..

end Path

/-- Something together with the path where it stands. -/
structure Located (α : Type) where
  path : Path
  value : α

def Located.map {α β : Type} (f : α → β) (found : Located α) : Located β :=
  ⟨found.path, f found.value⟩

end ShapedGraph
