import DomHost.Markup.Import

/-!
# Converting parsed trees

A parser hands over trees of pieces, in which every name has a namespace and the empty one stands for none. A tree
becomes nodes without recursion: pieces that wait are on a stack, each with the node that it comes under, and the
next one in document order is on top.

* `Piece`, `Item.toPiece`: what stands at one place of a parsed tree;
* `Piece.data?`: the node that a piece becomes;
* `imageOf`: the nodes that whole trees become;
* `convert`: one tree, piece by piece; `convertEach`: one tree after the other.
-/

namespace DomHost.Markup

/-- An attribute as a parser hands it over. -/
structure PieceAttribute where
  localName : String
  qualifier : Option String
  ns : String
  value : String
deriving DecidableEq

/-- What stands at one place of a parsed tree. -/
inductive Piece where
  | document
  | element (localName : String) (qualifier : Option String) (ns : String) (attributes : List PieceAttribute)
  | text (content : String)
  | comment (content : String)
  | documentType (name : String)
  | instruction (target content : String)
deriving DecidableEq

namespace PieceAttribute

/-- Is this the attribute that writes the declarations of its element? -/
def isStyle (a : PieceAttribute) : Bool := a.ns.isEmpty && a.localName == "style"

/-- The attribute of a node; the empty namespace is none. -/
def toAttribute (a : PieceAttribute) : Attribute :=
  ⟨a.localName, a.qualifier, if a.ns.isEmpty then none else some a.ns, a.value⟩

/-- Puts the attribute on an element. -/
def adorn (e : Element) (a : PieceAttribute) : Element :=
  if a.isStyle then { e with style := declarations a.value } else e.setAttr a.toAttribute

end PieceAttribute

/-- The attribute as a parser hands it over; no namespace is the empty one. -/
def ReadAttribute.toPiece (a : ReadAttribute) : PieceAttribute := ⟨a.localName, a.qualifier, a.ns.getD "", a.value⟩

namespace Piece

/-- Is this an element? -/
def isElement : Piece → Bool
  | element _ _ _ _ => true
  | _ => false

/-- The node that the piece becomes, if it has a counterpart. -/
def data? : Piece → Option NodeData
  | element localName qualifier ns attributes =>
    let ns := if ns = "" ∨ ns = htmlNs then none else some ns
    some (.element (attributes.foldl PieceAttribute.adorn ⟨localName, qualifier, ns, [], [], {}⟩))
  | text s => some (.text s)
  | comment s => some (.comment s)
  | document | documentType _ | instruction _ _ => none

end Piece

/-- The piece that an item is. -/
def Item.toPiece : Item → Piece
  | element localName qualifier ns attributes => .element localName qualifier ns (attributes.map (·.toPiece))
  | text s => .text s
  | comment s => .comment s
  | documentType name => .documentType name
  | instruction target content => .instruction target content

/-- The nodes that trees become: the pieces with a counterpart, nested and ordered as they are. Only elements have
children. -/
def imageOf : Forest Piece → Forest NodeData
  | .nil => .nil
  | .node i c n =>
    match i.data? with
    | some d => .node d (if i.isElement then imageOf c else .nil) (imageOf n)
    | none => imageOf n

/-! ## Piece by piece -/

/-- A tree that waits, with the node that it comes under. -/
abbrev Waiting := (Piece × Forest Piece) × NodeRef

/-- Puts trees on a stack, the first one on top. -/
def pushAll (parent : NodeRef) : Forest Piece → List Waiting → List Waiting
  | .nil, stack => stack
  | .node i c n, stack => ((i, c), parent) :: pushAll parent n stack

/-- Puts the children of a piece on a stack, if it is an element. -/
def pushChildren (t : Piece × Forest Piece) (parent : NodeRef) (stack : List Waiting) : List Waiting :=
  if t.1.isElement then pushAll parent t.2 stack else stack

/-- The number of pieces in the trees that wait. -/
def waiting : List Waiting → Nat
  | [] => 0
  | (t, _) :: stack => (t.2.size + 1) + waiting stack

theorem waiting_pushAll (parent : NodeRef) (f : Forest Piece) (stack : List Waiting) :
    waiting (pushAll parent f stack) = f.size + waiting stack := by
  induction f with
  | nil => simp [pushAll, Forest.size]
  | node i c n _ ihn =>
    have hcons : waiting (pushAll parent (.node i c n) stack) = (c.size + 1) + waiting (pushAll parent n stack) := rfl
    rw [hcons, ihn, Forest.size]
    omega

theorem waiting_pushChildren (t : Piece × Forest Piece) (parent : NodeRef) (stack : List Waiting) :
    waiting (pushChildren t parent stack) ≤ t.2.size + waiting stack := by
  unfold pushChildren
  split
  · exact Nat.le_of_eq (waiting_pushAll parent t.2 stack)
  · exact Nat.le_add_left _ _

/-- Creates the detached counterpart of a single piece. -/
def convertPiece (i : Piece) : StoreM (Option NodeRef) :=
  match i.data? with
  | some d => some <$> modifyGet (·.create d)
  | none => pure none

/-- Converts the trees that wait. -/
def convertWaiting : List Waiting → StoreM Unit
  | [] => pure ()
  | (t, parent) :: stack => do
    match ← convertPiece t.1 with
    | some r =>
      Store.appendChild parent r
      convertWaiting (pushChildren t r stack)
    | none => convertWaiting stack
termination_by stack => waiting stack
decreasing_by
  · have hle := waiting_pushChildren t r stack
    have hcons : waiting ((t, parent) :: stack) = (t.2.size + 1) + waiting stack := rfl
    omega
  · have hcons : waiting ((t, parent) :: stack) = (t.2.size + 1) + waiting stack := rfl
    omega

/-- Converts a tree, and gives its detached root if it has a counterpart. -/
def convert (t : Piece × Forest Piece) : StoreM (Option NodeRef) := do
  match ← convertPiece t.1 with
  | some root =>
    convertWaiting (pushChildren t root [])
    pure (some root)
  | none => pure none

/-- Converts trees in order, and hands on each root as soon as its tree is there. -/
def convertEach (use : NodeRef → StoreM Unit) : Forest Piece → StoreM (List NodeRef)
  | .nil => pure []
  | .node i c next => do
    match ← convert (i, c) with
    | some r =>
      use r
      pure (r :: (← convertEach use next))
    | none => convertEach use next

end DomHost.Markup
