import DomHost.Store.Basic

/-!
# Walks along links

The nodes of a tree are passed in pre-order by following links, without a stack. From a node the walk goes to the
first child. Where there is none it climbs until a node has a sibling behind it, but not beyond the node that it
started from. One round of the climb is a function. Nothing in the links says that the rounds end, so a climb and a
walk are relations, which hold of those that do.

* `Store.climbRound`, `Store.Climbs`: where the climb from a node leads;
* `Store.Onward`: where the walk goes from a node;
* `Store.Walks`: the nodes that are passed.
-/

namespace DomHost.Store

/-- One round of the climb from a node: the parent to climb from next, or where the climb leads. It ends at a next
sibling, and it leads nowhere when it comes to `root` or to a top. -/
def climbRound (s : Store) (root cursor : NodeRef) : NodeRef ⊕ Option NodeRef :=
  if cursor = root then .inr none
  else if (s.get? cursor).isNone then .inr none
  else
    match s.nextSibling? cursor with
    | some next => .inr (some next)
    | none =>
      match s.parent? cursor with
      | some parent => .inl parent
      | none => .inr none

/-- The climb from a node ends, and leads to the next sibling of the node or of the nearest one above it that has
one. -/
inductive Climbs (s : Store) (root : NodeRef) : NodeRef → Option NodeRef → Prop
  | stop {r : NodeRef} {o : Option NodeRef} (hr : s.climbRound root r = .inr o) : Climbs s root r o
  | up {r p : NodeRef} {o : Option NodeRef} (hr : s.climbRound root r = .inl p) (hp : Climbs s root p o) :
      Climbs s root r o

/-- The node that a walk in the tree of `root` passes after another. -/
inductive Onward (s : Store) (root : NodeRef) : NodeRef → Option NodeRef → Prop
  | down {r child : NodeRef} (hc : s.firstChild? r = some child) : Onward s root r (some child)
  | climb {r : NodeRef} {o : Option NodeRef} (hc : s.firstChild? r = none) (hr : s.Climbs root r o) :
      Onward s root r o

/-- A walk in the tree of `root` ends, and passes these nodes from a given one on. -/
inductive WalksFrom (s : Store) (root : NodeRef) : Option NodeRef → List NodeRef → Prop
  | done : WalksFrom s root none []
  | gone {r : NodeRef} (hr : (s.get? r).isNone) : WalksFrom s root (some r) []
  | pass {r : NodeRef} {o : Option NodeRef} {rest : List NodeRef} (hr : (s.get? r).isSome)
      (hn : s.Onward root r o) (hw : WalksFrom s root o rest) : WalksFrom s root (some r) (r :: rest)

/-- The walk from a node ends, and passes these nodes; none when the node is not live. -/
def Walks (s : Store) (r : NodeRef) (l : List NodeRef) : Prop :=
  s.WalksFrom r (if (s.get? r).isSome then some r else none) l

end DomHost.Store
