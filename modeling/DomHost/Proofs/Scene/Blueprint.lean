import DomHost.Edit.Assemble
import DomHost.Proofs.Forest.Labels
import Mathlib.Data.List.Basic

/-!
# What a list of descriptors describes

Descriptors list trees in pre-order when each has as many trees below it as it says. A list either lists
trees or ends while some are missing, and never both, as the number below each node is known in advance.

* `Descriptor.data`, `Descriptor.Accepted`: the node that a descriptor is built into, if its names are
  accepted;
* `Complete`: forests of descriptors that have as many children as they say;
* `Unfinished`: lists that end while trees are missing; **`exists_reading`**: there are no others;
* `slotWays`: the ways to the slots of trees.
-/

namespace DomHost

namespace Descriptor

/-- The element that a tag names; without a namespace the tag has to be a name. -/
def bare (tag : String) : Option String → Except DomError Element
  | some ns => (QualifiedName.extract (some ns) tag).map Store.namedElement
  | none => (validateName tag).map fun _ => Store.htmlElement tag

/-- An element with an attribute set. -/
def attach (e : Element) (a : TemplateAttribute) : Except DomError Element :=
  match a.ns with
  | some ns => (QualifiedName.extract (some ns) a.name).map fun q =>
      e.setAttr ⟨q.localName, q.qualifier, q.ns, a.value⟩
  | none => (validateName a.name).map fun _ => e.setAttr (.plain (Store.attributeName e a.name) a.value)

/-- The node that a descriptor is built into. -/
def data : Descriptor → Except DomError NodeData
  | element tag ns attributes _ _ => (bare tag ns).bind fun e => (attributes.foldlM attach e).map .element
  | text t => .ok (.text t)
  | dynamicText => .ok (.text "")
  | placeholder => .ok (.comment placeholderText)

/-- The tag and the attributes are accepted. -/
def Accepted (d : Descriptor) : Prop := ∃ x, d.data = .ok x

/-- The node that an accepted descriptor is built into. -/
def made (d : Descriptor) : NodeData :=
  match d.data with
  | .ok x => x
  | .error _ => .document

variable {d : Descriptor} {x : NodeData}

theorem made_eq (h : d.data = .ok x) : d.made = x := by rw [made, h]

theorem Accepted.data_eq (h : d.Accepted) : d.data = .ok d.made := by
  obtain ⟨x, hx⟩ := h
  rw [made_eq hx, hx]

/-- An element is built into an element. -/
theorem exists_element {tag : String} {ns : Option String} {attributes : List TemplateAttribute}
    {count : UInt32} {slot : Bool} (h : (element tag ns attributes count slot).data = .ok x) :
    ∃ e e', bare tag ns = .ok e ∧ attributes.foldlM attach e = .ok e' ∧ x = .element e' := by
  rw [data] at h
  cases hbare : bare tag ns with
  | error err => rw [hbare] at h; cases h
  | ok e =>
    rw [hbare] at h
    change (attributes.foldlM attach e).map _ = _ at h
    cases hattach : attributes.foldlM attach e with
    | error err => rw [hattach] at h; cases h
    | ok e' =>
      rw [hattach] at h
      cases h
      exact ⟨e, e', rfl, hattach, rfl⟩

theorem isDocument_made (h : d.Accepted) : d.made.isDocument = false := by
  have hd := h.data_eq
  cases d with
  | element tag ns attributes count slot =>
    obtain ⟨e, e', -, -, hx⟩ := exists_element hd
    rw [hx]
    rfl
  | text t | dynamicText | placeholder => rfl

/-- What has children is built into an element. -/
theorem isContainer_made (h : d.Accepted) (hc : d.childCount ≠ 0) : d.made.isContainer = true := by
  have hd := h.data_eq
  cases d with
  | element tag ns attributes count slot =>
    obtain ⟨e, e', -, -, hx⟩ := exists_element hd
    rw [hx]
    rfl
  | text t | dynamicText | placeholder => exact absurd rfl hc

end Descriptor

/-! ## Listings -/

/-- Each descriptor has as many children as it says. -/
def Complete : Forest Descriptor → Prop
  | .nil => True
  | .node d c next => c.roots.length = d.childCount ∧ Complete c ∧ Complete next

/-- A list that ends while at least one of `n` trees is missing, or in the middle of one. -/
inductive Unfinished : Nat → List Descriptor → Prop
  | stop {n : Nat} {f : Forest Descriptor} (hf : Complete f) (hlt : f.roots.length < n) : Unfinished n f.toList
  | inside {n : Nat} {f : Forest Descriptor} {d : Descriptor} {ds : List Descriptor} (hf : Complete f)
      (hlt : f.roots.length < n) (hd : Unfinished d.childCount ds) : Unfinished n (f.toList ++ d :: ds)

variable {f g c : Forest Descriptor} {d : Descriptor} {ds rest rest' : List Descriptor} {n : Nat}

/-- A list can only end too early while something is missing. -/
theorem Unfinished.pos (h : Unfinished n ds) : 0 < n := by
  cases h with
  | stop _ hlt => exact Nat.zero_lt_of_lt hlt
  | inside _ hlt _ => exact Nat.zero_lt_of_lt hlt

theorem Unfinished.node (hc : Complete c) (hd : c.roots.length = d.childCount) (h : Unfinished n ds) :
    Unfinished (n + 1) (d :: (c.toList ++ ds)) := by
  cases h with
  | @stop _ f hf hlt =>
    have hlist : d :: (c.toList ++ f.toList) = (Forest.node d c f).toList := (Forest.toList_node d c f).symm
    rw [hlist]
    exact .stop ⟨hd, hc, hf⟩ (Nat.succ_lt_succ hlt)
  | @inside _ f d' ds' hf hlt hinside =>
    have hlist : d :: (c.toList ++ (f.toList ++ d' :: ds')) = (Forest.node d c f).toList ++ d' :: ds' := by
      rw [Forest.toList_node, List.cons_append, List.append_assoc]
    rw [hlist]
    exact .inside ⟨hd, hc, hf⟩ (Nat.succ_lt_succ hlt) hinside

/-- **A list begins with the listing of any number of trees, or ends while some of them are missing.** -/
theorem exists_reading (n : Nat) (ds : List Descriptor) :
    (∃ f rest, Complete f ∧ f.roots.length = n ∧ ds = f.toList ++ rest) ∨ Unfinished n ds := by
  -- the descriptors below the first one and those behind its tree are shorter lists
  induction hlen : ds.length using Nat.strongRecOn generalizing n ds with
  | ind len ih =>
    cases n with
    | zero => exact .inl ⟨.nil, ds, trivial, rfl, rfl⟩
    | succ n =>
      cases ds with
      | nil => exact .inr (.stop (f := .nil) trivial (Nat.succ_pos n))
      | cons d ds =>
        rw [List.length_cons] at hlen
        rcases ih ds.length (by omega) d.childCount ds rfl with ⟨c, rest, hc, hd, rfl⟩ | hinside
        · rcases ih rest.length (by rw [List.length_append] at hlen; omega) n rest rfl with
            ⟨f, rest, hf, rfl, rfl⟩ | hmissing
          · refine .inl ⟨.node d c f, rest, ⟨hd, hc, hf⟩, rfl, ?_⟩
            rw [Forest.toList_node, List.cons_append, List.append_assoc]
          · exact .inr (hmissing.node hc hd)
        · exact .inr (.inside (f := .nil) trivial (Nat.succ_pos n) hinside)

/-- **A list is the listing of trees, or lists some trees and ends inside the next one.** -/
theorem exists_listing (ds : List Descriptor) :
    (∃ f, Complete f ∧ f.toList = ds) ∨
      ∃ f d rest, Complete f ∧ ds = f.toList ++ d :: rest ∧ Unfinished d.childCount rest := by
  induction hlen : ds.length using Nat.strongRecOn generalizing ds with
  | ind len ih =>
    cases ds with
    | nil => exact .inl ⟨.nil, trivial, rfl⟩
    | cons d ds =>
      rw [List.length_cons] at hlen
      rcases exists_reading d.childCount ds with ⟨c, rest, hc, hd, rfl⟩ | hinside
      · rcases ih rest.length (by rw [List.length_append] at hlen; omega) rest rfl with
          ⟨f, hf, rfl⟩ | ⟨f, d', rest', hf, rfl, hinside⟩
        · exact .inl ⟨.node d c f, ⟨hd, hc, hf⟩, Forest.toList_node d c f⟩
        · refine .inr ⟨.node d c f, d', rest', ⟨hd, hc, hf⟩, ?_, hinside⟩
          rw [Forest.toList_node, List.cons_append, List.append_assoc]
      · exact .inr ⟨.nil, d, ds, trivial, rfl, hinside⟩

/-! ## Slots -/

/-- The ways to the slots of the trees below a node, of which the first is the `i`-th child. -/
def slotWays (above : List Nat) : Nat → Forest Descriptor → List (List Nat)
  | _, .nil => []
  | i, .node d c next =>
    (if d.isSlot then [above ++ [i]] else []) ++ slotWays (above ++ [i]) 0 c ++ slotWays above (i + 1) next

/-- The ways to the slots of a tree, given the way to its root. -/
def treeWays (way : List Nat) (d : Descriptor) (c : Forest Descriptor) : List (List Nat) :=
  (if d.isSlot then [way] else []) ++ slotWays way 0 c

/-- The ways to the slots of trees that stand at the top. -/
def topWays : Forest Descriptor → List (List Nat)
  | .nil => []
  | .node d c next => treeWays [] d c ++ topWays next

/-- The references of the nodes that are built from slots. -/
def slotRefs (nodes : List Node) (ds : List Descriptor) : List NodeRef :=
  ((nodes.zip ds).filter (·.2.isSlot)).map (·.1.ref)

theorem slotWays_node (above : List Nat) (i : Nat) (d : Descriptor) (c next : Forest Descriptor) :
    slotWays above i (.node d c next) = treeWays (above ++ [i]) d c ++ slotWays above (i + 1) next := rfl

theorem length_slotWays (above : List Nat) (i : Nat) (f : Forest Descriptor) :
    (slotWays above i f).length = f.toList.countP (·.isSlot) := by
  induction f generalizing above i with
  | nil => rfl
  | node d c next ihc ihn =>
    rw [slotWays, List.length_append, List.length_append, ihc, ihn, Forest.toList_node, List.countP_cons,
      List.countP_append]
    split <;> simp only [List.length_singleton, List.length_nil] <;> omega

/-- There is one way for each slot. -/
theorem length_topWays (f : Forest Descriptor) : (topWays f).length = f.toList.countP (·.isSlot) := by
  induction f with
  | nil => rfl
  | node d c next _ ihn =>
    rw [topWays, treeWays, List.length_append, List.length_append, length_slotWays, ihn, Forest.toList_node,
      List.countP_cons, List.countP_append]
    split <;> simp only [List.length_singleton, List.length_nil] <;> omega

section SlotRefs

variable {nodes : List Node}

theorem slotRefs_sublist (h : nodes.length = ds.length) : (slotRefs nodes ds).Sublist (nodes.map (·.ref)) := by
  have hfst : (nodes.zip ds).map Prod.fst = nodes := List.map_fst_zip (Nat.le_of_eq h)
  have hsub := (List.filter_sublist (p := fun e : Node × Descriptor => e.2.isSlot) (l := nodes.zip ds)).map
    fun e => e.1.ref
  have hrefs : (nodes.zip ds).map (fun e => e.1.ref) = nodes.map (·.ref) := by
    rw [← hfst, List.map_map, hfst]
    rfl
  exact hrefs ▸ hsub

/-- There is one node for each slot. -/
theorem length_slotRefs (h : nodes.length = ds.length) : (slotRefs nodes ds).length = ds.countP (·.isSlot) := by
  have hsnd : (nodes.zip ds).map Prod.snd = ds := List.map_snd_zip (Nat.le_of_eq h.symm)
  rw [slotRefs, List.length_map, ← List.countP_eq_length_filter]
  conv_rhs => rw [← hsnd, List.countP_map]
  rfl

end SlotRefs

end DomHost
