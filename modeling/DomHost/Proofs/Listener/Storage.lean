import DomHost.Proofs.Listener.Roll

/-!
# Ways to keep listeners

A registry behaves as one list of listeners, whatever tables it is kept in. It is enough that each edit does the right
thing to the listeners of one node and type, and that nothing is left of a node that has lost its last listener.

* `ListenerStorage`, `ListenerStorage.serveAll`: ways to keep listeners, and the answers they give;
* `ListenerStorage.Faithful`: those that do the right thing;
* **`ListenerStorage.Faithful.serve`**, **`ListenerStorage.Faithful.serveAll`**: they answer as the list does;
* **`ListenerStorage.Faithful.shows`**: they show what the list has;
* **`Registry.faithful`**: the registry with one entry for each node is one of them.
-/

namespace DomHost

/-- A way to keep the listeners of nodes. -/
structure ListenerStorage (σ : Type) where
  add : σ → NodeRef → Listener → Bool × σ
  remove : σ → NodeRef → String → HandlerId → Bool → Bool × σ
  takeAll : σ → NodeRef → List Listener × σ
  listenersFor : σ → NodeRef → String → List Listener
  hasAny : σ → NodeRef → Bool
  len : σ → Nat
  isEmpty : σ → Bool

namespace ListenerStorage

variable {σ : Type} {S : ListenerStorage σ} {Inv : σ → Prop} {s : σ} {roll : Roll}

/-- The answer to a request, and what is kept after it. -/
def serve (S : ListenerStorage σ) (s : σ) : ListenerRequest → ListenerAnswer × σ
  | .add node l => (.done (S.add s node l).1, (S.add s node l).2)
  | .remove node type handler capture =>
    (.done (S.remove s node type handler capture).1, (S.remove s node type handler capture).2)
  | .takeAll node => (.listeners (S.takeAll s node).1, (S.takeAll s node).2)
  | .listenersFor node type => (.listeners (S.listenersFor s node type), s)

/-- The answers to a row of requests, and what is kept after them. -/
def serveAll (S : ListenerStorage σ) (s : σ) : List ListenerRequest → List ListenerAnswer × σ
  | [] => ([], s)
  | q :: qs => ((S.serve s q).1 :: (S.serveAll (S.serve s q).2 qs).1, (S.serveAll (S.serve s q).2 qs).2)

/-- What is kept shows the listeners of a list. -/
structure Shows (S : ListenerStorage σ) (s : σ) (roll : Roll) : Prop where
  listenersFor : ∀ node type, S.listenersFor s node type = roll.listenersFor node type
  hasAny : ∀ node, S.hasAny s node = true ↔ ∃ l, (node, l) ∈ roll
  len : S.len s = roll.length
  isEmpty : S.isEmpty s = true ↔ roll = []

/-- Each edit does the right thing to the listeners of each node and type, and a node without listeners leaves
nothing behind. -/
structure Faithful (S : ListenerStorage σ) (Inv : σ → Prop) : Prop where
  inv_add {s : σ} (hs : Inv s) (node : NodeRef) (l : Listener) : Inv (S.add s node l).2
  inv_remove {s : σ} (hs : Inv s) (node : NodeRef) (type : String) (handler : HandlerId) (capture : Bool) :
    Inv (S.remove s node type handler capture).2
  inv_takeAll {s : σ} (hs : Inv s) (node : NodeRef) : Inv (S.takeAll s node).2
  add_fst {s : σ} (hs : Inv s) (node : NodeRef) (l : Listener) :
    (S.add s node l).1 = !(S.listenersFor s node l.type).any (·.hasKey l.type l.handler l.options.capture)
  add_snd {s : σ} (hs : Inv s) (node : NodeRef) (l : Listener) (x : NodeRef) (t : String) :
    S.listenersFor (S.add s node l).2 x t =
      S.listenersFor s x t ++ if (x = node ∧ t = l.type) ∧ (S.add s node l).1 = true then [l] else []
  remove_fst {s : σ} (hs : Inv s) (node : NodeRef) (type : String) (handler : HandlerId) (capture : Bool) :
    (S.remove s node type handler capture).1 = (S.listenersFor s node type).any (·.hasKey type handler capture)
  remove_snd {s : σ} (hs : Inv s) (node : NodeRef) (type : String) (handler : HandlerId) (capture : Bool)
    (x : NodeRef) (t : String) : S.listenersFor (S.remove s node type handler capture).2 x t =
      if x = node then (S.listenersFor s x t).filter fun l => !l.hasKey type handler capture
      else S.listenersFor s x t
  takeAll_sorted {s : σ} (hs : Inv s) (node : NodeRef) : (S.takeAll s node).1.Pairwise fun a b => a.type ≤ b.type
  takeAll_fst {s : σ} (hs : Inv s) (node : NodeRef) (type : String) :
    (S.takeAll s node).1.filter (·.type == type) = S.listenersFor s node type
  takeAll_snd {s : σ} (hs : Inv s) (node x : NodeRef) (t : String) :
    S.listenersFor (S.takeAll s node).2 x t = if x = node then [] else S.listenersFor s x t
  hasAny {s : σ} (hs : Inv s) (node : NodeRef) : S.hasAny s node = true ↔ ∃ type, S.listenersFor s node type ≠ []
  isEmpty {s : σ} (hs : Inv s) : S.isEmpty s = true ↔ ∀ node, S.hasAny s node = false
  len {s : σ} (hs : Inv s) : ∃ roll : Roll, S.len s = roll.length ∧
    ∀ node type, S.listenersFor s node type = roll.listenersFor node type

/-- What is kept lists the listeners of a list in which no two share a key. -/
structure Lists (S : ListenerStorage σ) (Inv : σ → Prop) (s : σ) (roll : Roll) : Prop where
  inv : Inv s
  distinct : roll.Distinct
  listenersFor : ∀ node type, S.listenersFor s node type = roll.listenersFor node type

namespace Faithful

open Roll

variable (h : S.Faithful Inv)
include h

theorem step_add (hl : S.Lists Inv s roll) (node : NodeRef) (l : Listener) : ∃ roll',
    Step roll (.add node l) (.done (S.add s node l).1) roll' ∧
      ∀ x t, S.listenersFor (S.add s node l).2 x t = roll'.listenersFor x t := by
  have hadded := h.add_fst hl.inv node l
  rw [hl.listenersFor] at hadded
  by_cases hk : key (node, l) ∈ roll.map key
  · rw [any_hasKey_iff.mpr hk] at hadded
    refine ⟨roll, hadded ▸ .refused hk, fun x t => ?_⟩
    rw [h.add_snd hl.inv, hadded, hl.listenersFor]
    simp
  · rw [Bool.eq_false_iff.mpr fun hany => hk (any_hasKey_iff.mp hany)] at hadded
    refine ⟨roll ++ [(node, l)], hadded ▸ .added hk, fun x t => ?_⟩
    rw [h.add_snd hl.inv, hadded, hl.listenersFor, listenersFor_concat]
    simp

theorem step_remove (hl : S.Lists Inv s roll) (node : NodeRef) (type : String) (handler : HandlerId)
    (capture : Bool) : ∃ roll',
    Step roll (.remove node type handler capture) (.done (S.remove s node type handler capture).1) roll' ∧
      ∀ x t, S.listenersFor (S.remove s node type handler capture).2 x t = roll'.listenersFor x t := by
  refine ⟨roll.filter fun e => key e != (node, type, handler, capture), ?_, fun x t => ?_⟩
  · rw [h.remove_fst hl.inv, hl.listenersFor]
    exact Roll.step_remove hl.distinct node type handler capture
  · rw [h.remove_snd hl.inv, hl.listenersFor, listenersFor_filter]
    split_ifs with hx
    · refine List.filter_congr fun l _ => ?_
      rw [hx, bne, Bool.not_inj_iff, Bool.eq_iff_iff, beq_iff_eq, key_eq_iff]
      simp
    · exact (List.filter_eq_self.mpr fun l _ => bne_iff_ne.mpr fun hkey => hx (key_eq_iff.mp hkey).1).symm

theorem step_takeAll (hl : S.Lists Inv s roll) (node : NodeRef) : ∃ roll',
    Step roll (.takeAll node) (.listeners (S.takeAll s node).1) roll' ∧
      ∀ x t, S.listenersFor (S.takeAll s node).2 x t = roll'.listenersFor x t := by
  refine ⟨_, .taken (h.takeAll_sorted hl.inv node) fun type => ?_, fun x t => ?_⟩
  · rw [h.takeAll_fst hl.inv, hl.listenersFor]
  · rw [h.takeAll_snd hl.inv, hl.listenersFor, listenersFor_filter]
    split_ifs with hx
    · simp [hx]
    · exact (List.filter_eq_self.mpr fun l _ => bne_iff_ne.mpr hx).symm

/-- **A request is answered as the list answers it.** -/
theorem serve (hl : S.Lists Inv s roll) (q : ListenerRequest) :
    ∃ roll', Step roll q (S.serve s q).1 roll' ∧ S.Lists Inv (S.serve s q).2 roll' := by
  cases q with
  | add node l =>
    obtain ⟨roll', hstep, hview⟩ := h.step_add hl node l
    exact ⟨roll', hstep, h.inv_add hl.inv node l, hstep.distinct hl.distinct, hview⟩
  | remove node type handler capture =>
    obtain ⟨roll', hstep, hview⟩ := h.step_remove hl node type handler capture
    exact ⟨roll', hstep, h.inv_remove hl.inv node type handler capture, hstep.distinct hl.distinct, hview⟩
  | takeAll node =>
    obtain ⟨roll', hstep, hview⟩ := h.step_takeAll hl node
    exact ⟨roll', hstep, h.inv_takeAll hl.inv node, hstep.distinct hl.distinct, hview⟩
  | listenersFor node type =>
    have hanswer : S.serve s (.listenersFor node type) = (.listeners (roll.listenersFor node type), s) := by
      rw [ListenerStorage.serve, hl.listenersFor]
    rw [hanswer]
    exact ⟨roll, .got, hl⟩

/-- **A row of requests is answered as the list answers it.** -/
theorem serveAll (hl : S.Lists Inv s roll) (qs : List ListenerRequest) :
    ∃ roll', Runs roll qs (S.serveAll s qs).1 roll' ∧ S.Lists Inv (S.serveAll s qs).2 roll' := by
  induction qs generalizing s roll with
  | nil => exact ⟨roll, .nil, hl⟩
  | cons q qs ih =>
    obtain ⟨r, hstep, hr⟩ := h.serve hl q
    obtain ⟨roll', hruns, hl'⟩ := ih hr
    exact ⟨roll', .cons hstep hruns, hl'⟩

/-- **What is kept shows the list.** -/
theorem shows (hl : S.Lists Inv s roll) : S.Shows s roll := by
  have hany : ∀ node, S.hasAny s node = true ↔ ∃ l, (node, l) ∈ roll := by
    intro node
    rw [h.hasAny hl.inv]
    constructor
    · rintro ⟨type, hne⟩
      obtain ⟨l, hmem⟩ := List.exists_mem_of_ne_nil _ hne
      rw [hl.listenersFor] at hmem
      exact ⟨l, (mem_listenersFor_iff.mp hmem).1⟩
    · rintro ⟨l, hmem⟩
      refine ⟨l.type, fun hnil => ?_⟩
      have hin := mem_listenersFor_iff.mpr ⟨hmem, rfl⟩
      rw [← hl.listenersFor, hnil] at hin
      exact absurd hin List.not_mem_nil
  refine ⟨hl.listenersFor, hany, ?_, ?_⟩
  · obtain ⟨roll', hlen, hroll'⟩ := h.len hl.inv
    rw [hlen]
    exact (perm_of_listenersFor fun node type => (hroll' node type).symm.trans (hl.listenersFor node type)).length_eq
  · rw [h.isEmpty hl.inv, List.eq_nil_iff_forall_not_mem]
    constructor
    · rintro hnone ⟨node, l⟩ hmem
      exact Bool.false_ne_true ((hnone node).symm.trans ((hany node).mpr ⟨l, hmem⟩))
    · intro hnone node
      refine Bool.eq_false_iff.mpr fun hsome => ?_
      obtain ⟨l, hmem⟩ := (hany node).mp hsome
      exact hnone _ hmem

end Faithful

end ListenerStorage

/-! ## Entries by node -/

namespace Registry

variable {g : Registry} {node x : NodeRef} {ls : List Listener} {l : Listener} {type : String} {handler : HandlerId}
  {capture : Bool}

/-- Each node has one entry, and none if it has no listeners. -/
structure Tight (g : Registry) : Prop where
  nodes : g.nodes.Nodup
  nonempty : ∀ e ∈ g.entries, e.2 ≠ []

namespace Tight

theorem put (h : g.Tight) (node : NodeRef) (ls : List Listener) : Tight ⟨Registry.put node ls g.entries⟩ where
  nodes := nodup_put h.nodes
  nonempty e he := by
    rcases mem_put he with rfl | hold
    · rintro rfl
      exact h.nonempty _ ((put_nil_sublist node g.entries).subset he) rfl
    · exact h.nonempty e hold

theorem add (h : g.Tight) (node : NodeRef) (l : Listener) : (g.add node l).2.Tight := by
  rcases g.add_cases node l with ⟨-, ha⟩ | ⟨-, ha⟩
  · rwa [ha]
  · rw [ha]
    exact h.put node _

theorem remove (h : g.Tight) (node : NodeRef) (type : String) (handler : HandlerId) (capture : Bool) :
    (g.remove node type handler capture).2.Tight := by
  rcases g.remove_cases node type handler capture with ⟨-, hr⟩ | ⟨-, hr⟩
  · rw [hr]
    exact h.put node _
  · rwa [hr]

end Tight

theorem any_hasKey_listenersFor (g : Registry) (node : NodeRef) (type : String) (handler : HandlerId)
    (capture : Bool) : (g.listenersFor node type).any (·.hasKey type handler capture) =
      (g.ofNode node).any (·.hasKey type handler capture) := by
  rw [listenersFor, List.any_filter]
  refine List.any_congr rfl fun l => ?_
  rw [Listener.hasKey]
  cases l.type == type <;> simp

theorem add_fst (g : Registry) (node : NodeRef) (l : Listener) :
    (g.add node l).1 = !(g.listenersFor node l.type).any (·.hasKey l.type l.handler l.options.capture) := by
  rw [any_hasKey_listenersFor]
  rcases g.add_cases node l with ⟨hk, ha⟩ | ⟨hk, ha⟩ <;> rw [ha, hk] <;> rfl

theorem remove_fst (g : Registry) (node : NodeRef) (type : String) (handler : HandlerId) (capture : Bool) :
    (g.remove node type handler capture).1 =
      (g.listenersFor node type).any (·.hasKey type handler capture) := by
  rw [any_hasKey_listenersFor]
  rcases g.remove_cases node type handler capture with ⟨hk, hr⟩ | ⟨hk, hr⟩ <;> rw [hr, hk]

section Nodes

variable (h : g.nodes.Nodup)
include h

theorem listenersFor_add (node : NodeRef) (l : Listener) (x : NodeRef) (type : String) :
    (g.add node l).2.listenersFor x type =
      g.listenersFor x type ++ if (x = node ∧ type = l.type) ∧ (g.add node l).1 = true then [l] else [] := by
  rw [listenersFor, listenersFor, ofNode_add h]
  by_cases hx : x = node ∧ (g.add node l).1 = true
  · rw [if_pos hx, List.filter_append, hx.1, hx.2, List.filter_singleton]
    by_cases ht : type = l.type
    · simp [ht]
    · simp [ht, beq_eq_false_iff_ne.mpr (Ne.symm ht)]
  · rw [if_neg hx, if_neg fun hboth => hx ⟨hboth.1.1, hboth.2⟩, List.append_nil]

theorem listenersFor_remove (node : NodeRef) (type : String) (handler : HandlerId) (capture : Bool) (x : NodeRef)
    (t : String) : (g.remove node type handler capture).2.listenersFor x t =
      if x = node then (g.listenersFor x t).filter fun l => !l.hasKey type handler capture
      else g.listenersFor x t := by
  rw [listenersFor, listenersFor, ofNode_remove h]
  split_ifs with hx
  · rw [hx, List.filter_comm]
  · rfl

theorem listenersFor_takeAll (node x : NodeRef) (type : String) :
    (g.takeAll node).2.listenersFor x type = if x = node then [] else g.listenersFor x type := by
  rw [listenersFor, listenersFor, ofNode_takeAll h]
  split_ifs <;> rfl

end Nodes

theorem isEmpty_iff_hasAny : g.isEmpty = true ↔ ∀ node, g.hasAny node = false := by
  simp only [Bool.eq_false_iff, ne_eq, hasAny_iff, ← List.eq_nil_iff_forall_not_mem]
  rw [isEmpty, List.isEmpty_iff, nodes, List.map_eq_nil_iff]

theorem Tight.hasAny_iff_listenersFor (h : g.Tight) :
    g.hasAny node = true ↔ ∃ type, g.listenersFor node type ≠ [] := by
  rw [hasAny_iff]
  constructor
  · intro hnode
    obtain ⟨e, he, rfl⟩ := List.mem_map.mp hnode
    obtain ⟨l, hl⟩ := List.exists_mem_of_ne_nil _ (h.nonempty e he)
    refine ⟨l.type, List.ne_nil_of_mem (List.mem_filter.mpr ⟨?_, beq_self_eq_true _⟩)⟩
    rwa [ofNode, (mem_iff_lookup h.nodes).mp he]
  · rintro ⟨type, hne⟩
    obtain ⟨l, hl⟩ := List.exists_mem_of_ne_nil _ hne
    exact mem_nodes_of_ofNode (List.mem_filter.mp hl).1

/-- The listeners of all nodes, each with its node. -/
def roll (g : Registry) : Roll := g.entries.flatMap fun e => e.2.map (e.1, ·)

theorem len_eq_length_roll (g : Registry) : g.len = g.roll.length := by
  simp only [len, roll, List.length_flatMap, List.length_map]

theorem Tight.listenersFor_roll (h : g.Tight) (node : NodeRef) (type : String) :
    g.listenersFor node type = g.roll.listenersFor node type := by
  rw [Roll.listenersFor, roll, filter_flatMap_of_key h.nodes (fun ls => mem_iff_lookup h.nodes), listenersFor, ofNode]
  · cases g.entries.lookup node with
    | none => rfl
    | some ls => simp [List.filter_map, Function.comp_def]
  · intro e _ hne
    simp [List.filter_map, Function.comp_def, hne]

/-- The registry as a way to keep listeners. -/
def storage : ListenerStorage Registry := ⟨add, remove, takeAll, listenersFor, hasAny, len, isEmpty⟩

/-- **The registry treats the listeners of each node and type right.** -/
theorem faithful : storage.Faithful Tight where
  inv_add h := h.add
  inv_remove h := h.remove
  inv_takeAll h node := h.put node []
  add_fst _ := add_fst _
  add_snd h := listenersFor_add h.nodes
  remove_fst _ := remove_fst _
  remove_snd h := listenersFor_remove h.nodes
  takeAll_sorted _ _ := pairwise_mergeSort_type _
  takeAll_fst _ _ := filter_mergeSort_type _
  takeAll_snd h := listenersFor_takeAll h.nodes
  hasAny h _ := h.hasAny_iff_listenersFor
  isEmpty _ := isEmpty_iff_hasAny
  len {g} h := ⟨g.roll, g.len_eq_length_roll, h.listenersFor_roll⟩

end Registry

end DomHost
