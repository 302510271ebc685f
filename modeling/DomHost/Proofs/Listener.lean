import DomHost.Listener
import Mathlib.Data.List.Nodup
import Mathlib.Data.List.Perm.Basic

/-!
# Listeners, counted

What the edits of a registry do to the listeners that are installed, over all nodes together.

* `Registry.installed`: the listeners of all nodes;
* `Registry.Proper`: each node has one entry, with no two listeners for the same key;
* **`Registry.perm_put`**: writing the entry of a node changes what is installed by that entry;
* **`Registry.perm_add`**, **`Registry.Proper.perm_remove`**, **`Registry.perm_takeAll`**: what is
  installed after an edit.
-/

namespace DomHost.Registry

/-- The listeners of all nodes. -/
def installed (g : Registry) : List Listener := g.entries.flatMap (·.2)

/-- The nodes with an entry. -/
def nodes (g : Registry) : List NodeRef := g.entries.map (·.1)

/-- Two listeners that one node may have: their types, handlers or phases differ. -/
def Apart (l m : Listener) : Prop := l.hasKey m.type m.handler m.options.capture = false

/-- Each node has one entry, in which no two listeners are for the same type, handler and phase. -/
structure Proper (g : Registry) : Prop where
  nodes : g.nodes.Nodup
  apart : ∀ e ∈ g.entries, e.2.Pairwise Apart

variable {g : Registry} {node x : NodeRef} {ls : List Listener} {l m : Listener}
  {es : List (NodeRef × List Listener)} {type : String} {handler : HandlerId} {capture : Bool}

/-! ## Keys -/

theorem hasKey_iff :
    l.hasKey type handler capture = true ↔
      l.type = type ∧ l.handler = handler ∧ l.options.capture = capture := by
  simp [Listener.hasKey, and_assoc]

theorem apart_iff :
    Apart l m ↔ ¬ (l.type = m.type ∧ l.handler = m.handler ∧ l.options.capture = m.options.capture) := by
  rw [Apart, ← hasKey_iff, Bool.not_eq_true]

/-- Of listeners for different keys, one at most is for a given key. -/
theorem perm_filter_key (h : ls.Pairwise Apart) (ha : ls.any (·.hasKey type handler capture) = true) :
    ∃ l, l.handler = handler ∧
      ls.Perm (l :: ls.filter fun l => !l.hasKey type handler capture) := by
  induction ls with
  | nil => simp at ha
  | cons m ls ih =>
    obtain ⟨hm, hls⟩ := List.pairwise_cons.mp h
    by_cases hk : m.hasKey type handler capture = true
    · have hrest : (ls.filter fun l => !l.hasKey type handler capture) = ls := by
        refine List.filter_eq_self.mpr fun l hl => ?_
        rw [Bool.not_eq_true', Bool.eq_false_iff]
        intro hkl
        obtain ⟨h1, h2, h3⟩ := hasKey_iff.mp hk
        obtain ⟨h4, h5, h6⟩ := hasKey_iff.mp hkl
        exact apart_iff.mp (hm l hl) ⟨h1.trans h4.symm, h2.trans h5.symm, h3.trans h6.symm⟩
      refine ⟨m, (hasKey_iff.mp hk).2.1, ?_⟩
      rw [List.filter_cons_of_neg (by simp [hk]), hrest]
    · rw [List.any_cons, Bool.or_eq_true] at ha
      obtain ⟨l, hl, hp⟩ := ih hls (ha.resolve_left hk)
      refine ⟨l, hl, ?_⟩
      rw [List.filter_cons_of_pos (by simp [hk])]
      exact (hp.cons m).trans (List.Perm.swap l m _)

/-- Of what stands under different keys, only that of one key has members of a kind. -/
theorem filter_flatMap_of_key {κ ν α : Type} {entries : List (κ × ν)} {F : κ × ν → List α} {kind : α → Bool} {k : κ}
    {o : Option ν} (h : (entries.map (·.1)).Nodup) (ho : ∀ v, (k, v) ∈ entries ↔ o = some v)
    (hnone : ∀ e ∈ entries, e.1 ≠ k → (F e).filter kind = []) :
    (entries.flatMap F).filter kind = o.elim [] fun v => (F (k, v)).filter kind := by
  rw [List.filter_flatMap]
  cases o with
  | none =>
    refine List.flatMap_eq_nil_iff.mpr fun e he => hnone e he ?_
    rintro rfl
    cases (ho e.2).mp he
  | some v =>
    obtain ⟨front, back, rfl⟩ := List.append_of_mem ((ho v).mpr rfl)
    rw [List.map_append, List.map_cons, List.nodup_middle, List.nodup_cons, ← List.map_append] at h
    have hother : ∀ e ∈ front ++ back, (F e).filter kind = [] := by
      intro e he
      refine hnone e (by simp only [List.mem_append, List.mem_cons] at he ⊢; tauto) fun hk => h.1 ?_
      exact List.mem_map.mpr ⟨e, he, hk⟩
    rw [List.flatMap_append, List.flatMap_cons,
      List.flatMap_eq_nil_iff.mpr fun e he => hother e (List.mem_append_left _ he),
      List.flatMap_eq_nil_iff.mpr fun e he => hother e (List.mem_append_right _ he)]
    simp

/-! ## The entry of a node -/

theorem hasAny_iff : g.hasAny node = true ↔ node ∈ g.nodes := by
  rw [hasAny, nodes]
  induction g.entries with
  | nil => simp
  | cons e es ih =>
    obtain ⟨n, old⟩ := e
    rw [List.lookup_cons, List.map_cons, List.mem_cons]
    by_cases hn : node = n
    · simp [hn]
    · have hb : (node == n) = false := by simpa using hn
      simp only [hb, ih, hn, false_or]

/-- The listeners of a node are those of an entry, if there are any. -/
theorem mem_entries_of_ofNode (h : l ∈ g.ofNode node) : (node, g.ofNode node) ∈ g.entries := by
  rw [ofNode] at h ⊢
  cases hl : g.entries.lookup node with
  | none => simp [hl] at h
  | some ls =>
    obtain ⟨l₁, l₂, he, -⟩ := List.lookup_eq_some_iff.mp hl
    rw [he]
    exact List.mem_append_right _ List.mem_cons_self

theorem mem_nodes_of_ofNode (h : l ∈ g.ofNode node) : node ∈ g.nodes :=
  List.mem_map_of_mem (mem_entries_of_ofNode h)

theorem mem_installed_of_ofNode (h : l ∈ g.ofNode node) : l ∈ g.installed :=
  List.mem_flatMap.mpr ⟨_, mem_entries_of_ofNode h, h⟩

theorem mem_put {e : NodeRef × List Listener} (h : e ∈ put node ls es) :
    e = (node, ls) ∨ e ∈ es := by
  induction es with
  | nil =>
    rw [put] at h
    split at h
    · simp at h
    · exact Or.inl (List.mem_singleton.mp h)
  | cons e' es ih =>
    obtain ⟨n, old⟩ := e'
    rw [put] at h
    by_cases hn : n = node
    · subst hn
      simp only [if_true] at h
      split at h
      · exact Or.inr (List.mem_cons_of_mem _ h)
      · exact (List.mem_cons.mp h).imp id (List.mem_cons_of_mem _)
    · rw [if_neg hn] at h
      rcases List.mem_cons.mp h with rfl | h
      · exact Or.inr List.mem_cons_self
      · exact (ih h).imp id (List.mem_cons_of_mem _)

theorem nodes_put_subset : (put node ls es).map (·.1) ⊆ node :: es.map (·.1) := by
  intro x hx
  obtain ⟨e, he, rfl⟩ := List.mem_map.mp hx
  rcases mem_put he with rfl | he
  · exact List.mem_cons_self
  · exact List.mem_cons_of_mem _ (List.mem_map_of_mem he)

theorem nodup_put (h : (es.map (·.1)).Nodup) : ((put node ls es).map (·.1)).Nodup := by
  induction es with
  | nil =>
    rw [put]
    split <;> simp
  | cons e es ih =>
    obtain ⟨n, old⟩ := e
    obtain ⟨hn, hes⟩ := List.nodup_cons.mp h
    rw [put]
    by_cases he : n = node
    · rw [if_pos he]
      split
      · exact hes
      · exact List.nodup_cons.mpr ⟨hn, hes⟩
    · rw [if_neg he]
      refine List.nodup_cons.mpr ⟨fun hm => ?_, ih hes⟩
      rcases List.mem_cons.mp (nodes_put_subset hm) with hm | hm
      · exact he hm
      · exact hn hm

/-- A node without listeners has no entry. -/
theorem notMem_put_nil (h : (es.map (·.1)).Nodup) : node ∉ (put node [] es).map (·.1) := by
  induction es with
  | nil => simp [put]
  | cons e es ih =>
    obtain ⟨n, old⟩ := e
    obtain ⟨hn, hes⟩ := List.nodup_cons.mp h
    rw [put]
    by_cases he : n = node
    · subst he
      simpa using hn
    · rw [if_neg he, List.map_cons, List.mem_cons, not_or]
      exact ⟨fun h => he h.symm, ih hes⟩

theorem lookup_cons_getD (n : NodeRef) (old : List Listener) (es : List (NodeRef × List Listener))
    (x : NodeRef) : (((n, old) :: es).lookup x).getD [] = if x = n then old else (es.lookup x).getD [] := by
  rw [List.lookup_cons]
  by_cases hx : x = n
  · simp [hx]
  · rw [if_neg hx, beq_eq_false_iff_ne.mpr hx]

theorem lookup_getD_eq_nil (h : x ∉ es.map (·.1)) : (es.lookup x).getD [] = [] := by
  cases hl : es.lookup x with
  | none => rfl
  | some ls =>
    obtain ⟨l₁, l₂, he, -⟩ := List.lookup_eq_some_iff.mp hl
    exact absurd (by simp [he]) h

/-- Where each key has one entry, that entry is the one that is looked up. -/
theorem mem_iff_lookup (h : (es.map (·.1)).Nodup) : (x, ls) ∈ es ↔ es.lookup x = some ls := by
  refine ⟨fun hmem => ?_, fun hl => ?_⟩
  · induction es with
    | nil => cases hmem
    | cons e es ih =>
      obtain ⟨hnot, hn⟩ := List.nodup_cons.mp h
      rw [List.lookup_cons]
      rcases List.mem_cons.mp hmem with rfl | hmem
      · simp
      · have hne : (x == e.1) = false := beq_eq_false_iff_ne.mpr fun he => hnot (List.mem_map.mpr ⟨_, hmem, he⟩)
        rw [hne]
        exact ih hn hmem
  · obtain ⟨front, back, he, -⟩ := List.lookup_eq_some_iff.mp hl
    rw [he]
    exact List.mem_append_right _ List.mem_cons_self

/-- **Writing the entry of a node changes the listeners of that node alone.** -/
theorem lookup_put (h : (es.map (·.1)).Nodup) (x : NodeRef) :
    ((put node ls es).lookup x).getD [] = if x = node then ls else (es.lookup x).getD [] := by
  induction es with
  | nil =>
    rw [put]
    split_ifs with hls hx hx
    · exact (List.isEmpty_iff.mp hls).symm
    · rfl
    · rw [lookup_cons_getD, if_pos hx]
    · rw [lookup_cons_getD, if_neg hx]
  | cons e es ih =>
    obtain ⟨n, old⟩ := e
    obtain ⟨hn, hes⟩ := List.nodup_cons.mp h
    rw [put, lookup_cons_getD]
    by_cases he : n = node
    · subst he
      rw [if_pos rfl]
      split_ifs with hls hx hx
      · rw [hx, lookup_getD_eq_nil hn, List.isEmpty_iff.mp hls]
      · rfl
      · rw [lookup_cons_getD, if_pos hx]
      · rw [lookup_cons_getD, if_neg hx]
    · rw [if_neg he, lookup_cons_getD, ih hes]
      by_cases hx : x = n
      · rw [if_pos hx, if_neg (hx ▸ he), if_pos hx]
      · rw [if_neg hx, if_neg hx]

theorem put_nil_sublist (node : NodeRef) (es : List (NodeRef × List Listener)) :
    (put node [] es).Sublist es := by
  induction es with
  | nil => exact List.Sublist.refl _
  | cons e es ih =>
    obtain ⟨n, old⟩ := e
    rw [put]
    by_cases he : n = node
    · rw [if_pos he]
      exact List.sublist_cons_self _ es
    · rw [if_neg he]
      exact ih.cons_cons _

theorem nodes_takeAll_subset (g : Registry) (node : NodeRef) : (g.takeAll node).2.nodes ⊆ g.nodes :=
  ((put_nil_sublist node g.entries).map _).subset

theorem put_nil_eq_self (h : node ∉ es.map (·.1)) : put node [] es = es := by
  induction es with
  | nil => rfl
  | cons e es ih =>
    obtain ⟨n, old⟩ := e
    rw [List.map_cons, List.mem_cons, not_or] at h
    rw [put, if_neg fun he => h.1 he.symm, ih h.2]

theorem takeAll_eq_self (h : node ∉ g.nodes) : (g.takeAll node).2 = g := by
  rw [takeAll, put_nil_eq_self h]

/-- **Writing the entry of a node changes what is installed by that entry.** -/
theorem perm_put (node : NodeRef) (ls : List Listener) (es : List (NodeRef × List Listener)) :
    ((put node ls es).flatMap (·.2) ++ (es.lookup node).getD []).Perm (es.flatMap (·.2) ++ ls) := by
  induction es with
  | nil =>
    rw [put]
    split <;> simp_all
  | cons e es ih =>
    obtain ⟨n, old⟩ := e
    rw [put, List.lookup_cons, List.flatMap_cons]
    by_cases hn : n = node
    · subst hn
      have hput : (if n = n then if ls.isEmpty = true then es else (n, ls) :: es
          else (n, old) :: put n ls es).flatMap (·.2) = ls ++ es.flatMap (·.2) := by
        rw [if_pos rfl]
        split
        · simp_all
        · simp
      rw [hput]
      simp only [beq_self_eq_true, Option.getD_some]
      exact List.perm_append_comm.trans (List.perm_append_comm.append_left old |>.trans
        (by rw [List.append_assoc]))
    · have hb : (node == n) = false := by simpa using fun h : node = n => hn h.symm
      rw [if_neg hn, List.flatMap_cons]
      simp only [hb, List.append_assoc]
      exact ih.append_left old

/-! ## Edits -/

theorem add_cases (g : Registry) (node : NodeRef) (l : Listener) :
    ((g.ofNode node).any (·.hasKey l.type l.handler l.options.capture) = true ∧
      g.add node l = (false, g)) ∨
    ((g.ofNode node).any (·.hasKey l.type l.handler l.options.capture) = false ∧
      g.add node l = (true, ⟨put node (g.ofNode node ++ [l]) g.entries⟩)) := by
  cases h : (g.ofNode node).any (·.hasKey l.type l.handler l.options.capture) with
  | true => exact Or.inl ⟨rfl, if_pos h⟩
  | false => exact Or.inr ⟨rfl, if_neg (by rw [h]; exact Bool.false_ne_true)⟩

theorem remove_cases (g : Registry) (node : NodeRef) (type : String) (handler : HandlerId)
    (capture : Bool) :
    ((g.ofNode node).any (·.hasKey type handler capture) = true ∧
      g.remove node type handler capture =
        (true, ⟨put node ((g.ofNode node).filter fun l => !l.hasKey type handler capture)
          g.entries⟩)) ∨
    ((g.ofNode node).any (·.hasKey type handler capture) = false ∧
      g.remove node type handler capture = (false, g)) := by
  cases h : (g.ofNode node).any (·.hasKey type handler capture) with
  | true => exact Or.inl ⟨rfl, if_pos h⟩
  | false => exact Or.inr ⟨rfl, if_neg (by rw [h]; exact Bool.false_ne_true)⟩

section Nodes

variable (h : g.nodes.Nodup)
include h

/-- A new listener is the last one of its node. -/
theorem ofNode_add (node : NodeRef) (l : Listener) (x : NodeRef) :
    (g.add node l).2.ofNode x =
      if x = node ∧ (g.add node l).1 = true then g.ofNode node ++ [l] else g.ofNode x := by
  rcases g.add_cases node l with ⟨-, ha⟩ | ⟨-, ha⟩
  · simp [ha]
  · rw [ha, ofNode, lookup_put h]
    simp [ofNode]

theorem ofNode_remove (node : NodeRef) (type : String) (handler : HandlerId) (capture : Bool)
    (x : NodeRef) : (g.remove node type handler capture).2.ofNode x =
      if x = node then (g.ofNode node).filter (fun l => !l.hasKey type handler capture)
      else g.ofNode x := by
  rcases g.remove_cases node type handler capture with ⟨-, hr⟩ | ⟨hk, hr⟩
  · rw [hr, ofNode, lookup_put h]
    rfl
  · rw [hr]
    split_ifs with hx
    · rw [hx, List.filter_eq_self.mpr]
      exact fun l hl => by simpa using List.any_eq_false.mp hk l hl
    · rfl

theorem nodup_remove (node : NodeRef) (type : String) (handler : HandlerId) (capture : Bool) :
    (g.remove node type handler capture).2.nodes.Nodup := by
  rcases g.remove_cases node type handler capture with ⟨-, hr⟩ | ⟨-, hr⟩
  · rw [hr]
    exact nodup_put h
  · rw [hr]
    exact h

theorem ofNode_takeAll (node x : NodeRef) :
    (g.takeAll node).2.ofNode x = if x = node then [] else g.ofNode x := lookup_put h x

end Nodes

/-- A listener more, if it is added. -/
theorem perm_add (g : Registry) (node : NodeRef) (l : Listener) :
    (g.add node l = (false, g)) ∨
      (g.add node l).1 = true ∧ (g.add node l).2.installed.Perm (l :: g.installed) := by
  rcases g.add_cases node l with ⟨-, ha⟩ | ⟨-, ha⟩
  · exact Or.inl ha
  · rw [ha]
    refine Or.inr ⟨rfl, ?_⟩
    have hp := perm_put node (g.ofNode node ++ [l]) g.entries
    rw [← List.append_assoc, ← ofNode] at hp
    refine (List.perm_append_right_iff (g.ofNode node)).mp (hp.trans ?_)
    exact List.perm_append_singleton l _

/-- All listeners of a node less. -/
theorem perm_takeAll (g : Registry) (node : NodeRef) :
    g.installed.Perm ((g.takeAll node).1 ++ (g.takeAll node).2.installed) := by
  have hp := perm_put node [] g.entries
  rw [List.append_nil, ← ofNode] at hp
  have hs := List.mergeSort_perm (g.ofNode node) fun a b => !decide (b.type < a.type)
  exact hp.symm.trans (List.perm_append_comm.trans (hs.symm.append_right _))

theorem nodes_add_subset (g : Registry) (node : NodeRef) (l : Listener) :
    (g.add node l).2.nodes ⊆ node :: g.nodes := by
  rcases g.add_cases node l with ⟨-, ha⟩ | ⟨-, ha⟩
  · rw [ha]
    exact List.subset_cons_self _ _
  · rw [ha]
    exact nodes_put_subset

theorem nodes_remove_subset (g : Registry) (node : NodeRef) (type : String) (handler : HandlerId)
    (capture : Bool) : (g.remove node type handler capture).2.nodes ⊆ g.nodes := by
  rcases g.remove_cases node type handler capture with ⟨hk, hr⟩ | ⟨-, hr⟩
  · rw [hr]
    obtain ⟨l, hl, -⟩ := List.any_eq_true.mp hk
    have hnode : node ∈ g.nodes := List.mem_map_of_mem (mem_entries_of_ofNode hl)
    exact List.Subset.trans nodes_put_subset (List.cons_subset.mpr ⟨hnode, List.Subset.refl _⟩)
  · rw [hr]
    exact List.Subset.refl _

namespace Proper

theorem put (h : g.Proper) (hls : ls.Pairwise Apart) : Proper ⟨Registry.put node ls g.entries⟩ where
  nodes := nodup_put h.nodes
  apart := by
    intro e he
    rcases mem_put he with rfl | he
    · exact hls
    · exact h.apart e he

theorem apart_ofNode (h : g.Proper) (node : NodeRef) : (g.ofNode node).Pairwise Apart := by
  cases hl : g.ofNode node with
  | nil => exact List.Pairwise.nil
  | cons l ls =>
    rw [← hl]
    have hm : l ∈ g.ofNode node := by
      rw [hl]
      exact List.mem_cons_self
    exact h.apart _ (mem_entries_of_ofNode hm)

theorem add (h : g.Proper) (node : NodeRef) (l : Listener) : (g.add node l).2.Proper := by
  rcases g.add_cases node l with ⟨-, ha⟩ | ⟨hk, ha⟩
  · rw [ha]
    exact h
  · rw [ha]
    refine h.put (List.pairwise_append.mpr ⟨h.apart_ofNode node, List.pairwise_singleton _ _, ?_⟩)
    intro m hm l' hl'
    rw [List.mem_singleton.mp hl', Apart]
    exact Bool.eq_false_iff.mpr (List.any_eq_false.mp hk m hm)

theorem remove (h : g.Proper) (node : NodeRef) (type : String) (handler : HandlerId)
    (capture : Bool) : (g.remove node type handler capture).2.Proper := by
  rcases g.remove_cases node type handler capture with ⟨-, hr⟩ | ⟨-, hr⟩
  · rw [hr]
    exact h.put ((h.apart_ofNode node).sublist List.filter_sublist)
  · rw [hr]
    exact h

theorem takeAll (h : g.Proper) (node : NodeRef) : (g.takeAll node).2.Proper :=
  h.put List.Pairwise.nil

theorem notMem_takeAll (h : g.Proper) (node : NodeRef) : node ∉ (g.takeAll node).2.nodes :=
  notMem_put_nil h.nodes

/-- A listener with the handler less, if one is removed. -/
theorem perm_remove (h : g.Proper) (node : NodeRef) (type : String) (handler : HandlerId)
    (capture : Bool) :
    (g.remove node type handler capture = (false, g)) ∨
      (g.remove node type handler capture).1 = true ∧ ∃ l, l.handler = handler ∧
        g.installed.Perm (l :: (g.remove node type handler capture).2.installed) := by
  rcases g.remove_cases node type handler capture with ⟨hk, hr⟩ | ⟨-, hr⟩
  · rw [hr]
    refine Or.inr ⟨rfl, ?_⟩
    obtain ⟨l, hl, hf⟩ := perm_filter_key (h.apart_ofNode node) hk
    refine ⟨l, hl, ?_⟩
    have hp := perm_put node ((g.ofNode node).filter fun l => !l.hasKey type handler capture) g.entries
    rw [← ofNode] at hp
    have hp' := hp.symm.trans (hf.append_left _)
    exact (List.perm_append_right_iff _).mp (hp'.trans List.perm_middle)
  · exact Or.inl hr

end Proper

end DomHost.Registry
