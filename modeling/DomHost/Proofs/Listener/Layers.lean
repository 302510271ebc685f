import DomHost.Listener.Layers
import DomHost.Proofs.Listener.Storage

/-!
# Layers without gaps

A registry in layers has no layer with nothing in it, so that a node has an entry just if it has listeners. It gives the
answers of the registry with one entry for each node, and both show one list of listeners.

* `Layers.row`, **`Layers.row_put`**: what is kept for a node and a type, and what writing it changes;
* `Layers.Tight`, `Layers.Tight.put`: no layer is empty;
* `Layers.roll`: the listeners of all nodes;
* **`Layers.faithful`**: the layers treat the listeners of each node and type right;
* **`Registry.keeps_roll`**: both registries behave as one list of listeners.
-/

namespace DomHost

namespace Layers

variable {t : Layers} {node x : NodeRef} {m : Layer} {type type' : String}
  {handler : HandlerId} {capture : Bool} {kept : List LayeredListener}

theorem getElem?_write {κ ν : Type} [BEq κ] [LawfulBEq κ] [Hashable κ] [LawfulHashable κ] [DecidableEq κ]
    (m : Std.HashMap κ ν) (k k' : κ) (v : ν) (empty : Bool) :
    (write m k v empty)[k']? = if k' = k then if empty then none else some v else m[k']? := by
  rw [write]
  by_cases hk : k' = k
  · subst hk
    cases empty <;> simp
  · have hne : (k == k') = false := beq_eq_false_iff_ne.mpr (Ne.symm hk)
    cases empty <;> simp [Std.HashMap.getElem?_erase, Std.HashMap.getElem?_insert, hne, hk]

/-! ## Rows -/

/-- What is kept for a node and an event type. -/
def row (t : Layers) (node : NodeRef) (type : String) : List LayeredListener :=
  (t.nodes[node]?.bind (·[type]?)).getD []

theorem listenersFor_eq (t : Layers) (node : NodeRef) (type : String) :
    t.listenersFor node type = (t.row node type).map (·.withType type) := rfl

theorem any_hasKey_row (t : Layers) (node : NodeRef) (type : String) (handler : HandlerId) (capture : Bool) :
    (t.listenersFor node type).any (·.hasKey type handler capture) =
      (t.row node type).any (·.hasKey handler capture) := by
  rw [listenersFor_eq, List.any_map]
  refine List.any_congr rfl fun l => ?_
  simp [Listener.hasKey, LayeredListener.hasKey, LayeredListener.withType]

/-- Only listeners for its type have a key. -/
theorem filter_hasKey_row (t : Layers) (node : NodeRef) (type' type : String) (handler : HandlerId)
    (capture : Bool) : ((t.listenersFor node type').filter fun l => !l.hasKey type handler capture) =
      if type' = type then ((t.row node type').filter fun l => !l.hasKey handler capture).map (·.withType type')
      else t.listenersFor node type' := by
  rw [listenersFor_eq]
  split_ifs with htype
  · rw [List.filter_map]
    refine congrArg _ (List.filter_congr fun l _ => ?_)
    simp [Listener.hasKey, LayeredListener.hasKey, LayeredListener.withType, htype]
  · refine List.filter_eq_self.mpr fun l hl => ?_
    obtain ⟨l, -, rfl⟩ := List.mem_map.mp hl
    simp [Listener.hasKey, LayeredListener.withType, htype]

/-- The layer that a listener is added to. -/
theorem getElem?_getD (t : Layers) (node : NodeRef) (type : String) :
    (t.nodes.getD node ∅)[type]?.getD [] = t.row node type := by
  rw [row, Std.HashMap.getD_eq_getD_getElem?]
  cases t.nodes[node]? with
  | none => simp
  | some m => rfl

/-- **Writing what is kept for a node and a type changes that alone.** -/
theorem row_put (hm : ∀ type, m[type]?.getD [] = t.row node type) (type : String) (kept : List LayeredListener)
    (x : NodeRef) (type' : String) : (t.put node m type kept).row x type' =
      if x = node ∧ type' = type then kept else t.row x type' := by
  rw [row, put, getElem?_write]
  by_cases hx : x = node
  · subst hx
    have hrow : (write m type kept kept.isEmpty)[type']?.getD [] = if type' = type then kept else t.row x type' := by
      rw [getElem?_write]
      split
      · cases kept <;> rfl
      · exact hm type'
    simp only [true_and, if_true, ← hrow]
    cases hempty : (write m type kept kept.isEmpty).isEmpty with
    | true => rw [Std.HashMap.getElem?_of_isEmpty hempty]; rfl
    | false => rfl
  · rw [if_neg hx, if_neg fun h => hx h.1, row]

/-! ## Layers that are not empty -/

/-- A layer has something in it, and so has what is kept for a type. -/
structure Tight (t : Layers) : Prop where
  layer (node : NodeRef) (m : Layer) (ht : t.nodes[node]? = some m) : m.isEmpty = false
  row (node : NodeRef) (m : Layer) (ht : t.nodes[node]? = some m) (type : String) : m[type]? ≠ some []

theorem Tight.put (h : t.Tight) (hm : ∀ type : String, m[type]? ≠ some []) (node : NodeRef) (type : String)
    (kept : List LayeredListener) : (t.put node m type kept).Tight := by
  have hnew : ∀ type' : String, (write m type kept kept.isEmpty)[type']? ≠ some [] := by
    intro type'
    rw [getElem?_write]
    split
    · cases kept <;> simp
    · exact hm type'
  have hall : ∀ (x : NodeRef) (m' : Layer), (t.put node m type kept).nodes[x]? = some m' →
      (m' = write m type kept kept.isEmpty ∧ m'.isEmpty = false) ∨ t.nodes[x]? = some m' := by
    intro x m' hm'
    rw [Layers.put, getElem?_write] at hm'
    split at hm'
    · split at hm'
      · cases hm'
      · rename_i hempty
        obtain rfl := Option.some.inj hm'
        exact Or.inl ⟨rfl, Bool.eq_false_iff.mpr hempty⟩
    · exact Or.inr hm'
  constructor
  · intro x m' hm'
    rcases hall x m' hm' with ⟨-, hempty⟩ | hold
    · exact hempty
    · exact h.layer x m' hold
  · intro x m' hm'
    rcases hall x m' hm' with ⟨rfl, -⟩ | hold
    · exact hnew
    · exact h.row x m' hold

theorem Tight.getElem?_getD_ne (h : t.Tight) (node : NodeRef) (type : String) :
    (t.nodes.getD node ∅)[type]? ≠ some [] := by
  rw [Std.HashMap.getD_eq_getD_getElem?]
  cases ht : t.nodes[node]? with
  | none => simp
  | some m => exact h.row node m ht type

theorem Tight.hasAny_iff (h : t.Tight) : t.hasAny node = true ↔ ∃ type, t.listenersFor node type ≠ [] := by
  rw [hasAny, Std.HashMap.contains_eq_isSome_getElem?]
  simp only [listenersFor, ne_eq, List.map_eq_nil_iff]
  cases ht : t.nodes[node]? with
  | none => simp
  | some m =>
    have hne := h.layer node m ht
    obtain ⟨type, hmem⟩ := Std.HashMap.isEmpty_eq_false_iff_exists_mem.mp hne
    obtain ⟨ls, hls⟩ := Option.isSome_iff_exists.mp (Std.HashMap.mem_iff_isSome_getElem?.mp hmem)
    refine ⟨fun _ => ⟨type, ?_⟩, fun _ => rfl⟩
    rw [Option.bind_some, hls, Option.getD_some]
    rintro rfl
    exact h.row node m ht type hls

/-! ## Edits -/

theorem add_cases (t : Layers) (node : NodeRef) (l : Listener) :
    ((t.row node l.type).any (·.hasKey l.handler l.options.capture) = true ∧
      t.add node l = (false, t.put node (t.nodes.getD node ∅) l.type (t.row node l.type))) ∨
    ((t.row node l.type).any (·.hasKey l.handler l.options.capture) = false ∧
      t.add node l =
        (true, t.put node (t.nodes.getD node ∅) l.type (t.row node l.type ++ [⟨l.handler, l.options⟩]))) := by
  have hput : ∀ kept : List LayeredListener, kept ≠ [] → t.put node (t.nodes.getD node ∅) l.type kept =
      ⟨t.nodes.insert node ((t.nodes.getD node ∅).insert l.type kept)⟩ := by
    intro kept hkept
    rw [put, write, write, List.isEmpty_eq_false_iff.mpr hkept]
    simp
  have hold : (t.nodes.getD node ∅).getD l.type [] = t.row node l.type := by
    rw [Std.HashMap.getD_eq_getD_getElem?, getElem?_getD]
  cases hany : (t.row node l.type).any (·.hasKey l.handler l.options.capture) with
  | true =>
    have hne : t.row node l.type ≠ [] := fun hnil => by simp [hnil] at hany
    refine Or.inl ⟨rfl, ?_⟩
    rw [add, hold, if_pos hany, hput _ hne]
  | false =>
    refine Or.inr ⟨rfl, ?_⟩
    rw [add, hold, if_neg (by rw [hany]; exact Bool.false_ne_true), hput _ (by simp)]

theorem remove_cases (t : Layers) (node : NodeRef) (type : String) (handler : HandlerId) (capture : Bool) :
    ((t.row node type) = [] ∧ t.remove node type handler capture = (false, t)) ∨
    ∃ m, t.nodes[node]? = some m ∧ t.remove node type handler capture =
      ((t.row node type).any (·.hasKey handler capture),
        t.put node m type ((t.row node type).filter fun l => !l.hasKey handler capture)) := by
  rw [remove, row]
  cases ht : t.nodes[node]? with
  | none => exact Or.inl ⟨rfl, rfl⟩
  | some m =>
    cases hls : m[type]? with
    | none =>
      refine Or.inl ⟨by simp [hls], ?_⟩
      simp only [hls]
    | some old =>
      refine Or.inr ⟨m, rfl, ?_⟩
      simp only [Option.bind_some, hls, Option.getD_some, Prod.mk.injEq, and_true]
      rw [Bool.eq_iff_iff, decide_eq_true_eq, List.length_filter_lt_length_iff_exists, List.any_eq_true]
      simp

theorem Tight.add (h : t.Tight) (node : NodeRef) (l : Listener) : (t.add node l).2.Tight := by
  rcases t.add_cases node l with ⟨-, ha⟩ | ⟨-, ha⟩ <;> rw [ha] <;> exact h.put (h.getElem?_getD_ne node) node _ _

theorem Tight.remove (h : t.Tight) (node : NodeRef) (type : String) (handler : HandlerId) (capture : Bool) :
    (t.remove node type handler capture).2.Tight := by
  rcases t.remove_cases node type handler capture with ⟨-, hr⟩ | ⟨m, ht, hr⟩ <;> rw [hr]
  · exact h
  · exact h.put (h.row node m ht) node _ _

theorem add_fst (t : Layers) (node : NodeRef) (l : Listener) :
    (t.add node l).1 = !(t.listenersFor node l.type).any (·.hasKey l.type l.handler l.options.capture) := by
  rw [any_hasKey_row]
  rcases t.add_cases node l with ⟨hk, ha⟩ | ⟨hk, ha⟩ <;> rw [ha, hk] <;> rfl

theorem listenersFor_add (t : Layers) (node : NodeRef) (l : Listener) (x : NodeRef) (type : String) :
    (t.add node l).2.listenersFor x type =
      t.listenersFor x type ++ if (x = node ∧ type = l.type) ∧ (t.add node l).1 = true then [l] else [] := by
  rw [listenersFor_eq, listenersFor_eq]
  rcases t.add_cases node l with ⟨-, ha⟩ | ⟨-, ha⟩ <;> rw [ha, row_put (t.getElem?_getD node)]
  · split_ifs with hx <;> simp_all
  · by_cases hx : x = node ∧ type = l.type
    · rw [if_pos hx, if_pos ⟨hx, rfl⟩, hx.1, hx.2, List.map_append]
      rfl
    · rw [if_neg hx, if_neg fun h => hx h.1, List.append_nil]

theorem remove_fst (t : Layers) (node : NodeRef) (type : String) (handler : HandlerId) (capture : Bool) :
    (t.remove node type handler capture).1 =
      (t.listenersFor node type).any (·.hasKey type handler capture) := by
  rw [any_hasKey_row]
  rcases t.remove_cases node type handler capture with ⟨hnil, hr⟩ | ⟨m, -, hr⟩ <;> rw [hr]
  rw [hnil, List.any_nil]

theorem listenersFor_remove (t : Layers) (node : NodeRef) (type : String) (handler : HandlerId) (capture : Bool)
    (x : NodeRef) (type' : String) : (t.remove node type handler capture).2.listenersFor x type' =
      if x = node then (t.listenersFor x type').filter fun l => !l.hasKey type handler capture
      else t.listenersFor x type' := by
  rw [filter_hasKey_row]
  rcases t.remove_cases node type handler capture with ⟨hnil, hr⟩ | ⟨m, ht, hr⟩ <;> rw [hr]
  · split_ifs with hx htype
    · rw [listenersFor_eq, hx, htype, hnil, List.filter_nil]
    · rfl
    · rfl
  · have hrow : ∀ type, m[type]?.getD [] = t.row node type := fun type => by rw [row, ht, Option.bind_some]
    rw [listenersFor_eq, row_put hrow]
    by_cases hx : x = node
    · subst hx
      by_cases htype : type' = type
      · simp only [htype, and_self, if_true]
      · rw [if_neg fun h => htype h.2, if_pos rfl, if_neg htype, listenersFor_eq]
    · rw [if_neg fun h => hx h.1, if_neg hx, listenersFor_eq]

theorem takeAll_cases (t : Layers) (node : NodeRef) :
    (t.nodes[node]? = none ∧ t.takeAll node = ([], t)) ∨
    ∃ m, t.nodes[node]? = some m ∧ t.takeAll node =
      ((m.toList.flatMap fun e => e.2.map (·.withType e.1)).mergeSort fun a b => !decide (b.type < a.type),
        ⟨t.nodes.erase node⟩) := by
  rw [takeAll]
  cases t.nodes[node]? with
  | none => exact Or.inl ⟨rfl, rfl⟩
  | some m => exact Or.inr ⟨m, rfl, rfl⟩

/-- The keys of a table differ. -/
theorem nodup_map_fst_toList {κ ν : Type} [BEq κ] [LawfulBEq κ] [Hashable κ] [LawfulHashable κ]
    (m : Std.HashMap κ ν) : (m.toList.map (·.1)).Nodup := by
  exact Std.HashMap.map_fst_toList_eq_keys (m := m) ▸ Std.HashMap.nodup_keys

theorem takeAll_sorted (t : Layers) (node : NodeRef) :
    (t.takeAll node).1.Pairwise fun a b => a.type ≤ b.type := by
  rcases t.takeAll_cases node with ⟨-, hl⟩ | ⟨m, -, hl⟩ <;> rw [hl]
  · exact List.Pairwise.nil
  · exact pairwise_mergeSort_type _

/-- What is taken for a type is what was kept for it. -/
theorem takeAll_fst (t : Layers) (node : NodeRef) (type : String) :
    (t.takeAll node).1.filter (·.type == type) = t.listenersFor node type := by
  rcases t.takeAll_cases node with ⟨ht, hl⟩ | ⟨m, ht, hl⟩ <;> rw [hl, listenersFor, ht]
  · rfl
  · rw [filter_mergeSort_type, Registry.filter_flatMap_of_key (nodup_map_fst_toList m)
      (fun ls => Std.HashMap.mem_toList_iff_getElem?_eq_some), Option.bind_some]
    · cases m[type]? with
      | none => rfl
      | some ls => simp [List.filter_map, Function.comp_def, LayeredListener.withType]
    · intro e _ hne
      simp [List.filter_map, Function.comp_def, LayeredListener.withType, hne]

theorem listenersFor_takeAll (t : Layers) (node x : NodeRef) (type : String) :
    (t.takeAll node).2.listenersFor x type = if x = node then [] else t.listenersFor x type := by
  rcases t.takeAll_cases node with ⟨ht, hl⟩ | ⟨m, ht, hl⟩ <;> rw [hl]
  · split_ifs with hx
    · rw [hx, listenersFor, ht]
      rfl
    · rfl
  · rw [listenersFor, listenersFor, Std.HashMap.getElem?_erase]
    by_cases hx : x = node
    · simp [hx]
    · rw [if_neg hx, if_neg fun h => hx (beq_iff_eq.mp h).symm]

theorem Tight.takeAll (h : t.Tight) (node : NodeRef) : (t.takeAll node).2.Tight := by
  rcases t.takeAll_cases node with ⟨-, hl⟩ | ⟨m, -, hl⟩ <;> rw [hl]
  · exact h
  · have hold : ∀ (x : NodeRef) (m' : Layer), (t.nodes.erase node)[x]? = some m' → t.nodes[x]? = some m' := by
      intro x m' hm'
      rw [Std.HashMap.getElem?_erase] at hm'
      split at hm'
      · cases hm'
      · exact hm'
    exact ⟨fun x m' hm' => h.layer x m' (hold x m' hm'), fun x m' hm' => h.row x m' (hold x m' hm')⟩

/-! ## All listeners -/

/-- The listeners of all nodes, each with its node. -/
def roll (t : Layers) : Roll :=
  t.nodes.toList.flatMap fun e => e.2.toList.flatMap fun f => f.2.map fun l => (e.1, l.withType f.1)

/-- Lengths that are added up one after the other. -/
theorem foldl_add_length {α β : Type} {f : Nat → α → Nat} {F : α → List β} (hf : ∀ n a, f n a = n + (F a).length)
    (l : List α) (n : Nat) : l.foldl f n = n + (l.flatMap F).length := by
  induction l generalizing n with
  | nil => rfl
  | cons a l ih => rw [List.foldl_cons, ih, hf, List.flatMap_cons, List.length_append, Nat.add_assoc]

theorem len_eq_length_roll (t : Layers) : t.len = t.roll.length := by
  rw [len, Std.HashMap.fold_eq_foldl_toList, roll, foldl_add_length (fun n e => ?_), Nat.zero_add]
  rw [Std.HashMap.fold_eq_foldl_toList]
  exact foldl_add_length (fun n f => by rw [List.length_map]) _ n

theorem listenersFor_roll (t : Layers) (node : NodeRef) (type : String) :
    t.listenersFor node type = t.roll.listenersFor node type := by
  rw [Roll.listenersFor, roll, Registry.filter_flatMap_of_key (nodup_map_fst_toList t.nodes)
    (fun m => Std.HashMap.mem_toList_iff_getElem?_eq_some), listenersFor]
  · cases t.nodes[node]? with
    | none => rfl
    | some m =>
      rw [Option.elim_some, Registry.filter_flatMap_of_key (nodup_map_fst_toList m)
        (fun ls => Std.HashMap.mem_toList_iff_getElem?_eq_some) (k := type), Option.bind_some]
      · cases m[type]? with
        | none => rfl
        | some ls => simp [List.filter_map, Function.comp_def, LayeredListener.withType]
      · intro f _ hne
        simp [List.filter_map, Function.comp_def, LayeredListener.withType, hne]
  · intro e _ hne
    simp [List.filter_flatMap, List.filter_map, Function.comp_def, hne]

/-- The layers as a way to keep listeners. -/
def storage : ListenerStorage Layers := ⟨add, remove, takeAll, listenersFor, hasAny, len, isEmpty⟩

/-- **The layers treat the listeners of each node and type right.** -/
theorem faithful : storage.Faithful Tight where
  inv_add h := h.add
  inv_remove h := h.remove
  inv_takeAll h := h.takeAll
  add_fst _ := add_fst _
  add_snd _ := listenersFor_add _
  remove_fst _ := remove_fst _
  remove_snd _ := listenersFor_remove _
  takeAll_sorted _ := takeAll_sorted _
  takeAll_fst _ := takeAll_fst _
  takeAll_snd _ := listenersFor_takeAll _
  hasAny h _ := h.hasAny_iff
  isEmpty _ := Std.HashMap.isEmpty_iff_forall_contains
  len {t} _ := ⟨t.roll, t.len_eq_length_roll, t.listenersFor_roll⟩

end Layers

/-! ## One list -/

/-- **Requests to an empty registry, with one entry for each node or in layers, are answered as one list of listeners
answers them, and what the registry shows after them is that list.** -/
theorem Registry.keeps_roll (qs : List ListenerRequest) : ∃ answers roll, Roll.Runs [] qs answers roll ∧
    roll.Distinct ∧
      (Registry.storage.serveAll {} qs).1 = answers ∧ Registry.storage.Shows (Registry.storage.serveAll {} qs).2 roll ∧
      (Layers.storage.serveAll {} qs).1 = answers ∧ Layers.storage.Shows (Layers.storage.serveAll {} qs).2 roll := by
  have hregistry : Registry.storage.Lists Registry.Tight {} [] :=
    ⟨⟨List.nodup_nil, fun e he => absurd he List.not_mem_nil⟩, List.nodup_nil, fun _ _ => rfl⟩
  have hlayers : Layers.storage.Lists Layers.Tight {} [] := by
    refine ⟨⟨fun node m ht => ?_, fun node m ht => ?_⟩, List.nodup_nil, fun node type => ?_⟩
    · simp at ht
    · simp at ht
    · simp [Layers.storage, Layers.listenersFor, Roll.listenersFor]
  obtain ⟨roll, hruns, hroll⟩ := Registry.faithful.serveAll hregistry qs
  obtain ⟨roll', hruns', hroll'⟩ := Layers.faithful.serveAll hlayers qs
  obtain ⟨hanswers, rfl⟩ := hruns.unique hregistry.distinct hruns'
  exact ⟨_, roll, hruns, hruns.distinct hregistry.distinct, rfl, Registry.faithful.shows hroll, hanswers.symm,
    Layers.faithful.shows hroll'⟩

end DomHost
