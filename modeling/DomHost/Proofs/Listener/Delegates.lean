import DomHost.Host.Delegation
import DomHost.Proofs.Listener

/-!
# Listeners that catch events

Among the listeners of a node are those that catch events for the compute module. A node that they are moved
to has one for each delegated name, and every other edit of listeners leaves them alone.

* `Registry.delegates`: the listeners of a node that catch events;
* `Registry.callers`: the other listeners of a node, which call closures;
* `Registry.delegates_add_of_ne`, `Registry.delegates_remove`: edits;
* `Registry.clear`, `Registry.Proper.ofNode_clear`: nodes that lose all their listeners;
* `Host.staff`: one listener for each delegated name;
* **`Registry.delegates_dismiss`**, **`Registry.delegates_hire`**: removing and adding all of them;
* `Registry.callers_dismiss`, `Registry.callers_hire`: the other listeners stay;
* **`Registry.Proper.filter_installed`**: the listeners of the whole registry that catch events, if one node has
  them all.
-/

namespace DomHost

namespace Registry

variable {g : Registry} {node x : NodeRef} {l : Listener}

/-- The listeners of a node that catch events for the compute module. -/
def delegates (g : Registry) (node : NodeRef) : List Listener :=
  (g.ofNode node).filter (·.handler == delegateHandler)

/-- The listeners of a node that do not catch events for the compute module. -/
def callers (g : Registry) (node : NodeRef) : List Listener :=
  (g.ofNode node).filter (·.handler != delegateHandler)

theorem delegates_eq_nil (h : node ∉ g.nodes) : g.delegates node = [] := by
  rw [delegates, ofNode, lookup_getD_eq_nil h, List.filter_nil]

/-- A node has a listener with this key if it has one that catches events. -/
theorem any_hasKey_delegates (g : Registry) (node : NodeRef) (type : String) (capture : Bool) :
    (g.ofNode node).any (·.hasKey type delegateHandler capture) =
      (g.delegates node).any (·.hasKey type delegateHandler capture) := by
  rw [delegates, List.any_filter]
  refine List.any_congr rfl fun l => ?_
  rw [Listener.hasKey]
  cases l.handler == delegateHandler <;> simp

/-! ## Edits -/

section Edits

variable (h : g.nodes.Nodup)
include h

theorem delegates_add_of_ne (hl : l.handler ≠ delegateHandler) (node x : NodeRef) :
    (g.add node l).2.delegates x = g.delegates x := by
  rw [delegates, ofNode_add h]
  split_ifs with hx
  · rw [List.filter_append, List.filter_cons_of_neg (by simpa using hl), List.filter_nil, List.append_nil,
      hx.1]
    rfl
  · rfl

/-- A new listener that catches events is the last of them. -/
theorem delegates_add (hl : l.handler = delegateHandler)
    (hnew : (g.delegates node).any (·.hasKey l.type delegateHandler l.options.capture) = false)
    (x : NodeRef) :
    (g.add node l).2.delegates x = if x = node then g.delegates node ++ [l] else g.delegates x := by
  have hadded : (g.add node l).1 = true := by
    rw [← any_hasKey_delegates, ← hl] at hnew
    rw [add, if_neg (by rw [hnew]; exact Bool.false_ne_true)]
  rw [delegates, ofNode_add h]
  simp only [hadded, and_true]
  split_ifs with hx
  · rw [List.filter_append, List.filter_cons_of_pos (by simpa using hl), List.filter_nil]
    rfl
  · rfl

theorem delegates_remove (node : NodeRef) (type : String) (handler : HandlerId) (capture : Bool)
    (x : NodeRef) : (g.remove node type handler capture).2.delegates x =
      if x = node then (g.delegates node).filter (fun l => !l.hasKey type handler capture)
      else g.delegates x := by
  rw [delegates, ofNode_remove h]
  split_ifs with hx
  · rw [delegates, List.filter_comm]
  · rfl

theorem delegates_remove_of_ne {handler : HandlerId} (hh : handler ≠ delegateHandler) (node : NodeRef)
    (type : String) (capture : Bool) (x : NodeRef) :
    (g.remove node type handler capture).2.delegates x = g.delegates x := by
  rw [delegates_remove h]
  split_ifs with hx
  · rw [hx, List.filter_eq_self]
    intro l hl
    have hd : l.handler = delegateHandler := by simpa using (List.mem_filter.mp hl).2
    rw [Bool.not_eq_true', Bool.eq_false_iff]
    exact fun hk => hh ((hasKey_iff.mp hk).2.1.symm.trans hd)
  · rfl

theorem callers_add (hl : l.handler = delegateHandler) (node x : NodeRef) :
    (g.add node l).2.callers x = g.callers x := by
  rw [callers, ofNode_add h]
  split_ifs with hx
  · rw [List.filter_append, List.filter_cons_of_neg (by simp [hl]), List.filter_nil, List.append_nil, hx.1]
    rfl
  · rfl

theorem callers_remove (node : NodeRef) (type : String) (capture : Bool) (x : NodeRef) :
    (g.remove node type delegateHandler capture).2.callers x = g.callers x := by
  rw [callers, ofNode_remove h]
  split_ifs with hx
  · rw [List.filter_filter, callers, hx]
    refine List.filter_congr fun l _ => ?_
    rw [Listener.hasKey, bne]
    cases l.handler == delegateHandler <;> simp
  · rfl

end Edits

/-! ## Nodes that lose all their listeners -/

/-- The registry without the listeners of some nodes. -/
def clear (g : Registry) (rs : List NodeRef) : Registry := rs.foldl (fun g r => (g.takeAll r).2) g

theorem installed_clear_subset (g : Registry) (rs : List NodeRef) :
    (g.clear rs).installed ⊆ g.installed := by
  induction rs generalizing g with
  | nil => exact List.Subset.refl _
  | cons r rs ih =>
    refine List.Subset.trans (ih (g.takeAll r).2) fun l hl => ?_
    exact (g.perm_takeAll r).mem_iff.mpr (List.mem_append_right _ hl)

theorem clear_eq_self {rs : List NodeRef} (h : ∀ r ∈ rs, r ∉ g.nodes) : g.clear rs = g := by
  induction rs with
  | nil => rfl
  | cons r rs ih =>
    rw [List.forall_mem_cons] at h
    rw [clear, List.foldl_cons, takeAll_eq_self h.1]
    exact ih h.2

namespace Proper

variable (h : g.Proper)
include h

theorem clear (rs : List NodeRef) : (g.clear rs).Proper := by
  induction rs generalizing g with
  | nil => exact h
  | cons r rs ih => exact ih (h.takeAll r)

theorem mem_nodes_clear {rs : List NodeRef} (hx : x ∈ (g.clear rs).nodes) : x ∈ g.nodes ∧ x ∉ rs := by
  induction rs generalizing g with
  | nil => exact ⟨hx, List.not_mem_nil⟩
  | cons r rs ih =>
    obtain ⟨hm, hn⟩ := ih (h.takeAll r) hx
    refine ⟨nodes_takeAll_subset g r hm, fun he => (List.mem_cons.mp he).elim (fun he => ?_) hn⟩
    exact h.notMem_takeAll r (he ▸ hm)

theorem ofNode_clear (rs : List NodeRef) (x : NodeRef) :
    (g.clear rs).ofNode x = if x ∈ rs then [] else g.ofNode x := by
  induction rs generalizing g with
  | nil => rfl
  | cons r rs ih =>
    rw [Registry.clear, List.foldl_cons, ← Registry.clear, ih (h.takeAll r), ofNode_takeAll h.nodes]
    by_cases hr : x = r
    · simp [hr]
    · simp [hr]

theorem delegates_clear (rs : List NodeRef) (x : NodeRef) :
    (g.clear rs).delegates x = if x ∈ rs then [] else g.delegates x := by
  rw [delegates, h.ofNode_clear]
  split_ifs <;> rfl

/-- Nodes that have lost their listeners have none to lose. -/
theorem clear_clear (rs : List NodeRef) : (g.clear rs).clear rs = g.clear rs :=
  clear_eq_self fun _ hr hm => (h.mem_nodes_clear hm).2 hr

end Proper

end Registry

/-! ## All names -/

namespace Host

/-- The listeners that catch events, one for each delegated name. -/
def staff : List Listener := delegatedNames.map delegateListener

theorem nodup_delegatedNames : delegatedNames.Nodup := by decide +kernel

end Host

namespace Registry

open Host

variable {g : Registry} {scope x : NodeRef} {names : List String}

/-- The registry without the listeners of a node that catch events of some names. -/
def dismiss (scope : NodeRef) (names : List String) (g : Registry) : Registry :=
  names.foldl (fun g name => (g.remove scope name delegateHandler (!bubblesByName name)).2) g

/-- The registry with listeners of a node that catch events of some names. -/
def hire (scope : NodeRef) (names : List String) (g : Registry) : Registry :=
  names.foldl (fun g name => (g.add scope (delegateListener name)).2) g

theorem delegates_dismiss_filter (h : g.Proper) (names : List String) (x : NodeRef) :
    (g.dismiss scope names).delegates x =
      if x = scope then (g.delegates scope).filter fun l =>
        names.all fun name => !l.hasKey name delegateHandler (!bubblesByName name)
      else g.delegates x := by
  induction names generalizing g with
  | nil =>
    split_ifs with hx
    · rw [hx]
      exact (List.filter_eq_self.mpr fun _ _ => rfl).symm
    · rfl
  | cons name names ih =>
    rw [dismiss, List.foldl_cons, ← dismiss, ih (h.remove scope _ _ _), delegates_remove h.nodes,
      delegates_remove h.nodes, if_pos rfl]
    split_ifs with hx
    · rw [List.filter_filter]
      refine List.filter_congr fun l _ => ?_
      rw [List.all_cons, Bool.and_comm]
    · rfl

/-- **A node whose listeners catch events of delegated names has none left when all are removed.** -/
theorem delegates_dismiss (h : g.Proper) (hs : ∀ l ∈ g.delegates scope, l ∈ staff) (x : NodeRef) :
    (g.dismiss scope delegatedNames).delegates x = if x = scope then [] else g.delegates x := by
  rw [delegates_dismiss_filter h]
  split_ifs with hx
  · refine List.filter_eq_nil_iff.mpr fun l hl => ?_
    obtain ⟨name, hname, rfl⟩ := List.mem_map.mp (hs l hl)
    rw [List.all_eq_true]
    intro hall
    have hkey : (delegateListener name).hasKey name delegateHandler (!bubblesByName name) = true :=
      hasKey_iff.mpr ⟨rfl, rfl, rfl⟩
    have hnot := hall name hname
    rw [hkey] at hnot
    exact absurd hnot Bool.false_ne_true
  · rfl

theorem callers_dismiss (h : g.Proper) (scope : NodeRef) (names : List String) (x : NodeRef) :
    (g.dismiss scope names).callers x = g.callers x := by
  induction names generalizing g with
  | nil => rfl
  | cons name names ih => exact (ih (h.remove scope _ _ _)).trans (callers_remove h.nodes scope name _ x)

theorem callers_hire (h : g.Proper) (scope : NodeRef) (names : List String) (x : NodeRef) :
    (g.hire scope names).callers x = g.callers x := by
  induction names generalizing g with
  | nil => rfl
  | cons name names ih => exact (ih (h.add scope _)).trans (callers_add h.nodes rfl scope x)

theorem Proper.dismiss (h : g.Proper) (scope : NodeRef) (names : List String) : (g.dismiss scope names).Proper := by
  induction names generalizing g with
  | nil => exact h
  | cons name names ih => exact ih (h.remove scope _ _ _)

theorem delegates_hire_append (h : g.Proper) {before : List String} (hn : (before ++ names).Nodup)
    (hg : g.delegates scope = before.map delegateListener) (x : NodeRef) :
    (g.hire scope names).delegates x =
      if x = scope then (before ++ names).map delegateListener else g.delegates x := by
  induction names generalizing g before with
  | nil =>
    split_ifs with hx
    · rw [List.append_nil, ← hg, hx]
      rfl
    · rfl
  | cons name names ih =>
    have hnew : (g.delegates scope).any
        (·.hasKey name delegateHandler (delegateListener name).options.capture) = false := by
      rw [hg, List.any_eq_false]
      intro l hl hk
      obtain ⟨other, hother, rfl⟩ := List.mem_map.mp hl
      obtain rfl : other = name := (hasKey_iff.mp hk).1
      exact (List.nodup_append.mp hn).2.2 other hother other List.mem_cons_self rfl
    have hadd := delegates_add h.nodes (l := delegateListener name) rfl hnew
    have happend : before ++ name :: names = (before ++ [name]) ++ names := by
      rw [List.append_assoc, List.singleton_append]
    have hstep : (g.add scope (delegateListener name)).2.delegates scope =
        (before ++ [name]).map delegateListener := by
      rw [hadd, if_pos rfl, hg, List.map_append]
      rfl
    rw [hire, List.foldl_cons, ← hire, ih (h.add scope _) (happend ▸ hn) hstep, happend, hadd]
    split_ifs <;> rfl

/-- **A node without listeners that catch events has one for each delegated name when all are added.** -/
theorem delegates_hire (h : g.Proper) (hs : g.delegates scope = []) (x : NodeRef) :
    (g.hire scope delegatedNames).delegates x = if x = scope then staff else g.delegates x := by
  have hnames : ([] ++ delegatedNames).Nodup := nodup_delegatedNames
  exact delegates_hire_append h hnames hs x

/-! ## One node that has them all -/

/-- Lists under different keys, of which only those of one key have members of a kind. -/
theorem filter_flatMap_of_lookup {es : List (NodeRef × List Listener)} {kind : Listener → Bool} {r : NodeRef}
    (h : (es.map (·.1)).Nodup) (hnone : ∀ e ∈ es, e.1 ≠ r → e.2.filter kind = []) :
    (es.flatMap (·.2)).filter kind = ((es.lookup r).getD []).filter kind := by
  rw [filter_flatMap_of_key h (fun ls => mem_iff_lookup h) hnone]
  cases es.lookup r <;> rfl

/-- **Where one node has all listeners that catch events, the registry has no others.** -/
theorem Proper.filter_installed (h : g.Proper) {r : NodeRef} (hnone : ∀ x, x ≠ r → g.delegates x = []) :
    g.installed.filter (·.handler == delegateHandler) = g.delegates r := by
  refine filter_flatMap_of_lookup h.nodes fun e he hne => ?_
  have hother := hnone e.1 hne
  rwa [delegates, ofNode, (mem_iff_lookup h.nodes).mp he] at hother

/-- One of the listeners that catch events is for each delegated name. -/
theorem countP_staff {name : String} (hname : name ∈ delegatedNames) :
    staff.countP (fun l => l.type == name) = 1 := by
  rw [staff, List.countP_map]
  exact (List.count_eq_one_of_mem nodup_delegatedNames hname :)

end Registry

end DomHost
