import DomHost.Proofs.Listener
import Mathlib.Data.String.Basic

/-!
# Listeners as one list

The listeners of all nodes are one list, in the order in which they were added. Requests append to it, delete from it
and read from it, and each request has one possible answer.

* `Roll`, `Roll.key`, `Roll.listenersFor`: the list;
* `Roll.Step`, `Roll.Runs`: what requests do to it, and the answers to them;
* **`eq_of_filter_type`**, **`Roll.perm_of_listenersFor`**: lists that are known from their listeners for each type;
* `Roll.Runs.distinct`, **`Roll.Runs.unique`**: no two listeners share a key, and one row of answers is possible.
-/

namespace DomHost

/-- The listeners of all nodes, each with its node, oldest first. -/
abbrev Roll := List (NodeRef × Listener)

/-- A request to a registry of listeners. -/
inductive ListenerRequest where
  | add (node : NodeRef) (l : Listener)
  | remove (node : NodeRef) (type : String) (handler : HandlerId) (capture : Bool)
  | takeAll (node : NodeRef)
  | listenersFor (node : NodeRef) (type : String)

/-- The answer to a request. -/
inductive ListenerAnswer where
  | done (changed : Bool)
  | listeners (ls : List Listener)
deriving DecidableEq

/-! ## Listeners by type -/

section Types

variable {a b : Listener} {ls l l' : List Listener}

theorem typeOrder_iff : (!decide (b.type < a.type)) = true ↔ a.type ≤ b.type := by
  rw [Bool.not_eq_true', decide_eq_false_iff_not, not_lt]

theorem typeOrder_trans (a b c : Listener) (hab : (!decide (b.type < a.type)) = true)
    (hbc : (!decide (c.type < b.type)) = true) : (!decide (c.type < a.type)) = true :=
  typeOrder_iff.mpr ((typeOrder_iff.mp hab).trans (typeOrder_iff.mp hbc))

theorem typeOrder_total (a b : Listener) : (!decide (b.type < a.type) || !decide (a.type < b.type)) = true := by
  rw [Bool.or_eq_true, typeOrder_iff, typeOrder_iff]
  exact le_total _ _

/-- Listeners are listed by type. -/
theorem pairwise_mergeSort_type (ls : List Listener) :
    (ls.mergeSort fun a b => !decide (b.type < a.type)).Pairwise fun a b => a.type ≤ b.type :=
  (List.pairwise_mergeSort typeOrder_trans typeOrder_total ls).imp typeOrder_iff.mp

/-- For one type, they stay in order. -/
theorem filter_mergeSort_type (ls : List Listener) (type : String) :
    (ls.mergeSort fun a b => !decide (b.type < a.type)).filter (·.type == type) = ls.filter (·.type == type) := by
  have hsame : (ls.filter (·.type == type)).Pairwise fun a b => (!decide (b.type < a.type)) = true := by
    refine List.pairwise_of_forall_mem_list fun a ha b hb => typeOrder_iff.mpr ?_
    rw [beq_iff_eq.mp (List.mem_filter.mp ha).2, beq_iff_eq.mp (List.mem_filter.mp hb).2]
  have hsub := (List.sublist_mergeSort typeOrder_trans typeOrder_total hsame List.filter_sublist).filter (·.type == type)
  rw [List.filter_filter] at hsub
  simp only [Bool.and_self] at hsub
  exact (hsub.eq_of_length ((List.mergeSort_perm ls _).filter _).length_eq.symm).symm

theorem type_le_of_filter_type (hl : (a :: l).Pairwise fun a b => a.type ≤ b.type)
    (h : ∀ type, (a :: l).filter (·.type == type) = (b :: l').filter (·.type == type)) : a.type ≤ b.type := by
  have hb : b ∈ (a :: l).filter (·.type == b.type) := by
    rw [h]
    exact List.mem_filter.mpr ⟨List.mem_cons_self, beq_self_eq_true _⟩
  rcases List.mem_cons.mp (List.mem_filter.mp hb).1 with rfl | hmem
  · exact le_refl _
  · exact (List.pairwise_cons.mp hl).1 b hmem

/-- **Listeners in the order of their types are known from those of each type.** -/
theorem eq_of_filter_type (hl : l.Pairwise fun a b => a.type ≤ b.type) (hl' : l'.Pairwise fun a b => a.type ≤ b.type)
    (h : ∀ type, l.filter (·.type == type) = l'.filter (·.type == type)) : l = l' := by
  induction l generalizing l' with
  | nil =>
    cases l' with
    | nil => rfl
    | cons b l' => simpa using h b.type
  | cons a l ih =>
    cases l' with
    | nil => simpa using h a.type
    | cons b l' =>
      have htype : a.type = b.type :=
        le_antisymm (type_le_of_filter_type hl h) (type_le_of_filter_type hl' fun type => (h type).symm)
      have hfirst := h a.type
      rw [List.filter_cons_of_pos (by exact beq_self_eq_true _),
        List.filter_cons_of_pos (by exact beq_iff_eq.mpr htype.symm)] at hfirst
      obtain rfl := (List.cons.inj hfirst).1
      refine congrArg _ (ih (List.pairwise_cons.mp hl).2 (List.pairwise_cons.mp hl').2 fun type => ?_)
      have hrest := h type
      rw [List.filter_cons, List.filter_cons] at hrest
      split at hrest
      · exact (List.cons.inj hrest).2
      · exact hrest

end Types

namespace Roll

open Registry

variable {roll front back r r' : Roll} {e : NodeRef × Listener} {node x : NodeRef} {l : Listener} {type : String}
  {handler : HandlerId} {capture : Bool}

/-! ## The list -/

/-- What an entry is found by. -/
def key (e : NodeRef × Listener) : NodeRef × String × HandlerId × Bool :=
  (e.1, e.2.type, e.2.handler, e.2.options.capture)

/-- No two listeners of a node have the same type, handler and phase. -/
def Distinct (roll : Roll) : Prop := (roll.map key).Nodup

/-- The listeners of a node for an event type, oldest first. -/
def listenersFor (roll : Roll) (node : NodeRef) (type : String) : List Listener :=
  (roll.filter fun e => e.1 == node && e.2.type == type).map (·.2)

/-- What a request does to the list, and the answer to it. -/
inductive Step (roll : Roll) : ListenerRequest → ListenerAnswer → Roll → Prop
  | added {node : NodeRef} {l : Listener} (hk : key (node, l) ∉ roll.map key) :
      Step roll (.add node l) (.done true) (roll ++ [(node, l)])
  | refused {node : NodeRef} {l : Listener} (hk : key (node, l) ∈ roll.map key) :
      Step roll (.add node l) (.done false) roll
  | removed {e : NodeRef × Listener} {front back : Roll} (hr : roll = front ++ e :: back) :
      Step roll (.remove e.1 e.2.type e.2.handler e.2.options.capture) (.done true) (front ++ back)
  | missed {node : NodeRef} {type : String} {handler : HandlerId} {capture : Bool}
      (hk : (node, type, handler, capture) ∉ roll.map key) :
      Step roll (.remove node type handler capture) (.done false) roll
  | taken {node : NodeRef} {ls : List Listener} (hs : ls.Pairwise fun a b => a.type ≤ b.type)
      (hl : ∀ type, ls.filter (·.type == type) = roll.listenersFor node type) :
      Step roll (.takeAll node) (.listeners ls) (roll.filter (·.1 != node))
  | got {node : NodeRef} {type : String} :
      Step roll (.listenersFor node type) (.listeners (roll.listenersFor node type)) roll

/-- What a row of requests does to the list, and the answers to them. -/
inductive Runs : Roll → List ListenerRequest → List ListenerAnswer → Roll → Prop
  | nil {roll : Roll} : Runs roll [] [] roll
  | cons {roll r r' : Roll} {q : ListenerRequest} {qs : List ListenerRequest} {a : ListenerAnswer}
      {as : List ListenerAnswer} (hq : Step roll q a r) (hqs : Runs r qs as r') : Runs roll (q :: qs) (a :: as) r'

theorem key_eq_iff : key (x, l) = (node, type, handler, capture) ↔
    x = node ∧ l.hasKey type handler capture = true := by
  simp only [key, Prod.mk.injEq, hasKey_iff]

theorem mem_listenersFor_iff : l ∈ roll.listenersFor node type ↔ (node, l) ∈ roll ∧ l.type = type := by
  simp only [listenersFor, List.mem_map, List.mem_filter, Bool.and_eq_true, beq_iff_eq]
  constructor
  · rintro ⟨e, ⟨he, rfl, rfl⟩, rfl⟩
    exact ⟨he, rfl⟩
  · rintro ⟨he, rfl⟩
    exact ⟨_, ⟨he, rfl, rfl⟩, rfl⟩

theorem any_hasKey_iff : (roll.listenersFor node type).any (·.hasKey type handler capture) = true ↔
    (node, type, handler, capture) ∈ roll.map key := by
  rw [List.any_eq_true, List.mem_map]
  constructor
  · rintro ⟨l, hl, hkey⟩
    exact ⟨_, (mem_listenersFor_iff.mp hl).1, key_eq_iff.mpr ⟨rfl, hkey⟩⟩
  · rintro ⟨⟨x, l⟩, hl, he⟩
    obtain ⟨rfl, hkey⟩ := key_eq_iff.mp he
    exact ⟨l, mem_listenersFor_iff.mpr ⟨hl, (hasKey_iff.mp hkey).1⟩, hkey⟩

/-- A listener more is the last one of its node and type. -/
theorem listenersFor_concat (roll : Roll) (node x : NodeRef) (l : Listener) (type : String) :
    listenersFor (roll ++ [(node, l)]) x type =
      roll.listenersFor x type ++ if x = node ∧ type = l.type then [l] else [] := by
  rw [listenersFor, List.filter_append, List.map_append, listenersFor, List.filter_cons]
  by_cases hkey : x = node ∧ type = l.type
  · simp [hkey]
  · rw [if_neg hkey, if_neg]
    · rfl
    · rw [Bool.and_eq_true, beq_iff_eq, beq_iff_eq]
      exact fun h => hkey ⟨h.1.symm, h.2.symm⟩

theorem listenersFor_filter (roll : Roll) (p : NodeRef × Listener → Bool) (node : NodeRef) (type : String) :
    listenersFor (roll.filter p) node type = (roll.listenersFor node type).filter fun l => p (node, l) := by
  rw [listenersFor, listenersFor, List.filter_filter, List.filter_map, List.filter_filter]
  refine congrArg _ (List.filter_congr fun e _ => ?_)
  by_cases he : e.1 = node
  · subst he
    simp [Bool.and_comm]
  · simp [beq_eq_false_iff_ne.mpr he]

/-- **The list is known, but for its order, from the listeners of each node and type.** -/
theorem perm_of_listenersFor (h : ∀ node type, roll.listenersFor node type = r.listenersFor node type) :
    roll.Perm r := by
  have hcount : ∀ (roll : Roll) (e : NodeRef × Listener),
      roll.count e = (roll.listenersFor e.1 e.2.type).count e.2 := by
    intro roll e
    rw [listenersFor, List.count, List.count, List.countP_map, List.countP_filter]
    refine List.countP_congr fun e' _ => ?_
    simp only [Function.comp_apply, beq_iff_eq, Bool.and_eq_true]
    constructor
    · rintro rfl
      exact ⟨rfl, rfl, rfl⟩
    · rintro ⟨hl, hnode, -⟩
      exact Prod.ext hnode hl
  exact List.perm_iff_count.mpr fun e => by rw [hcount, hcount, h]

/-! ## Steps -/

/-- Where keys are not shared, an entry is the only one with its key. -/
theorem Distinct.filter_key (h : Distinct (front ++ e :: back)) :
    (front ++ e :: back).filter (fun e' => key e' != key e) = front ++ back := by
  rw [Distinct, List.map_append, List.map_cons, List.nodup_middle, List.nodup_cons, ← List.map_append] at h
  have hothers : ∀ e' ∈ front ++ back, (key e' != key e) = true := fun e' he' =>
    bne_iff_ne.mpr fun heq => h.1 (heq ▸ List.mem_map_of_mem he')
  rw [List.filter_append, List.filter_cons_of_neg (by simp), ← List.filter_append, List.filter_eq_self.mpr hothers]

theorem Step.distinct {q : ListenerRequest} {a : ListenerAnswer} (h : Step roll q a r) (hd : roll.Distinct) :
    r.Distinct := by
  cases h with
  | added hk =>
    rw [Distinct, List.map_append, List.map_singleton, ← List.concat_eq_append]
    exact hd.concat hk
  | refused | missed | got => exact hd
  | removed hr =>
    subst hr
    exact hd.sublist (((List.sublist_cons_self _ _).append_left _).map _)
  | taken => exact hd.sublist (List.filter_sublist.map _)

/-- To remove a listener is to leave out what has its key. -/
theorem step_remove (hd : roll.Distinct) (node : NodeRef) (type : String) (handler : HandlerId) (capture : Bool) :
    Step roll (.remove node type handler capture)
      (.done ((roll.listenersFor node type).any (·.hasKey type handler capture)))
      (roll.filter fun e => key e != (node, type, handler, capture)) := by
  by_cases hk : (node, type, handler, capture) ∈ roll.map key
  · obtain ⟨e, he, hkey⟩ := List.mem_map.mp hk
    obtain ⟨rfl, rfl, rfl, rfl⟩ := by simpa only [key, Prod.mk.injEq] using hkey
    obtain ⟨front, back, hr⟩ := List.append_of_mem he
    have hdistinct : Distinct (front ++ e :: back) := hr ▸ hd
    have hfilter : roll.filter (fun e' => key e' != key e) = front ++ back := by rw [hr, hdistinct.filter_key]
    rw [any_hasKey_iff.mpr hk]
    exact hfilter ▸ .removed hr
  · have hall : roll.filter (fun e => key e != (node, type, handler, capture)) = roll :=
      List.filter_eq_self.mpr fun e he => bne_iff_ne.mpr fun hkey => hk (hkey ▸ List.mem_map_of_mem he)
    rw [hall, Bool.eq_false_iff.mpr fun hany => hk (any_hasKey_iff.mp hany)]
    exact .missed hk

/-- To remove a listener is to leave out what has its key, and to tell whether there was anything. -/
theorem Step.eq_of_remove {a : ListenerAnswer} (hd : roll.Distinct)
    (h : Step roll (.remove node type handler capture) a r) :
    a = .done (decide ((node, type, handler, capture) ∈ roll.map key)) ∧
      r = roll.filter fun e => key e != (node, type, handler, capture) := by
  generalize hq : ListenerRequest.remove node type handler capture = q at h
  cases h with
  | @removed e front back hr =>
    obtain ⟨rfl, rfl, rfl, rfl⟩ := ListenerRequest.remove.inj hq
    subst hr
    have hmem : key e ∈ List.map key (front ++ e :: back) := List.mem_map_of_mem (by simp)
    exact ⟨congrArg _ (decide_eq_true hmem).symm, hd.filter_key.symm⟩
  | missed hk =>
    obtain ⟨rfl, rfl, rfl, rfl⟩ := ListenerRequest.remove.inj hq
    refine ⟨congrArg _ (decide_eq_false hk).symm, (List.filter_eq_self.mpr fun e he => ?_).symm⟩
    exact bne_iff_ne.mpr fun hkey => hk (hkey ▸ List.mem_map_of_mem he)
  | _ => cases hq

theorem Step.unique {q : ListenerRequest} {a a' : ListenerAnswer} (hd : roll.Distinct) (h : Step roll q a r)
    (h' : Step roll q a' r') : a = a' ∧ r = r' := by
  cases q with
  | add node l =>
    cases h with
    | added hk =>
      cases h' with
      | added => exact ⟨rfl, rfl⟩
      | refused hk' => exact absurd hk' hk
    | refused hk =>
      cases h' with
      | added hk' => exact absurd hk hk'
      | refused => exact ⟨rfl, rfl⟩
  | remove node type handler capture =>
    obtain ⟨rfl, rfl⟩ := h.eq_of_remove hd
    obtain ⟨rfl, rfl⟩ := h'.eq_of_remove hd
    exact ⟨rfl, rfl⟩
  | takeAll node =>
    cases h with
    | taken hs hl =>
      cases h' with
      | taken hs' hl' => exact ⟨by rw [eq_of_filter_type hs hs' fun type => (hl type).trans (hl' type).symm], rfl⟩
  | listenersFor node type =>
    cases h
    cases h'
    exact ⟨rfl, rfl⟩

theorem Runs.distinct {qs : List ListenerRequest} {as : List ListenerAnswer} (h : Runs roll qs as r)
    (hd : roll.Distinct) : r.Distinct := by
  induction h with
  | nil => exact hd
  | cons hq _ ih => exact ih (hq.distinct hd)

/-- **A list gives one row of answers to a row of requests, and is left in one way.** -/
theorem Runs.unique {qs : List ListenerRequest} {as as' : List ListenerAnswer} (hd : roll.Distinct)
    (h : Runs roll qs as r) (h' : Runs roll qs as' r') : as = as' ∧ r = r' := by
  induction h generalizing as' with
  | nil =>
    cases h'
    exact ⟨rfl, rfl⟩
  | cons hq _ ih =>
    cases h' with
    | cons hq' hqs' =>
      obtain ⟨rfl, rfl⟩ := hq.unique hd hq'
      obtain ⟨rfl, rfl⟩ := ih (hq.distinct hd) hqs'
      exact ⟨rfl, rfl⟩

end Roll

end DomHost
