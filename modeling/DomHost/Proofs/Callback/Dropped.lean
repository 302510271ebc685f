import DomHost.Proofs.Scene.Sound
import DomHost.Proofs.Listener.Delegates

/-!
# Counting the listeners that are dropped

Nodes lose their listeners in two ways. A scene that gives up nodes lowers the count of every closure that one
of the listeners calls; a registry that is cleared knows nothing of closures. Either way the number of
listeners falls by those that the nodes had.

* `Registry.usesAt`: the listeners of some nodes that call a closure;
* **`Registry.Proper.uses_clear`**: what a registry has left;
* `CallbackTable.count_detach`, `Scene.count_foldl_dropListener`: what a table of closures counts;
* **`Scene.count_foldl_strip`**: what it counts when nodes are given up.
-/

namespace DomHost

variable {κ α : Type} {c : CallbackId}

/-! ## Registries -/

namespace Registry

variable {g : Registry} {r : NodeRef} {rs : List NodeRef}

/-- The number of listeners of some nodes that call a closure. -/
def usesAt (g : Registry) (rs : List NodeRef) (c : CallbackId) : Nat :=
  (rs.flatMap g.ofNode).countP (·.handler == c.handler)

theorem usesAt_cons (g : Registry) (r : NodeRef) (rs : List NodeRef) (c : CallbackId) :
    g.usesAt (r :: rs) c = (g.ofNode r).countP (·.handler == c.handler) + g.usesAt rs c := by
  rw [usesAt, List.flatMap_cons, List.countP_append, usesAt]

theorem usesAt_eq_zero_iff : g.usesAt rs c = 0 ↔ ∀ r ∈ rs, ∀ l ∈ g.ofNode r, l.handler ≠ c.handler := by
  simp only [usesAt, List.countP_eq_zero, List.mem_flatMap, beq_iff_eq, forall_exists_index, and_imp]
  exact ⟨fun h r hr l hl => h l r hr hl, fun h l r hr hl => h r hr l hl⟩

/-- The listeners that are taken are those of the node. -/
theorem countP_takeAll (g : Registry) (r : NodeRef) (p : Listener → Bool) :
    (g.takeAll r).1.countP p = (g.ofNode r).countP p :=
  (List.mergeSort_perm (g.ofNode r) fun a b => !decide (b.type < a.type)).countP_eq p

namespace Proper

variable (h : g.Proper)
include h

/-- Other nodes keep their listeners. -/
theorem usesAt_takeAll (hr : r ∉ rs) (c : CallbackId) : (g.takeAll r).2.usesAt rs c = g.usesAt rs c := by
  have hsame : rs.flatMap (g.takeAll r).2.ofNode = rs.flatMap g.ofNode := by
    refine List.flatMap_congr fun x hx => ?_
    rw [ofNode_takeAll h.nodes, if_neg fun he : x = r => hr (he ▸ hx)]
  rw [usesAt, usesAt, hsame]

/-- **The listeners that are left and those that were on the nodes are all there were.** -/
theorem uses_clear (hn : rs.Nodup) (c : CallbackId) : g.uses c = (g.clear rs).uses c + g.usesAt rs c := by
  induction rs generalizing g with
  | nil => rfl
  | cons r rs ih =>
    obtain ⟨hr, hn⟩ := List.nodup_cons.mp hn
    have hrest := ih (h.takeAll r) hn
    rw [h.usesAt_takeAll hr] at hrest
    have hone : g.uses c = (g.ofNode r).countP (·.handler == c.handler) + (g.takeAll r).2.uses c := by
      rw [uses, (g.perm_takeAll r).countP_eq, List.countP_append, countP_takeAll, uses]
    have hclear : g.clear (r :: rs) = (g.takeAll r).2.clear rs := rfl
    rw [hone, hrest, usesAt_cons, hclear]
    omega

end Proper

end Registry

/-! ## Closures -/

theorem CallbackTable.count_detach {t t' : CallbackTable α} {k : CallbackHandle α} {d : CallbackId}
    (h : t.detach d = .ok (k, t')) (c : CallbackId) : t'.count c = t.count c - if c = d then 1 else 0 := by
  unfold detach at h
  split at h
  · exact absurd h (by simp)
  rename_i k₀ hl
  obtain rfl := id_of_live? hl
  simp only at h
  split at h
  · rename_i hz
    obtain ⟨-, rfl⟩ := Prod.mk.inj (Except.ok.inj h)
    rw [count, count, live?_of_filter rfl]
    split_ifs with hc
    · have hlast : k₀.count - 1 = 0 := hz
      simp [hc, hl, hlast]
    · rfl
  · obtain ⟨-, rfl⟩ := Prod.mk.inj (Except.ok.inj h)
    rw [count, count, live?_setLive, show k₀.drop.id = k₀.id from rfl]
    split_ifs with hc
    · simp [hc, hl, CallbackHandle.drop]
    · rfl

namespace Scene

variable {s : Scene κ} {ls : List Listener}

theorem count_dropListener {l : Listener} (ho : Ours l) (t : CallbackTable κ) (c : CallbackId) :
    (dropListener t l).count c = t.count c - if l.handler = c.handler then 1 else 0 := by
  rcases ho.2 with hd | ⟨d, hd⟩
  · have hsame : dropListener t l = t := by simp only [dropListener, hd, Handler.ofId_delegateHandler]
    rw [hsame, hd, if_neg (delegateHandler_ne_handler c), Nat.sub_zero]
  · have hiff : l.handler = c.handler ↔ c = d := by
      rw [hd, CallbackId.handler_injective.eq_iff, eq_comm]
    rw [if_congr hiff rfl rfl]
    cases hdetach : t.detach d with
    | ok e =>
      have hdrop : dropListener t l = e.2 := by simp only [dropListener, hd, Handler.ofId_handler, hdetach]
      rw [hdrop, CallbackTable.count_detach hdetach]
    | error e =>
      have hsame : dropListener t l = t := by simp only [dropListener, hd, Handler.ofId_handler, hdetach]
      -- a closure that is not in use is not counted
      have hnone : t.live? d = none := by
        unfold CallbackTable.detach at hdetach
        split at hdetach
        · assumption
        · simp only at hdetach
          split at hdetach <;> simp at hdetach
      rw [hsame]
      split_ifs with hc
      · simp [hc, CallbackTable.count, hnone]
      · rfl

theorem count_foldl_dropListener (ho : ∀ l ∈ ls, Ours l) (t : CallbackTable κ) (c : CallbackId) :
    (ls.foldl dropListener t).count c = t.count c - ls.countP (·.handler == c.handler) := by
  induction ls generalizing t with
  | nil => rfl
  | cons l ls ih =>
    obtain ⟨hl, hls⟩ := List.forall_mem_cons.mp ho
    rw [List.foldl_cons, ih hls, count_dropListener hl, List.countP_cons]
    simp only [beq_iff_eq]
    omega

/-- **A closure is counted by the listeners of nodes until the nodes are given up.** -/
theorem count_foldl_strip (hp : s.document.listeners.Proper)
    (ho : ∀ l ∈ s.document.listeners.installed, Ours l) {rs : List NodeRef} (hn : rs.Nodup) (c : CallbackId) :
    (rs.foldl strip s).callbacks.count c = s.callbacks.count c - s.document.listeners.usesAt rs c := by
  induction rs generalizing s with
  | nil => rfl
  | cons r rs ih =>
    obtain ⟨hr, hn⟩ := List.nodup_cons.mp hn
    have hperm := s.document.listeners.perm_takeAll r
    have htaken : (s.strip r).callbacks.count c =
        s.callbacks.count c - (s.document.listeners.ofNode r).countP (·.handler == c.handler) := by
      rw [← Registry.countP_takeAll]
      exact count_foldl_dropListener (fun l hl => ho l (hperm.mem_iff.mpr (List.mem_append_left _ hl))) _ c
    have hrest := ih (s := s.strip r) (hp.takeAll r)
      (fun l hl => ho l (hperm.mem_iff.mpr (List.mem_append_right _ hl))) hn
    have hsame : (s.strip r).document.listeners.usesAt rs c = s.document.listeners.usesAt rs c :=
      hp.usesAt_takeAll hr c
    rw [List.foldl_cons, hrest, htaken, hsame, Registry.usesAt_cons]
    omega

end Scene

end DomHost
