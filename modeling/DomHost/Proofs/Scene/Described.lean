import DomHost.Proofs.Scene.Saved
import DomHost.Proofs.Scene.Tidiness

/-!
# Templates stay as they are described

The tree of a template is the one that its descriptors list. This is so when the template is defined, also
over another one, and as the trees of templates are kept, it stays so.

* `Scene.ends_assemble_accepted`: whoever builds something of descriptors accepts them all;
* `Scene.Depicts`, `Scene.Described`: a template, and every template has the tree that it describes;
* `Scene.Depicting`: a step after which the templates that are new have it;
* **`Scene.depicts_assemble`**, **`Scene.Sound.depicting_saveTemplate`**: defining a template is such a step.
-/

namespace DomHost

theorem Ends.const {ε σ α : Type} {x : EStateM ε σ α} {s : σ} {P : Prop} (h : P) :
    Ends x s (fun _ _ => P) fun _ => True :=
  Ends.trivial.mono (fun _ _ _ => h) fun _ _ => True.intro

/-- What every round of a loop shows holds for all of them. -/
theorem Ends.forM_mem {ε σ α : Type} {f : α → EStateM ε σ PUnit} {P : α → Prop}
    (hf : ∀ a s, Ends (f a) s (fun _ _ => P a) fun _ => True) (l : List α) (s : σ) :
    Ends (l.forM f) s (fun _ _ => ∀ a ∈ l, P a) fun _ => True := by
  induction l generalizing s with
  | nil => exact Ends.pure (by simp)
  | cons a l ih =>
    refine (hf a s).bind (Q := fun _ _ => ∀ b ∈ a :: l, P b) fun _ t ha => ?_
    exact (ih t).mono (fun _ _ hl => List.forall_mem_cons.mpr ⟨ha, hl⟩) fun _ _ => True.intro

namespace Scene

variable {κ α : Type} {closed : Prop} {s t : Scene κ} {ts : List (Node × Forest Node)} {r : NodeRef}
  {number : UInt32} {tm : Template}

/-! ## Accepted descriptors -/

/-- What an operation on the store shows, the same operation on the scene shows. -/
theorem ends_onStore_fact {x : StoreM α} {P : Prop} (s : Scene κ)
    (hx : Ends x s.store (fun _ _ => P) fun _ => True) :
    Ends (onDocument (Document.onStore x)) s (fun _ _ => P) fun _ => True :=
  (ends_onStore s.over_self hx).mono (fun _ _ ho => ho.document.store) fun _ _ => True.intro

/-- Whoever creates an element accepts its tag. -/
theorem ends_newElement_bare (s : Scene κ) (tag : String) (ns : Option String) :
    Ends (newElement tag ns) s (fun _ _ => ∃ e, Descriptor.bare tag ns = .ok e) fun _ => True := by
  unfold newElement
  cases ns with
  | some ns =>
    refine ends_onStore_fact s ?_
    unfold Store.createElementNs
    refine (Ends.liftResult (Q := fun a _ => QualifiedName.extract (some ns) tag = .ok a) (fun _ h => h)
      True.intro).bind fun name _ hname => Ends.modifyGet ?_
    exact ⟨Store.namedElement name, by rw [Descriptor.bare, hname]; rfl⟩
  | none =>
    have hname : Ends (liftResult (validateName tag) : DocumentM Unit) s.document
        (fun _ => Document.Over s.document.listeners fun _ => ∃ e, Descriptor.bare tag none = .ok e)
        (Document.Over s.document.listeners fun _ => True) :=
      Ends.liftResult (fun _ h => ⟨rfl, Store.htmlElement tag, by rw [Descriptor.bare, h]; rfl⟩) ⟨rfl, True.intro⟩
    refine ((ends_onDocument s.over_self hname).mono (fun _ _ ho => ho.document.store) fun _ _ => True.intro).bind ?_
    exact fun _ t he => ends_onStore_fact t (Ends.modifyGet he)

/-- Whoever sets an attribute accepts its name. -/
theorem ends_writeAttribute_attach (s : Scene κ) (r : NodeRef) (a : TemplateAttribute) :
    Ends (writeAttribute r a.name a.value a.ns) s (fun _ _ => ∀ e, ∃ e', Descriptor.attach e a = .ok e')
      fun _ => True := by
  obtain ⟨name, value, ns⟩ := a
  unfold writeAttribute
  cases ns with
  | some ns =>
    refine ends_onStore_fact s ?_
    unfold Store.setAttributeNs
    refine (Ends.liftResult (Q := fun a _ => QualifiedName.extract (some ns) name = .ok a) (fun _ h => h)
      True.intro).bind fun q _ hname => Ends.const fun e => ?_
    exact ⟨e.setAttr ⟨q.localName, q.qualifier, q.ns, value⟩, by simp only [Descriptor.attach, hname]; rfl⟩
  | none =>
    refine ends_onStore_fact s ?_
    unfold Store.setAttribute
    refine (Ends.liftResult (Q := fun a _ => validateName name = .ok a) (fun _ h => h)
      True.intro).bind fun u _ hname => Ends.const fun e => ?_
    exact ⟨e.setAttr (.plain (Store.attributeName e name) value), by simp only [Descriptor.attach, hname]; rfl⟩

theorem exists_foldlM_attach {attributes : List TemplateAttribute}
    (h : ∀ a ∈ attributes, ∀ e, ∃ e', Descriptor.attach e a = .ok e') (e : Element) :
    ∃ e', attributes.foldlM Descriptor.attach e = .ok e' := by
  induction attributes generalizing e with
  | nil => exact ⟨e, rfl⟩
  | cons a attributes ih =>
    obtain ⟨ha, hrest⟩ := List.forall_mem_cons.mp h
    obtain ⟨e₁, he₁⟩ := ha e
    obtain ⟨e', he'⟩ := ih hrest e₁
    exact ⟨e', by rw [List.foldlM_cons, he₁]; exact he'⟩

/-- Whoever creates the node of a descriptor accepts it. -/
theorem ends_createDescribed_accepted (s : Scene κ) (d : Descriptor) :
    Ends (createDescribed d) s (fun _ _ => d.Accepted) fun _ => True := by
  unfold createDescribed
  cases d with
  | element tag ns attributes count slot =>
    refine (ends_newElement_bare s tag ns).bind fun r t ⟨e, hbare⟩ => ?_
    refine (Ends.forM_mem (fun a s => ends_writeAttribute_attach s r a) attributes t).bind fun _ u hattr => ?_
    obtain ⟨e', he'⟩ := exists_foldlM_attach hattr e
    refine Ends.pure ⟨.element e', ?_⟩
    rw [Descriptor.data, hbare]
    exact congrArg (Except.map NodeData.element) he'
  | text t => exact Ends.const ⟨_, rfl⟩
  | dynamicText => exact Ends.const ⟨_, rfl⟩
  | placeholder => exact Ends.const ⟨_, rfl⟩

/-- **Whoever builds something of descriptors accepts them all.** -/
theorem ends_assemble_accepted (s : Scene κ) (total : Nat) (ds : List Descriptor) (a : Assembly) :
    Ends (assemble total ds a) s (fun _ _ => ∀ d ∈ ds, d.Accepted) fun _ => True := by
  induction ds generalizing a s with
  | nil => exact Ends.const (by simp)
  | cons d rest ih =>
    have hrest : d.Accepted → ∀ (a : Assembly) (s : Scene κ),
        Ends (assemble total rest a) s (fun _ _ => ∀ d' ∈ d :: rest, d'.Accepted) fun _ => True :=
      fun hd a s => (ih s a).mono (fun _ _ h => List.forall_mem_cons.mpr ⟨hd, h⟩) fun _ _ => True.intro
    unfold assemble
    refine (ends_createDescribed_accepted s d).bind fun r t hd => ?_
    exact Ends.ite (fun _ => hrest hd _ _) fun _ => Ends.trivial.bind fun w u _ => hrest hd _ _

/-! ## Described templates -/

/-- A tree is the one that a template describes. -/
def Depicts (s : Scene κ) (tm : Template) : Prop :=
  ∃ f tree, s.store.tree? tm.root = some tree ∧ tm.Describes f tree

/-- Every template has the tree that it describes. -/
def Described (s : Scene κ) : Prop := ∀ k tm, s.templates.get? k = some tm → s.Depicts tm

/-- **The one tree that is built of descriptors is the one that they list.** -/
theorem depicts_assemble (hs : s.store.WellFormed) {ds : List Descriptor} {a : Assembly} {root : NodeRef}
    (h : assemble ds.length ds {} s = .ok a t) (hroot : a.roots = [root]) : t.Depicts ⟨ds, root, a.slots⟩ := by
  have hok : ∀ d ∈ ds, d.Accepted := (ends_assemble_accepted s ds.length ds {}).ok h
  by_cases hlist : ∃ f, Complete f ∧ f.toList = ds
  · obtain ⟨f, hf, rfl⟩ := hlist
    rw [assemble_toList hs hf hok] at h
    obtain ⟨rfl, rfl⟩ := EStateM.Result.ok.inj h
    have hone : f.roots.length = 1 := by
      have hlen := congrArg List.length hroot
      rwa [List.length_map, ← Forest.length_roots_map (·.data), Store.map_data_plantRow, Forest.length_roots_map]
        at hlen
    obtain ⟨tree, hroots, htop, hdescribes⟩ := exists_described hf hok hone s.store
    obtain rfl : tree.1.ref = root := List.singleton_inj.mp (hroots.symm.trans hroot)
    have hrow := hs.plantRow (plantables_made hf hok)
    exact ⟨f, tree, hrow.tree?_eq_some (Forest.mem_trees_of_mem_tops htop), hdescribes⟩
  · obtain ⟨st, hrefused⟩ := assemble_malformed hs hok (fun f hf he => hlist ⟨f, hf, he⟩) ds.length
    rw [hrefused] at h
    cases h

/-- A template that is there was there before, or has the tree that it describes. -/
def Depicting (s t : Scene κ) : Prop :=
  ∀ k tm, t.templates.get? k = some tm → s.templates.get? k = some tm ∨ t.Depicts tm

theorem Depicting.of_eq (h : t.templates = s.templates) : s.Depicting t := fun _ _ htm => Or.inl (h ▸ htm)

theorem templates_freeReplaced (old : Option Template) :
    Keeps (fun s t : Scene κ => t.templates = s.templates) (freeReplaced old) := by
  cases old with
  | some old => exact (keeps_onDocument lasting_templates _).discard
  | none => exact .pure lasting_templates.toLasting _

namespace Sound

/-- A new template of which the tree is guarded. -/
theorem depicting_put {u : Node × Forest Node} {rest : List (Node × Forest Node)} {f : Forest Descriptor}
    (ht : t.Sound closed (u :: rest)) (htemplates : t.templates = s.templates.put number tm)
    (hroot : u.1.ref = tm.root) (hu : tm.Describes f u) : s.Depicting t := by
  intro k tm' htm
  rw [htemplates, Templates.get?_put] at htm
  split at htm
  · obtain rfl := Option.some.inj htm
    have htop := ht.store.tops u List.mem_cons_self
    have htree := ht.store.wellFormed.tree?_eq_some (Forest.mem_trees_of_mem_tops htop)
    exact Or.inr ⟨f, u, hroot ▸ htree, hu⟩
  · exact Or.inl htm

/-- **A new template has the tree that it describes.** -/
theorem depicting_saveTemplate (h : s.Sound closed ts) (number : UInt32) (ds : List Descriptor) :
    Ends (Scene.saveTemplate number ds) s (fun _ => s.Depicting) s.Depicting := by
  have hbuild := ends_assemble (a := {}) ds.length ds h.building
  unfold Ends at hbuild
  unfold Scene.saveTemplate
  refine Ends.get_bind (Ends.ite (fun _ => Ends.pure (.of_eq rfl)) fun _ => ?_)
  cases ha : assemble ds.length ds {} s with
  | error e s' =>
    rw [ha] at hbuild
    exact Ends.of_eq_error (bind_of_error ha _) (.of_eq hbuild.templates)
  | ok a s' =>
    rw [ha] at hbuild
    refine Ends.bind (R := fun a' t => a = a' ∧ s' = t) (Ends.of_eq ha ⟨rfl, rfl⟩) ?_
    rintro _ _ ⟨rfl, rfl⟩
    split
    · rename_i root hroots
      obtain ⟨f, tree, htree, hdescribes⟩ := depicts_assemble h.store.wellFormed ha hroots
      have hwait : Over s (Store.Building s.store.forest.tops s.held [root]) s' := hroots ▸ hbuild
      obtain ⟨u, rest, hur, hutop, -, hend⟩ :=
        h.ends_replaceTemplate (t := ⟨ds, root, a.slots⟩) hwait number rfl
      -- the tree that was built is the one that is guarded while the old one is freed
      have hself := hbuild.document.store.guards.wellFormed.tree?_eq_some (Forest.mem_trees_of_mem_tops hutop)
      rw [hur] at hself
      obtain rfl : u = tree := Option.some.inj (hself.symm.trans htree)
      have hput : ∀ t : Scene κ, t.Sound closed (u :: rest) →
          t.templates = s'.templates.put number ⟨ds, root, a.slots⟩ → s.Depicting t :=
        fun t ht htemplates => ht.depicting_put (hbuild.templates ▸ htemplates) hur hdescribes
      refine (Ends.modify (Q := fun _ s'' => s'' = _) rfl).bind ?_
      rintro _ _ rfl
      exact (hend.and (templates_freeReplaced _ _)).mono (fun _ t ht => hput t ht.1 ht.2) fun t ht => hput t ht.1 ht.2
    · exact Ends.throw (.of_eq hbuild.templates)

end Sound

end Scene

end DomHost
