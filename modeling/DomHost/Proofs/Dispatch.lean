import DomHost.Document.Dispatch
import DomHost.Proofs.Listener

/-!
# What a dispatch calls

A dispatch calls listeners that are installed, and removes those that are to be called only once. If there
are none of these it leaves the document as it is.

* **`Document.dispatch_document`**: what the removal of a listener keeps, a dispatch keeps;
* **`Document.dispatch_keeps`**: what every call of a listener on the way keeps, a dispatch keeps;
* `Document.Shadows`, **`Document.Shadows.dispatch`**: callers that ask for the same;
* `Document.traced`, `Document.called`: calling handlers and writing down which ones;
* **`Document.exists_of_mem_called`**: they belong to listeners;
* **`Document.dispatch_traced`**: writing them down changes nothing else.
-/

namespace DomHost.Document

variable {σ : Type} {invoke : Invoke σ} {stop : Stop}

/-! ## Calls -/

section Document

variable {P : Document → Prop}

/-- A visit does no more to a document than remove listeners of its node and phase. -/
theorem callAll_document
    (hP : ∀ d type handler, P d →
      P { d with listeners := (d.listeners.remove stop.node type handler stop.capture).2 })
    {ls : List Listener} {v : Delivery σ} (hv : P v.document) :
    P (callAll invoke stop ls v).document := by
  induction ls generalizing v with
  | nil => exact hv
  | cons l ls ih =>
    have hcall : P (call invoke stop l v).document := by
      unfold call
      split
      · exact hP _ _ _ hv
      · exact hv
    rw [callAll]
    split
    · exact hcall
    · exact ih hcall

variable
  (hP : ∀ d r type handler capture, P d →
    P { d with listeners := (d.listeners.remove r type handler capture).2 })

include hP

theorem visitAll_document {stops : List Stop} {v : Delivery σ} (hv : P v.document) :
    P (visitAll invoke stops v).document := by
  induction stops generalizing v with
  | nil => exact hv
  | cons stop rest ih =>
    have hvisit : P (visit invoke stop v).document :=
      callAll_document (fun d type handler hd => hP d _ type handler _ hd) hv
    rw [visitAll]
    split
    · exact hvisit
    · exact ih hvisit

/-- **A dispatch does no more to a document than remove listeners.** -/
theorem dispatch_document {v w : Delivery σ} {p : Bool} (h : dispatch invoke v = .ok (p, w))
    (hv : P v.document) : P w.document := by
  have hall : P (visitAll invoke (stops (v.document.store.ancestors v.event.target) v.event.bubbles)
      v).document := visitAll_document hP hv
  unfold dispatch at h
  cases hn : v.document.store.node v.event.target with
  | error err =>
    rw [hn] at h
    cases h
  | ok n =>
    rw [hn] at h
    cases h
    exact hall

end Document

section Keeps

variable {d : Document} {P : NativeEvent → σ → Prop}

/-- A visit does not change what an event is for. -/
theorem visit_target {v : Delivery σ} : (visit invoke stop v).event.target = v.event.target := by
  have hall : ∀ (ls : List Listener) (v : Delivery σ),
      (callAll invoke stop ls v).event.target = v.event.target := by
    intro ls
    induction ls with
    | nil => exact fun _ => rfl
    | cons l ls ih =>
      intro v
      rw [callAll]
      split
      · rfl
      · exact ih _
  exact hall _ _

/-- The listeners of a document stay when they are called, and a fact holds on while an event makes its way
over the nodes at and above its target and calls listeners for its type there. -/
structure Calm (invoke : Invoke σ) (d : Document) (P : NativeEvent → σ → Prop) : Prop where
  once : ∀ l ∈ d.listeners.installed, l.options.once = false
  moves : ∀ e st phase node, P e st → P { e with phase, currentTarget := node } st
  keeps : ∀ e st, e.currentTarget ∈ d.store.ancestors e.target →
    ∀ l ∈ d.listeners.listenersFor e.currentTarget e.type, P e st →
      P (e.obey (invoke d l.handler e st).1) (invoke d l.handler e st).2

theorem mem_installed_of_listenersFor {l : Listener} {node : NodeRef} {type : String}
    (hl : l ∈ d.listeners.listenersFor node type) : l ∈ d.listeners.installed :=
  Registry.mem_installed_of_ofNode (List.mem_filter.mp hl).1

namespace Calm

variable (hc : Calm invoke d P) {v : Delivery σ}
include hc

theorem call {l : Listener} (hn : v.event.currentTarget ∈ d.store.ancestors v.event.target)
    (hl : l ∈ d.listeners.listenersFor v.event.currentTarget v.event.type) (hd : v.document = d)
    (hp : P v.event v.caller) :
    (call invoke stop l v).document = d ∧ P (call invoke stop l v).event (call invoke stop l v).caller := by
  have hdoc : (if l.options.once then
      { v.document with
        listeners := (v.document.listeners.remove stop.node l.type l.handler stop.capture).2 }
      else v.document) = d := by
    rw [hc.once l (mem_installed_of_listenersFor hl), hd]
    rfl
  refine ⟨hdoc, ?_⟩
  unfold Document.call
  rw [hdoc]
  exact hc.keeps v.event v.caller hn l hl hp

theorem callAll {ls : List Listener} (hn : v.event.currentTarget ∈ d.store.ancestors v.event.target)
    (hls : ∀ l ∈ ls, l ∈ d.listeners.listenersFor v.event.currentTarget v.event.type)
    (hd : v.document = d) (hp : P v.event v.caller) :
    (callAll invoke stop ls v).document = d ∧
      P (callAll invoke stop ls v).event (callAll invoke stop ls v).caller := by
  induction ls generalizing v with
  | nil => exact ⟨hd, hp⟩
  | cons l ls ih =>
    obtain ⟨hl, hls⟩ := List.forall_mem_cons.mp hls
    obtain ⟨hd', hp'⟩ := hc.call hn hl hd hp
    rw [Document.callAll]
    split
    · exact ⟨hd', hp'⟩
    · exact ih hn hls hd' hp'

theorem visit (hn : stop.node ∈ d.store.ancestors v.event.target) (hd : v.document = d)
    (hp : P v.event v.caller) :
    (visit invoke stop v).document = d ∧ P (visit invoke stop v).event (visit invoke stop v).caller := by
  refine hc.callAll hn (fun l hl => ?_) hd (hc.moves v.event v.caller _ _ hp)
  rw [← hd]
  exact (List.mem_filter.mp hl).1

theorem visitAll {stops : List Stop} (hn : ∀ stop ∈ stops, stop.node ∈ d.store.ancestors v.event.target)
    (hd : v.document = d) (hp : P v.event v.caller) :
    (visitAll invoke stops v).document = d ∧
      P (visitAll invoke stops v).event (visitAll invoke stops v).caller := by
  induction stops generalizing v with
  | nil => exact ⟨hd, hp⟩
  | cons stop rest ih =>
    obtain ⟨hstop, hrest⟩ := List.forall_mem_cons.mp hn
    obtain ⟨hd', hp'⟩ := hc.visit hstop hd hp
    rw [Document.visitAll]
    split
    · exact ⟨hd', hp'⟩
    · refine ih (fun other ho => ?_) hd' hp'
      rw [visit_target]
      exact hrest other ho

end Calm

theorem mem_path_of_mem_stops {path : List NodeRef} {bubbles : Bool} (hs : stop ∈ stops path bubbles) :
    stop.node ∈ path := by
  rcases List.mem_append.mp hs with hs | hs
  · obtain ⟨x, hx, rfl⟩ := List.mem_map.mp hs
    exact List.mem_reverse.mp hx
  · obtain ⟨x, hx, rfl⟩ := List.mem_map.mp hs
    split_ifs at hx
    · exact hx
    · exact List.mem_of_mem_take hx

/-- **A dispatch keeps the document, and what every call keeps of a listener that is for the event and on a
node at or above its target.** -/
theorem dispatch_keeps (hc : Calm invoke d P) {e : NativeEvent} {st : σ} (hp : P e st) {p : Bool}
    {v : Delivery σ} (h : dispatch invoke ⟨d, e, st⟩ = .ok (p, v)) :
    v.document = d ∧ P v.event v.caller := by
  have hstops : ∀ stop ∈ stops (d.store.ancestors e.target) e.bubbles,
      stop.node ∈ d.store.ancestors e.target := fun _ hs => mem_path_of_mem_stops hs
  obtain ⟨hd, hv⟩ := hc.visitAll (v := ⟨d, e, st⟩) hstops rfl hp
  unfold dispatch at h
  cases hn : d.store.node e.target with
  | error err =>
    rw [hn] at h
    cases h
  | ok n =>
    rw [hn] at h
    cases h
    exact ⟨hd, hc.moves _ _ _ _ hv⟩

end Keeps

/-! ## Two callers -/

section Shadows

variable {τ : Type} {f : τ → σ} {shadow : Invoke τ}

/-- A delivery with what a caller makes of its state. -/
def Delivery.map (f : τ → σ) (v : Delivery τ) : Delivery σ := ⟨v.document, v.event, f v.caller⟩

/-- A caller asks for the same as another one, whose state is read off from its own. -/
def Shadows (f : τ → σ) (shadow : Invoke τ) (invoke : Invoke σ) : Prop :=
  ∀ d id e st, (shadow d id e st).1 = (invoke d id e (f st)).1 ∧
    f (shadow d id e st).2 = (invoke d id e (f st)).2

namespace Shadows

variable (hf : Shadows f shadow invoke)
include hf

theorem call (l : Listener) (v : Delivery τ) :
    (call shadow stop l v).map f = Document.call invoke stop l (v.map f) := by
  simp only [Document.call, Delivery.map]
  rw [(hf _ _ _ _).1, (hf _ _ _ _).2]

theorem callAll (ls : List Listener) (v : Delivery τ) :
    (callAll shadow stop ls v).map f = Document.callAll invoke stop ls (v.map f) := by
  induction ls generalizing v with
  | nil => rfl
  | cons l ls ih =>
    have hcall : (Document.call shadow stop l v).map f = Document.call invoke stop l (v.map f) :=
      hf.call l v
    have hevent : (Document.call shadow stop l v).event = (Document.call invoke stop l (v.map f)).event :=
      congrArg Delivery.event hcall
    rw [Document.callAll, Document.callAll, hevent]
    split
    · exact hcall
    · rw [ih, hcall]

theorem visitAll (stops : List Stop) (v : Delivery τ) :
    (visitAll shadow stops v).map f = Document.visitAll invoke stops (v.map f) := by
  induction stops generalizing v with
  | nil => rfl
  | cons stop rest ih =>
    have hvisit : (visit shadow stop v).map f = visit invoke stop (v.map f) := hf.callAll _ _
    have hevent : (visit shadow stop v).event = (visit invoke stop (v.map f)).event :=
      congrArg Delivery.event hvisit
    rw [Document.visitAll, Document.visitAll, hevent]
    split
    · exact hvisit
    · rw [ih, hvisit]

/-- **A dispatch is the same for two callers of whom one shadows the other.** -/
theorem dispatch (v : Delivery τ) :
    (dispatch shadow v).map (fun r => (r.1, r.2.map f)) = Document.dispatch invoke (v.map f) := by
  have hv : ∀ path bubbles, (Document.visitAll shadow (stops path bubbles) v).map f =
      Document.visitAll invoke (stops path bubbles) (v.map f) := fun path bubbles =>
    hf.visitAll (stops path bubbles) v
  have hdoc : (v.map f).document = v.document := rfl
  have hevent : (v.map f).event = v.event := rfl
  unfold Document.dispatch
  rw [hdoc, hevent]
  cases v.document.store.node v.event.target with
  | error err => rfl
  | ok n =>
    exact congrArg (fun w : Delivery σ => (.ok (!w.event.defaultPrevented,
      { w with event := { w.event with phase := .none, currentTarget := .nowhere } }) : Except DomError _))
      (hv _ _)

end Shadows

end Shadows

/-! ## Writing down what is called -/

/-- Calls handlers and writes down which ones. -/
def traced (invoke : Invoke σ) : Invoke (List HandlerId × σ) := fun d id e st =>
  ((invoke d id e st.2).1, st.1 ++ [id], (invoke d id e st.2).2)

/-- A delivery without what is written down. -/
def untraced (v : Delivery (List HandlerId × σ)) : Delivery σ := ⟨v.document, v.event, v.caller.2⟩

/-- The handlers that a dispatch calls, in order. -/
def called (invoke : Invoke σ) (v : Delivery σ) : List HandlerId :=
  match dispatch (traced invoke) ⟨v.document, v.event, ([], v.caller)⟩ with
  | .ok (_, w) => w.caller.1
  | .error _ => []

/-- **Only handlers of installed listeners are called.** -/
theorem exists_of_mem_called {v : Delivery σ} {id : HandlerId}
    (ho : ∀ l ∈ v.document.listeners.installed, l.options.once = false) (hid : id ∈ called invoke v) :
    ∃ l ∈ v.document.listeners.installed, l.handler = id := by
  have hc : Calm (traced invoke) v.document fun _ st =>
      ∀ id ∈ st.1, ∃ l ∈ v.document.listeners.installed, l.handler = id := by
    refine ⟨ho, fun _ _ _ _ hst => hst, fun e st _ l hl hst id hm => ?_⟩
    rcases List.mem_append.mp hm with hm | hm
    · exact hst id hm
    · exact ⟨l, mem_installed_of_listenersFor hl, (List.mem_singleton.mp hm).symm⟩
  unfold called at hid
  split at hid
  · rename_i p w hw
    exact (dispatch_keeps hc (by simp) hw).2 id hid
  · exact absurd hid (by simp)

/-- **Writing down what is called changes nothing else.** -/
theorem dispatch_traced (invoke : Invoke σ) (v : Delivery (List HandlerId × σ)) :
    (dispatch (traced invoke) v).map (fun r => (r.1, untraced r.2)) = dispatch invoke (untraced v) :=
  have hf : Shadows Prod.snd (traced invoke) invoke := fun _ _ _ _ => ⟨rfl, rfl⟩
  hf.dispatch v

end DomHost.Document
