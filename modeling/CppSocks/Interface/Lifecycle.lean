import CppSocks.Foundation.Transition
import CppSocks.Model.HttpStates

/-!
# The life of a connection

What may happen on the connection of an HTTP server, in which order: at most one
handler is created; a WebSocket handler is told of the connection only when the
101 response has been handed over, and gets messages only when it has been told;
when `do_GET` is over, only the change to the state that waits for the end is left.
-/

set_option autoImplicit false

namespace CppSocks.Interface

open CppSocks.Model Foundation

/-- The stages of a connection: `creatingHttp` to `got` on the way of a GET request, `creatingWs` to
`talking` on the way of a WebSocket. -/
inductive Phase where
  | fresh
  | creatingHttp
  | getting
  | got
  | waiting
  | creatingWs
  | handedOver
  | connecting
  | connected
  | talking
deriving DecidableEq, Repr

/-- The stages in which user code runs. -/
def Phase.busy : Phase → Prop
  | .creatingHttp | .getting | .creatingWs | .handedOver | .connecting | .talking => True
  | _ => False

/-- What may happen in a stage, and the stage it leads to. -/
inductive Phase.Step (pf : Platform) : Phase → Event → Phase → Prop where
  | io {p : Phase} {e : Event} : p.busy → IsTransfer e → Step pf p e p
  | createHttpHandler : Step pf .fresh .createHttpHandler .creatingHttp
  | doGet : Step pf .creatingHttp .doGet .getting
  | doGetEnd : Step pf .getting .doGetEnd .got
  | enteredGet : Step pf .got (.entered .get) .waiting
  | createWsHandler : Step pf .fresh .createWsHandler .creatingWs
  | subprotocol : Step pf .creatingWs .subprotocol .creatingWs
  | handed (protocol key : Bytes) :
      Step pf .creatingWs (.handed (HttpWsState.switchingProtocols pf protocol key)) .handedOver
  | onConnect : Step pf .handedOver .onConnect .connecting
  | onConnectEnd : Step pf .connecting .onConnectEnd .connected
  | enteredWs : Step pf .connected (.entered .ws) .talking
  | message {e : Event} : e.isMessage = true → Step pf .talking e .talking
  | onDisconnect : Step pf .talking .onDisconnect .talking

/-- The possible lives of a connection. -/
def lifecycle (pf : Platform) : System Phase Event := ⟨Phase.Step pf⟩

section

variable {pf : Platform} {log : Log} {p : Phase}

/-! ## What every life satisfies -/

/-- A handler has been created. -/
def Phase.created : Phase → ℕ
  | .fresh => 0
  | _ => 1

/-- The state has changed. -/
def Phase.changed : Phase → ℕ
  | .waiting | .talking => 1
  | _ => 0

/-- The event is a change of the state. -/
def isEntered : Event → Bool
  | .entered _ => true
  | _ => false

/-- A run creates as many handlers as its stage says. -/
theorem count_created (h : (lifecycle pf).Run .fresh log p) :
    log.count .createHttpHandler + log.count .createWsHandler = p.created := by
  refine h.history (J := fun log p =>
    log.count .createHttpHandler + log.count .createWsHandler = p.created) rfl ?_
  intro log s e t hlog hstep
  rw [List.count_append, List.count_append]
  cases hstep with
  | io hbusy hio =>
    cases e with
    | wrote bytes => simpa using hlog
    | opened path => simpa using hlog
    | _ => exact absurd hio id
  | message hmsg =>
    cases e with
    | onData payload => simpa using hlog
    | onText payload => simpa using hlog
    | _ => cases hmsg
  | _ =>
    simp [Phase.created] at hlog ⊢
    omega

/-- A run enters as many states as its stage says. -/
theorem count_changed (h : (lifecycle pf).Run .fresh log p) :
    log.countP isEntered = p.changed := by
  refine h.history (J := fun log p => log.countP isEntered = p.changed) rfl ?_
  intro log s e t hlog hstep
  rw [List.countP_append, List.countP_singleton]
  cases hstep with
  | io hbusy hio =>
    cases e with
    | wrote bytes => simpa [isEntered] using hlog
    | opened path => simpa [isEntered] using hlog
    | _ => exact absurd hio id
  | message hmsg =>
    cases e with
    | onData payload => simpa [isEntered] using hlog
    | onText payload => simpa [isEntered] using hlog
    | _ => cases hmsg
  | _ => simpa [Phase.changed, isEntered] using hlog

/-- At most one handler is created. -/
theorem created_le_one (h : (lifecycle pf).Run .fresh log p) :
    log.count .createHttpHandler + log.count .createWsHandler ≤ 1 := by
  rw [count_created h]
  cases p <;> decide

/-- The state changes at most once. -/
theorem changed_le_one (h : (lifecycle pf).Run .fresh log p) :
    log.countP isEntered ≤ 1 := by
  rw [count_changed h]
  cases p <;> decide

/-- The initial state is not entered. -/
theorem not_entered_init (h : (lifecycle pf).Run .fresh log p) : Event.entered .init ∉ log := by
  have hall : ∀ e ∈ log, e ≠ .entered .init := by
    refine h.all_labels (I := fun _ => True) (P := fun e => e ≠ .entered .init) ?_ trivial
    intro s e t _ hstep
    refine ⟨trivial, ?_⟩
    rintro rfl
    cases hstep with
    | io _ hio => exact hio
    | message hmsg => cases hmsg
  exact fun hmem => hall _ hmem rfl

/-- The 101 response has been handed over in these stages, and `onConnect` has returned in the
later ones. -/
theorem connected_before (h : (lifecycle pf).Run .fresh log p) :
    ((p = .handedOver ∨ p = .connecting ∨ p = .connected ∨ p = .talking) →
      ∃ protocol key, Event.handed (HttpWsState.switchingProtocols pf protocol key) ∈ log) ∧
      ((p = .connected ∨ p = .talking) → Event.onConnectEnd ∈ log) := by
  refine h.history (J := fun log p =>
    ((p = .handedOver ∨ p = .connecting ∨ p = .connected ∨ p = .talking) →
      ∃ protocol key, Event.handed (HttpWsState.switchingProtocols pf protocol key) ∈ log) ∧
      ((p = .connected ∨ p = .talking) → Event.onConnectEnd ∈ log)) (by simp) ?_
  rintro log s e t ⟨hhanded, hend⟩ hstep
  have hkeep : ∀ {x : Event}, x ∈ log → x ∈ log ++ [e] := fun hx => List.mem_append_left _ hx
  constructor
  · intro ht
    have hbefore : (s = .handedOver ∨ s = .connecting ∨ s = .connected ∨ s = .talking) →
        ∃ protocol key,
          Event.handed (HttpWsState.switchingProtocols pf protocol key) ∈ log ++ [e] := by
      intro hs
      obtain ⟨protocol, key, hmem⟩ := hhanded hs
      exact ⟨protocol, key, hkeep hmem⟩
    cases hstep with
    | handed protocol key => exact ⟨protocol, key, by simp⟩
    | io _ _ => exact hbefore ht
    | onConnect => exact hbefore (by simp)
    | onConnectEnd => exact hbefore (by simp)
    | enteredWs => exact hbefore (by simp)
    | message _ => exact hbefore (by simp)
    | onDisconnect => exact hbefore (by simp)
    | _ => simp at ht
  · intro ht
    cases hstep with
    | onConnectEnd => simp
    | io _ _ => exact hkeep (hend ht)
    | enteredWs => exact hkeep (hend (by simp))
    | message _ => exact hkeep (hend (by simp))
    | onDisconnect => exact hkeep (hend (by simp))
    | _ => simp at ht

/-- Messages are delivered only behind the 101 response and the end of `onConnect`. -/
theorem message_after_connect {pre post : Log} {e : Event}
    (h : (lifecycle pf).Run .fresh (pre ++ e :: post) p) (he : e.isMessage = true) :
    (∃ protocol key, Event.handed (HttpWsState.switchingProtocols pf protocol key) ∈ pre) ∧
      Event.onConnectEnd ∈ pre := by
  obtain ⟨s, t, hpre, hstep, _⟩ := h.split_at
  have hs : s = .talking := by
    cases hstep with
    | message _ => rfl
    | io _ hio => cases e <;> first | exact absurd hio id | cases he
    | _ => cases he
  obtain ⟨hhanded, hend⟩ := connected_before hpre
  exact ⟨hhanded (by simp [hs]), hend (by simp [hs])⟩

/-- When `do_GET` is over, only the change of the state is left. -/
theorem silent_after_get {pre post : Log}
    (h : (lifecycle pf).Run .fresh (pre ++ .doGetEnd :: post) p) :
    ∀ e ∈ post, e = .entered .get := by
  obtain ⟨s, t, _, hstep, hpost⟩ := h.split_at
  have ht : t = .got := by
    cases hstep with
    | doGetEnd => rfl
    | io _ hio => exact absurd hio id
    | message hmsg => cases hmsg
  refine hpost.all_labels (I := fun p => p = .got ∨ p = .waiting) ?_ (Or.inl ht)
  rintro s e t (rfl | rfl) hst
  · cases hst with
    | enteredGet => exact ⟨Or.inr rfl, rfl⟩
    | io hbusy _ => exact absurd hbusy id
  · cases hst with
    | io hbusy _ => exact absurd hbusy id

end

end CppSocks.Interface
