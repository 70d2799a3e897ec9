import CppSocks.Analysis.FrameAccept
import CppSocks.Analysis.Segmentation

/-!
# Fragmented messages

A data message is sent in one or more frames. `HttpWsState` does not store
whether a message is in progress: it takes a frame for the first one of a message
when its buffer is empty. A first frame without payload is therefore forgotten,
and the message ends as one with opcode 0, which throws.

`deliver_messages_iff` says when every message of a sequence reaches the handler,
once and in order: exactly when each first frame that is not also the last one
carries payload, and each message fits into a vector.
-/

set_option autoImplicit false

namespace CppSocks.Analysis

open CppSocks.Model CppSocks.Interface Foundation

/-- FIN is set on the last frame only. -/
def FinLast : List Frame → Prop
  | [] => True
  | [f] => f.fin = true
  | f :: g :: fs => f.fin = false ∧ FinLast (g :: fs)

/-- A data message in its fragments: the first frame has the opcode of the message, the others
have opcode 0. A text message has no NUL bytes. -/
structure FragmentedMessage where
  text : Bool
  first : Frame
  rest : List Frame
  masked : ∀ f ∈ first :: rest, f.key.isSome
  opcode_first : first.opcode = if text then 1 else 2
  opcode_rest : ∀ f ∈ rest, f.opcode = 0
  fin_last : FinLast (first :: rest)
  no_nul : text = true → ∀ f ∈ first :: rest, (0 : Byte) ∉ f.payload

namespace FragmentedMessage

/-- The frames as they are sent. -/
def frames (m : FragmentedMessage) : List Frame := m.first :: m.rest

/-- The payload of the message. -/
def payload (m : FragmentedMessage) : Bytes := m.frames.flatMap Frame.payload

/-- The callback that delivers the message. -/
def callback (m : FragmentedMessage) : Event :=
  if m.text then .onText m.payload else .onData m.payload

/-- The bytes that the buffer must hold: a text gets a NUL byte. -/
def size (m : FragmentedMessage) : ℕ := m.payload.length + if m.text then 1 else 0

/-- The code gets the message right: its first frame is also its last one, or carries payload, and
the message fits into a vector. -/
def Handled (pf : Platform) (m : FragmentedMessage) : Prop :=
  (m.rest = [] ∨ m.first.payload ≠ []) ∧ m.size ≤ pf.maxSize

end FragmentedMessage

/-- Deliver frames to `HttpWsState::onReceive`, each as a chunk of its own. -/
def deliver (pf : Platform) (handler : WsHandler) : List Frame → Action (HttpWsState × Conn) Unit
  | [] => pure ()
  | f :: fs => do
    HttpWsState.onReceive pf .self .self handler (Mem.ofBytes f.encode) f.encode.length
    deliver pf handler fs

section Deliver

variable {pf : Platform} {handler : WsHandler}

/-- Delivering frames accepts the first and then delivers the others. -/
theorem deliver_cons {f : Frame} (hk : f.key.isSome) (fs : List Frame) :
    deliver pf handler (f :: fs) = (do
      acceptFrame pf .self .self handler f
      deliver pf handler fs) := by
  obtain ⟨k, hk⟩ := Option.isSome_iff_exists.mp hk
  rw [deliver, onReceive_frame (Mem.ofBytes_startsWith _) le_rfl hk]

/-- Frames delivered one after the other are delivered as one sequence. -/
theorem deliver_append (fs gs : List Frame) :
    deliver pf handler (fs ++ gs) = (do
      deliver pf handler fs
      deliver pf handler gs) := by
  induction fs with
  | nil => rfl
  | cons f fs ih =>
    funext s
    rw [List.cons_append, deliver, deliver, ih]
    simp only [Act.bind_apply]
    cases HttpWsState.onReceive pf .self .self handler (Mem.ofBytes f.encode) f.encode.length s with
    | mk r s' => cases r <;> rfl

/-- The delivery of frames stops with an exception or undefined behaviour, and no message has been
delivered until then. -/
def Stops (pf : Platform) (handler : WsHandler) (fs : List Frame) (s : HttpWsState) (c : Conn) :
    Prop :=
  (deliver pf handler fs (s, c)).1.isRet = false ∧
    (deliver pf handler fs (s, c)).2.2.log.messages = c.log.messages

/-- A frame that throws and leaves the connection alone stops the sequence. -/
theorem stops_of_accept {f : Frame} {fs : List Frame} {s : HttpWsState} {c : Conn}
    (hk : f.key.isSome) (hr : (acceptFrame pf .self .self handler f (s, c)).1.isRet = false)
    (hc : (acceptFrame pf .self .self handler f (s, c)).2.2 = c) :
    Stops pf handler (f :: fs) s c := by
  unfold Stops
  rw [deliver_cons hk]
  rcases h : acceptFrame pf .self .self handler f (s, c) with ⟨r, s'⟩
  rw [h] at hr hc
  cases r with
  | ret u => cases hr
  | exn e =>
    rw [Act.bind_of_exn h]
    exact ⟨rfl, by rw [hc]⟩
  | ub =>
    rw [Act.bind_of_ub h]
    exact ⟨rfl, by rw [hc]⟩

/-- A fragment without FIN that fits moves the question to the frames behind it. -/
theorem stops_of_continue {f : Frame} {fs : List Frame} {s : HttpWsState} {c : Conn}
    (hk : f.key.isSome) (hfit : s.inBuf.length + f.payload.length ≤ pf.maxSize)
    (hfin : f.fin = false) (h : Stops pf handler fs (extended s f) c) :
    Stops pf handler (f :: fs) s c := by
  unfold Stops
  rw [deliver_cons hk, Act.bind_of_ret (acceptFrame_continues hfit hfin)]
  exact h

/-- A payload that does not fit stops the delivery. -/
theorem stops_of_overflow {f : Frame} {fs : List Frame} {s : HttpWsState} {c : Conn}
    (hk : f.key.isSome) (hbuf : s.inBuf.length ≤ pf.maxSize)
    (h : pf.maxSize < s.inBuf.length + f.payload.length) : Stops pf handler (f :: fs) s c := by
  rcases acceptFrame_overflow .self .self handler c hbuf h with hr | hr
  · exact stops_of_accept hk (by rw [hr]; rfl) (by rw [hr])
  · exact stops_of_accept hk (by rw [hr]; rfl) (by rw [hr])

/-! ## Messages that are lost -/

/-- Continuation frames of a message whose opcode was taken to be 0: the last one throws. -/
theorem stops_of_zero {fs : List Frame} (hne : fs ≠ []) (hmask : ∀ f ∈ fs, f.key.isSome)
    (hop : ∀ f ∈ fs, f.opcode = 0) (hfin : FinLast fs) {s : HttpWsState} {c : Conn}
    (hbuf : s.inBuf.length ≤ pf.maxSize) (hs : s.inBuf = [] ∨ s.opcode = 0) :
    Stops pf handler fs s c := by
  induction fs generalizing s with
  | nil => exact absurd rfl hne
  | cons f fs ih =>
    have hk := hmask f List.mem_cons_self
    by_cases hfit : s.inBuf.length + f.payload.length ≤ pf.maxSize
    · have hzero : nextOpcode s f = 0 := by
        unfold nextOpcode
        rw [hop f List.mem_cons_self]
        rcases hs with hs | hs
        · rw [hs]
          rfl
        · rw [hs]
          split <;> rfl
      cases fs with
      | nil =>
        have hlast := acceptFrame_zero .self .self handler c hfit hfin hzero
        exact stops_of_accept hk (by rw [hlast]; rfl) (by rw [hlast])
      | cons g fs =>
        refine stops_of_continue hk hfit hfin.1 (ih (List.cons_ne_nil _ _)
          (fun x hx => hmask x (List.mem_cons_of_mem f hx))
          (fun x hx => hop x (List.mem_cons_of_mem f hx)) hfin.2 ?_ (Or.inr hzero))
        simpa [extended] using hfit
    · exact stops_of_overflow hk hbuf (by omega)

/-! ## Messages that are delivered -/

/-- The opcode a message ends with. -/
def messageOpcode (text : Bool) : OpCode :=
  if text then WebSocketFrame.OPCODE_TEXT else WebSocketFrame.OPCODE_BINARY

/-- The callback for a payload. -/
def messageEvent (text : Bool) (payload : Bytes) : Event :=
  if text then .onText payload else .onData payload

/-- The buffer behind a fragment, and the fragments to come. -/
theorem extended_append (s : HttpWsState) (f : Frame) (fs : List Frame) :
    (extended s f).inBuf ++ fs.flatMap Frame.payload =
      s.inBuf ++ (f :: fs).flatMap Frame.payload := by
  rw [List.flatMap_cons, ← List.append_assoc]
  rfl

/-- A frame moves its payload from the frames still to come into the stored message. -/
theorem length_extended_append (s : HttpWsState) (f : Frame) (fs : List Frame) :
    (extended s f).inBuf.length + (fs.flatMap Frame.payload).length =
      s.inBuf.length + ((f :: fs).flatMap Frame.payload).length := by
  rw [← List.length_append, extended_append, List.length_append]

/-- Behind a fragment that is not empty, the opcode stays. -/
theorem nextOpcode_extended {s : HttpWsState} {f : Frame} (hnonempty : s.inBuf ++ f.payload ≠ [])
    (x : Frame) : nextOpcode (extended s f) x = nextOpcode s f := by
  have hlen : ¬ ((extended s f).inBuf.length == 0) = true := by
    rw [beq_iff_eq, List.length_eq_zero_iff]
    exact hnonempty
  rw [nextOpcode, if_neg hlen]
  rfl

/-- The last frame of a message. -/
theorem deliver_final (hq : CallbacksReturn pf handler) (text : Bool) {f : Frame}
    (hk : f.key.isSome) (hfin : f.fin = true) {s : HttpWsState} {c : Conn}
    (hbuf : s.inBuf.length ≤ pf.maxSize) (hop : nextOpcode s f = messageOpcode text)
    (hnul : text = true → (0 : Byte) ∉ s.inBuf ++ f.payload) :
    (s.inBuf.length + f.payload.length + (if text then 1 else 0) ≤ pf.maxSize →
      ∃ c', deliver pf handler [f] (s, c) = (.ret (), (⟨messageOpcode text, []⟩, c')) ∧
        c'.log.messages = c.log.messages ++ [messageEvent text (s.inBuf ++ f.payload)]) ∧
    (pf.maxSize < s.inBuf.length + f.payload.length + (if text then 1 else 0) →
      Stops pf handler [f] s c) := by
  constructor
  · intro hsize
    cases text with
    | true =>
      obtain ⟨c', hacc, hmsg⟩ := acceptFrame_text (c := c) hq hsize hfin hop (hnul rfl)
      refine ⟨c', ?_, hmsg⟩
      rw [deliver_cons hk, Act.bind_of_ret hacc]
      rfl
    | false =>
      obtain ⟨c', hacc, hmsg⟩ := acceptFrame_binary (c := c) hq hsize hfin hop
      refine ⟨c', ?_, hmsg⟩
      rw [deliver_cons hk, Act.bind_of_ret hacc]
      rfl
  · intro hsize
    by_cases hfit : s.inBuf.length + f.payload.length ≤ pf.maxSize
    · cases text with
      | true =>
        obtain ⟨hr, hc⟩ := acceptFrame_text_overflow handler c hfit hfin hop hsize
        exact stops_of_accept hk hr hc
      | false =>
        simp only [Bool.false_eq_true, if_false] at hsize
        omega
    · exact stops_of_overflow hk hbuf (by omega)

/-- The frames of a message whose opcode is known, `s.inBuf` being what has arrived of it: the
message is delivered if it fits, and otherwise the delivery stops. -/
theorem deliver_rest (hq : CallbacksReturn pf handler) (text : Bool) {fs : List Frame}
    (hne : fs ≠ []) (hmask : ∀ f ∈ fs, f.key.isSome) (hfin : FinLast fs)
    {s : HttpWsState} {c : Conn} (hbuf : s.inBuf.length ≤ pf.maxSize)
    (hop : ∀ f ∈ fs.head?, nextOpcode s f = messageOpcode text)
    (hrest : fs.tail ≠ [] → s.inBuf ++ (fs.head hne).payload ≠ [])
    (hnul : text = true → (0 : Byte) ∉ s.inBuf ++ fs.flatMap Frame.payload) :
    (s.inBuf.length + (fs.flatMap Frame.payload).length + (if text then 1 else 0) ≤ pf.maxSize →
      ∃ c', deliver pf handler fs (s, c) = (.ret (), (⟨messageOpcode text, []⟩, c')) ∧
        c'.log.messages =
          c.log.messages ++ [messageEvent text (s.inBuf ++ fs.flatMap Frame.payload)]) ∧
    (pf.maxSize < s.inBuf.length + (fs.flatMap Frame.payload).length + (if text then 1 else 0) →
      Stops pf handler fs s c) := by
  induction fs generalizing s with
  | nil => exact absurd rfl hne
  | cons f fs ih =>
    have hk := hmask f List.mem_cons_self
    have hopf : nextOpcode s f = messageOpcode text := hop f rfl
    cases fs with
    | nil =>
      simp only [List.flatMap_cons, List.flatMap_nil, List.append_nil] at hnul ⊢
      exact deliver_final hq text hk hfin hbuf hopf hnul
    | cons g fs =>
      have hfinf : f.fin = false := hfin.1
      have hnonempty : s.inBuf ++ f.payload ≠ [] := hrest (List.cons_ne_nil _ _)
      by_cases hfit : s.inBuf.length + f.payload.length ≤ pf.maxSize
      · have htail := ih (List.cons_ne_nil g fs)
          (fun x hx => hmask x (List.mem_cons_of_mem f hx)) hfin.2 (s := extended s f)
          (by simpa [extended] using hfit)
          (fun x _ => (nextOpcode_extended hnonempty x).trans hopf)
          (fun _ => List.append_ne_nil_of_left_ne_nil hnonempty _)
          (by rw [extended_append]; exact hnul)
        rw [length_extended_append, extended_append] at htail
        constructor
        · intro hsize
          obtain ⟨c', hdel, hmsg⟩ := htail.1 hsize
          refine ⟨c', ?_, hmsg⟩
          rw [deliver_cons hk, Act.bind_of_ret (acceptFrame_continues hfit hfinf)]
          exact hdel
        · intro hsize
          exact stops_of_continue hk hfit hfinf (htail.2 hsize)
      · refine ⟨fun hsize => ?_, fun _ => stops_of_overflow hk hbuf (by omega)⟩
        rw [List.flatMap_cons, List.length_append] at hsize
        omega

end Deliver

/-! ## Sequences of messages -/

section Sequence

variable {pf : Platform} {handler : WsHandler}

/-- The first fragment sets the opcode to that of its message. -/
theorem nextOpcode_first (m : FragmentedMessage) (op : OpCode) :
    nextOpcode ⟨op, []⟩ m.first = messageOpcode m.text := by
  simp only [nextOpcode, List.length_nil, beq_self_eq_true, if_true, m.opcode_first, messageOpcode]
  cases m.text <;> rfl

/-- The payload of a text contains no NUL. -/
theorem no_nul_payload (m : FragmentedMessage) (h : m.text = true) : (0 : Byte) ∉ m.payload := by
  intro hmem
  obtain ⟨f, hf, hb⟩ := List.mem_flatMap.mp hmem
  exact m.no_nul h f hf hb

/-- A message whose first frame is its last, or has a payload: it is delivered if it fits, and
otherwise the delivery stops. -/
theorem deliver_begun (hq : CallbacksReturn pf handler) (m : FragmentedMessage)
    (hfirst : m.rest = [] ∨ m.first.payload ≠ []) (op : OpCode) (c : Conn) :
    (m.size ≤ pf.maxSize →
      ∃ c', deliver pf handler m.frames (⟨op, []⟩, c) =
          (.ret (), (⟨messageOpcode m.text, []⟩, c')) ∧
        c'.log.messages = c.log.messages ++ [m.callback]) ∧
    (pf.maxSize < m.size → Stops pf handler m.frames ⟨op, []⟩ c) := by
  have hop : ∀ f ∈ m.frames.head?, nextOpcode ⟨op, []⟩ f = messageOpcode m.text := by
    intro f hf
    rw [FragmentedMessage.frames, List.head?_cons, Option.mem_some_iff] at hf
    rw [← hf]
    exact nextOpcode_first m op
  have hrest := deliver_rest (s := ⟨op, []⟩) (c := c) hq m.text
    (List.cons_ne_nil m.first m.rest) m.masked m.fin_last (Nat.zero_le _) hop
    (fun htail => hfirst.resolve_left htail) (fun htext => no_nul_payload m htext)
  rw [List.length_nil, Nat.zero_add] at hrest
  exact hrest

/-- A message that the code handles is delivered. -/
theorem deliver_handled (hq : CallbacksReturn pf handler) (m : FragmentedMessage)
    (h : m.Handled pf) (op : OpCode) (c : Conn) :
    ∃ op' c', deliver pf handler m.frames (⟨op, []⟩, c) = (.ret (), (⟨op', []⟩, c')) ∧
      c'.log.messages = c.log.messages ++ [m.callback] := by
  obtain ⟨c', hdel, hmsg⟩ := (deliver_begun hq m h.1 op c).1 h.2
  exact ⟨messageOpcode m.text, c', hdel, hmsg⟩

/-- A message that the code does not handle stops the delivery. -/
theorem stops_unhandled (hq : CallbacksReturn pf handler) (m : FragmentedMessage)
    (h : ¬ m.Handled pf) (op : OpCode) (c : Conn) : Stops pf handler m.frames ⟨op, []⟩ c := by
  by_cases hfirst : m.rest = [] ∨ m.first.payload ≠ []
  · have hsize : pf.maxSize < m.size := by
      by_contra hle
      exact h ⟨hfirst, by omega⟩
    exact (deliver_begun hq m hfirst op c).2 hsize
  · obtain ⟨hrest, hempty⟩ := not_or.mp hfirst
    have hempty : m.first.payload = [] := not_not.mp hempty
    have hfin : m.first.fin = false ∧ FinLast m.rest := by
      have hlast := m.fin_last
      cases hr : m.rest with
      | nil => exact absurd hr hrest
      | cons g fs =>
        rw [hr] at hlast
        exact hlast
    -- the empty first frame leaves the buffer empty: the next frame sets opcode 0
    refine stops_of_continue (m.masked _ List.mem_cons_self) (by simp [hempty]) hfin.1
      (stops_of_zero hrest (fun f hf => m.masked f (List.mem_cons_of_mem _ hf)) m.opcode_rest hfin.2
        (by simp [extended, hempty]) (Or.inl (by simp [extended, hempty])))

/-- Every message of a sequence is delivered, once and in order, if and only if the code handles
each of them. -/
theorem deliver_messages_iff (hq : CallbacksReturn pf handler) (ms : List FragmentedMessage)
    (c : Conn) :
    (deliver pf handler (ms.flatMap FragmentedMessage.frames) (HttpWsState.init, c)).2.2.log.messages
        = c.log.messages ++ ms.map FragmentedMessage.callback ↔
      ∀ m ∈ ms, m.Handled pf := by
  suffices hgen : ∀ (op : OpCode) (c : Conn),
      (deliver pf handler (ms.flatMap FragmentedMessage.frames) (⟨op, []⟩, c)).2.2.log.messages
          = c.log.messages ++ ms.map FragmentedMessage.callback ↔
        ∀ m ∈ ms, m.Handled pf from hgen 0 c
  induction ms with
  | nil => intro op c; simp [deliver]
  | cons m ms ih =>
    intro op c
    rw [List.flatMap_cons, deliver_append]
    by_cases hm : m.Handled pf
    · obtain ⟨op', c', hdel, hmsg⟩ := deliver_handled hq m hm op c
      rw [Act.bind_of_ret hdel]
      have hih := ih op' c'
      rw [hmsg, List.append_assoc, List.singleton_append] at hih
      rw [List.map_cons, hih]
      simp [hm]
    · obtain ⟨hstop, hsame⟩ := stops_unhandled hq m hm op c
      have hlost : (do
          deliver pf handler m.frames
          deliver pf handler (ms.flatMap FragmentedMessage.frames)
          : Action (HttpWsState × Conn) Unit) (⟨op, []⟩, c) =
            ((deliver pf handler m.frames (⟨op, []⟩, c)).1,
              (deliver pf handler m.frames (⟨op, []⟩, c)).2) := by
        rw [Act.bind_apply]
        rcases hr : deliver pf handler m.frames (⟨op, []⟩, c) with ⟨r, s⟩
        rw [hr] at hstop
        cases r with
        | ret u => cases hstop
        | exn e => rfl
        | ub => rfl
      rw [hlost, hsame]
      constructor
      · intro heq
        have hlen := congrArg List.length heq
        simp at hlen
      · intro hall
        exact absurd (hall m List.mem_cons_self) hm

end Sequence

/-! ## A message in two frames -/

/-- The text "a", sent as a first frame with payload `first` and a continuation with payload
`second`. -/
def splitText (first second : Bytes) (h₁ : first.length < 126) (h₂ : second.length < 126)
    (hnul : (0 : Byte) ∉ first ++ second) : FragmentedMessage where
  text := true
  first := ⟨false, 0, 1, some ⟨1, 2, 3, 4⟩, .bits7, first, h₁⟩
  rest := [⟨true, 0, 0, some ⟨1, 2, 3, 4⟩, .bits7, second, h₂⟩]
  masked := by simp
  opcode_first := rfl
  opcode_rest := by simp
  fin_last := ⟨rfl, rfl⟩
  no_nul := by simpa using hnul

/-- Both frames carry payload: the condition on a sequence of one message. -/
theorem deliver_messages_iff_split :
    let m := splitText [0x61] [0x62] (by decide) (by decide) (by decide)
    (deliver .plain WsHandlerNull ([m].flatMap FragmentedMessage.frames)
        (HttpWsState.init, Conn.init [])).2.2.log.messages
        = (Conn.init []).log.messages ++ [m].map FragmentedMessage.callback ↔
      ∀ x ∈ [m], x.Handled .plain :=
  deliver_messages_iff (callbacksReturn_null .plain) _ (Conn.init [])

/-- An empty first frame: the text "a" does not reach the handler. -/
theorem empty_first_fragment_lost :
    ∃ m : FragmentedMessage, CallbacksReturn .plain WsHandlerNull ∧
      (deliver .plain WsHandlerNull m.frames (HttpWsState.init, Conn.init [])).2.2.log.messages ≠
        [m.callback] := by
  refine ⟨splitText [] [0x61] (by decide) (by decide) (by decide), callbacksReturn_null _, ?_⟩
  decide +kernel

end CppSocks.Analysis
