import CppSocks.Analysis.FrameDecode
import CppSocks.Analysis.LoopPasses
import CppSocks.Interface.Receiver

/-!
# Chunks and frames

`HttpWsState::onReceive` decodes the beginning of each chunk as a frame. A chunk
that begins with a complete masked frame is handled as that frame
(`onReceive_frame`), whatever follows the frame in the chunk: the rest is lost.

So the worker's loop, as long as each chunk that it delivers is a complete frame, does
what a receiver does that puts the stream together, however that receiver's stream was
cut (`feedChunks_eq_receive`). For other chunks it does not: two frames in one chunk are
one frame to it (`coalesced_frames_differ`).
-/

set_option autoImplicit false

namespace CppSocks.Analysis

open CppSocks.Model CppSocks.Interface Foundation

section Receive

variable {σ : Type} {pf : Platform} {fsm conn : Port σ} {handler : WsHandler}
  {mem : Mem} {len : ℕ} {f : Frame} {k : MaskingKey}

/-- Decoding a complete masked frame is appending its payload. -/
theorem decode_frame (h : mem.StartsWith f.encode) (hlen : f.encode.length ≤ len)
    (hk : f.key = some k) (buf : WsBuffer) :
    WebSocketFrame.decode pf mem len buf = (do
      let filled ← appendPayload pf buf f.payload
      pure (filled, UInt8.ofNat f.opcode.val, f.fin)) := by
  rw [decode_header h hlen hk]
  unfold appendPayload
  cases buf.resize pf ((buf.length + f.payload.length) % SIZE_MOD) <;> rfl

/-- A chunk that begins with a complete masked frame is handled as that frame. -/
theorem onReceive_frame (h : mem.StartsWith f.encode) (hlen : f.encode.length ≤ len)
    (hk : f.key = some k) :
    HttpWsState.onReceive pf fsm conn handler mem len = acceptFrame pf fsm conn handler f := by
  unfold HttpWsState.onReceive acceptFrame
  congr 1
  funext s
  unfold HttpWsState.receiveFrame frameBody
  rw [Act.bind_of_ret (Act.gets_apply _ s), Act.bind_of_ret (Act.gets_apply _ s),
    decode_frame h hlen hk]
  cases hr : appendPayload pf s.1.inBuf f.payload with
  | ret filled => rfl
  | exn e => rfl
  | ub => rfl

end Receive

/-! ## The worker's loop over chunks -/

/-- `HttpWsState` as the handler of a worker. -/
def wsServerHandler (pf : Platform) (handler : WsHandler) : ServerHandler (HttpWsState × Conn) where
  onConnect := pure ()
  onReceive := HttpWsState.onReceive pf .self .self handler
  onDisconnect := HttpWsState.outer (HttpWsState.onDisconnect pf .self .self handler)
  isClosed := fun s => s.2.closed

/-- Feed chunks to `HttpWsState::onReceive` in order, as `ClientWorker::loop` does. -/
def feedChunks (pf : Platform) (handler : WsHandler) (chunks : List Chunk) :
    Action (ClientWorker (HttpWsState × Conn)) Unit :=
  ClientWorker.loop pf (wsServerHandler pf handler) (chunks.map .data)

/-- What the peer and the user of a connection can see. -/
structure Observation where
  messages : List Event
  written : Bytes
  closed : Bool
deriving DecidableEq, Repr

/-- The observation of a connection after a run. -/
def observe (r : Res Exc Unit × (HttpWsState × Conn)) : Observation where
  messages := r.2.2.log.messages
  written := r.2.2.log.written
  closed := r.2.2.closed

/-- The observation of a worker's connection after a run. -/
def observeWorker (r : Res Exc Unit × ClientWorker (HttpWsState × Conn)) : Observation :=
  observe (r.1, r.2.handler)

section Feed

variable {pf : Platform} {handler : WsHandler}

/-- The chunk delivers the frame: it begins with it, and the frame is masked. -/
def Begins (chunk : Chunk) (f : Frame) : Prop :=
  f.key.isSome ∧ ∃ rest, chunk.bytes = f.encode ++ rest

/-- The call of `onReceive` for a chunk is the step for the frame that the chunk begins with. -/
theorem receive_begins {chunk : Chunk} {f : Frame} (h : Begins chunk f)
    (w : ClientWorker (HttpWsState × Conn)) :
    (ClientWorker.receive pf (wsServerHandler pf handler) chunk w).1 =
        (acceptFrame pf .self .self handler f w.handler).1 ∧
      (ClientWorker.receive pf (wsServerHandler pf handler) chunk w).2.handler =
        (acceptFrame pf .self .self handler f w.handler).2 := by
  obtain ⟨hkey, rest, hbytes⟩ := h
  obtain ⟨k, hk⟩ := Option.isSome_iff_exists.mp hkey
  have hlen : f.encode.length ≤ chunk.bytes.length := by
    rw [hbytes, List.length_append]
    exact Nat.le_add_right _ _
  have hon : (wsServerHandler pf handler).onReceive
      (ClientWorker.bufMem pf (ClientWorker.fill w.buf chunk)) chunk.bytes.length =
        acceptFrame pf .self .self handler f :=
    onReceive_frame (ClientWorker.bufMem_fill_startsWith pf w.buf hbytes) hlen hk
  rw [receive_apply, hon]
  exact ⟨rfl, rfl⟩

/-- The state behind the pass for such a chunk. -/
theorem handler_of_nextPass {chunk : Chunk} {f : Frame} (h : Begins chunk f)
    {w w' : ClientWorker (HttpWsState × Conn)}
    (hnext : nextPass pf (wsServerHandler pf handler) (.data chunk) w = some w') :
    w'.handler = (acceptFrame pf .self .self handler f w.handler).2 := by
  rw [← (receive_begins h w).2, nextPass_data hnext]

/-- On a closed connection no frame is looked at. -/
theorem acceptAll_closed (fs : List Frame) {s : HttpWsState × Conn} (h : s.2.closed = true) :
    acceptAll pf handler fs s = (.ret (), s) := by
  cases fs with
  | nil => rfl
  | cons f fs =>
    rw [acceptAll, Act.bind_of_ret (Act.gets_apply _ s), h]
    rfl

/-- One pass: a chunk that begins with a frame is taken as this frame, and so are the others if what
follows is taken as the frames behind it. -/
theorem feedChunks_cons {chunk : Chunk} {chunks : List Chunk} {f : Frame} {fs : List Frame}
    {w : ClientWorker (HttpWsState × Conn)}
    (hbegin : w.handler.2.closed = false → Begins chunk f)
    (hrest : w.handler.2.closed = false → ∀ w',
      nextPass pf (wsServerHandler pf handler) (.data chunk) w = some w' →
      (feedChunks pf handler chunks w').1 = (acceptAll pf handler fs w'.handler).1 ∧
        (feedChunks pf handler chunks w').2.handler = (acceptAll pf handler fs w'.handler).2) :
    (feedChunks pf handler (chunk :: chunks) w).1 = (acceptAll pf handler (f :: fs) w.handler).1 ∧
      (feedChunks pf handler (chunk :: chunks) w).2.handler =
        (acceptAll pf handler (f :: fs) w.handler).2 := by
  unfold feedChunks
  rw [List.map_cons, ClientWorker.loop, Act.bind_of_ret (Act.gets_apply _ w)]
  cases hclosed : w.handler.2.closed with
  | true =>
    have hshut : (wsServerHandler pf handler).isClosed w.handler = true := hclosed
    rw [acceptAll_closed _ hclosed, hshut]
    exact ⟨rfl, rfl⟩
  | false =>
    have hopen : (wsServerHandler pf handler).isClosed w.handler = false := hclosed
    obtain ⟨hres, hhandler⟩ := @receive_begins pf handler _ _ (hbegin hclosed) w
    rw [acceptAll, Act.bind_of_ret (Act.gets_apply _ w.handler), hclosed, hopen]
    simp only [Bool.false_eq_true, if_false]
    rcases hr : ClientWorker.receive pf (wsServerHandler pf handler) chunk w with ⟨r, w'⟩
    rcases ha : acceptFrame pf .self .self handler f w.handler with ⟨r', s⟩
    rw [hr, ha] at hres hhandler
    subst hres hhandler
    cases r with
    | ret u =>
      rw [Act.bind_of_ret hr, Act.bind_of_ret ha]
      refine hrest hclosed w' ?_
      rw [nextPass, hr]
    | exn e =>
      rw [Act.bind_of_exn hr, Act.bind_of_exn ha]
      exact ⟨rfl, rfl⟩
    | ub =>
      rw [Act.bind_of_ub hr, Act.bind_of_ub ha]
      exact ⟨rfl, rfl⟩

/-- Chunks that begin with complete frames are handled as these frames. -/
theorem feedChunks_begins {chunks : List Chunk} {fs : List Frame}
    (h : List.Forall₂ Begins chunks fs) (w : ClientWorker (HttpWsState × Conn)) :
    (feedChunks pf handler chunks w).1 = (acceptAll pf handler fs w.handler).1 ∧
      (feedChunks pf handler chunks w).2.handler = (acceptAll pf handler fs w.handler).2 := by
  induction h generalizing w with
  | nil => exact ⟨rfl, rfl⟩
  | cons hbegin _ ih => exact feedChunks_cons (fun _ => hbegin) fun _ w' _ => ih w'

/-- A chunk that the pass delivers is one complete masked frame. -/
def AlignedPass : LoopEvent → ClientWorker (HttpWsState × Conn) → Prop
  | .data chunk, _ => ∃ f : Frame, f.key.isSome ∧ chunk.bytes = f.encode
  | _, _ => True

/-- The loop over such chunks takes the frames that are found in their stream. Chunks that it does
not deliver any more, because the connection is closed or a callback has thrown, can be anything. -/
theorem feedChunks_split (chunks : List Chunk) (w : ClientWorker (HttpWsState × Conn))
    (haligned : Along pf (wsServerHandler pf handler) AlignedPass (chunks.map .data) w) :
    (feedChunks pf handler chunks w).1 =
        (acceptAll pf handler (frameCode.split (chunks.map Chunk.bytes).flatten).1 w.handler).1 ∧
      (feedChunks pf handler chunks w).2.handler =
        (acceptAll pf handler (frameCode.split (chunks.map Chunk.bytes).flatten).1 w.handler).2 := by
  induction chunks generalizing w with
  | nil =>
    rw [List.map_nil, List.flatten_nil, Code.split_nil]
    exact ⟨rfl, rfl⟩
  | cons chunk chunks ih =>
    cases hclosed : w.handler.2.closed with
    | true =>
      have hshut : (wsServerHandler pf handler).isClosed w.handler = true := hclosed
      unfold feedChunks
      rw [List.map_cons, ClientWorker.loop, Act.bind_of_ret (Act.gets_apply _ w),
        acceptAll_closed _ hclosed, hshut]
      exact ⟨rfl, rfl⟩
    | false =>
      obtain ⟨⟨f, hkey, hbytes⟩, hnext⟩ := haligned hclosed
      have hencode : chunk.bytes = frameCode.encode f := hbytes
      have hwhole : chunk.bytes = f.encode ++ [] := by rw [hbytes, List.append_nil]
      rw [List.map_cons, List.flatten_cons, hencode, Code.split_encode]
      exact feedChunks_cons (fun _ => ⟨hkey, [], hwhole⟩) fun _ w' hw' => ih w' (hnext w' hw')

/-- In a run in which each chunk that is delivered is one complete masked frame, the outcome, the
reassembly state and the connection are those of a receiver that gets the same stream in any other
pieces and puts it together. -/
theorem feedChunks_eq_receive (chunks : List Chunk) (pieces : List Bytes)
    (w : ClientWorker (HttpWsState × Conn))
    (haligned : Along pf (wsServerHandler pf handler) AlignedPass (chunks.map .data) w)
    (hpieces : pieces.flatten = (chunks.map Chunk.bytes).flatten) :
    (feedChunks pf handler chunks w).1 =
        (acceptAll pf handler (frameCode.receive pieces []) w.handler).1 ∧
      (feedChunks pf handler chunks w).2.handler =
        (acceptAll pf handler (frameCode.receive pieces []) w.handler).2 := by
  have hsplit : frameCode.receive pieces [] =
      (frameCode.split (chunks.map Chunk.bytes).flatten).1 := by
    rw [Code.receive_eq_split _ pieces [] (by rw [Code.split_nil]), List.nil_append, hpieces]
  rw [hsplit]
  exact feedChunks_split chunks w haligned

end Feed

/-! ## Frames that share a chunk -/

/-- A masked text frame with one byte of payload. -/
def textFrame (b : Byte) : Frame where
  fin := true
  rsv := 0
  opcode := 1
  key := some ⟨1, 2, 3, 4⟩
  form := .bits7
  payload := [b]
  fits := by simp [LengthForm.capacity]

/-- A worker whose client has just been upgraded. -/
def freshWorker : ClientWorker (HttpWsState × Conn) :=
  ClientWorker.init (HttpWsState.init, Conn.init []) (List.replicate MAX_SIZE 0)

/-- Two text frames, each in a chunk of its own. -/
def twoChunks : List Chunk :=
  [⟨(textFrame 0x61).encode, by decide, by decide⟩, ⟨(textFrame 0x62).encode, by decide, by decide⟩]

/-- The same two frames in one chunk. -/
def oneChunk : List Chunk :=
  [⟨(textFrame 0x61).encode ++ (textFrame 0x62).encode, by decide, by decide⟩]

/-- A masked close frame. -/
def maskedClose : Frame where
  fin := true
  rsv := 0
  opcode := 8
  key := some ⟨1, 2, 3, 4⟩
  form := .bits7
  payload := []
  fits := by decide

/-- A chunk with the close frame of a client. -/
def closeChunk : Chunk where
  bytes := maskedClose.encode
  pos := by decide
  le := by decide

/-- A text, a close frame, and behind it a chunk that is no frame. -/
def closeChunks : List Chunk :=
  [⟨(textFrame 0x61).encode, by decide, by decide⟩, closeChunk, ⟨[0x00], by decide, by decide⟩]

/-- The sample chunks are whole masked frames up to the close frame, and whatever they like behind
it. -/
theorem along_closeChunks :
    Along .plain (wsServerHandler .plain WsHandlerNull) AlignedPass (closeChunks.map .data)
      freshWorker := by
  refine fun _ => ⟨⟨textFrame 0x61, rfl, rfl⟩, fun w hw => ?_⟩
  refine fun _ => ⟨⟨maskedClose, rfl, rfl⟩, fun w' hw' => ?_⟩
  intro hopen
  have hclosed : w'.handler.2.closed = true := by
    rw [handler_of_nextPass ⟨rfl, [], rfl⟩ hw', handler_of_nextPass ⟨rfl, [], rfl⟩ hw]
    decide +kernel
  exact absurd (hclosed.symm.trans hopen) (by decide)

/-- The run over these chunks, and a receiver that gets the stream byte by byte. -/
theorem feedChunks_closeChunks :
    (feedChunks .plain WsHandlerNull closeChunks freshWorker).1 =
        (acceptAll .plain WsHandlerNull (frameCode.receive
          ((closeChunks.map Chunk.bytes).flatten.map fun b => [b]) []) freshWorker.handler).1 ∧
      (feedChunks .plain WsHandlerNull closeChunks freshWorker).2.handler =
        (acceptAll .plain WsHandlerNull (frameCode.receive
          ((closeChunks.map Chunk.bytes).flatten.map fun b => [b]) []) freshWorker.handler).2 :=
  feedChunks_eq_receive closeChunks _ freshWorker along_closeChunks (by decide)

/-- Two text frames: sent in two chunks both reach the handler, sent in one chunk only the first
does. -/
theorem coalesced_frames_differ :
    ∃ (fs : List Frame) (chunks chunks' : List Chunk),
      (∀ f ∈ fs, f.key.isSome) ∧
      (chunks.map Chunk.bytes).flatten = frameCode.encodeAll fs ∧
      (chunks'.map Chunk.bytes).flatten = frameCode.encodeAll fs ∧
      observeWorker (feedChunks .plain WsHandlerNull chunks freshWorker) ≠
        observeWorker (feedChunks .plain WsHandlerNull chunks' freshWorker) := by
  refine ⟨[textFrame 0x61, textFrame 0x62], oneChunk, twoChunks, by decide, by decide, by decide, ?_⟩
  have hone : List.Forall₂ Begins oneChunk [textFrame 0x61] :=
    .cons ⟨rfl, (textFrame 0x62).encode, rfl⟩ .nil
  have htwo : List.Forall₂ Begins twoChunks [textFrame 0x61, textFrame 0x62] :=
    .cons ⟨rfl, [], rfl⟩ (.cons ⟨rfl, [], rfl⟩ .nil)
  obtain ⟨hres, hstate⟩ := @feedChunks_begins .plain WsHandlerNull _ _ hone freshWorker
  obtain ⟨hres', hstate'⟩ := @feedChunks_begins .plain WsHandlerNull _ _ htwo freshWorker
  have hstart : freshWorker.handler = (HttpWsState.init, Conn.init []) := rfl
  unfold observeWorker
  rw [hres, hstate, hres', hstate', hstart]
  decide +kernel

end CppSocks.Analysis
