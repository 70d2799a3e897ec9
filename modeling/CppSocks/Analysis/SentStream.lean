import CppSocks.Analysis.ConnectionLog
import CppSocks.Analysis.FrameEncode

/-!
# The outgoing stream

One thread uses a connection whose socket accepts at least one byte at each
write. Whatever the sizes of the short writes are, `Connection::send` writes its
buffer once (`send_accepts`), so the bytes on the wire are the frames that the
operations stand for (`sent_stream`), and no others: frames are a self-delimiting
code.
-/

set_option autoImplicit false

namespace CppSocks.Analysis

open CppSocks.Model CppSocks.Interface Foundation

/-! ## Short writes -/

/-- Each coming write accepts at least one byte. -/
def Accepts (c : Conn) : Prop := ∀ r ∈ c.script, ∃ k, r = .accept k

/-- What a log has written is written in its order. -/
theorem written_append (log log' : Log) :
    Log.written (log ++ log') = Log.written log ++ Log.written log' :=
  List.flatMap_append

/-- A single write has written its bytes. -/
theorem written_wrote (bytes : Bytes) : Log.written [.wrote bytes] = bytes := by
  simp [Log.written]

section Loop

variable {buf : Bytes} {script : List WriteResult} {numWritten k : ℕ} {log : Log}

/-- A write accepts at least one byte and at most what it is offered. -/
theorem length_accepted (k : ℕ) (offered : Bytes) :
    (Connection.accepted k offered).length = min (k + 1) offered.length := by
  rw [Connection.accepted, List.length_take]

/-- What has been accepted, and what is left. -/
theorem accepted_append (k : ℕ) (offered : Bytes) :
    Connection.accepted k offered ++ offered.drop (Connection.accepted k offered).length =
      offered := by
  rw [length_accepted, Connection.accepted]
  by_cases hle : k + 1 ≤ offered.length
  · rw [Nat.min_eq_left hle, List.take_append_drop]
  · rw [Nat.min_eq_right (by omega), List.drop_length, List.append_nil,
      List.take_of_length_le (by omega)]

/-- When everything has been written, the loop returns without another write. -/
theorem sendLoop_done (h : buf.length ≤ numWritten) :
    Connection.sendLoop false buf script numWritten log =
      (.ret numWritten, ⟨false, script, log⟩) := by
  unfold Connection.sendLoop
  cases script <;> exact if_neg fun hgo => absurd hgo.2 (by omega)

/-- A socket without further results accepts the whole rest at once. -/
theorem sendLoop_nil (h : numWritten < buf.length) :
    Connection.sendLoop false buf [] numWritten log =
      (.ret buf.length, ⟨false, [], log ++ [.wrote (buf.drop numWritten)]⟩) := by
  unfold Connection.sendLoop
  exact if_pos ⟨rfl, h⟩

/-- A short write. -/
theorem sendLoop_accept (hbuf : buf.length < SIZE_MOD) (h : numWritten < buf.length) :
    Connection.sendLoop false buf (.accept k :: script) numWritten log =
      Connection.sendLoop false buf script
        (numWritten + (Connection.accepted k (buf.drop numWritten)).length)
        (log ++ [.wrote (Connection.accepted k (buf.drop numWritten))]) := by
  have hlen := length_accepted k (buf.drop numWritten)
  rw [List.length_drop] at hlen
  rw [Connection.sendLoop, if_pos ⟨rfl, h⟩]
  dsimp only
  rw [Nat.mod_eq_of_lt (by omega)]

end Loop

/-- The loop of `send` writes what is left of the buffer, in as many parts as it takes. -/
theorem sendLoop_accepts (buf : Bytes) (hbuf : buf.length < SIZE_MOD) (script : List WriteResult)
    (hscript : ∀ r ∈ script, ∃ k, r = .accept k) (numWritten : ℕ) (hn : numWritten ≤ buf.length)
    (log : Log) :
    ∃ script' log', Connection.sendLoop false buf script numWritten log =
        (.ret buf.length, ⟨false, script', log'⟩) ∧
      (∀ r ∈ script', ∃ k, r = .accept k) ∧
      Log.written log' = Log.written log ++ buf.drop numWritten := by
  induction script generalizing numWritten log with
  | nil =>
    by_cases hlt : numWritten < buf.length
    · refine ⟨[], log ++ [.wrote (buf.drop numWritten)], sendLoop_nil hlt, by simp, ?_⟩
      rw [written_append, written_wrote]
    · obtain rfl : numWritten = buf.length := by omega
      rw [sendLoop_done (le_refl _), List.drop_length, List.append_nil]
      exact ⟨[], log, rfl, by simp, rfl⟩
  | cons r script ih =>
    obtain ⟨k, rfl⟩ := hscript r List.mem_cons_self
    by_cases hlt : numWritten < buf.length
    · have hlen := length_accepted k (buf.drop numWritten)
      rw [List.length_drop] at hlen
      obtain ⟨script', log', hloop, hacc, hwritten⟩ := ih
        (fun r hr => hscript r (List.mem_cons_of_mem _ hr))
        (numWritten + (Connection.accepted k (buf.drop numWritten)).length) (by omega)
        (log ++ [.wrote (Connection.accepted k (buf.drop numWritten))])
      refine ⟨script', log', (sendLoop_accept hbuf hlt).trans hloop, hacc, ?_⟩
      rw [hwritten, written_append, written_wrote, List.append_assoc, ← List.drop_drop,
        accepted_append]
    · obtain rfl : numWritten = buf.length := by omega
      rw [sendLoop_done (le_refl _), List.drop_length, List.append_nil]
      exact ⟨.accept k :: script, log, rfl, hscript, rfl⟩

/-- On an open connection `send` writes the whole buffer, and nothing else. -/
theorem send_accepts {buf : Bytes} (hbuf : buf.length < SIZE_MOD) {c : Conn}
    (hopen : c.closed = false) (hacc : Accepts c) :
    ∃ c', Connection.send buf c = (.ret buf.length, c') ∧ c'.closed = false ∧ Accepts c' ∧
      c'.log.written = c.log.written ++ buf := by
  obtain ⟨script', log', hloop, hacc', hwritten⟩ :=
    sendLoop_accepts buf hbuf c.script hacc 0 (Nat.zero_le _) c.log
  refine ⟨⟨false, script', log'⟩, ?_, rfl, hacc', hwritten⟩
  rw [Connection.send, hopen]
  exact hloop

/-- On a closed connection `send` does nothing. -/
theorem send_of_closed {buf : Bytes} {c : Conn} (hclosed : c.closed = true) :
    Connection.send buf c = (.ret 0, c) := by
  obtain ⟨closed, script, log⟩ := c
  subst hclosed
  unfold Connection.send Connection.sendLoop
  cases script <;> simp

/-! ## Operations -/

/-- The program of an operation. -/
def operationProg : Operation → Prog Unit
  | .send buf => do
    let _ ← WsConnection.send buf
    pure ()
  | .sendText buf => do
    let _ ← WsConnection.sendText buf
    pure ()
  | .close => WsConnection.close

/-- Perform an operation. -/
def perform (pf : Platform) (op : Operation) : Action Conn Unit := (operationProg op).run pf

/-- Perform operations in order; the user catches what an operation throws. -/
def performAll (pf : Platform) : List Operation → Conn → List (Res Exc Unit) × Conn
  | [], c => ([], c)
  | op :: ops, c =>
    let r := perform pf op c
    let rs := performAll pf ops r.2
    (r.1 :: rs.1, rs.2)

/-- How an operation ends. -/
def outcome (op : Operation) : Res Exc Unit :=
  if op.message.2.length ≤ 65535 then .ret ()
  else .exn (.invalid_argument "Payload length > UINT16_MAX currently not supported.")

/-- The connection after the frame of an operation has been written. -/
def afterSend (op : Operation) (c : Conn) : Conn :=
  match op with
  | .close => { c with closed := true }
  | _ => c

section Perform

variable {pf : Platform} {op : Operation} {c : Conn}

/-- A message of at most 65535 bytes has a frame. -/
theorem frame_of_fits (h : op.message.2.length ≤ 65535) :
    op.frame = some (serverFrame op.message.1 op.message.2 h) :=
  dif_pos h

variable (pf) in
/-- What the two kinds of send have in common. -/
theorem run_sendFrame (opcode : Fin 16) (payload : Bytes) (h : payload.length ≤ 65535) {c' : Conn}
    {n : ℕ} (hsend : Connection.send (serverFrame opcode payload h).encode c = (.ret n, c')) :
    ((do
      let response ← Prog.ofCall (WebSocketFrame.create payload true (UInt8.ofNat opcode.val))
      let _ ← Prog.sendAll response.data
      Prog.ofCall response.payloadLength : Prog ℕ).run pf) c = (.ret payload.length, c') := by
  have hlen := payloadLength_encode (form_plainFrame true opcode payload h)
  rw [run_bind, run_ofCall, create_eq opcode payload h, Act.bind_of_ret (Act.lift_apply _ c),
    run_bind, run_sendAll]
  refine (Act.bind_of_ret hsend _).trans ?_
  rw [run_ofCall]
  exact congrArg (fun r => (r, c')) hlen

/-- An operation whose payload is not too long sends its frame. -/
theorem perform_of_send (h : op.message.2.length ≤ 65535) {c' : Conn} {n : ℕ}
    (hsend : Connection.send (serverFrame op.message.1 op.message.2 h).encode c = (.ret n, c')) :
    perform pf op c = (.ret (), afterSend op c') := by
  unfold perform operationProg
  cases op with
  | send buf =>
    have hrun := run_sendFrame pf 2 buf h hsend
    change ((WsConnection.send buf >>= fun _ => pure ()).run pf) c = _
    rw [run_bind]
    exact Act.bind_of_ret hrun _
  | sendText buf =>
    have hrun := run_sendFrame pf 1 (buf.takeWhile (· != 0)) h hsend
    change ((WsConnection.sendText buf >>= fun _ => pure ()).run pf) c = _
    rw [run_bind]
    exact Act.bind_of_ret hrun _
  | close =>
    have hcreate : WebSocketFrame.createConnectionClose 0 =
        .ret ⟨(serverFrame 8 (hton 2 0) (by decide)).encode⟩ := create_eq 8 (hton 2 0) (by decide)
    change (WsConnection.close.run pf) c = _
    unfold WsConnection.close
    rw [hcreate, run_bind, run_ofCall, Act.bind_of_ret (Act.lift_apply _ c), run_bind, run_sendAll]
    exact Act.bind_of_ret hsend _

/-- A longer payload is refused before anything is written. -/
theorem perform_too_long (h : 65535 < op.message.2.length) :
    perform pf op c =
      (.exn (.invalid_argument "Payload length > UINT16_MAX currently not supported."), c) := by
  unfold perform operationProg
  cases op with
  | send buf =>
    have hcreate : WebSocketFrame.create buf true WebSocketFrame.OPCODE_BINARY = _ :=
      create_too_long buf 2 h
    change ((WsConnection.send buf >>= fun _ => pure ()).run pf) c = _
    unfold WsConnection.send
    rw [hcreate]
    rfl
  | sendText buf =>
    have hcreate : WebSocketFrame.createText buf = _ :=
      create_too_long (buf.takeWhile (· != 0)) 1 h
    change ((WsConnection.sendText buf >>= fun _ => pure ()).run pf) c = _
    unfold WsConnection.sendText
    rw [hcreate]
    rfl
  | close => exact absurd h (by decide)

/-- The frame of a message is far shorter than the range of `size_t`. -/
theorem length_encode_lt (opcode : Fin 16) (payload : Bytes) (h : payload.length ≤ 65535) :
    (serverFrame opcode payload h).encode.length < SIZE_MOD := by
  have hwidth : (serverFrame opcode payload h).form.width ≤ 2 := by
    change (shortForm payload.length).width ≤ 2
    unfold shortForm
    split <;> decide
  have hbody : (serverFrame opcode payload h).body = payload := rfl
  rw [Frame.encode, List.length_cons, List.length_cons, List.length_append,
    Frame.length_extLength, hbody, SIZE_MOD]
  omega

variable (pf op) in
/-- One operation on an open connection. -/
theorem perform_open (hopen : c.closed = false) (hacc : Accepts c) :
    (perform pf op c).1 = outcome op ∧ Accepts (perform pf op c).2 ∧
      ((perform pf op c).2.closed = true ↔ op = .close) ∧
      (perform pf op c).2.log.written =
        c.log.written ++ frameCode.encodeAll op.frame.toList := by
  by_cases h : op.message.2.length ≤ 65535
  · obtain ⟨c', hsend, hopen', hacc', hwritten⟩ :=
      send_accepts (length_encode_lt op.message.1 op.message.2 h) hopen hacc
    rw [perform_of_send h hsend, frame_of_fits h]
    have hbytes : frameCode.encodeAll (Option.toList
        (some (serverFrame op.message.1 op.message.2 h))) =
          (serverFrame op.message.1 op.message.2 h).encode := by
      rw [Option.toList_some, frameCode.encodeAll_cons, frameCode.encodeAll_nil, List.append_nil]
      rfl
    rw [hbytes]
    refine ⟨(if_pos h).symm, ?_⟩
    cases op with
    | send buf => exact ⟨hacc', by simp [afterSend, hopen'], hwritten⟩
    | sendText buf => exact ⟨hacc', by simp [afterSend, hopen'], hwritten⟩
    | close => exact ⟨hacc', by simp [afterSend], hwritten⟩
  · have hframe : op.frame = none := dif_neg h
    rw [perform_too_long (Nat.lt_of_not_le h), hframe]
    refine ⟨(if_neg h).symm, hacc, ?_, by simp⟩
    rw [hopen]
    refine iff_of_false Bool.false_ne_true ?_
    rintro rfl
    exact h (by decide)

variable (pf op) in
/-- One operation on a closed connection. -/
theorem perform_closed (hclosed : c.closed = true) :
    (perform pf op c).1 = outcome op ∧ (perform pf op c).2 = c := by
  by_cases h : op.message.2.length ≤ 65535
  · have hafter : afterSend op c = c := by
      cases op with
      | send buf => rfl
      | sendText buf => rfl
      | close => simp only [afterSend, ← hclosed]
    rw [perform_of_send h (send_of_closed hclosed), hafter]
    exact ⟨(if_pos h).symm, rfl⟩
  · rw [perform_too_long (Nat.lt_of_not_le h)]
    exact ⟨(if_neg h).symm, rfl⟩

/-- Operations on a closed connection leave it as it is. -/
theorem performAll_closed (ops : List Operation) (hclosed : c.closed = true) :
    performAll pf ops c = (ops.map outcome, c) := by
  induction ops with
  | nil => rfl
  | cons op ops ih =>
    obtain ⟨hout, hsame⟩ := perform_closed pf op hclosed
    rw [performAll, hsame, ih, hout]
    rfl

variable (pf) in
/-- A sequence of operations on an open connection. -/
theorem performAll_open (ops : List Operation) (hopen : c.closed = false) (hacc : Accepts c) :
    (performAll pf ops c).1 = ops.map outcome ∧
      ((performAll pf ops c).2.closed = true ↔ .close ∈ ops) ∧
      (performAll pf ops c).2.log.written =
        c.log.written ++ frameCode.encodeAll (sentFrames ops) := by
  induction ops generalizing c with
  | nil =>
    refine ⟨rfl, ?_, by simp [performAll, sentFrames]⟩
    rw [performAll, hopen]
    simp
  | cons op ops ih =>
    obtain ⟨hout, hacc', hclosed, hwritten⟩ := perform_open pf op hopen hacc
    by_cases hclose : op = .close
    · have hshut := hclosed.mpr hclose
      rw [performAll, performAll_closed ops hshut, hout]
      refine ⟨rfl, iff_of_true hshut (by simp [hclose]), ?_⟩
      rw [hwritten, hclose]
      rfl
    · have hopen' : (perform pf op c).2.closed = false := by
        cases hcl : (perform pf op c).2.closed with
        | false => rfl
        | true => exact absurd (hclosed.mp hcl) hclose
      obtain ⟨houts, hcl, hbytes⟩ := ih hopen' hacc'
      have hframes : sentFrames (op :: ops) = op.frame.toList ++ sentFrames ops := by
        cases op with
        | send buf => rfl
        | sendText buf => rfl
        | close => exact absurd rfl hclose
      rw [performAll, hframes, frameCode.encodeAll_append, ← List.append_assoc, ← hwritten, hout]
      refine ⟨by rw [houts, List.map_cons], ?_, hbytes⟩
      rw [hcl, List.mem_cons]
      exact ⟨Or.inr, fun h => h.resolve_left fun heq => hclose heq.symm⟩

end Perform

/-! ## The frames on the wire -/

/-- The opcodes and payloads that a sequence of operations stands for: those of the sends in front of
the first close, as far as they are not too long, and then the close. -/
def sentMessages (ops : List Operation) : List (Fin 16 × Bytes) :=
  ((ops.takeWhile (· ≠ .close)).map Operation.message).filter (fun m => m.2.length ≤ 65535) ++
    if .close ∈ ops then [(8, [0, 0])] else []

/-- The frames are unmasked final frames in the shortest form, with these opcodes and payloads. -/
theorem sentFrames_spec (ops : List Operation) :
    (∀ f ∈ sentFrames ops, f.fin = true ∧ f.rsv = 0 ∧ f.key = none ∧ f.Minimal) ∧
      (sentFrames ops).map (fun f => (f.opcode, f.payload)) = sentMessages ops := by
  have hframe : ∀ op : Operation, (∀ f ∈ op.frame.toList, f.fin = true ∧ f.rsv = 0 ∧ f.key = none ∧
      f.Minimal) ∧ op.frame.toList.map (fun f => (f.opcode, f.payload)) =
        [op.message].filter (fun m => m.2.length ≤ 65535) := by
    intro op
    by_cases h : op.message.2.length ≤ 65535
    · rw [frame_of_fits h]
      refine ⟨?_, by simp [serverFrame, h]⟩
      intro f hf
      rw [Option.toList_some, List.mem_singleton] at hf
      rw [hf]
      exact ⟨rfl, rfl, rfl, serverFrame_minimal _ _ h⟩
    · have hnone : op.frame = none := dif_neg h
      rw [hnone]
      exact ⟨by simp, by simp [h]⟩
  induction ops with
  | nil => exact ⟨by simp [sentFrames], by simp [sentFrames, sentMessages]⟩
  | cons op ops ih =>
    obtain ⟨hall, hmap⟩ := ih
    obtain ⟨hop, hmsg⟩ := hframe op
    by_cases hclose : op = .close
    · subst hclose
      refine ⟨hop, ?_⟩
      simp only [sentMessages, List.takeWhile_cons]
      exact hmsg
    · have hframes : sentFrames (op :: ops) = op.frame.toList ++ sentFrames ops := by
        cases op with
        | send buf => rfl
        | sendText buf => rfl
        | close => exact absurd rfl hclose
      rw [hframes]
      constructor
      · intro f hf
        exact (List.mem_append.mp hf).elim (hop f) (hall f)
      · have htake : (op :: ops).takeWhile (· ≠ .close) = op :: ops.takeWhile (· ≠ .close) :=
          List.takeWhile_cons_of_pos (by simpa using hclose)
        have hmem : Operation.close ∈ op :: ops ↔ Operation.close ∈ ops := by
          rw [List.mem_cons]
          exact ⟨fun h => h.resolve_left fun heq => hclose heq.symm, Or.inr⟩
        unfold sentMessages at hmap ⊢
        rw [List.map_append, hmsg, hmap, htake, List.map_cons, ← List.append_assoc,
          ← List.filter_append, List.singleton_append]
        simp only [hmem]

/-- The bytes written by a sequence of operations are those of exactly one sequence of frames: one
for each operation up to the first close whose payload is not too long. A longer payload throws and
leaves the connection as it was. -/
theorem sent_stream (pf : Platform) (ops : List Operation) (c : Conn) (hopen : c.closed = false)
    (hacc : Accepts c) :
    (∃ fs : List Frame,
      (performAll pf ops c).2.log.written = c.log.written ++ frameCode.encodeAll fs ∧
        (∀ gs : List Frame, frameCode.encodeAll gs = frameCode.encodeAll fs → gs = fs) ∧
        (∀ f ∈ fs, f.fin = true ∧ f.rsv = 0 ∧ f.key = none ∧ f.Minimal) ∧
        fs.map (fun f => (f.opcode, f.payload)) = sentMessages ops) ∧
      ((performAll pf ops c).2.closed = true ↔ .close ∈ ops) ∧
      (performAll pf ops c).1 = ops.map outcome ∧
      ∀ (op : Operation) (c : Conn), 65535 < op.message.2.length → perform pf op c =
        (.exn (.invalid_argument "Payload length > UINT16_MAX currently not supported."), c) := by
  obtain ⟨houts, hclosed, hwritten⟩ := performAll_open pf ops hopen hacc
  obtain ⟨hall, hmap⟩ := sentFrames_spec ops
  refine ⟨⟨sentFrames ops, hwritten, ?_, hall, hmap⟩, hclosed, houts, ?_⟩
  · intro gs heq
    exact frameCode.encodeAll_injective heq
  · intro op c hlong
    exact perform_too_long hlong

/-- Two messages and a close through a socket that accepts three bytes, then one. -/
theorem sent_stream_shortWrites :
    let ops : List Operation := [.send [1, 2, 3], .close, .sendText (ascii "late")]
    let c := Conn.init [.accept 2, .accept 0]
    (∃ fs : List Frame,
      (performAll .plain ops c).2.log.written = c.log.written ++ frameCode.encodeAll fs ∧
        (∀ gs : List Frame, frameCode.encodeAll gs = frameCode.encodeAll fs → gs = fs) ∧
        (∀ f ∈ fs, f.fin = true ∧ f.rsv = 0 ∧ f.key = none ∧ f.Minimal) ∧
        fs.map (fun f => (f.opcode, f.payload)) = sentMessages ops) ∧
      ((performAll .plain ops c).2.closed = true ↔ .close ∈ ops) ∧
      (performAll .plain ops c).1 = ops.map outcome ∧
      ∀ (op : Operation) (c : Conn), 65535 < op.message.2.length → perform .plain op c =
        (.exn (.invalid_argument "Payload length > UINT16_MAX currently not supported."), c) :=
  sent_stream .plain _ _ rfl (by
    intro r hr
    simp only [Conn.init, List.mem_cons, List.not_mem_nil, or_false] at hr
    obtain rfl | rfl := hr
    · exact ⟨2, rfl⟩
    · exact ⟨0, rfl⟩)

end CppSocks.Analysis
