import CppSocks.Analysis.FileStreaming
import CppSocks.Analysis.SentStream
import CppSocks.Interface.CounterStream

/-!
# What the pusher writes

The call of `send` by which the pusher sends a counter, over any outcomes of the
writes: it does to the connection what one `Connection::send` of a certain string
does. The string is a text frame in `ws_push` and a string with its NUL in
`tcp_push`; a client gets the counter back.
-/

set_option autoImplicit false

namespace CppSocks.Analysis.Push

open CppSocks.Model CppSocks.Interface Foundation

/-! ## The text -/

/-- A message is its counter in decimal and the end of the line. -/
theorem message_eq (cnt : ℕ) : message cnt = decimal cnt ++ [0x0A] := by
  have hrepr : (toString cnt).toList = Nat.toDigits 10 cnt := Nat.toList_repr
  rw [message, ascii, hrepr, decimal_eq]

/-- A message fits into a frame that the library can build. -/
theorem length_message (cnt : ℕ) : (message (cnt % SIZE_MOD)).length ≤ 65535 := by
  have hlt : cnt % SIZE_MOD < 10 ^ 20 := lt_trans (Nat.mod_lt _ (by decide)) (by decide)
  have hdigits := Nat.toDigits_length 10 (cnt % SIZE_MOD) 20 (by decide) hlt
  rw [message_eq, decimal_eq, List.length_append, List.length_map, List.length_singleton]
  omega

/-- There is no NUL in a message, so as a C string it is complete. -/
theorem zero_notMem_message (cnt : ℕ) : 0 ∉ message cnt := by
  rw [message_eq, List.mem_append, not_or]
  constructor
  · intro hmem
    exact absurd (decimal_digits cnt 0 hmem).1 (by decide)
  · decide

/-- A client reads the counter that was written. -/
theorem readCounter_message (cnt : ℕ) : readCounter (message cnt) = some cnt := by
  rw [readCounter, message_eq, List.getLast?_concat, if_pos rfl, List.dropLast_concat,
    readDecimal_decimal]

/-! ## The items -/

/-- The frame with a counter. -/
def counterFrame (cnt : ℕ) : Frame := serverFrame 1 (message (cnt % SIZE_MOD)) (length_message cnt)

/-- The string with a counter. -/
def counterString (cnt : ℕ) : CString :=
  ⟨message (cnt % SIZE_MOD), zero_notMem_message (cnt % SIZE_MOD)⟩

/-- A WebSocket client reads the counters, however the stream is cut. -/
theorem readFrames_counters {pieces : List Bytes} {cnts : List ℕ}
    (h : pieces.flatten = cnts.flatMap fun cnt => (counterFrame cnt).encode) :
    readFrames pieces = cnts.map fun cnt => some (cnt % SIZE_MOD) := by
  have hall : pieces.flatten = frameCode.encodeAll (cnts.map counterFrame) := by
    rw [h, Code.encodeAll, List.flatMap_map]
    rfl
  rw [readFrames, frameCode.receive_encodeAll hall, List.map_map]
  refine List.map_congr_left fun cnt _ => ?_
  exact readCounter_message _

/-- The client of a plain connection reads the counters, however the stream is cut. -/
theorem readStrings_counters {pieces : List Bytes} {cnts : List ℕ}
    (h : pieces.flatten = cnts.flatMap fun cnt => (counterString cnt).bytes ++ [0]) :
    readStrings pieces = cnts.map fun cnt => some (cnt % SIZE_MOD) := by
  have hall : pieces.flatten = terminatedCode.encodeAll (cnts.map counterString) := by
    rw [h, Code.encodeAll, List.flatMap_map]
    rfl
  rw [readStrings, terminatedCode.receive_encodeAll hall, List.map_map]
  refine List.map_congr_left fun cnt _ => ?_
  exact readCounter_message _

/-! ## The calls -/

/-- Each call by which a counter is sent does what one `Connection::send` of a string does. -/
structure Wired (pf : Platform) (kind : PushKind) (wire : ℕ → Bytes) : Prop where
  length_lt : ∀ cnt, (wire cnt).length < SIZE_MOD
  ret : ∀ cnt c c' n, Connection.send (wire cnt) c = (.ret n, c') →
    ∃ m, (kind.send (cnt % SIZE_MOD)).run pf c = (.ret m, c')
  exn : ∀ cnt c c' e, Connection.send (wire cnt) c = (.exn e, c') →
    (kind.send (cnt % SIZE_MOD)).run pf c = (.exn e, c')

/-- The plain program writes each message with its terminating NUL. -/
theorem wired_tcpPush (pf : Platform) :
    Wired pf tcpPush fun cnt => (counterString cnt).bytes ++ [0] where
  length_lt := fun cnt => by
    have hlen := length_message cnt
    rw [List.length_append, List.length_singleton, SIZE_MOD]
    unfold counterString
    dsimp only
    omega
  ret := fun cnt c c' n hsend => ⟨n, by rw [tcpPush, run_sendAll]; exact hsend⟩
  exn := fun cnt c c' e hsend => by rw [tcpPush, run_sendAll]; exact hsend

/-- The WebSocket program writes each message in one unmasked final frame. -/
theorem wired_wsPush (pf : Platform) : Wired pf wsPush fun cnt => (counterFrame cnt).encode := by
  have htext : ∀ cnt, (message (cnt % SIZE_MOD)).takeWhile (· != 0) = message (cnt % SIZE_MOD) :=
    fun cnt => List.takeWhile_eq_self_iff.mpr (bne_of_notMem (zero_notMem_message _))
  have hcreate : ∀ cnt, WebSocketFrame.createText (message (cnt % SIZE_MOD)) =
      .ret ⟨(counterFrame cnt).encode⟩ := by
    intro cnt
    unfold WebSocketFrame.createText
    rw [htext]
    exact create_eq 1 _ (length_message cnt)
  refine ⟨fun cnt => length_encode_lt 1 _ _, fun cnt c c' n hsend => ?_, fun cnt c c' e hsend => ?_⟩
  · have hrun := run_sendFrame pf 1 _ (length_message cnt) hsend
    refine ⟨(message (cnt % SIZE_MOD)).length, ?_⟩
    change ((WsConnection.sendText (message (cnt % SIZE_MOD))).run pf) c = _
    unfold WsConnection.sendText WebSocketFrame.createText
    rw [htext]
    exact hrun
  · change ((WsConnection.sendText (message (cnt % SIZE_MOD))).run pf) c = _
    unfold WsConnection.sendText
    rw [hcreate, run_bind, run_ofCall, Act.bind_of_ret (Act.lift_apply _ c), run_bind, run_sendAll]
    exact Act.bind_of_exn hsend _

end CppSocks.Analysis.Push
