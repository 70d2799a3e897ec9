import CppSocks.Analysis.RequestBuffer
import CppSocks.Analysis.SentStream
import CppSocks.Analysis.WorkerSession
import CppSocks.Model.ExampleHandlers

/-!
# The TCP echo server

What a worker of `tcp_echo` writes over its whole run, whatever the socket shows it
and however its writes come out, as long as none of them is interrupted: nothing but
what the client has sent, in order and each byte at most once; and all of it if no
write fails (`echo_written`).
-/

set_option autoImplicit false

namespace CppSocks.Analysis

open CppSocks.Model Foundation

/-- What a client sends before it ends the connection or the socket fails. -/
def clientBytes : List LoopEvent → Bytes
  | .data chunk :: events => chunk.bytes ++ clientBytes events
  | .notReadable :: events => clientBytes events
  | .again :: events => clientBytes events
  | _ => []

/-- No coming write is interrupted. -/
def Steady (c : Conn) : Prop := ∀ r ∈ c.script, r ≠ .again

/-! ## One send -/

section Send

variable {buf : Bytes} {c c' : Conn}

/-- The loop of `send` has written the beginning of what is left when a write fails. -/
theorem sendLoop_steady (hbuf : buf.length < SIZE_MOD) (script : List WriteResult)
    (hscript : ∀ r ∈ script, r ≠ .again) {n : ℕ} (hn : n ≤ buf.length) (log : Log) :
    ∃ r script' log' bytes, Connection.sendLoop false buf script n log =
        (r, ⟨false, script', log'⟩) ∧ r ≠ .ub ∧ (∀ r ∈ script', r ≠ .again) ∧
      Log.written log' = Log.written log ++ bytes ∧ bytes <+: buf.drop n ∧
      (r.isRet = true → bytes = buf.drop n) := by
  induction script generalizing n log with
  | nil =>
    obtain ⟨script', log', hloop, hacc, hwritten⟩ := sendLoop_accepts buf hbuf [] nofun n hn log
    refine ⟨_, script', log', _, hloop, nofun, fun r hr => ?_, hwritten, List.prefix_rfl, fun _ => rfl⟩
    obtain ⟨k, rfl⟩ := hacc r hr
    exact nofun
  | cons w script ih =>
    have hrest : ∀ r ∈ script, r ≠ .again := fun r hr => hscript r (List.mem_cons_of_mem _ hr)
    by_cases hlt : n < buf.length
    · cases w with
      | again => exact absurd rfl (hscript _ List.mem_cons_self)
      | fail e =>
        refine ⟨.exn e, script, log, [], ?_, nofun, hrest, (List.append_nil _).symm, List.nil_prefix, nofun⟩
        rw [Connection.sendLoop, if_pos ⟨rfl, hlt⟩]
      | accept k =>
        have hlen := length_accepted k (buf.drop n)
        rw [List.length_drop] at hlen
        obtain ⟨r, script', log', bytes, hloop, hub, hsteady, hwritten, hpre, hall⟩ := ih hrest
          (n := n + (Connection.accepted k (buf.drop n)).length) (by omega)
          (log ++ [.wrote (Connection.accepted k (buf.drop n))])
        rw [← List.drop_drop] at hpre hall
        refine ⟨r, script', log', Connection.accepted k (buf.drop n) ++ bytes,
          (sendLoop_accept hbuf hlt).trans hloop, hub, hsteady, ?_, ?_, fun hr => ?_⟩
        · rw [hwritten, written_append, written_wrote, List.append_assoc]
        · conv_rhs => rw [← accepted_append k (buf.drop n)]
          exact (List.prefix_append_right_inj _).mpr hpre
        · rw [hall hr, accepted_append]
    · obtain rfl : n = buf.length := by omega
      refine ⟨_, w :: script, log, [], sendLoop_done (le_refl _), nofun, hscript,
        (List.append_nil _).symm, List.nil_prefix, fun _ => ?_⟩
      rw [List.drop_length]

/-- On an open connection `send` writes the whole buffer, or fails behind a part of it. -/
theorem send_steady (hbuf : buf.length < SIZE_MOD) (hopen : c.closed = false) (hsteady : Steady c) :
    ∃ r c' bytes, Connection.send buf c = (r, c') ∧ r ≠ .ub ∧ c'.closed = false ∧ Steady c' ∧
      c'.log.written = c.log.written ++ bytes ∧ bytes <+: buf ∧ (r.isRet = true → bytes = buf) := by
  obtain ⟨r, script', log', bytes, hloop, hub, hsteady', hwritten, hpre, hall⟩ :=
    sendLoop_steady hbuf c.script hsteady (Nat.zero_le _) c.log
  refine ⟨r, ⟨false, script', log'⟩, bytes, ?_, hub, rfl, hsteady', hwritten, hpre, hall⟩
  rw [Connection.send, hopen]
  exact hloop

end Send

/-! ## One chunk -/

section Run

variable (pf : Platform) {w : ClientWorker Conn}

/-- The handler sends the chunk. -/
theorem receive_echo (chunk : Chunk) (w : ClientWorker Conn) :
    ClientWorker.receive pf EchoHandler chunk w =
      ((Connection.send chunk.bytes w.handler).1.bind fun _ => .ret (),
        { w with
          handler := (Connection.send chunk.bytes w.handler).2
          buf := ClientWorker.fill w.buf chunk
          calls := w.calls ++ [.receive chunk.bytes] }) := by
  have hmem := ClientWorker.bufMem_fill_startsWith pf w.buf (List.append_nil chunk.bytes).symm
  have hcall : EchoHandler.onReceive (ClientWorker.bufMem pf (ClientWorker.fill w.buf chunk))
      chunk.bytes.length w.handler =
        ((Connection.send chunk.bytes w.handler).1.bind fun _ => .ret (),
          (Connection.send chunk.bytes w.handler).2) := by
    change (Act.lift _ >>= fun buf => Connection.send buf >>= fun _ => pure ()) w.handler = _
    rw [readRange_startsWith hmem, Act.bind_of_ret (Act.lift_apply _ w.handler), Act.bind_apply]
    rcases Connection.send chunk.bytes w.handler with ⟨r, c⟩
    cases r <;> rfl
  rw [receive_apply, hcall]

/-- A chunk is far shorter than the range of `size_t`. -/
theorem length_chunk_lt (chunk : Chunk) : chunk.bytes.length < SIZE_MOD :=
  lt_of_le_of_lt chunk.le (by decide)

/-- What the worker has written is what the client has sent, or a part of it if the loop was left by
an exception. -/
theorem echo_loop (events : List LoopEvent) (hopen : w.handler.closed = false) (hsteady : Steady w.handler) :
    ∃ r w' bytes, ClientWorker.loop pf EchoHandler events w = (r, w') ∧ r ≠ .ub ∧
      w'.handler.log.written = w.handler.log.written ++ bytes ∧ bytes <+: clientBytes events ∧
      (Accepts w.handler → bytes = clientBytes events) := by
  induction events generalizing w with
  | nil => exact ⟨.ret (), w, [], rfl, nofun, (List.append_nil _).symm, List.prefix_rfl, fun _ => rfl⟩
  | cons event events ih =>
    have hno : EchoHandler.isClosed w.handler = false := hopen
    have hstop : ∀ r, r ≠ .ub → clientBytes (event :: events) = [] →
        ClientWorker.loop pf EchoHandler (event :: events) w = (r, w) →
        ∃ r w' bytes, ClientWorker.loop pf EchoHandler (event :: events) w = (r, w') ∧ r ≠ .ub ∧
          w'.handler.log.written = w.handler.log.written ++ bytes ∧
          bytes <+: clientBytes (event :: events) ∧
          (Accepts w.handler → bytes = clientBytes (event :: events)) := by
      intro r hub hnil hloop
      refine ⟨r, w, [], hloop, hub, (List.append_nil _).symm, List.nil_prefix, fun _ => hnil.symm⟩
    cases event with
    | notReadable =>
      rw [loop_idle hno (Or.inl rfl)]
      exact ih hopen hsteady
    | again =>
      rw [loop_idle hno (Or.inr rfl)]
      exact ih hopen hsteady
    | eof => exact hstop (.ret ()) nofun rfl (loop_open hno events)
    | pollFails e => exact hstop (.exn e) nofun rfl (loop_open hno events)
    | readFails e => exact hstop (.exn e) nofun rfl (loop_open hno events)
    | data chunk =>
      obtain ⟨r, c', bytes, hsend, hub, hopen', hsteady', hwritten, hpre, hall⟩ :=
        send_steady (length_chunk_lt chunk) hopen hsteady
      have hreceive := receive_echo pf chunk w
      rw [hsend] at hreceive
      rw [loop_data hno]
      cases r with
      | ub => exact absurd rfl hub
      | exn e =>
        rw [Act.bind_of_exn hreceive]
        refine ⟨_, _, bytes, rfl, nofun, hwritten, hpre.trans (List.prefix_append _ _), fun hacc => ?_⟩
        obtain ⟨d, hret, _⟩ := send_accepts (length_chunk_lt chunk) hopen hacc
        rw [hsend] at hret
        cases hret
      | ret n =>
        rw [Act.bind_of_ret hreceive]
        obtain rfl : bytes = chunk.bytes := hall rfl
        obtain ⟨r', w', bytes', hloop, hub', hwritten', hpre', hall'⟩ :=
          ih (w := { w with
            handler := c'
            buf := ClientWorker.fill w.buf chunk
            calls := w.calls ++ [.receive chunk.bytes] }) hopen' hsteady'
        refine ⟨r', w', chunk.bytes ++ bytes', hloop, hub', ?_, ?_, fun hacc => ?_⟩
        · rw [hwritten', hwritten, List.append_assoc]
        · exact (List.prefix_append_right_inj _).mpr hpre'
        · obtain ⟨d, hret, _, hacc', _⟩ := send_accepts (length_chunk_lt chunk) hopen hacc
          obtain rfl : d = c' := (Prod.mk.inj (hret.symm.trans hsend)).2
          exact congrArg (chunk.bytes ++ ·) (hall' hacc')

end Run

/-- Over its whole run a worker of the echo server writes nothing but what its client sends, in order
and each byte at most once; if no write fails, it writes all that the client has sent before the end
of the connection, or before the socket fails. The run always comes to its end. -/
theorem echo_written (pf : Platform) {script : List WriteResult} (hscript : ∀ r ∈ script, r ≠ .again)
    (buf : Bytes) (events : List LoopEvent) :
    ∃ w, ClientWorker.run pf EchoHandler events (.init (Conn.init script) buf) = (.ret (), w) ∧
      w.isActive = false ∧ w.handler.log.written <+: clientBytes events ∧
      ((∀ r ∈ script, ∃ k, r = .accept k) → w.handler.log.written = clientBytes events) := by
  obtain ⟨r, w, bytes, hloop, hub, hwritten, hpre, hall⟩ := echo_loop pf
    (w := connectedWorker (.init (Conn.init script) buf) (Conn.init script)) events rfl hscript
  have hbytes : w.handler.log.written = bytes := hwritten
  have hconnect : EchoHandler.onConnect (Conn.init script) = (.ret (), Conn.init script) := rfl
  cases r with
  | ub => exact absurd rfl hub
  | ret u =>
    refine ⟨_, run_of_loop rfl hconnect hloop rfl, rfl, ?_, fun hacc => ?_⟩
    · exact hbytes ▸ hpre
    · exact hbytes.trans (hall hacc)
  | exn e =>
    have htry : tryBlock pf EchoHandler events (.init (Conn.init script) buf) = (.exn e, w) := by
      rw [tryBlock_of_connected rfl hconnect, ClientWorker.loopAndClose, Act.bind_of_exn hloop]
    have hrun : ClientWorker.run pf EchoHandler events (.init (Conn.init script) buf) =
        (.ret (), { (w.record .inactive) with isActive := false }) := by
      have hcatch : Act.tryCatch (tryBlock pf EchoHandler events) (fun _ => pure ())
          (.init (Conn.init script) buf) = (.ret (), w) := Act.tryCatch_of_exn htry _
      rw [run_eq, ClientWorker.finishRun, Act.bind_of_ret hcatch, Act.modify_apply]
    refine ⟨_, hrun, rfl, ?_, fun hacc => ?_⟩
    · exact hbytes ▸ hpre
    · exact hbytes.trans (hall hacc)

/-- A client that sends three bytes and leaves, and a socket that takes one byte at a time. -/
theorem echo_written_abc :
    ∃ w, ClientWorker.run .plain EchoHandler
        [.notReadable, .data ⟨ascii "abc", by decide +kernel, by decide +kernel⟩, .eof]
        (.init (Conn.init [.accept 0, .accept 0, .accept 0]) []) = (.ret (), w) ∧
      w.isActive = false ∧ w.handler.log.written <+: ascii "abc" ∧
      ((∀ r ∈ [WriteResult.accept 0, .accept 0, .accept 0], ∃ k, r = .accept k) →
        w.handler.log.written = ascii "abc") :=
  echo_written .plain (by decide +kernel) [] _

end CppSocks.Analysis
