import CppSocks.Analysis.FileStreaming
import CppSocks.Analysis.RequestAnswer
import CppSocks.Model.ExampleHandlers
import Mathlib.Data.List.Infix

/-!
# The example HTTP servers

What the clients of `http_server` and `http_simple` are sent over a whole connection.
The file server sends what can be read of the file that the path names, in a form from
which a client reads the status, the size that was reported and the bytes (`file_served`);
`http_simple` sends its page to a client that names a host, and nothing to one that does
not (`hello_served`).
-/

set_option autoImplicit false

namespace CppSocks.Analysis

open CppSocks.Model CppSocks.Interface Foundation

/-! ## The file server -/

/-- What a client of the file server is sent for a path: if it can be opened, the size that is reported
and the bytes that can be read. -/
def fileAnswer (pf : Platform) (path : Bytes) : Bytes :=
  if ascii ".." <:+: HttpFileHandler.target path then responseText (ascii "403 Forbidden")
  else
    match pf.openFile (HttpFileHandler.target path) with
    | none => responseText (ascii "404 Not Found")
    | some file => (okResponse file.size file.content).encode

/-- The answer to a path that is a directory states a length, and nothing follows. -/
example : fileAnswer { Platform.plain with openFile := fun _ => some .directory } (ascii "/pages") =
    ascii ("HTTP/1.1 200 OK\r\nServer: CPP Socks\r\n" ++
      "Content-Length: 9223372036854775807\r\n\r\n") := by
  decide +kernel

section File

variable {pf : Platform}

/-- The handler writes this answer. -/
theorem writes_fileAnswer (basePath : Bytes) (info : RequestInfo) :
    Writes pf (HttpFileHandler.do_GET basePath info) (fileAnswer pf info.path) := by
  by_cases hdots : ascii ".." <:+: HttpFileHandler.target info.path
  · rw [fileAnswer, if_pos hdots]
    exact writes_dotdot (findSub_isSome_iff.mpr hdots)
  · rw [fileAnswer, if_neg hdots]
    cases hfile : pf.openFile (HttpFileHandler.target info.path) with
    | none => exact writes_missing (mt findSub_isSome_iff.mp hdots) hfile
    | some file =>
      dsimp only
      rw [encode_okResponse]
      exact writes_opened basePath (mt findSub_isSome_iff.mp hdots) hfile
        (length_lengthLine file.size_lower file.size_upper)

end File

/-- A client of the file server that sends a GET request in any number of pieces, and whatever it
likes behind it, is sent the answer to its path and nothing else; then the connection is closed. If
the path can be opened and contains no `..`, the client reads from the answer the status and all the
bytes that can be read of the file; and the number that it reads is their number if and only if the
size of the file is reported right. -/
theorem file_served (pf : Platform) (basePath : Bytes) (wsHandlerFactory : WsHandlerFactory)
    {script : List WriteResult} (hscript : ∀ r ∈ script, ∃ k, r = .accept k) (line : RequestLine)
    (lines : List HeaderLine) {target version : Bytes} (hline : GetLine line.val target version)
    (hplain : ∀ l ∈ lines, l.Plain) (hdistinct : DistinctNames lines) (hget : ¬ Spelled lines)
    (hfit : (pathOf target).length < MAX_PATH_LEN) (hlen : (requestText line lines).length < 4096)
    (buf : Bytes) {events : List LoopEvent} (hshows : ShowsFirst events (requestText line lines)) :
    (∃ w, ClientWorker.run pf (TcpServerHandler.serverHandler pf
          ⟨HttpFileHandlerFactory basePath, wsHandlerFactory⟩) events
        (.init (TcpServerHandler.init script) buf) = (.ret (), w) ∧
      Served (fileAnswer pf (pathOf target)) w) ∧
    ∀ file, ¬ ascii ".." <:+: HttpFileHandler.target (pathOf target) →
      pf.openFile (HttpFileHandler.target (pathOf target)) = some file →
      ∃ digits, readHead [] (fileAnswer pf (pathOf target)) =
          some ([ascii "HTTP/1.1 200 OK", ascii "Server: CPP Socks",
            ascii "Content-Length: " ++ digits], file.content) ∧
        (readDecimal digits = some file.content.length ↔ file.Sized) := by
  obtain ⟨hparse, htype⟩ := parse_get hline hplain hdistinct hget hfit
  constructor
  · have hcreate : ∀ log, (HttpFileHandlerFactory basePath).createHttpHandler log =
        .ret (HttpFileHandler basePath) := fun _ => rfl
    exact run_get hshows (terminatedOnce_requestText line lines) hlen hscript hparse htype
      (f := ⟨HttpFileHandlerFactory basePath, wsHandlerFactory⟩) hcreate
      (fun _ => (writes_fileAnswer basePath _).outputs) buf
  · intro file hdots hfile
    refine ⟨positionText file.size, ?_, readDecimal_positionText⟩
    rw [fileAnswer, if_neg hdots, hfile]
    exact readHead_okResponse file.size file.content

/-- Two header lines that are sent with a request for a page. -/
def browserLines : List HeaderLine :=
  [plainLine (ascii "Host") (ascii "localhost:8080") (by decide +kernel),
    plainLine (ascii "Connection") (ascii "keep-alive") (by decide +kernel)]

/-- The bytes of a request for the index page, in two chunks of which the first ends within a line. -/
def browserChunks : List Chunk :=
  [⟨ascii "GET / HTTP/1.1\r\nHost: local", by decide +kernel, by decide +kernel⟩,
    ⟨ascii "host:8080\r\nConnection: keep-alive\r\n\r\n", by decide +kernel, by decide +kernel⟩]

/-- The sample header lines are plain. -/
theorem plain_browserLines : ∀ l ∈ browserLines, l.Plain := by
  unfold HeaderLine.Plain
  decide +kernel

/-- The names of the sample header lines are distinct. -/
theorem distinct_browserLines : DistinctNames browserLines := by
  unfold DistinctNames
  decide +kernel

/-- The sample header lines do not ask for an upgrade. -/
theorem not_spelled_browserLines : ¬ Spelled browserLines :=
  fun h => absurd h.upgrade (by decide +kernel)

/-- The request, a pass with nothing to read between its chunks, and another chunk behind it. -/
def browserEvents : List LoopEvent :=
  [.data ⟨ascii "GET / HTTP/1.1\r\nHost: local", by decide +kernel, by decide +kernel⟩, .again,
    .data ⟨ascii "host:8080\r\nConnection: keep-alive\r\n\r\n", by decide +kernel, by decide +kernel⟩,
    .data ⟨ascii "GET /b HTTP/1.1\r\n\r\n", by decide +kernel, by decide +kernel⟩]

/-- The sample events show the request first. -/
theorem shows_browserEvents : ShowsFirst browserEvents (requestText indexLine browserLines) :=
  ⟨browserChunks,
    [.data ⟨ascii "GET /b HTTP/1.1\r\n\r\n", by decide +kernel, by decide +kernel⟩], rfl,
    by decide +kernel⟩

/-- The page, written one byte at a time at first. -/
theorem file_served_page :
    (∃ w, ClientWorker.run fullPlatform (TcpServerHandler.serverHandler fullPlatform
          ⟨HttpFileHandlerFactory [], ⟨fun _ => .ret WsHandlerNull⟩⟩) browserEvents
        (.init (TcpServerHandler.init [.accept 0, .accept 0]) []) = (.ret (), w) ∧
      Served (fileAnswer fullPlatform (pathOf (ascii "/"))) w) ∧
    ∀ file, ¬ ascii ".." <:+: HttpFileHandler.target (pathOf (ascii "/")) →
      fullPlatform.openFile (HttpFileHandler.target (pathOf (ascii "/"))) = some file →
      ∃ digits, readHead [] (fileAnswer fullPlatform (pathOf (ascii "/"))) =
          some ([ascii "HTTP/1.1 200 OK", ascii "Server: CPP Socks",
            ascii "Content-Length: " ++ digits], file.content) ∧
        (readDecimal digits = some file.content.length ↔ file.Sized) :=
  file_served fullPlatform [] _ (by simp) indexLine browserLines getLine_indexLine
    plain_browserLines distinct_browserLines not_spelled_browserLines (by decide +kernel)
    (by decide +kernel) [] shows_browserEvents

/-! ## The server of one page -/

section Hello

variable {pf : Platform} {info : RequestInfo}

/-- The page is written if the request names a host; `at` throws if it does not. -/
theorem outputs_hello :
    Outputs pf (SimpleServerHandler.do_GET info)
      (if hasHeaderField info.headers (ascii "Host") then
        (okResponse SimpleServerHandler.MSG.length SimpleServerHandler.MSG).encode
      else []) := by
  rw [hasHeaderField]
  cases hhost : info.headers.lookup (ascii "Host") with
  | none =>
    have hthrow : SimpleServerHandler.do_GET info = .throw .out_of_range := by
      rw [SimpleServerHandler.do_GET, HeadersMap.at, hhost]
      rfl
    rw [hthrow]
    intro c hopen hacc
    exact ⟨_, c, rfl, by simp, (List.append_nil _).symm⟩
  | some host =>
    have hwrites : Writes pf (SimpleServerHandler.do_GET info)
        ([] ++ (responseText (ascii "200 OK") ++ (lengthLine SimpleServerHandler.MSG.length ++ NEWLINE) ++
          (SimpleServerHandler.MSG ++ []))) := by
      rw [SimpleServerHandler.do_GET, HeadersMap.at, hhost]
      refine writes_bind (writes_ret host) fun _ => ?_
      refine writes_bind (writes_http_200 (by decide +kernel)) fun _ => ?_
      exact writes_bind (writes_sendAll (by decide +kernel)) fun _ => writes_ret ()
    rw [List.nil_append, List.append_nil, ← encode_okResponse] at hwrites
    exact hwrites.outputs

end Hello

/-- A client of `http_simple` that sends a GET request in any number of pieces, and whatever it likes
behind it, is sent the page if one of the header lines names a host, and nothing otherwise; then the
connection is closed. -/
theorem hello_served (pf : Platform) (wsHandlerFactory : WsHandlerFactory) {script : List WriteResult}
    (hscript : ∀ r ∈ script, ∃ k, r = .accept k) (line : RequestLine) (lines : List HeaderLine)
    {target version : Bytes} (hline : GetLine line.val target version)
    (hplain : ∀ l ∈ lines, l.Plain) (hdistinct : DistinctNames lines) (hget : ¬ Spelled lines)
    (hfit : (pathOf target).length < MAX_PATH_LEN) (hlen : (requestText line lines).length < 4096)
    (buf : Bytes) {events : List LoopEvent} (hshows : ShowsFirst events (requestText line lines)) :
    ∃ w bytes, ClientWorker.run pf (TcpServerHandler.serverHandler pf
          ⟨SimpleServerHandlerFactory, wsHandlerFactory⟩) events
        (.init (TcpServerHandler.init script) buf) = (.ret (), w) ∧ Served bytes w ∧
      ((∃ l ∈ lines, l.name = ascii "Host") → readHead [] bytes =
        some ([ascii "HTTP/1.1 200 OK", ascii "Server: CPP Socks", ascii "Content-Length: 15"],
          ascii "Hello, World!\r\n")) ∧
      ((¬ ∃ l ∈ lines, l.name = ascii "Host") → bytes = []) := by
  obtain ⟨hparse, htype⟩ := parse_get hline hplain hdistinct hget hfit
  have hcreate : ∀ log, SimpleServerHandlerFactory.createHttpHandler log = .ret SimpleServerHandler :=
    fun _ => rfl
  have hhost : hasHeaderField (parsed (requestText line lines) (pathOf target) RequestInfo.init).headers
      (ascii "Host") ↔ ∃ l ∈ lines, l.name = ascii "Host" :=
    hasHeaderField_iff line hplain hdistinct
  obtain ⟨w, hrun, hserved⟩ := run_get hshows (terminatedOnce_requestText line lines) hlen hscript hparse
    htype (f := ⟨SimpleServerHandlerFactory, wsHandlerFactory⟩) hcreate (fun _ => outputs_hello) buf
  refine ⟨w, _, hrun, hserved, fun h => ?_, fun h => ?_⟩
  · have hlength : ascii "Content-Length: " ++ positionText SimpleServerHandler.MSG.length =
        ascii "Content-Length: 15" := by
      decide +kernel
    rw [if_pos (hhost.mpr h), readHead_okResponse, hlength]
    rfl
  · rw [if_neg (mt hhost.mp h)]

/-- A client that names its host. -/
theorem hello_served_index :
    ∃ w bytes, ClientWorker.run .plain (TcpServerHandler.serverHandler .plain
          ⟨SimpleServerHandlerFactory, ⟨fun _ => .ret WsHandlerNull⟩⟩) browserEvents
        (.init (TcpServerHandler.init []) []) = (.ret (), w) ∧ Served bytes w ∧
      ((∃ l ∈ browserLines, l.name = ascii "Host") → readHead [] bytes =
        some ([ascii "HTTP/1.1 200 OK", ascii "Server: CPP Socks", ascii "Content-Length: 15"],
          ascii "Hello, World!\r\n")) ∧
      ((¬ ∃ l ∈ browserLines, l.name = ascii "Host") → bytes = []) :=
  hello_served .plain _ (fun r hr => absurd hr List.not_mem_nil) indexLine browserLines getLine_indexLine plain_browserLines
    distinct_browserLines not_spelled_browserLines (by decide +kernel) (by decide +kernel) []
    shows_browserEvents

end CppSocks.Analysis
