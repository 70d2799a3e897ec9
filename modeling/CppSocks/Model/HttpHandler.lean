import CppSocks.Model.Connection
import CppSocks.Model.RequestInfo

/-!
# HTTP and WebSocket handlers

The interfaces of user handlers and their factories, and the handlers that the
library brings itself. A user handler is a function of the connection's log: the
log grows with each callback, so any behaviour a handler can show during one run,
with whatever state it keeps, is such a function.
-/

set_option autoImplicit false

namespace CppSocks.Model

open Foundation

/-- SOURCE: http/socks_http_handler.hpp:68-73 -/
structure HttpHandler where
  do_GET : Log → RequestInfo → Prog Unit

/-- SOURCE: http/socks_http_handler.hpp:77-83 -/
structure HttpHandlerFactory where
  createHttpHandler : Log → Prog HttpHandler

/-- `WsHandler`; `onText` gets a C string.
SOURCE: http/socks_ws_handler.hpp:30-46 -/
structure WsHandler where
  onConnect : Log → Prog Unit
  onData : Log → Bytes → Prog Unit
  onText : Log → Bytes → Prog Unit
  onDisconnect : Log → Prog Unit
  subprotocol : Log → Prog Bytes

/-- SOURCE: http/socks_ws_handler.hpp:50-56 -/
structure WsHandlerFactory where
  createWsHandler : Log → Prog WsHandler

/-- A handler whose class overrides `onConnect`, `onData` and `onDisconnect` only: `onText`
passes the C string on to `onData` and there is no subprotocol.
SOURCE: http/socks_ws_handler.hpp:35-40 -/
def WsHandler.default (onConnect : Log → Prog Unit) (onData : Log → Bytes → Prog Unit)
    (onDisconnect : Log → Prog Unit) : WsHandler where
  onConnect := onConnect
  onData := onData
  onText := fun log buf => onData log buf
  onDisconnect := onDisconnect
  subprotocol := fun _ => .ret []

/-- A factory whose handlers all do the same.
SOURCE: http/socks_ws_handler.hpp:58-65 -/
def WsHandlerFactoryDefault (handler : WsHandler) : WsHandlerFactory where
  createWsHandler := fun _ => .ret handler

/-- SOURCE: http/socks_ws_handler.hpp:67-78 -/
def WsHandlerNull : WsHandler :=
  WsHandler.default (fun _ => .ret ()) (fun _ _ => .ret ()) (fun _ => .ret ())

/-! ## Responses -/

namespace HttpConnection

/-- SOURCE: http/socks_http_handler.cpp:114-121 -/
def http_response_code (responseCode : Bytes) : Prog ℕ :=
  Prog.sendAll (ascii "HTTP/1.1" ++ ascii " " ++ responseCode ++ NEWLINE ++
    ascii "Server: CPP Socks" ++ NEWLINE)

/-- SOURCE: http/socks_http_handler.cpp:122 -/
def end_headers : Prog ℕ := Prog.sendAll NEWLINE

/-- SOURCE: http/socks_http_handler.cpp:105-112 -/
def http_200 (contentLength : ℤ) : Prog ℕ := do
  let _ ← http_response_code (ascii "200 OK")
  let _ ← Prog.sendAll (ascii "Content-Length: " ++ ascii (toString contentLength) ++ NEWLINE)
  end_headers

/-- SOURCE: http/socks_http_handler.hpp:55 -/
def http_403 : Prog ℕ := http_response_code (ascii "403 Forbidden")

/-- SOURCE: http/socks_http_handler.hpp:56 -/
def http_404 : Prog ℕ := http_response_code (ascii "404 Not Found")

/-- SOURCE: http/socks_http_handler.cpp:123 -/
def write (buf : Bytes) : Prog ℕ := Prog.sendAll buf

end HttpConnection

/-! ## Static files -/

namespace HttpFileHandler

/-- `BUF_SIZE` of the copy loop.
SOURCE: http/socks_http_handler.cpp:159 -/
def BUF_SIZE : ℕ := 4096

/-- `get_file_size` after its open of the file: `tellg` of a stream that failed is `-1`.
SOURCE: http/socks_http_handler.cpp:125-129 -/
def get_file_size (file : Option OpenedFile) : ℤ :=
  match file with
  | some file => file.size
  | none => -1

/-- The block loop: `rest` is what the stream has not delivered yet. The body runs before the
test, so a last, empty block is written.
SOURCE: http/socks_http_handler.cpp:157-163 -/
def copyLoop (rest : Bytes) : Prog Unit :=
  if _h : rest.length = 0 then do
    let _ ← HttpConnection.write []
    .ret ()
  else do
    let _ ← HttpConnection.write (rest.take BUF_SIZE)
    copyLoop (rest.drop BUF_SIZE)
termination_by rest.length
decreasing_by
  simp only [List.length_drop, BUF_SIZE]
  omega

/-- The path that is tested and opened.
SOURCE: http/socks_http_handler.cpp:133-142 -/
def target (path : Bytes) : Bytes :=
  if path = [] ∨ path = ascii "/" then ascii "index.html"
  else if path.head? = some 0x2F then path.tail
  else path

/-- `do_GET`; the base directory the handler was made with is not used. `get_file_size` opens the
file a second time. Whether it is a regular file is not looked at.
SOURCE: http/socks_http_handler.cpp:131-164 -/
def do_GET (_basePath : Bytes) (requestInfo : RequestInfo) : Prog Unit :=
  let path := target requestInfo.path
  if (findSub (ascii "..") path).isSome then do
    let _ ← HttpConnection.http_403
    .ret ()
  else
    .openFile path fun
      | none => do
        let _ ← HttpConnection.http_404
        .ret ()
      | some file =>
        .openFile path fun size => do
          let _ ← HttpConnection.http_200 (get_file_size size)
          copyLoop file.content

end HttpFileHandler

/-- SOURCE: http/socks_http_handler.hpp:85-93 -/
def HttpFileHandler (basePath : Bytes) : HttpHandler where
  do_GET := fun _ requestInfo => HttpFileHandler.do_GET basePath requestInfo

/-- SOURCE: http/socks_http_handler.hpp:95-104 -/
def HttpFileHandlerFactory (basePath : Bytes) : HttpHandlerFactory where
  createHttpHandler := fun _ => .ret (HttpFileHandler basePath)

/-! ## No answers -/

/-- SOURCE: http/socks_http_handler.hpp:106-113 -/
def HttpHandlerNull : HttpHandler where
  do_GET := fun _ _ => .ret ()

/-- SOURCE: http/socks_http_handler.hpp:115-119 -/
def HttpHandlerNullFactory : HttpHandlerFactory where
  createHttpHandler := fun _ => .ret HttpHandlerNull

end CppSocks.Model
