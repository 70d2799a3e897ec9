import CppSocks.Model.ClientWorker

/-!
# The handlers of the example servers

`tcp_echo` sends back what it receives, `ws_echo` sends back each message, and
`http_simple` answers each request with the same page. `http_server` serves the
static files of the library.
-/

set_option autoImplicit false

namespace CppSocks.Model

open Foundation

/-- SOURCE: examples/tcp_echo/main.cpp:19-32 -/
def EchoHandler : ServerHandler Conn where
  onConnect := pure ()
  onReceive := fun mem len => do
    let buf ← Act.lift (mem.readRange 0 len)
    let _ ← Connection.send buf
    pure ()
  onDisconnect := pure ()
  isClosed := Conn.closed

/-- SOURCE: examples/ws_echo/main.cpp:22-30 -/
def WsEchoHandler : WsHandler where
  onConnect := fun _ => .ret ()
  onData := fun _ buf => do
    let _ ← WsConnection.send buf
    pure ()
  onText := fun _ buf => do
    let _ ← WsConnection.sendText buf
    pure ()
  onDisconnect := fun _ => .ret ()
  subprotocol := fun _ => .ret []

/-- SOURCE: examples/ws_echo/main.cpp:35-36 -/
def wsEchoFactories : Factories where
  httpHandlerFactory := HttpHandlerNullFactory
  wsHandlerFactory := WsHandlerFactoryDefault WsEchoHandler

namespace SimpleServerHandler

/-- SOURCE: examples/http_simple/main.cpp:25 -/
def MSG : Bytes := ascii "Hello, World!\r\n"

/-- `headers().at("Host")` throws if the request has no such field.
SOURCE: examples/http_simple/main.cpp:20-29 -/
def do_GET (requestInfo : RequestInfo) : Prog Unit := do
  let _ ← Prog.ofCall (requestInfo.headers.at (ascii "Host"))
  let _ ← HttpConnection.http_200 MSG.length
  let _ ← HttpConnection.write MSG
  pure ()

end SimpleServerHandler

/-- SOURCE: examples/http_simple/main.cpp:18-30 -/
def SimpleServerHandler : HttpHandler where
  do_GET := fun _ requestInfo => SimpleServerHandler.do_GET requestInfo

/-- SOURCE: examples/http_simple/main.cpp:32-36 -/
def SimpleServerHandlerFactory : HttpHandlerFactory where
  createHttpHandler := fun _ => .ret SimpleServerHandler

end CppSocks.Model
