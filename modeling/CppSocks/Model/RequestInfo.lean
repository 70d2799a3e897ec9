import CppSocks.Model.Types

/-!
# HTTP requests

`RequestInfo::parse` and the string functions it uses. A C string is the list of
its bytes up to the terminating NUL; a pointer into it is the rest of the list.
-/

set_option autoImplicit false

namespace CppSocks.Model

open Foundation

/-! ## Strings -/

/-- The C string that starts at the beginning of a buffer. -/
def cstr (buf : Bytes) : Bytes := buf.takeWhile (· != 0)

/-- `std::strchr`: the string from the first occurrence of `c` on. -/
def strchr (s : Bytes) (c : Byte) : Option Bytes :=
  match s.dropWhile (· != c) with
  | [] => none
  | t => some t

/-- `std::string::find` and, as a test for `some`, `std::strstr`. -/
def findSub (needle : Bytes) : Bytes → Option ℕ
  | [] => if needle = [] then some 0 else none
  | b :: s =>
    if needle.isPrefixOf (b :: s) then some 0
    else (findSub needle s).map (· + 1)

/-- The lines that a loop of `std::getline` over the whole string reads. -/
def getlines : Bytes → List Bytes
  | [] => []
  | b :: s =>
    if b = 0x0A then [] :: getlines s
    else
      match getlines s with
      | [] => [[b]]
      | line :: rest => (b :: line) :: rest

/-- `NEWLINE`.
SOURCE: http/socks_http_handler.cpp:19 -/
def NEWLINE : Bytes := [0x0D, 0x0A]

/-! ## Requests -/

/-- SOURCE: http/socks_http_handler.hpp:18-23 -/
inductive RequestType where
  | undefined | get | getWs
deriving DecidableEq, Repr

/-- `HeadersMap`: each key occurs once. -/
abbrev HeadersMap := List (Bytes × Bytes)

/-- `std::map::emplace`: a key that is there already keeps its value. -/
def HeadersMap.emplace (headers : HeadersMap) (key value : Bytes) : HeadersMap :=
  if (headers.lookup key).isSome then headers else headers ++ [(key, value)]

/-- `std::map::at`. -/
def HeadersMap.at (headers : HeadersMap) (key : Bytes) : Call Bytes :=
  match headers.lookup key with
  | some value => .ret value
  | none => .exn .out_of_range

/-- `MAX_PATH_LEN`.
SOURCE: http/socks_http_handler.hpp:40 -/
def MAX_PATH_LEN : ℕ := 1024

/-- SOURCE: http/socks_http_handler.hpp:27-45 -/
structure RequestInfo where
  requestType : RequestType
  path : Bytes
  headers : HeadersMap
deriving DecidableEq, Repr

/-- The constructor.
SOURCE: http/socks_http_handler.hpp:30 -/
def RequestInfo.init : RequestInfo := ⟨.undefined, [], []⟩

/-- The loop over the lines behind the request line.
SOURCE: http/socks_http_handler.cpp:30-42 -/
def headerLoop : List Bytes → HeadersMap → HeadersMap
  | [], headers => headers
  | line :: rest, headers =>
    match findSub (ascii ": ") line with
    | none => headers
    | some pos => headerLoop rest (headers.emplace (line.take pos) (line.drop (pos + 2)))

/-- SOURCE: http/socks_http_handler.cpp:21-43 -/
def parseHeaders (request : Bytes) (headers : HeadersMap) : HeadersMap :=
  headerLoop (getlines request).tail headers

/-- SOURCE: http/socks_http_handler.cpp:45-53 -/
def hasHeaderFieldValue (headers : HeadersMap) (key value : Bytes) : Bool :=
  match headers.lookup key with
  | none => false
  | some v => (findSub value v).isSome

/-- SOURCE: http/socks_http_handler.cpp:55 -/
def hasHeaderField (headers : HeadersMap) (key : Bytes) : Bool := (headers.lookup key).isSome

/-- SOURCE: http/socks_http_handler.cpp:57-62 -/
def isWsRequest (headers : HeadersMap) : Bool :=
  hasHeaderFieldValue headers (ascii "Upgrade") (ascii "websocket") &&
    (hasHeaderFieldValue headers (ascii "Connection") (ascii "Upgrade") ||
      hasHeaderFieldValue headers (ascii "Connection") (ascii "upgrade")) &&
    hasHeaderField headers (ascii "Sec-WebSocket-Key")

/-- `parse` of a NUL-terminated request. The path and its NUL are written to `_path` without a
test of its size.
SOURCE: http/socks_http_handler.cpp:64-101 -/
def RequestInfo.parse (request : Bytes) (len : ℕ) : Act Exc RequestInfo Unit :=
  if len < 3 then Act.throw (.invalid_argument "Request is too short.")
  else if request.take 3 ≠ ascii "GET" then
    Act.throw (.invalid_argument "Unsupported request type.")
  else do
    Act.modify fun info => { info with requestType := .get }
    match strchr request 0x20 with
    | none => Act.throw (.invalid_argument "No path given.")
    | some space =>
      let path := space.tail
      match strchr path 0x20 with
      | none => Act.throw (.invalid_argument "No HTTP version given.")
      | some _ =>
        let copied := (path.takeWhile (· != 0x20)).takeWhile (· != 0x3F)
        if MAX_PATH_LEN < copied.length + 1 then Act.undefined
        else do
          Act.modify fun info =>
            { info with path := copied, headers := parseHeaders request info.headers }
          Act.modify fun info =>
            if isWsRequest info.headers then { info with requestType := .getWs } else info

end CppSocks.Model
