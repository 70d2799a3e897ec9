import CppSocks.Model.RequestInfo

/-!
# The path of a request as an array

`RequestInfo::parse` with `_path` as the array it is. The copy loop writes it place by
place; the places are noted in the order they are written, a place behind the array
included. `RequestInfo.parse` is the same function with the path as a string.
-/

set_option autoImplicit false

namespace CppSocks.Model

open Foundation

/-- The members of `RequestInfo`, and the places of `_path` that have been written.
SOURCE: http/socks_http_handler.hpp:40-44 -/
structure RequestMembers where
  requestType : RequestType
  path : Vector Byte MAX_PATH_LEN
  headers : HeadersMap
  writes : List ℕ

namespace RequestMembers

/-- The constructor.
SOURCE: http/socks_http_handler.hpp:30 -/
def init : RequestMembers := ⟨.undefined, Vector.replicate MAX_PATH_LEN 0, [], []⟩

/-- What the accessors return.
SOURCE: http/socks_http_handler.hpp:34-36 -/
def info (m : RequestMembers) : RequestInfo := ⟨m.requestType, cstr m.path.toList, m.headers⟩

/-- `_path[i] = b`. -/
def writePath (i : ℕ) (b : Byte) : Act Exc RequestMembers Unit := do
  Act.modify fun m => { m with writes := m.writes ++ [i] }
  if h : i < MAX_PATH_LEN then Act.modify fun m => { m with path := m.path.set i b h }
  else Act.undefined

/-- The copy loop and the NUL behind it; `i` is `curPos - path`. A pointer is the rest of the
string, so that `curPos < pathEnd` says that the rest at `pathEnd` is shorter.
SOURCE: http/socks_http_handler.cpp:88-93 -/
def copyPath (pathEnd : Bytes) : Bytes → ℕ → Act Exc RequestMembers Unit
  | [], i => writePath i 0
  | b :: rest, i =>
    if pathEnd.length < (b :: rest).length ∧ b ≠ 0x3F then do
      writePath i b
      copyPath pathEnd rest (i + 1)
    else writePath i 0

/-- SOURCE: http/socks_http_handler.cpp:64-101 -/
def parse (request : Bytes) (len : ℕ) : Act Exc RequestMembers Unit :=
  if len < 3 then Act.throw (.invalid_argument "Request is too short.")
  else if request.take 3 ≠ ascii "GET" then
    Act.throw (.invalid_argument "Unsupported request type.")
  else do
    Act.modify fun m => { m with requestType := .get }
    match strchr request 0x20 with
    | none => Act.throw (.invalid_argument "No path given.")
    | some space =>
      let path := space.tail
      match strchr path 0x20 with
      | none => Act.throw (.invalid_argument "No HTTP version given.")
      | some pathEnd => do
        copyPath pathEnd path 0
        Act.modify fun m => { m with headers := parseHeaders request m.headers }
        Act.modify fun m => if isWsRequest m.headers then { m with requestType := .getWs } else m

end RequestMembers

end CppSocks.Model
