import CppSocks.Foundation.Split
import CppSocks.Interface.ResponseReader
import CppSocks.Interface.Sender
import CppSocks.Model.PushServer

/-!
# Streams of counters

What a client of a push server reads: the stream is taken apart into its items, and
each item is a counter in decimal with a newline. A WebSocket client gets frames, the
client of a plain connection strings that end with a NUL.
-/

set_option autoImplicit false

namespace CppSocks.Interface

open CppSocks.Model Foundation

/-- The counter that a line stands for. -/
def readCounter (line : Bytes) : Option ℕ :=
  if line.getLast? = some 0x0A then readDecimal line.dropLast else none

/-- A string without a NUL. -/
structure CString where
  bytes : Bytes
  noNul : 0 ∉ bytes

/-- Terminated strings can be told apart in a stream: none is the front of another. -/
theorem terminated_prefixFree (x y : CString) (s t : Bytes)
    (h : x.bytes ++ [0] ++ s = y.bytes ++ [0] ++ t) : x = y := by
  rw [List.append_assoc, List.append_assoc] at h
  have hbytes := (split_unique x.noNul y.noNul h).1
  cases x
  cases y
  simpa using hbytes

/-- Strings that end with a NUL are a self-delimiting code. -/
def terminatedCode : Code CString Byte where
  encode := fun x => x.bytes ++ [0]
  encode_ne_nil := fun _ => List.append_ne_nil_of_right_ne_nil _ (List.cons_ne_nil _ _)
  prefixFree := terminated_prefixFree

/-- The counters that a WebSocket client reads, which gets the stream in pieces. -/
noncomputable def readFrames (pieces : List Bytes) : List (Option ℕ) :=
  (frameCode.receive pieces []).map fun f => readCounter f.payload

/-- The counters that the client of a plain connection reads. -/
noncomputable def readStrings (pieces : List Bytes) : List (Option ℕ) :=
  (terminatedCode.receive pieces []).map fun x => readCounter x.bytes

end CppSocks.Interface
