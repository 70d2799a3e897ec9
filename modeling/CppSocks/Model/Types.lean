import CppSocks.Foundation.Act
import Mathlib.Data.List.Basic
import Mathlib.Tactic.Ring

/-!
# Types shared by all layers

Bytes, exceptions and the memory a pointer argument gives access to.

Two things around the program are not under its control and stay parameters, in
`Platform`: the largest size a `std::vector` can be resized to, and the memory
next to the two receive buffers, which the decoder and the terminator test can
read by mistake. The functions of the two third-party libraries (`digestpp`,
`cppcodec`) and the file system are parameters there too. What an open of a path gives
is an `OpenedFile`, which need not be a regular file.
-/

set_option autoImplicit false

namespace CppSocks.Model

open Foundation

/-- `Socks::Byte`.
SOURCE: tcp/socks_tcp_types.hpp:9 -/
abbrev Byte := UInt8

/-- A byte string; a C string is one without its terminating NUL. -/
abbrev Bytes := List Byte

/-- The bytes of a string literal of the source. -/
def ascii (s : String) : Bytes := s.toList.map fun c => UInt8.ofNat c.toNat

/-- `MAX_SIZE`, the size of `MsgBuf`.
SOURCE: tcp/socks_tcp_types.hpp:14-16 -/
def MAX_SIZE : ℕ := 4096

/-- `std::size_t` has 64 bits. -/
def SIZE_MOD : ℕ := 2 ^ 64

/-- The exceptions that can be raised, all of them derived from `std::exception`. `length_error`
stands for `std::bad_alloc` too: `std::vector::resize` throws the one above `max_size()` and the
other where the memory is exhausted, and no `catch` of the source tells them apart.
`other` stands for any exception of a user handler or of the system context. -/
inductive Exc where
  | invalid_argument (what : String)
  | runtime_error (what : String)
  | length_error
  | out_of_range
  | other (code : ℕ)
deriving DecidableEq, Repr

/-- `catch (std::invalid_argument&)` catches this exception. -/
def Exc.isInvalidArgument : Exc → Bool
  | .invalid_argument _ => true
  | _ => false

/-- A pointer argument: the byte found at each offset, or `none` where the access
leaves every object. -/
abbrev Mem := ℕ → Option Byte

/-- A file that was opened for reading: the bytes that its reads deliver, and the position of its end
as `tellg` reports it. For a regular file on a disk the two agree (`OpenedFile.Sized`). They do not
for everything that can be opened: on Linux `std::fstream` opens a directory as well, of which nothing
can be read while its end is reported at `2 ^ 63 - 1`, or at `-1` where it cannot be sought. -/
structure OpenedFile where
  content : Bytes
  size : ℤ
  /-- `std::streamoff` has 64 bits. -/
  size_lower : -2 ^ 63 ≤ size
  size_upper : size < 2 ^ 63

namespace OpenedFile

/-- The size that is reported is the number of the bytes that can be read. -/
def Sized (file : OpenedFile) : Prop := file.size = file.content.length

/-- A regular file. -/
def regular (content : Bytes) (h : content.length < 2 ^ 63) : OpenedFile where
  content := content
  size := content.length
  size_lower := by omega
  size_upper := by omega

/-- The reported size of a regular file is its length. -/
theorem sized_regular (content : Bytes) (h : content.length < 2 ^ 63) : (regular content h).Sized :=
  rfl

/-- A directory whose end can be sought. -/
def directory : OpenedFile where
  content := []
  size := 2 ^ 63 - 1
  size_lower := by decide
  size_upper := by decide

end OpenedFile

/-- What surrounds the program. -/
structure Platform where
  /-- Above this size `std::vector::resize` throws, for want of memory or because of `max_size()`. -/
  maxSize : ℕ
  maxSize_lt : maxSize < SIZE_MOD
  /-- The frames that the library builds itself can always be allocated. -/
  le_maxSize : 65539 ≤ maxSize
  /-- The memory behind the worker's `MsgBuf`, counted from the buffer's start. -/
  beyond : Mem
  /-- The bytes in front of `HttpInitState::recvBuf`: the one just before it is `front 0`. -/
  front : ℕ → Byte
  /-- `digestpp::sha1`. -/
  sha1 : Bytes → Bytes
  /-- `cppcodec::base64_rfc4648::encode`. -/
  base64 : Bytes → Bytes
  /-- What opening a path for reading gives, if it can be opened: a regular file, or anything else that
  the system lets a program open, such as a directory. -/
  openFile : Bytes → Option OpenedFile

/-- A platform to evaluate the model on: nothing can be read behind the buffers, no file can be
opened, and the library functions are not looked at. -/
def Platform.plain : Platform where
  maxSize := 2 ^ 32
  maxSize_lt := by decide
  le_maxSize := by decide
  beyond := fun _ => none
  front := fun _ => 0
  sha1 := fun bytes => bytes
  base64 := fun bytes => bytes
  openFile := fun _ => none

/-- Results of calls that do not touch any state. -/
abbrev Call := Res Exc

/-- Read one byte through a pointer. -/
def Mem.read (mem : Mem) (i : ℕ) : Call Byte :=
  match mem i with
  | some b => .ret b
  | none => .ub

/-- Read `n` consecutive bytes from offset `off`. -/
def Mem.readRange (mem : Mem) (off : ℕ) : ℕ → Call Bytes
  | 0 => .ret []
  | n + 1 => do
    let b ← mem.read off
    let bs ← mem.readRange (off + 1) n
    pure (b :: bs)

/-- The memory of an array object whose whole content is `bs`. -/
def Mem.ofBytes (bs : Bytes) : Mem := fun i => bs[i]?

/-- The first bytes of the memory are `bs`. -/
def Mem.StartsWith (mem : Mem) (bs : Bytes) : Prop :=
  ∀ i (h : i < bs.length), mem i = some bs[i]

/-- Reading a byte that is there gives the byte. -/
theorem Mem.read_of_some {mem : Mem} {i : ℕ} {b : Byte} (h : mem i = some b) :
    mem.read i = .ret b := by
  simp only [Mem.read, h]

/-- A memory made of bytes starts with them. -/
theorem Mem.ofBytes_startsWith (bs : Bytes) : (Mem.ofBytes bs).StartsWith bs := by
  intro i h
  simp [Mem.ofBytes, h]

/-- A memory starts with every front of what it starts with. -/
theorem Mem.StartsWith.left {mem : Mem} {xs ys : Bytes} (h : mem.StartsWith (xs ++ ys)) :
    mem.StartsWith xs := by
  intro i hi
  have := h i (by rw [List.length_append]; omega)
  rwa [List.getElem_append_left hi] at this

/-- The bytes that a memory begins with are found at its first offsets. -/
theorem Mem.StartsWith.filterMap {mem : Mem} {bs : Bytes} (h : mem.StartsWith bs) :
    (List.range bs.length).filterMap mem = bs := by
  induction bs generalizing mem with
  | nil => rfl
  | cons b bs ih =>
    have hhead : mem 0 = some b := h 0 (Nat.succ_pos _)
    have htail : Mem.StartsWith (fun i => mem (i + 1)) bs := by
      intro i hi
      have hnext := h (i + 1) (Nat.succ_lt_succ hi)
      rwa [List.getElem_cons_succ] at hnext
    rw [List.length_cons, List.range_succ_eq_map, List.filterMap_cons, hhead, List.filterMap_map]
    exact congrArg _ (ih htail)

/-- Reading a range whose bytes are known returns them. -/
theorem Mem.readRange_eq {mem : Mem} {off : ℕ} {bs : Bytes}
    (h : ∀ i (hi : i < bs.length), mem (off + i) = some bs[i]) :
    mem.readRange off bs.length = .ret bs := by
  induction bs generalizing off with
  | nil => rfl
  | cons b bs ih =>
    have h0 : mem.read off = .ret b := by
      have hb := h 0 (by simp)
      exact Mem.read_of_some (by simpa using hb)
    have htail : mem.readRange (off + 1) bs.length = .ret bs := by
      apply ih
      intro i hi
      have := h (i + 1) (by simpa using hi)
      simpa [Nat.add_assoc, Nat.add_comm 1 i] using this
    simp only [List.length_cons, Mem.readRange, h0, Res.ret_bind, htail, Res.pure_eq]

/-- The middle part of a known beginning can be read. -/
theorem Mem.StartsWith.readRange {mem : Mem} {pre bs post : Bytes}
    (h : mem.StartsWith (pre ++ bs ++ post)) :
    mem.readRange pre.length bs.length = .ret bs := by
  apply Mem.readRange_eq
  intro i hi
  have := h (pre.length + i) (by simp only [List.length_append]; omega)
  rw [this]
  congr 1
  rw [List.getElem_append_left (by simp only [List.length_append]; omega),
    List.getElem_append_right (by omega)]
  simp

end CppSocks.Model
