import CppSocks.Model.HttpHandler

/-!
# The stream of a file

`HttpFileHandler::do_GET` with the `std::fstream` that its copy loop reads from.
`HttpFileHandler.copyLoop` is told what is left of the file; here the loop sees of the
stream what the source sees: the bytes that `read` puts into the buffer, and `gcount`.
-/

set_option autoImplicit false

namespace CppSocks.Model

/-- A `std::fstream` that was opened for reading: the bytes it has not delivered yet, whether a read
has met the end of the file (or, on a directory, has failed at once), and the count of the last read. -/
structure FileStream where
  rest : Bytes
  failed : Bool
  gcount : ℕ
  rest_of_failed : failed = true → rest = []

namespace FileStream

/-- A stream that has not failed owes no proof that it has ended. -/
theorem rest_of_not_failed {rest : Bytes} : false = true → rest = [] := fun h => Bool.noConfusion h

/-- The stream on a file that could be opened. -/
def ofFile (file : OpenedFile) : FileStream where
  rest := file.content
  failed := false
  gcount := 0
  rest_of_failed := rest_of_not_failed

/-- A read that asks for more than there is leaves nothing. -/
theorem drop_of_short {rest : Bytes} {n : ℕ} (h : decide (rest.length < n) = true) :
    rest.drop n = [] :=
  List.drop_eq_nil_of_le (Nat.le_of_lt (of_decide_eq_true h))

/-- `read(buf, n)`: the buffer and the stream behind it. A read that meets the end of the file lets
the stream fail; a stream that has failed delivers nothing. -/
def read (buf : Bytes) (n : ℕ) (s : FileStream) : Bytes × FileStream :=
  if s.failed then (buf, { s with gcount := 0 })
  else
    (s.rest.take n ++ buf.drop (s.rest.take n).length,
      { rest := s.rest.drop n
        failed := decide (s.rest.length < n)
        gcount := (s.rest.take n).length
        rest_of_failed := drop_of_short })

/-- As long as something is delivered, less is left. -/
theorem read_decreases {buf : Bytes} {n : ℕ} {s : FileStream}
    (h : 0 < (s.read buf n).2.gcount) : (s.read buf n).2.rest.length < s.rest.length := by
  unfold read at h ⊢
  by_cases hfailed : s.failed = true
  · rw [if_pos hfailed] at h
    exact absurd h (Nat.lt_irrefl 0)
  · rw [if_neg hfailed] at h ⊢
    simp only [List.length_take] at h
    simp only [List.length_drop]
    omega

/-- The copy loop. `buf` is declared inside of the loop: `buf i` is what it holds when pass `i`
begins. The body writes before the test.
SOURCE: http/socks_http_handler.cpp:157-163 -/
def copyLoop (buf : ℕ → Bytes) (pass : ℕ) (s : FileStream) : Prog Unit := do
  let filled := (s.read (buf pass) HttpFileHandler.BUF_SIZE).1
  let s' := (s.read (buf pass) HttpFileHandler.BUF_SIZE).2
  let _ ← HttpConnection.write (filled.take s'.gcount)
  if _h : 0 < s'.gcount then copyLoop buf (pass + 1) s'
  else .ret ()
termination_by s.rest.length
decreasing_by exact read_decreases _h

/-- SOURCE: http/socks_http_handler.cpp:131-164 -/
def do_GET (buf : ℕ → Bytes) (requestInfo : RequestInfo) : Prog Unit :=
  let path := HttpFileHandler.target requestInfo.path
  if (findSub (ascii "..") path).isSome then do
    let _ ← HttpConnection.http_403
    .ret ()
  else
    .openFile path fun
      | none => do
        let _ ← HttpConnection.http_404
        .ret ()
      | some file =>
        .openFile path fun size => do
          let _ ← HttpConnection.http_200 (HttpFileHandler.get_file_size size)
          copyLoop buf 0 (ofFile file)

/-! ## What a read delivers -/

/-- The first `gcount` bytes of the buffer are the next bytes of the file. -/
theorem take_gcount (buf : Bytes) (n : ℕ) (s : FileStream) :
    (s.read buf n).1.take (s.read buf n).2.gcount = s.rest.take n := by
  unfold read
  by_cases hfailed : s.failed = true
  · simp only [if_pos hfailed, s.rest_of_failed hfailed, List.take_zero, List.take_nil]
  · simp only [if_neg hfailed, List.take_left]

/-- `gcount` reports what the last `read` has delivered. -/
theorem gcount_read (buf : Bytes) (n : ℕ) (s : FileStream) :
    (s.read buf n).2.gcount = min n s.rest.length := by
  unfold read
  by_cases hfailed : s.failed = true
  · simp only [if_pos hfailed, s.rest_of_failed hfailed, List.length_nil, Nat.min_zero]
  · simp only [if_neg hfailed, List.length_take]

/-- What has been read is not read again. -/
theorem rest_read (buf : Bytes) (n : ℕ) (s : FileStream) :
    (s.read buf n).2.rest = s.rest.drop n := by
  unfold read
  by_cases hfailed : s.failed = true
  · simp only [if_pos hfailed, s.rest_of_failed hfailed, List.drop_nil]
  · simp only [if_neg hfailed]

/-- On the stream the loop does what it does on the bytes that are left. -/
theorem copyLoop_eq (buf : ℕ → Bytes) (pass : ℕ) (s : FileStream) :
    copyLoop buf pass s = HttpFileHandler.copyLoop s.rest := by
  induction pass, s using copyLoop.induct buf with
  | case1 pass s s' ih =>
    have hcount : s'.gcount = min HttpFileHandler.BUF_SIZE s.rest.length := gcount_read _ _ s
    have hrest : s'.rest = s.rest.drop HttpFileHandler.BUF_SIZE := rest_read _ _ s
    rw [copyLoop, HttpFileHandler.copyLoop, take_gcount]
    by_cases hnil : s.rest.length = 0
    · have hstop : ¬ 0 < s'.gcount := by
        rw [hcount, hnil, Nat.min_zero]
        exact Nat.lt_irrefl 0
      rw [dif_pos hnil, List.length_eq_zero_iff.mp hnil, List.take_nil]
      exact congrArg _ (funext fun _ => dif_neg hstop)
    · have hmore : 0 < s'.gcount := by
        rw [hcount, HttpFileHandler.BUF_SIZE]
        omega
      rw [dif_neg hnil, ← hrest, ← ih hmore]
      exact congrArg _ (funext fun _ => dif_pos hmore)

/-- The handler does what it does when its loop is told of the content. -/
theorem do_GET_eq (buf : ℕ → Bytes) (basePath : Bytes) (requestInfo : RequestInfo) :
    do_GET buf requestInfo = HttpFileHandler.do_GET basePath requestInfo := by
  simp only [do_GET, HttpFileHandler.do_GET, copyLoop_eq]
  rfl

end FileStream

end CppSocks.Model
