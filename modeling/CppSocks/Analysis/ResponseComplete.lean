import CppSocks.Analysis.Handshake
import CppSocks.Analysis.StaticFiles
import CppSocks.Interface.ResponseReader
import Mathlib.Data.Nat.Digits.Defs

/-!
# The response to a GET request

`http_200` ends the header block with an empty line; `http_403` and `http_404` write a
status line and a header line and leave the block open. The length in the header block
is the one that `tellg` reports, which for a directory is not the number of the bytes
that can be read. So the answer is a complete response if and only if the path contains
no `..` and names a file that can be opened and whose size is reported right
(`response_complete_iff`).
-/

set_option autoImplicit false

namespace CppSocks.Analysis

open CppSocks.Model CppSocks.Interface Foundation

/-! ## What a program writes -/

section Writes

variable {α β : Type} {pf : Platform} {p : Prog α} {f : α → Prog β} {xs ys : Bytes}

/-- On an open connection that accepts everything, the program returns and has written these bytes. -/
def Writes (pf : Platform) (p : Prog α) (bytes : Bytes) : Prop :=
  ∀ c : Conn, c.closed = false → Accepts c → ∃ a c', p.run pf c = (.ret a, c') ∧
    c'.closed = false ∧ Accepts c' ∧ c'.log.written = c.log.written ++ bytes

/-- A program that ends at once writes nothing. -/
theorem writes_ret (a : α) : Writes pf (.ret a) [] :=
  fun c hopen hacc => ⟨a, c, rfl, hopen, hacc, (List.append_nil _).symm⟩

/-- `sendAll` writes its buffer. -/
theorem writes_sendAll (h : xs.length < SIZE_MOD) : Writes pf (Prog.sendAll xs) xs := by
  intro c hopen hacc
  obtain ⟨c', hsend, hrest⟩ := send_accepts h hopen hacc
  refine ⟨xs.length, c', ?_, hrest⟩
  rw [run_sendAll, hsend]

/-- Programs in sequence write their bytes in sequence. -/
theorem writes_bind (hp : Writes pf p xs) (hf : ∀ a, Writes pf (f a) ys) :
    Writes pf (p >>= f) (xs ++ ys) := by
  intro c hopen hacc
  obtain ⟨a, c', hrun, hopen', hacc', hwritten⟩ := hp c hopen hacc
  obtain ⟨b, c'', hrun', hopen'', hacc'', hwritten'⟩ := hf a c' hopen' hacc'
  refine ⟨b, c'', ?_, hopen'', hacc'', ?_⟩
  · rw [run_bind, Act.bind_of_ret hrun, hrun']
  · rw [hwritten', hwritten, List.append_assoc]

/-- Opening a file writes nothing. -/
theorem writes_openFile {path : Bytes} {k : Option OpenedFile → Prog α}
    (h : Writes pf (k (pf.openFile path)) xs) : Writes pf (.openFile path k) xs := by
  intro c hopen hacc
  obtain ⟨a, c', hrun, hopen', hacc', hwritten⟩ := h (c.record (.opened path)) hopen hacc
  refine ⟨a, c', hrun, hopen', hacc', ?_⟩
  rw [hwritten, Conn.record, written_append]
  exact congrArg (· ++ xs) (List.append_nil _)

end Writes

/-! ## The handler -/

section Handler

variable {pf : Platform} {basePath : Bytes} {requestInfo : RequestInfo} {c : Conn}

/-- The block loop writes the file. -/
theorem writes_copyLoop (rest : Bytes) : Writes pf (HttpFileHandler.copyLoop rest) rest := by
  induction rest using HttpFileHandler.copyLoop.induct with
  | case1 rest h =>
    rw [HttpFileHandler.copyLoop, dif_pos h, List.length_eq_zero_iff.mp h]
    exact writes_bind (writes_sendAll (by decide)) fun _ => writes_ret ()
  | case2 rest h ih =>
    have hblock : (rest.take HttpFileHandler.BUF_SIZE).length < SIZE_MOD := by
      rw [List.length_take]
      exact Nat.lt_of_le_of_lt (Nat.min_le_left _ _) (by decide)
    have hall : Writes pf (HttpFileHandler.copyLoop rest)
        (rest.take HttpFileHandler.BUF_SIZE ++ rest.drop HttpFileHandler.BUF_SIZE) := by
      rw [HttpFileHandler.copyLoop, dif_neg h]
      exact writes_bind (writes_sendAll hblock) fun _ => ih
    rw [List.take_append_drop] at hall
    exact hall

/-- The first two lines of a response are sent in one buffer. -/
theorem writes_http_response_code {code : Bytes} (h : (responseText code).length < SIZE_MOD) :
    Writes pf (HttpConnection.http_response_code code) (responseText code) :=
  writes_sendAll h

/-- What `<<` writes of a stream position. -/
def positionText (position : ℤ) : Bytes := ascii (toString position)

/-- The line with the length of the content. -/
def lengthLine (contentLength : ℤ) : Bytes :=
  ascii "Content-Length: " ++ positionText contentLength ++ NEWLINE

/-- The header block of a file that can be opened. -/
theorem writes_http_200 {contentLength : ℤ} (h : (lengthLine contentLength).length < SIZE_MOD) :
    Writes pf (HttpConnection.http_200 contentLength)
      (responseText (ascii "200 OK") ++ (lengthLine contentLength ++ NEWLINE)) :=
  writes_bind (writes_http_response_code (by decide +kernel)) fun _ =>
    writes_bind (writes_sendAll h) fun _ => writes_sendAll (by decide)

/-- The answer to a path with `..` in it. -/
theorem writes_dotdot
    (h : (findSub (ascii "..") (HttpFileHandler.target requestInfo.path)).isSome) :
    Writes pf (HttpFileHandler.do_GET basePath requestInfo)
      (responseText (ascii "403 Forbidden")) := by
  rw [HttpFileHandler.do_GET, if_pos h, ← List.append_nil (responseText _)]
  exact writes_bind (writes_http_response_code (by decide +kernel)) fun _ => writes_ret ()

/-- The answer if the file cannot be opened. -/
theorem writes_missing
    (h : ¬ (findSub (ascii "..") (HttpFileHandler.target requestInfo.path)).isSome)
    (hopen : pf.openFile (HttpFileHandler.target requestInfo.path) = none) :
    Writes pf (HttpFileHandler.do_GET basePath requestInfo)
      (responseText (ascii "404 Not Found")) := by
  rw [HttpFileHandler.do_GET, if_neg h, ← List.append_nil (responseText _)]
  refine writes_openFile ?_
  rw [hopen]
  exact writes_bind (writes_http_response_code (by decide +kernel)) fun _ => writes_ret ()

variable (basePath) in
/-- The answer if the file can be opened: the size that is reported, and what can be read. -/
theorem writes_opened
    (h : ¬ (findSub (ascii "..") (HttpFileHandler.target requestInfo.path)).isSome) {file : OpenedFile}
    (hopen : pf.openFile (HttpFileHandler.target requestInfo.path) = some file)
    (hlen : (lengthLine file.size).length < SIZE_MOD) :
    Writes pf (HttpFileHandler.do_GET basePath requestInfo)
      (responseText (ascii "200 OK") ++ (lengthLine file.size ++ NEWLINE) ++ file.content) := by
  rw [HttpFileHandler.do_GET, if_neg h]
  refine writes_openFile ?_
  rw [hopen]
  refine writes_openFile ?_
  rw [hopen]
  exact writes_bind (writes_http_200 hlen) fun _ => writes_copyLoop file.content

/-- What the state writes is what the handler writes. -/
theorem onEnter_written {bytes : Bytes}
    (h : Writes pf (HttpFileHandler.do_GET basePath requestInfo) bytes) (hopen : c.closed = false)
    (hacc : Accepts c) :
    (HttpGetState.onEnter pf (HttpFileHandler basePath) requestInfo c).2.log.written =
      c.log.written ++ bytes := by
  obtain ⟨u, c', hrun, -, -, hwritten⟩ := h (c.record .doGet) hopen hacc
  have hdo : callback pf .self .self .doGet
      (fun log => (HttpFileHandler basePath).do_GET log requestInfo) c = (.ret u, c') := hrun
  have hcall : HttpGetState.doGetCall pf (HttpFileHandler basePath) requestInfo c =
      (.ret u, c'.record .doGetEnd) := by
    rw [HttpGetState.doGetCall, hdo]
  have hbegin : (c.record .doGet).log.written = c.log.written := by
    rw [Conn.record, written_append]
    exact List.append_nil _
  unfold HttpGetState.onEnter
  rw [Act.bind_of_ret hcall]
  change Log.written (c'.log ++ [.doGetEnd]) = _
  rw [written_append, hwritten, hbegin]
  exact List.append_nil _

end Handler

/-! ## Positions in decimal -/

section Position

variable {n : ℕ} {z : ℤ}

/-- A number in decimal. -/
def decimal (n : ℕ) : Bytes := ascii (toString (n : ℤ))

/-- The decimal digits as bytes are those of the natural number as characters. -/
theorem decimal_eq (n : ℕ) :
    decimal n = (Nat.toDigits 10 n).map fun digit => UInt8.ofNat digit.toNat := by
  have hrepr : (toString (n : ℤ)).toList = Nat.toDigits 10 n := Nat.toList_repr
  rw [decimal, ascii, hrepr]

/-- The digits of a number are between `0` and `9`. -/
theorem toNat_of_mem_toDigits {n : ℕ} {digit : Char} (h : digit ∈ Nat.toDigits 10 n) :
    (UInt8.ofNat digit.toNat).toNat = digit.toNat ∧ 48 ≤ digit.toNat ∧ digit.toNat ≤ 57 := by
  have hisDigit := Nat.isDigit_of_mem_toDigits (by decide) (by decide) h
  have hrange : 48 ≤ digit.toNat ∧ digit.toNat ≤ 57 := Char.isDigit_iff_toNat.mp hisDigit
  refine ⟨?_, hrange⟩
  rw [UInt8.toNat_ofNat', Nat.mod_eq_of_lt (by omega)]

/-- The decimal digits lie between `0` and `9`. -/
theorem decimal_digits (n : ℕ) : ∀ b ∈ decimal n, 0x30 ≤ b ∧ b ≤ 0x39 := by
  intro b hb
  rw [decimal_eq] at hb
  obtain ⟨digit, hmem, rfl⟩ := List.mem_map.mp hb
  obtain ⟨hbyte, hlow, hhigh⟩ := toNat_of_mem_toDigits hmem
  constructor
  · rw [UInt8.le_iff_toNat_le, hbyte]
    exact hlow
  · rw [UInt8.le_iff_toNat_le, hbyte]
    exact hhigh

/-- A client reads the number that was written. -/
theorem readDecimal_decimal (n : ℕ) : readDecimal (decimal n) = some n := by
  have hne : decimal n ≠ [] := by
    rw [decimal_eq]
    intro h
    exact Nat.toDigits_ne_nil (List.map_eq_nil_iff.mp h)
  have hfold : (decimal n).foldl (fun m b => 10 * m + (b.toNat - 48)) 0 = n := by
    calc (decimal n).foldl (fun m b => 10 * m + (b.toNat - 48)) 0
        = (Nat.toDigits 10 n).foldl
            (fun m digit => 10 * m + ((UInt8.ofNat digit.toNat).toNat - 48)) 0 := by
          rw [decimal_eq, List.foldl_map]
      _ = (Nat.toDigits 10 n).foldl (fun m digit => 10 * m + (digit.toNat - '0'.toNat)) 0 := by
          apply List.foldl_ext
          intro m digit hdigit
          rw [(toNat_of_mem_toDigits hdigit).1]
          rfl
      _ = n := by
          rw [← Nat.ofDigitChars_eq_foldl, Nat.ofDigitChars_ten_toDigits]
  have hdigits : (!(decimal n).isEmpty && (decimal n).all fun b => 0x30 ≤ b && b ≤ 0x39) = true := by
    rw [Bool.and_eq_true, Bool.not_eq_true', List.isEmpty_eq_false_iff, List.all_eq_true]
    refine ⟨hne, fun b hb => ?_⟩
    rw [Bool.and_eq_true, decide_eq_true_iff, decide_eq_true_iff]
    exact decimal_digits n b hb
  rw [readDecimal, if_pos hdigits, hfold]

/-- A negative position is written with a sign. -/
theorem positionText_negSucc (n : ℕ) : positionText (Int.negSucc n) = 0x2D :: decimal (n + 1) := by
  have hsign : (toString (Int.negSucc n)).toList = '-' :: (toString ((n + 1 : ℕ) : ℤ)).toList :=
    String.toList_append
  rw [positionText, ascii, hsign]
  rfl

/-- What is written of a position has no white space and no end of a line in it. -/
theorem positionText_bytes (z : ℤ) : ∀ b ∈ positionText z, 0x2D ≤ b ∧ b ≤ 0x39 := by
  have hdecimal : ∀ n, ∀ b ∈ decimal n, 0x2D ≤ b ∧ b ≤ 0x39 := fun n b hb =>
    ⟨UInt8.le_trans (by decide) (decimal_digits n b hb).1, (decimal_digits n b hb).2⟩
  cases z with
  | ofNat n => exact hdecimal n
  | negSucc n =>
    intro b hb
    rw [positionText_negSucc] at hb
    obtain rfl | hb := List.mem_cons.mp hb
    · decide
    · exact hdecimal (n + 1) b hb

/-- A position as text fits into a header line. -/
theorem withinLine_positionText (z : ℤ) : WithinLine (positionText z) := by
  constructor
  · intro hmem
    exact absurd (positionText_bytes z _ hmem) (by decide)
  · intro hmem
    exact absurd (positionText_bytes z _ hmem) (by decide)

/-- A position as text contains no white space, so trimming leaves it alone. -/
theorem no_ows_positionText (z : ℤ) : ∀ b ∈ positionText z, ¬ isOws b := by
  intro b hb hows
  obtain rfl | rfl : b = 0x20 ∨ b = 0x09 := by simpa [isOws] using hows
  · exact absurd (positionText_bytes z _ hb) (by decide)
  · exact absurd (positionText_bytes z _ hb) (by decide)

/-- A client reads a number if and only if it is the position. -/
theorem readDecimal_positionText : readDecimal (positionText z) = some n ↔ z = n := by
  cases z with
  | ofNat m =>
    change readDecimal (decimal m) = some n ↔ (m : ℤ) = n
    rw [readDecimal_decimal, Option.some.injEq, Int.natCast_inj]
  | negSucc m =>
    refine iff_of_false (fun h => ?_) (by omega)
    rw [positionText_negSucc] at h
    cases h

/-- The line with the reported size is short, since the size is a `streamoff`. -/
theorem length_lengthLine (hlower : -2 ^ 63 ≤ z) (hupper : z < 2 ^ 63) :
    (lengthLine z).length < SIZE_MOD := by
  have hdecimal : ∀ n ≤ 2 ^ 63, (decimal n).length ≤ 19 := by
    intro n hn
    rw [decimal_eq, List.length_map]
    exact Nat.toDigits_length 10 n 19 (by decide) (by omega)
  have hposition : (positionText z).length ≤ 20 := by
    cases z with
    | ofNat n => exact Nat.le_succ_of_le (hdecimal n (by rw [Int.ofNat_eq_natCast] at hupper; omega))
    | negSucc n =>
      rw [positionText_negSucc, List.length_cons]
      exact Nat.succ_le_succ (hdecimal (n + 1) (by omega))
  have hname : (ascii "Content-Length: ").length = 16 := by decide +kernel
  have hend : NEWLINE.length = 2 := rfl
  rw [lengthLine, List.length_append, List.length_append, hname, hend, SIZE_MOD]
  omega

end Position

/-! ## Complete responses -/

/-- What `HttpGetState` writes is one response, and where it states the length of its body, that is the
length of the body. -/
def Complete (pf : Platform) (basePath : Bytes) (requestInfo : RequestInfo) (c : Conn) : Prop :=
  ∃ r : Response, r.Framed ∧
    (HttpGetState.onEnter pf (HttpFileHandler basePath) requestInfo c).2.log.written =
      c.log.written ++ r.encode

section Complete

variable {pf : Platform} {basePath : Bytes} {requestInfo : RequestInfo} {c : Conn}

/-- The response with a content, for which a size has been reported. -/
def okResponse (size : ℤ) (content : Bytes) : Response where
  code := ascii "200"
  reason := ascii "OK"
  fields := [
    responseField (ascii "Server") (ascii "CPP Socks") (by decide +kernel) (by decide +kernel),
    responseField (ascii "Content-Length") (positionText size) (by decide +kernel)
      (withinLine_positionText _)]
  body := content
  code_length := by decide +kernel
  code_digits := by decide +kernel
  reason_line := by decide +kernel

/-- The response to an opened file as the source writes it. -/
theorem encode_okResponse (size : ℤ) (content : Bytes) :
    (okResponse size content).encode =
      responseText (ascii "200 OK") ++ (lengthLine size ++ NEWLINE) ++ content := by
  have htext : responseText (ascii "200 OK") =
      ascii "HTTP/1.1 " ++ ascii "200" ++ ascii " " ++ ascii "OK" ++ CRLF ++
        (ascii "Server" ++ ascii ": " ++ ascii "CPP Socks" ++ CRLF) := by
    decide +kernel
  have hline : lengthLine size =
      ascii "Content-Length" ++ ascii ": " ++ positionText size ++ CRLF := by
    have hname : ascii "Content-Length: " = ascii "Content-Length" ++ ascii ": " := by
      decide +kernel
    rw [lengthLine, hname]
    rfl
  have hend : NEWLINE = CRLF := rfl
  rw [htext, hline, hend, Response.encode, Response.block, Response.statusLine, okResponse]
  simp only [List.flatMap_cons, List.flatMap_nil, text_responseField, List.append_assoc,
    List.append_nil]

/-- A response of the bytes of `okResponse` is framed if and only if the size is that of the content. -/
theorem exists_framed_iff (size : ℤ) (content : Bytes) :
    (∃ r : Response, r.Framed ∧ (okResponse size content).encode = r.encode) ↔
      size = content.length := by
  constructor
  · rintro ⟨r, hframed, hencode⟩
    obtain ⟨hlines, hbody⟩ := Response.parts_of_encode hencode
    have hfields : (okResponse size content).fields.map ResponseField.text =
        r.fields.map ResponseField.text := (List.cons.inj hlines).2
    have hline : ascii "Content-Length" ++ 0x3A :: 0x20 :: positionText size ∈
        (okResponse size content).fields.map ResponseField.text :=
      List.mem_cons_of_mem _ List.mem_cons_self
    rw [hfields] at hline
    have hstated := hframed.length_stated hline (no_ows_positionText size)
    rw [← hbody] at hstated
    exact readDecimal_positionText.mp hstated
  · intro hsize
    refine ⟨okResponse size content, ?_, rfl⟩
    intro value hvalue
    have hvalues : (okResponse size content).fieldValues (ascii "Content-Length") =
        [positionText size] := by
      have hserver : decide (SameWord (ascii "Server") (ascii "Content-Length")) = false := by
        decide +kernel
      have hlength : decide (SameWord (ascii "Content-Length") (ascii "Content-Length")) = true :=
        decide_eq_true rfl
      simp only [Response.fieldValues, okResponse, responseField, List.filter_cons, hserver, hlength,
        List.filter_nil, List.map_cons, List.map_nil, if_true, Bool.false_eq_true, if_false]
    rw [hvalues, List.mem_singleton] at hvalue
    rw [hvalue, trimmed_of_no_ows (no_ows_positionText size)]
    exact readDecimal_positionText.mpr hsize

/-- A text without an empty line is not a response. -/
theorem not_complete {text : Bytes} (htext : ¬ CRLF ++ CRLF <:+: text)
    (h : Writes pf (HttpFileHandler.do_GET basePath requestInfo) text) (hopen : c.closed = false)
    (hacc : Accepts c) : ¬ Complete pf basePath requestInfo c := by
  rintro ⟨r, -, hr⟩
  rw [onEnter_written h hopen hacc, List.append_cancel_left_eq] at hr
  exact htext (hr ▸ r.emptyLine_infix)

end Complete

/-- On every open connection that accepts what is written, the answer is one complete response if and
only if the path contains no `..` and names a file that can be opened, of which as many bytes can be
read as `tellg` reports. -/
theorem response_complete_iff (pf : Platform) (basePath : Bytes) (requestInfo : RequestInfo) {c : Conn}
    (hopen : c.closed = false) (hacc : Accepts c) :
    Complete pf basePath requestInfo c ↔
      ¬ ascii ".." <:+: HttpFileHandler.target requestInfo.path ∧
        ∃ file, pf.openFile (HttpFileHandler.target requestInfo.path) = some file ∧ file.Sized := by
  rw [← findSub_isSome_iff]
  by_cases hdots : (findSub (ascii "..") (HttpFileHandler.target requestInfo.path)).isSome
  · refine iff_of_false (not_complete ?_ (writes_dotdot hdots) hopen hacc) fun h => h.1 hdots
    decide +kernel
  · cases hfile : pf.openFile (HttpFileHandler.target requestInfo.path) with
    | none =>
      refine iff_of_false (not_complete ?_ (writes_missing hdots hfile) hopen hacc) fun h => ?_
      · decide +kernel
      · obtain ⟨-, file, hsome, -⟩ := h
        cases hsome
    | some file =>
      have hopened := writes_opened basePath hdots hfile
        (length_lengthLine file.size_lower file.size_upper)
      have hcomplete : Complete pf basePath requestInfo c ↔ file.Sized := by
        rw [OpenedFile.Sized, ← exists_framed_iff, Complete, onEnter_written hopened hopen hacc]
        simp only [encode_okResponse, List.append_cancel_left_eq]
      rw [hcomplete]
      constructor
      · intro hsized
        exact ⟨hdots, file, rfl, hsized⟩
      · rintro ⟨-, file', hsome, hsized⟩
        cases hsome
        exact hsized

/-- The index page, where every path names a page. -/
theorem response_complete_iff_index :
    Complete fullPlatform [] ⟨.get, ascii "/", []⟩ (Conn.init []) ↔
      ¬ ascii ".." <:+: HttpFileHandler.target (⟨.get, ascii "/", []⟩ : RequestInfo).path ∧
        ∃ file, fullPlatform.openFile
          (HttpFileHandler.target (⟨.get, ascii "/", []⟩ : RequestInfo).path) = some file ∧
            file.Sized :=
  response_complete_iff fullPlatform [] _ rfl (by intro r hr; cases hr)

/-- The answer to a path that names no file ends behind its second line. -/
theorem missing_file_incomplete :
    (HttpGetState.onEnter .plain (HttpFileHandler []) ⟨.get, ascii "/a", []⟩
        (Conn.init [])).2.log.written = ascii "HTTP/1.1 404 Not Found\r\nServer: CPP Socks\r\n" ∧
      ¬ Complete .plain [] ⟨.get, ascii "/a", []⟩ (Conn.init []) := by
  have hwritten : (HttpGetState.onEnter .plain (HttpFileHandler []) ⟨.get, ascii "/a", []⟩
      (Conn.init [])).2.log.written = ascii "HTTP/1.1 404 Not Found\r\nServer: CPP Socks\r\n" := by
    decide +kernel
  refine ⟨hwritten, ?_⟩
  rintro ⟨r, -, hr⟩
  have hinfix := r.emptyLine_infix
  rw [← hr.trans (List.nil_append _), hwritten] at hinfix
  revert hinfix
  decide +kernel

end CppSocks.Analysis
