import CppSocks.Analysis.ResponseComplete
import CppSocks.Model.FileStream

/-!
# The body of a file response

A file that can be opened is copied to the connection block by block, in a loop whose
body writes before it tests, and which learns of the end of the file from a read that
delivers nothing. The length in the header block comes from a second open of the file.
`file_streamed` says that, if it is reported right, a client finds the content of the
file behind the empty line and its length in the header block, whatever the length is.
-/

set_option autoImplicit false

namespace CppSocks.Analysis

open CppSocks.Model CppSocks.Interface Foundation

/-! ## The response -/

/-- What a client finds in the response with the content of a file. -/
theorem readHead_okResponse (size : ℤ) (content : Bytes) :
    readHead [] (okResponse size content).encode =
      some ([ascii "HTTP/1.1 200 OK", ascii "Server: CPP Socks",
        ascii "Content-Length: " ++ positionText size], content) := by
  have htext : ascii "HTTP/1.1 " ++ ascii "200" ++ ascii " " ++ ascii "OK" =
      ascii "HTTP/1.1 200 OK" := by
    decide +kernel
  have hstatus : (okResponse size content).statusLine = ascii "HTTP/1.1 200 OK" := htext
  have hserver : ascii "Server" ++ 0x3A :: ([0x20] ++ ascii "CPP Socks") =
      ascii "Server: CPP Socks" := by
    decide +kernel
  have hlength : ascii "Content-Length: " = ascii "Content-Length" ++ [0x3A, 0x20] := by
    decide +kernel
  rw [Response.readHead_encode, Response.lines, hstatus, hlength, ← hserver, List.append_assoc]
  rfl

/-- If the file can be opened and its size is reported right, the request is not refused and the
connection takes what is written, then `do_GET` comes to its end, and has written a header block with
the length of the file, and behind the empty line the file. -/
theorem file_streamed (pf : Platform) (buf : ℕ → Bytes) (requestInfo : RequestInfo) {file : OpenedFile}
    (hdots : ¬ ascii ".." <:+: HttpFileHandler.target requestInfo.path)
    (hfile : pf.openFile (HttpFileHandler.target requestInfo.path) = some file) (hsize : file.Sized)
    {c : Conn} (hopen : c.closed = false) (hacc : Accepts c) :
    ∃ c' bytes digits, (FileStream.do_GET buf requestInfo).run pf c = (.ret (), c') ∧
      c'.log.written = c.log.written ++ bytes ∧
      readHead [] bytes = some ([ascii "HTTP/1.1 200 OK", ascii "Server: CPP Socks",
        ascii "Content-Length: " ++ digits], file.content) ∧
      readDecimal digits = some file.content.length := by
  rw [← findSub_isSome_iff] at hdots
  obtain ⟨u, c', hrun, -, -, hwritten⟩ :=
    writes_opened [] hdots hfile (length_lengthLine file.size_lower file.size_upper) c hopen hacc
  refine ⟨c', (okResponse file.size file.content).encode, positionText file.size, ?_, ?_,
    readHead_okResponse file.size file.content, readDecimal_positionText.mpr hsize⟩
  · rw [FileStream.do_GET_eq buf []]
    exact hrun
  · rw [hwritten, encode_okResponse]

/-- A page with an empty line of its own. -/
theorem file_streamed_page :
    ∃ c' bytes digits,
      (FileStream.do_GET (fun _ => []) ⟨.get, ascii "/", []⟩).run fullPlatform (Conn.init []) =
          (.ret (), c') ∧
      c'.log.written = (Conn.init []).log.written ++ bytes ∧
      readHead [] bytes = some ([ascii "HTTP/1.1 200 OK", ascii "Server: CPP Socks",
        ascii "Content-Length: " ++ digits], page.content) ∧
      readDecimal digits = some page.content.length :=
  file_streamed fullPlatform (fun _ => []) ⟨.get, ascii "/", []⟩ (by decide +kernel) rfl
    (OpenedFile.sized_regular _ _) rfl
    (by intro r hr; cases hr)

end CppSocks.Analysis
