import CppSocks.Interface.HttpResponse

/-!
# Reading a response

What a client finds in the bytes of a response: the lines in front of the first empty
line, and the bytes behind it. `readHead_encode` says that the reader gets back the lines
and the body that a `Response` was made of. A response is framed if the length that it
states is that of its body; two responses of the same bytes state the same length
(`Framed.length_stated`). Nothing here refers to the code.
-/

set_option autoImplicit false

namespace CppSocks.Interface

open CppSocks.Model

/-- Read up to the first empty line; `line` is what has been read of the line at hand. -/
def readHead : Bytes → Bytes → Option (List Bytes × Bytes)
  | _, [] => none
  | _, [_] => none
  | line, b :: b' :: rest =>
    if b = 0x0D ∧ b' = 0x0A then
      if line = [] then some ([], rest)
      else (readHead [] rest).map fun r => (line :: r.1, r.2)
    else readHead (line ++ [b]) (b' :: rest)

/-- The number that a string of decimal digits stands for. -/
def readDecimal (digits : Bytes) : Option ℕ :=
  if !digits.isEmpty && digits.all fun b => 0x30 ≤ b && b ≤ 0x39 then
    some (digits.foldl (fun n b => 10 * n + (b.toNat - 48)) 0)
  else none

/-! ## Lines -/

section Lines

variable {line line' : Bytes}

/-- Two parts of a line, one behind the other. -/
theorem withinLine_append (h : WithinLine line) (h' : WithinLine line') :
    WithinLine (line ++ line') := by
  constructor
  · rw [List.mem_append]
    exact not_or.mpr ⟨h.1, h'.1⟩
  · rw [List.mem_append]
    exact not_or.mpr ⟨h.2, h'.2⟩

/-- Text does not end a line. -/
theorem withinLine_of_isText (h : ∀ b ∈ line, isText b) : WithinLine line := by
  constructor
  · intro hmem
    exact absurd (h _ hmem) (by decide)
  · intro hmem
    exact absurd (h _ hmem) (by decide)

/-- Digits do not end a line. -/
theorem withinLine_of_digits (h : ∀ b ∈ line, 0x30 ≤ b ∧ b ≤ 0x39) : WithinLine line := by
  constructor
  · intro hmem
    exact absurd (h _ hmem) (by decide)
  · intro hmem
    exact absurd (h _ hmem) (by decide)

/-- The bytes of a line are taken in one after the other. -/
theorem readHead_line (hline : WithinLine line) (start rest : Bytes) :
    readHead start (line ++ CRLF ++ rest) = readHead (start ++ line) (CRLF ++ rest) := by
  induction line generalizing start with
  | nil => rw [List.nil_append, List.append_nil]
  | cons b line ih =>
    have hb : b ≠ 0x0D := fun h => hline.1 (h ▸ List.mem_cons_self)
    have htail : WithinLine line :=
      ⟨fun h => hline.1 (List.mem_cons_of_mem _ h), fun h => hline.2 (List.mem_cons_of_mem _ h)⟩
    obtain ⟨b', tail, hcons⟩ : ∃ b' tail, line ++ CRLF ++ rest = b' :: tail := by
      cases line with
      | nil => exact ⟨0x0D, 0x0A :: rest, rfl⟩
      | cons c cs => exact ⟨c, cs ++ CRLF ++ rest, rfl⟩
    have hmove : start ++ [b] ++ line = start ++ b :: line := by
      rw [List.append_assoc, List.singleton_append]
    rw [List.cons_append, List.cons_append, hcons, readHead, if_neg fun h => hb h.1, ← hcons,
      ih htail, hmove]

/-- A line that is not empty is followed by the others. -/
theorem readHead_cons (hline : WithinLine line) (hne : line ≠ []) (rest : Bytes) :
    readHead [] (line ++ CRLF ++ rest) =
      (readHead [] rest).map fun r => (line :: r.1, r.2) := by
  have hend : CRLF ++ rest = 0x0D :: 0x0A :: rest := rfl
  rw [readHead_line hline, List.nil_append, hend, readHead, if_pos ⟨rfl, rfl⟩, if_neg hne]

/-- All lines are found, up to the empty one. -/
theorem readHead_lines (lines : List Bytes) (hlines : ∀ l ∈ lines, WithinLine l ∧ l ≠ [])
    (body : Bytes) :
    readHead [] (lines.flatMap (fun l => l ++ CRLF) ++ CRLF ++ body) = some (lines, body) := by
  induction lines with
  | nil => rfl
  | cons l lines ih =>
    have hl := hlines l List.mem_cons_self
    have hrest := ih fun l' hl' => hlines l' (List.mem_cons_of_mem _ hl')
    rw [List.flatMap_cons, List.append_assoc, List.append_assoc, ← List.append_assoc _ CRLF body,
      readHead_cons hl.1 hl.2, hrest]
    rfl

end Lines

/-! ## Responses -/

/-- A field stands in one line. -/
theorem ResponseField.text_withinLine (f : ResponseField) : WithinLine f.text := by
  have hname := withinLine_of_isText fun b hb => isText_of_tchar (f.name_tchar b hb)
  have hbefore := withinLine_of_isText fun b hb => isText_of_ows (f.before_ows b hb)
  have hcolon : WithinLine ([0x3A] : Bytes) := by decide +kernel
  exact withinLine_append hname
    (withinLine_append hcolon (withinLine_append hbefore f.value_line))

/-- The line of a field is not empty, so it does not end the header block. -/
theorem ResponseField.text_ne_nil (f : ResponseField) : f.text ≠ [] := by
  rw [ResponseField.text]
  exact List.append_ne_nil_of_left_ne_nil f.name_ne_nil _

/-- There is no colon in a token. -/
theorem colon_notMem_of_tchar {name : Bytes} (h : ∀ b ∈ name, isTchar b) : 0x3A ∉ name :=
  fun hmem => absurd (h _ hmem) (by decide)

/-- The name of a field ends at the first colon of its line. -/
theorem ResponseField.parts_of_text {f : ResponseField} {name rest : Bytes}
    (hname : ∀ b ∈ name, isTchar b) (h : f.text = name ++ 0x3A :: rest) :
    f.name = name ∧ f.before ++ f.value = rest := by
  have hmine := colon_notMem_of_tchar f.name_tchar
  have hother := colon_notMem_of_tchar hname
  rw [ResponseField.text] at h
  obtain ⟨c, hc, hd⟩ | ⟨c, hc, hd⟩ := List.append_eq_append_iff.mp h
  · cases c with
    | nil =>
      rw [List.append_nil] at hc
      exact ⟨hc.symm, (List.cons.inj hd).2⟩
    | cons b c =>
      obtain ⟨rfl, -⟩ := List.cons.inj hd
      exact absurd (hc ▸ List.mem_append_right _ List.mem_cons_self) hother
  · cases c with
    | nil =>
      rw [List.append_nil] at hc
      exact ⟨hc, (List.cons.inj hd).2.symm⟩
    | cons b c =>
      obtain ⟨rfl, -⟩ := List.cons.inj hd
      exact absurd (hc ▸ List.mem_append_right _ List.mem_cons_self) hmine

namespace Response

/-- The status stands in one line. -/
theorem statusLine_withinLine (r : Response) : WithinLine r.statusLine := by
  have hversion : WithinLine (ascii "HTTP/1.1 ") := by decide +kernel
  have hspace : WithinLine (ascii " ") := by decide +kernel
  have hcode := withinLine_of_digits r.code_digits
  exact withinLine_append (withinLine_append (withinLine_append hversion hcode) hspace)
    r.reason_line

/-- The line of the status is not empty. -/
theorem statusLine_ne_nil (r : Response) : r.statusLine ≠ [] := by
  have hversion : ascii "HTTP/1.1 " ≠ [] := by decide +kernel
  simp only [statusLine, List.append_assoc]
  exact List.append_ne_nil_of_left_ne_nil hversion _

/-- The lines of the header block. -/
def lines (r : Response) : List Bytes := r.statusLine :: r.fields.map ResponseField.text

/-- A client finds the lines and the body of a response. -/
theorem readHead_encode (r : Response) : readHead [] r.encode = some (r.lines, r.body) := by
  have hblock : r.block = r.lines.flatMap fun l => l ++ CRLF := by
    rw [block, lines, List.flatMap_cons, List.flatMap_map]
  rw [encode, hblock]
  apply readHead_lines
  intro l hl
  obtain rfl | hl := List.mem_cons.mp hl
  · exact ⟨r.statusLine_withinLine, r.statusLine_ne_nil⟩
  · obtain ⟨f, _, rfl⟩ := List.mem_map.mp hl
    exact ⟨f.text_withinLine, f.text_ne_nil⟩

/-- Responses of the same bytes have the same lines and the same body. -/
theorem parts_of_encode {r r' : Response} (h : r.encode = r'.encode) :
    r.lines = r'.lines ∧ r.body = r'.body := by
  have hread := r.readHead_encode
  rw [h, r'.readHead_encode, Option.some.injEq, Prod.mk.injEq] at hread
  exact ⟨hread.1.symm, hread.2.symm⟩

/-! ## The length of the body -/

/-- Each field with a length states the number of the bytes of the body. The body of a response
without such a field ends with the connection. -/
def Framed (r : Response) : Prop :=
  ∀ value ∈ r.fieldValues (ascii "Content-Length"),
    readDecimal (trimmed value) = some r.body.length

/-- Where a line states a length, it is that of the body. -/
theorem Framed.length_stated {r : Response} (h : r.Framed) {digits : Bytes}
    (hline : ascii "Content-Length" ++ 0x3A :: 0x20 :: digits ∈ r.fields.map ResponseField.text)
    (hdigits : ∀ b ∈ digits, ¬ isOws b) : readDecimal digits = some r.body.length := by
  obtain ⟨f, hf, htext⟩ := List.mem_map.mp hline
  obtain ⟨hname, hvalue⟩ := f.parts_of_text (by decide +kernel) htext
  have hfield : f.value ∈ r.fieldValues (ascii "Content-Length") := by
    refine List.mem_map.mpr ⟨f, List.mem_filter.mpr ⟨hf, ?_⟩, rfl⟩
    rw [hname]
    exact decide_eq_true rfl
  have htrimmed : trimmed f.value = digits := by
    calc trimmed f.value = trimmed (f.before ++ f.value) := (trimmed_append f.before_ows).symm
      _ = trimmed ([0x20] ++ digits) := by rw [hvalue, List.singleton_append]
      _ = trimmed digits := trimmed_append isOws_space
      _ = digits := trimmed_of_no_ows hdigits
  rw [← htrimmed]
  exact h _ hfield

end Response

end CppSocks.Interface
