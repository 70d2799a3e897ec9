import CppSocks.Interface.Upgrade

/-!
# HTTP responses

A `Response` has the parts that the grammar of HTTP/1.1 gives a response: a status
line, header fields, an empty line, and a body. No line of the header block is empty or
holds the end of a line, so the block ends where its empty line is. Nothing here
refers to the code.
-/

set_option autoImplicit false

namespace CppSocks.Interface

open CppSocks.Model

/-- The bytes do not end a line. -/
def WithinLine (bytes : Bytes) : Prop := 0x0D ∉ bytes ∧ 0x0A ∉ bytes

instance (bytes : Bytes) : Decidable (WithinLine bytes) := inferInstanceAs (Decidable (_ ∧ _))

/-- A header field of a response. -/
structure ResponseField where
  name : Bytes
  before : Bytes
  value : Bytes
  name_ne_nil : name ≠ []
  name_tchar : ∀ b ∈ name, isTchar b
  before_ows : ∀ b ∈ before, isOws b
  value_line : WithinLine value

/-- The bytes in front of the end of the line. -/
def ResponseField.text (f : ResponseField) : Bytes := f.name ++ 0x3A :: (f.before ++ f.value)

/-- A response. -/
structure Response where
  code : Bytes
  reason : Bytes
  fields : List ResponseField
  body : Bytes
  code_length : code.length = 3
  code_digits : ∀ b ∈ code, 0x30 ≤ b ∧ b ≤ 0x39
  reason_line : WithinLine reason

namespace Response

/-- The first line. -/
def statusLine (r : Response) : Bytes := ascii "HTTP/1.1 " ++ r.code ++ ascii " " ++ r.reason

/-- The status line and the header fields, each with the end of its line. -/
def block (r : Response) : Bytes :=
  r.statusLine ++ CRLF ++ r.fields.flatMap fun f => f.text ++ CRLF

/-- The bytes of a response. -/
def encode (r : Response) : Bytes := r.block ++ CRLF ++ r.body

/-- The values of the fields with a name. -/
def fieldValues (r : Response) (name : Bytes) : List Bytes :=
  (r.fields.filter fun f => SameWord f.name name).map ResponseField.value

/-- A line of the header block is followed by its empty line. -/
theorem emptyLine_infix (r : Response) : CRLF ++ CRLF <:+: r.encode := by
  have hline : ∃ lines, r.block = lines ++ CRLF := by
    rcases List.eq_nil_or_concat r.fields with hnil | ⟨fields, f, hfields⟩
    · exact ⟨r.statusLine, by rw [block, hnil, List.flatMap_nil, List.append_nil]⟩
    · refine ⟨r.statusLine ++ CRLF ++ (fields.flatMap (fun f => f.text ++ CRLF) ++ f.text), ?_⟩
      rw [block, hfields, List.concat_eq_append, List.flatMap_append, List.flatMap_singleton]
      simp only [List.append_assoc]
  obtain ⟨lines, hlines⟩ := hline
  refine ⟨lines, r.body, ?_⟩
  rw [encode, hlines]
  simp only [List.append_assoc]

end Response

end CppSocks.Interface
