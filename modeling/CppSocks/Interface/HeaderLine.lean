import CppSocks.Model.Types
import Mathlib.Data.List.DropRight

/-!
# The header lines of RFC 7230

A `HeaderLine` has the parts that the grammar gives a line: a name, a colon, and a
value with optional white space around it. Nothing here refers to the code: this is
what the parser of `CppSocks.Model.RequestInfo` is measured against.
-/

set_option autoImplicit false

namespace CppSocks.Interface

open CppSocks.Model

/-- The characters of a token. -/
def isTchar (b : Byte) : Bool :=
  (ascii "!#$%&'*+-.^_`|~").contains b || (0x30 ≤ b && b ≤ 0x39) || (0x41 ≤ b && b ≤ 0x5A) ||
    (0x61 ≤ b && b ≤ 0x7A)

/-- A space or a tab. -/
def isOws (b : Byte) : Bool := b == 0x20 || b == 0x09

/-- The end of a line. -/
def CRLF : Bytes := [0x0D, 0x0A]

/-- A byte that can stand in a line. -/
def isText (b : Byte) : Bool := b != 0x0D && b != 0x0A && b != 0x00

/-- The first line of a request, without its end. -/
def RequestLine : Type := { line : Bytes // ∀ b ∈ line, isText b }

/-- A header line without its end. -/
structure HeaderLine where
  name : Bytes
  before : Bytes
  value : Bytes
  after : Bytes
  name_ne_nil : name ≠ []
  name_tchar : ∀ b ∈ name, isTchar b
  before_ows : ∀ b ∈ before, isOws b
  value_text : ∀ b ∈ value, isText b
  after_ows : ∀ b ∈ after, isOws b

namespace HeaderLine

/-- The bytes in front of the end of the line. -/
def text (l : HeaderLine) : Bytes := l.name ++ 0x3A :: (l.before ++ l.value ++ l.after)

/-- The value without white space around it. -/
def fieldValue (l : HeaderLine) : Bytes := (l.value.dropWhile isOws).rdropWhile isOws

/-- The value that a list of lines gives a name: that of its first line. -/
def fieldOf (lines : List HeaderLine) (name : Bytes) : Option Bytes :=
  (lines.find? fun l => l.name == name).map fieldValue

end HeaderLine

/-- A request: its first line, the header lines, and an empty line. -/
def requestText (line : RequestLine) (lines : List HeaderLine) : Bytes :=
  line.val ++ CRLF ++ lines.flatMap (fun l => l.text ++ CRLF) ++ CRLF

/-! ## What a line does not contain -/

section Text

variable {b : Byte} {l : HeaderLine}

/-- What can stand in a line is neither part of the end of a line nor NUL. -/
theorem isText_iff : isText b ↔ b ≠ 0x0D ∧ b ≠ 0x0A ∧ b ≠ 0x00 := by
  rw [isText, Bool.and_eq_true, Bool.and_eq_true, bne_iff_ne, bne_iff_ne, bne_iff_ne, and_assoc]

/-- The characters of a token can. -/
theorem isText_of_tchar (h : isTchar b) : isText b := by
  rw [isText_iff]
  refine ⟨?_, ?_, ?_⟩ <;>
  · rintro rfl
    exact absurd h (by decide)

/-- So can white space. -/
theorem isText_of_ows (h : isOws b) : isText b := by
  rw [isOws, Bool.or_eq_true, beq_iff_eq, beq_iff_eq] at h
  obtain rfl | rfl := h <;> decide

/-- One space is white space. -/
theorem isOws_space : ∀ b ∈ ([0x20] : Bytes), isOws b := by decide +kernel

/-- No byte at all is white space throughout. -/
theorem isOws_nil : ∀ b ∈ ([] : Bytes), isOws b := by decide +kernel

namespace HeaderLine

/-- Nothing in a header line ends it. -/
theorem text_isText (l : HeaderLine) : ∀ b ∈ l.text, isText b := by
  intro b hb
  simp only [text, List.mem_append, List.mem_cons] at hb
  obtain hname | rfl | (hbefore | hvalue) | hafter := hb
  · exact isText_of_tchar (l.name_tchar b hname)
  · decide
  · exact isText_of_ows (l.before_ows b hbefore)
  · exact l.value_text b hvalue
  · exact isText_of_ows (l.after_ows b hafter)

/-- Trimming a value adds no byte to it. -/
theorem fieldValue_subset (l : HeaderLine) : l.fieldValue ⊆ l.value := by
  have hfront : l.fieldValue <+: l.value.dropWhile isOws := List.rdropWhile_prefix isOws _
  intro b hb
  exact (List.dropWhile_suffix isOws).subset (hfront.subset hb)

end HeaderLine

end Text

end CppSocks.Interface
