import CppSocks.Interface.HeaderLine
import Mathlib.Data.List.Nodup

/-!
# Upgrade requests

When the header lines of a GET request ask for a WebSocket (RFC 6455): the names of the
fields and the tokens in their values are compared without regard to letter case, and
a token is a whole element of a comma-separated list. Nothing here refers to the code.
-/

set_option autoImplicit false

namespace CppSocks.Interface

open CppSocks.Model

/-- A capital letter in lower case; any other byte as it is. -/
def lowerByte (b : Byte) : Byte := if 0x41 ≤ b ∧ b ≤ 0x5A then b + 0x20 else b

/-- A word in lower case. -/
def lowered (word : Bytes) : Bytes := word.map lowerByte

/-- Two words that differ in letter case only. -/
def SameWord (word word' : Bytes) : Prop := lowered word = lowered word'

/-- A value without white space around it. -/
def trimmed (value : Bytes) : Bytes := (value.dropWhile isOws).rdropWhile isOws

/-- The elements of a comma-separated value. -/
def listElements (value : Bytes) : List Bytes := (value.splitOn 0x2C).map trimmed

/-- The token is an element of the value. -/
def HasToken (token value : Bytes) : Prop := ∃ element ∈ listElements value, SameWord element token

instance (word word' : Bytes) : Decidable (SameWord word word') :=
  inferInstanceAs (Decidable (_ = _))

instance (token value : Bytes) : Decidable (HasToken token value) :=
  inferInstanceAs (Decidable (∃ _ ∈ _, _))

/-- The names of the lines differ, letter case apart. -/
def DistinctNames (lines : List HeaderLine) : Prop := (lines.map fun l => lowered l.name).Nodup

/-- The form `name: value` of a line. -/
def HeaderLine.Plain (l : HeaderLine) : Prop := l.before = [0x20] ∧ l.after = []

/-- The header lines ask for a WebSocket. -/
structure IsUpgrade (lines : List HeaderLine) : Prop where
  upgrade : ∃ l ∈ lines, SameWord l.name (ascii "Upgrade") ∧ HasToken (ascii "websocket") l.value
  connection : ∃ l ∈ lines,
    SameWord l.name (ascii "Connection") ∧ HasToken (ascii "upgrade") l.value
  key : ∃ l ∈ lines, SameWord l.name (ascii "Sec-WebSocket-Key")

/-! ## Values -/

section Values

variable {text before value : Bytes}

/-- White space in front of a value does not count. -/
theorem trimmed_append (h : ∀ b ∈ before, isOws b) : trimmed (before ++ value) = trimmed value := by
  rw [trimmed, List.dropWhile_append_of_pos h, trimmed]

/-- A value without any white space is as it is. -/
theorem trimmed_of_no_ows (h : ∀ b ∈ text, ¬ isOws b) : trimmed text = text := by
  have hfront : text.dropWhile isOws = text :=
    List.dropWhile_eq_self_iff.mpr fun hl => h _ (List.getElem_mem hl)
  rw [trimmed, hfront]
  exact List.rdropWhile_eq_self_iff.mpr fun hne => h _ (List.getLast_mem hne)

end Values

/-! ## Names -/

section Names

variable {lines lines' : List HeaderLine} {l l' : HeaderLine}

/-- A line is known by its name. -/
theorem DistinctNames.unique (h : DistinctNames lines) (hl : l ∈ lines) (hl' : l' ∈ lines)
    (hname : SameWord l.name l'.name) : l = l' :=
  List.inj_on_of_nodup_map h hl hl' hname

/-- Whether names are distinct does not depend on their order. -/
theorem DistinctNames.perm (h : DistinctNames lines) (hperm : lines.Perm lines') :
    DistinctNames lines' :=
  (hperm.map _).nodup_iff.mp h

end Names

end CppSocks.Interface
