import CppSocks.Analysis.RequestLine
import CppSocks.Interface.HeaderLine

/-!
# The header fields of a request

`parseHeaders` reads lines that end with a line feed and looks for a colon and a space
in each. The carriage return in front of the line feed stays part of a value, and a
line without a colon and a space ends the loop, so that no value is recovered: the
fields are those of the header lines only if there are none
(`headers_recovered_iff`).
-/

set_option autoImplicit false

namespace CppSocks.Analysis

open CppSocks.Model CppSocks.Interface Foundation

/-! ## Lines -/

section Lines

variable {line rest : Bytes}

/-- The first line that `std::getline` delivers. -/
theorem getlines_line (h : 0x0A ∉ line) (rest : Bytes) :
    getlines (line ++ 0x0A :: rest) = line :: getlines rest := by
  induction line with
  | nil => rw [List.nil_append, getlines, if_pos rfl]
  | cons b line ih =>
    have hb : b ≠ 0x0A := fun heq => h (heq ▸ List.mem_cons_self)
    rw [List.cons_append, getlines, if_neg hb, ih fun hmem => h (List.mem_cons_of_mem b hmem)]

/-- What is no text does not occur in text. -/
theorem notMem_of_isText {b : Byte} (hb : ¬ isText b) (h : ∀ b ∈ line, isText b) : b ∉ line :=
  fun hmem => hb (h b hmem)

/-- A line of text is read with the carriage return behind it. -/
theorem getlines_text (h : ∀ b ∈ line, isText b) (rest : Bytes) :
    getlines (line ++ CRLF ++ rest) = (line ++ [0x0D]) :: getlines rest := by
  have hline : (0x0A : Byte) ∉ line ++ [0x0D] := by
    rw [List.mem_append, not_or]
    exact ⟨notMem_of_isText (by decide) h, by decide⟩
  have hsplit : line ++ CRLF ++ rest = (line ++ [0x0D]) ++ 0x0A :: rest := by
    simp only [CRLF, List.append_assoc, List.cons_append, List.nil_append]
  rw [hsplit, getlines_line hline]

/-- The lines behind the first one. -/
theorem getlines_headers (lines : List HeaderLine) :
    getlines (lines.flatMap (fun l => l.text ++ CRLF) ++ CRLF) =
      lines.map (fun l => l.text ++ [0x0D]) ++ [[0x0D]] := by
  induction lines with
  | nil => rfl
  | cons l lines ih =>
    rw [List.flatMap_cons, List.append_assoc, getlines_text l.text_isText, ih, List.map_cons,
      List.cons_append]

/-- What the loop of `parseHeaders` is given. -/
theorem parseHeaders_requestText (line : RequestLine) (lines : List HeaderLine)
    (headers : HeadersMap) :
    parseHeaders (requestText line lines) headers =
      headerLoop (lines.map (fun l => l.text ++ [0x0D]) ++ [[0x0D]]) headers := by
  rw [parseHeaders, requestText, List.append_assoc, getlines_text line.property, List.tail_cons,
    getlines_headers]

end Lines

/-! ## The loop -/

section Loop

variable {needle s key value : Bytes} {headers : HeadersMap} {pos : ℕ}

/-- `find` returns a place where the string is. -/
theorem findSub_spec (h : findSub needle s = some pos) :
    ∃ pre post, s = pre ++ needle ++ post ∧ pre.length = pos := by
  induction s generalizing pos with
  | nil =>
    rw [findSub] at h
    split at h
    · next heq =>
      exact ⟨[], [], by rw [heq]; rfl, Option.some.inj h⟩
    · cases h
  | cons b s ih =>
    rw [findSub] at h
    split at h
    · next hfront =>
      obtain ⟨post, hpost⟩ := List.isPrefixOf_iff_prefix.mp hfront
      exact ⟨[], post, by rw [List.nil_append, hpost], Option.some.inj h⟩
    · obtain ⟨pos', hpos', rfl⟩ := Option.map_eq_some_iff.mp h
      obtain ⟨pre, post, rfl, hlen⟩ := ih hpos'
      exact ⟨b :: pre, post, rfl, by rw [List.length_cons, hlen]⟩

/-- `find` finds the first place. -/
theorem findSub_first {c : Byte} {pre : Bytes} (h : c ∉ pre) (rest post : Bytes) :
    findSub (c :: rest) (pre ++ (c :: rest ++ post)) = some pre.length := by
  induction pre with
  | nil =>
    have hfront : (c :: rest).isPrefixOf (c :: (rest ++ post)) = true :=
      List.isPrefixOf_iff_prefix.mpr (List.prefix_append (c :: rest) post)
    rw [List.nil_append, List.cons_append, findSub, if_pos hfront]
    rfl
  | cons b pre ih =>
    have hb : ¬ ((c :: rest).isPrefixOf (b :: (pre ++ (c :: rest ++ post))) = true) := by
      rw [List.isPrefixOf_iff_prefix, List.cons_prefix_cons]
      rintro ⟨rfl, -⟩
      exact h List.mem_cons_self
    rw [List.cons_append, findSub, if_neg hb, ih fun hmem => h (List.mem_cons_of_mem b hmem)]
    rfl

/-- `std::string::find` finds what is in the string. -/
theorem findSub_isSome_iff : (findSub needle s).isSome ↔ needle <:+: s := by
  induction s with
  | nil =>
    rw [findSub, List.infix_nil]
    split
    · next hnil => exact iff_of_true rfl hnil
    · next hne => exact iff_of_false Bool.false_ne_true hne
  | cons b s ih =>
    rw [findSub, List.infix_cons_iff, ← List.isPrefixOf_iff_prefix]
    split
    · next hfront => exact iff_of_true rfl (Or.inl hfront)
    · next hfront =>
      rw [Option.isSome_map, ih]
      exact ⟨Or.inr, fun h => h.resolve_left hfront⟩

/-- The names and values that the loop reads. -/
def pairsOf : List Bytes → HeadersMap
  | [] => []
  | line :: rest =>
    match findSub (ascii ": ") line with
    | none => []
    | some pos => (line.take pos, line.drop (pos + 2)) :: pairsOf rest

/-- A field that has been set stays. -/
theorem lookup_emplace (headers : HeadersMap) (key' value' : Bytes) :
    (headers.emplace key' value').lookup key =
      (headers.lookup key).or (List.lookup key [(key', value')]) := by
  rw [HeadersMap.emplace]
  split
  · next hset =>
    rw [List.lookup_cons, List.lookup_nil]
    split
    · next heq =>
      rw [eq_of_beq heq]
      obtain ⟨value, hvalue⟩ := Option.isSome_iff_exists.mp hset
      rw [hvalue, Option.some_or]
    · rw [Option.or_none]
  · rw [List.lookup_append]

/-- A field has the value that was there before, and otherwise that of its first line. -/
theorem lookup_headerLoop (key : Bytes) (lines : List Bytes) (headers : HeadersMap) :
    (headerLoop lines headers).lookup key =
      (headers.lookup key).or ((pairsOf lines).lookup key) := by
  induction lines generalizing headers with
  | nil => rw [headerLoop, pairsOf, List.lookup_nil, Option.or_none]
  | cons line lines ih =>
    rw [headerLoop, pairsOf]
    cases findSub (ascii ": ") line with
    | none => exact (Option.or_none ..).symm
    | some pos =>
      dsimp only
      rw [ih, lookup_emplace, Option.or_assoc, ← List.lookup_append, List.singleton_append]

/-- The value of a line that ends with a carriage return ends with it. -/
theorem mem_value {text : Bytes} (h : findSub (ascii ": ") (text ++ [0x0D]) = some pos) :
    (0x0D : Byte) ∈ (text ++ [0x0D]).drop (pos + 2) := by
  obtain ⟨pre, post, hsplit, rfl⟩ := findSub_spec h
  have hdrop : (text ++ [0x0D]).drop (pre.length + 2) = post := by
    rw [hsplit]
    exact List.drop_left' (by rw [List.length_append]; rfl)
  rw [hdrop]
  obtain rfl | ⟨init, last, rfl⟩ := List.eq_nil_or_concat post
  · have hlast : text ++ [0x0D] = (pre ++ [0x3A]) ++ [0x20] := by
      rw [hsplit, List.append_nil, List.append_assoc]
      rfl
    exact absurd (List.append_inj' hlast rfl).2 (by decide)
  · rw [List.concat_eq_append, ← List.append_assoc] at hsplit
    rw [List.concat_eq_append, (List.cons.inj (List.append_inj' hsplit rfl).2).1]
    exact List.mem_append_right _ List.mem_cons_self

end Loop

/-! ## Requests without header lines -/

section Bare

variable {line : RequestLine}

/-- A request without header lines is its first line with two ends. -/
theorem requestText_nil (line : RequestLine) :
    requestText line [] = line.val ++ 0x0D :: [0x0A, 0x0D, 0x0A] := by
  rw [requestText, List.flatMap_nil, List.append_nil, List.append_assoc]
  rfl

/-- Whether it begins with the method is decided by the first line. -/
theorem prefix_requestText_nil :
    ascii "GET" <+: requestText line [] ↔ ascii "GET" <+: line.val := by
  rw [requestText_nil]
  constructor
  · exact prefix_of_prefix_split (by decide)
  · intro h
    exact h.trans (List.prefix_append _ _)

/-- All its spaces are in the first line. -/
theorem count_requestText_nil : (requestText line []).count 0x20 = line.val.count 0x20 := by
  rw [requestText_nil, List.count_append]
  rfl

/-- The path of a request without header lines is that of its request line. -/
theorem pathFits_requestText_nil (htwo : 2 ≤ line.val.count 0x20) :
    PathFits (requestText line []) ↔ PathFits line.val := by
  obtain ⟨pre, target, post, h⟩ := exists_spaced htwo
  have hrequest : Spaced (requestText line []) pre target (post ++ 0x0D :: [0x0A, 0x0D, 0x0A]) := by
    refine ⟨?_, h.notMem_pre, h.notMem_target⟩
    rw [requestText_nil, h.eq]
    simp only [List.append_assoc, List.cons_append]
  rw [hrequest.pathFits_iff, h.pathFits_iff]

/-- Which request lines are accepted. -/
theorem parse_requestText_nil_iff :
    (RequestInfo.parse (requestText line []) (requestText line []).length RequestInfo.init).1 =
        .ret () ↔
      ascii "GET" <+: line.val ∧ 2 ≤ line.val.count 0x20 ∧ PathFits line.val := by
  rw [parse_returns_iff (le_refl _), prefix_requestText_nil, count_requestText_nil]
  refine and_congr_right fun _ => and_congr_right fun htwo => ?_
  exact pathFits_requestText_nil htwo

end Bare

/-! ## Recovery -/

/-- `parse` returns, and each name has the value of its first line: the keys are the names of the
lines, and no others. -/
structure RecoversHeaders (line : RequestLine) (lines : List HeaderLine) : Prop where
  returns : (RequestInfo.parse (requestText line lines) (requestText line lines).length
    RequestInfo.init).1 = .ret ()
  fields : ∀ name, (RequestInfo.parse (requestText line lines) (requestText line lines).length
    RequestInfo.init).2.headers.lookup name = HeaderLine.fieldOf lines name

section Recovery

variable {request : Bytes} {len : ℕ} {info : RequestInfo} {line : RequestLine}

/-- A request that is accepted has its header lines read. -/
theorem parse_headers (h : (RequestInfo.parse request len info).1 = .ret ()) :
    (RequestInfo.parse request len info).2.headers = parseHeaders request info.headers := by
  obtain ⟨pre, target, post, hcopies⟩ | ⟨e, type, hrejected⟩ := parse_cases request len
  · rw [infoParse_copies hcopies] at h ⊢
    split at h
    · cases h
    · next hfit => rw [if_neg hfit, parsed]
  · rw [hrejected.info] at h
    cases h

/-- A name that a line has is found. -/
theorem fieldOf_cons_ne_none (l : HeaderLine) (lines : List HeaderLine) :
    HeaderLine.fieldOf (l :: lines) l.name ≠ none := by
  rw [HeaderLine.fieldOf, List.find?_cons_of_pos (by rw [beq_self_eq_true])]
  exact Option.some_ne_none _

/-- A value contains no carriage return. -/
theorem notMem_fieldOf {lines : List HeaderLine} {name value : Bytes}
    (h : HeaderLine.fieldOf lines name = some value) : (0x0D : Byte) ∉ value := by
  obtain ⟨l, -, rfl⟩ := Option.map_eq_some_iff.mp h
  intro hmem
  exact notMem_of_isText (by decide) l.value_text (l.fieldValue_subset hmem)

/-- The first header line is not recovered. -/
theorem headerLoop_not_recovers (l : HeaderLine) (lines : List HeaderLine) :
    ¬ ∀ name, (headerLoop ((l :: lines).map (fun l => l.text ++ [0x0D]) ++ [[0x0D]]) []).lookup
      name = HeaderLine.fieldOf (l :: lines) name := by
  intro hfields
  rw [List.map_cons, List.cons_append, headerLoop] at hfields
  split at hfields
  · -- no colon is followed by a space: nothing is read
    exact fieldOf_cons_ne_none l lines (hfields l.name).symm
  · -- the value has a carriage return at its end
    next pos hpos =>
    have hfirst := lookup_headerLoop ((l.text ++ [0x0D]).take pos)
      (lines.map (fun l => l.text ++ [0x0D]) ++ [[0x0D]])
      (HeadersMap.emplace [] ((l.text ++ [0x0D]).take pos) ((l.text ++ [0x0D]).drop (pos + 2)))
    rw [lookup_emplace, List.lookup_nil, Option.none_or, List.lookup_cons_self, Option.some_or]
      at hfirst
    rw [hfields] at hfirst
    exact notMem_fieldOf hfirst (mem_value hpos)

end Recovery

/-- The header fields are recovered if and only if there are none, and the request line is accepted. -/
theorem headers_recovered_iff (line : RequestLine) (lines : List HeaderLine) :
    RecoversHeaders line lines ↔
      lines = [] ∧ ascii "GET" <+: line.val ∧ 2 ≤ line.val.count 0x20 ∧ PathFits line.val := by
  constructor
  · rintro ⟨hreturns, hfields⟩
    rw [parse_headers hreturns, parseHeaders_requestText] at hfields
    cases lines with
    | nil => exact ⟨rfl, parse_requestText_nil_iff.mp hreturns⟩
    | cons l lines => exact absurd hfields (headerLoop_not_recovers l lines)
  · rintro ⟨rfl, haccepted⟩
    have hreturns := parse_requestText_nil_iff.mpr haccepted
    refine ⟨hreturns, fun name => ?_⟩
    rw [parse_headers hreturns, parseHeaders_requestText]
    rfl

/-- `Host: a` -/
def hostLine : HeaderLine where
  name := ascii "Host"
  before := ascii " "
  value := ascii "a"
  after := []
  name_ne_nil := by decide +kernel
  name_tchar := by decide +kernel
  before_ows := by decide +kernel
  value_text := by decide +kernel
  after_ows := by decide +kernel

/-- The value of `Host: a` keeps its carriage return. -/
theorem hostLine_not_recovered :
    requestText ⟨ascii "GET / HTTP/1.1", by decide +kernel⟩ [hostLine] =
        ascii "GET / HTTP/1.1\r\nHost: a\r\n\r\n" ∧
      ¬ RecoversHeaders ⟨ascii "GET / HTTP/1.1", by decide +kernel⟩ [hostLine] := by
  refine ⟨by decide +kernel, fun h => ?_⟩
  exact absurd (h.fields (ascii "Host")) (by decide +kernel)

end CppSocks.Analysis
