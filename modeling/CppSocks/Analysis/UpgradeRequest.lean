import CppSocks.Analysis.RequestHeaders
import CppSocks.Interface.Upgrade

/-!
# Which requests are upgraded

`isWsRequest` looks for three field names letter for letter, and for words anywhere in
two of the values. A request that asks for a WebSocket in another spelling is not
upgraded, and one whose values contain the words as parts of others is
(`upgrade_recognised_iff`). The order of the lines does not matter
(`requestType_perm`).
-/

set_option autoImplicit false

namespace CppSocks.Analysis

open CppSocks.Model CppSocks.Interface Foundation

/-! ## The fields of a request -/

section Fields

variable {lines : List HeaderLine} {l : HeaderLine} {name needle value : Bytes}

/-- A plain header line is its name, a colon, one space and its value. -/
theorem text_plain (hplain : l.Plain) : l.text = l.name ++ ascii ": " ++ l.value := by
  rw [HeaderLine.text, hplain.1, hplain.2, List.append_nil, List.append_assoc]
  rfl

/-- A colon is no token character, so a name has none. -/
theorem colon_notMem_name (l : HeaderLine) : (0x3A : Byte) ∉ l.name :=
  fun hmem => absurd (l.name_tchar _ hmem) (by decide)

/-- The name of a line ends at its first colon. -/
theorem findSub_text (hplain : l.Plain) :
    findSub (ascii ": ") (l.text ++ [0x0D]) = some l.name.length := by
  rw [text_plain hplain, List.append_assoc, List.append_assoc]
  exact findSub_first (colon_notMem_name l) [0x20] _

/-- What the loop reads of the lines: their names, and their values with a carriage return. -/
theorem pairsOf_lines (hplain : ∀ l ∈ lines, l.Plain) :
    pairsOf (lines.map (fun l => l.text ++ [0x0D]) ++ [[0x0D]]) =
      lines.map fun l => (l.name, l.value ++ [0x0D]) := by
  induction lines with
  | nil => rfl
  | cons l lines ih =>
    have hl := hplain l List.mem_cons_self
    have htake : (l.text ++ [0x0D]).take l.name.length = l.name := by
      rw [text_plain hl, List.append_assoc, List.append_assoc]
      exact List.take_left
    have hdrop : (l.text ++ [0x0D]).drop (l.name.length + 2) = l.value ++ [0x0D] := by
      rw [text_plain hl, List.append_assoc]
      exact List.drop_left' (by rw [List.length_append]; rfl)
    rw [List.map_cons, List.cons_append, pairsOf, findSub_text hl, List.map_cons]
    dsimp only
    rw [htake, hdrop, ih fun l hmem => hplain l (List.mem_cons_of_mem _ hmem)]

/-- The fields of a request. -/
theorem lookup_requestText (line : RequestLine) (hplain : ∀ l ∈ lines, l.Plain) (name : Bytes) :
    (parseHeaders (requestText line lines) []).lookup name =
      (lines.map fun l => (l.name, l.value ++ [0x0D])).lookup name := by
  rw [parseHeaders_requestText, lookup_headerLoop, pairsOf_lines hplain, List.lookup_nil,
    Option.none_or]

/-- The field of a line whose name no other line has. -/
theorem lookup_lines_iff (hdistinct : DistinctNames lines) :
    (lines.map fun l => (l.name, l.value ++ [0x0D])).lookup name = some value ↔
      ∃ l ∈ lines, l.name = name ∧ l.value ++ [0x0D] = value := by
  have hfind : (lines.map fun l => (l.name, l.value ++ [0x0D])).lookup name =
      (lines.find? fun l => name == l.name).map fun l => l.value ++ [0x0D] := by
    induction lines with
    | nil => rfl
    | cons l lines ih =>
      rw [List.map_cons, List.lookup_cons, List.find?_cons, ih (List.nodup_cons.mp hdistinct).2]
      cases name == l.name <;> rfl
  rw [hfind, Option.map_eq_some_iff]
  constructor
  · rintro ⟨l, hl, hvalue⟩
    have hname := List.find?_some hl
    exact ⟨l, List.mem_of_find?_eq_some hl, (eq_of_beq hname).symm, hvalue⟩
  · rintro ⟨l, hl, rfl, hvalue⟩
    have hsome : (lines.find? fun l' => l.name == l'.name).isSome :=
      List.find?_isSome.mpr ⟨l, hl, beq_self_eq_true _⟩
    obtain ⟨l', hl'⟩ := Option.isSome_iff_exists.mp hsome
    have hname : (l.name == l'.name) = true :=
      List.find?_some (p := fun l' : HeaderLine => l.name == l'.name) hl'
    obtain rfl : l = l' :=
      hdistinct.unique hl (List.mem_of_find?_eq_some hl') (congrArg lowered (eq_of_beq hname))
    exact ⟨l, hl', hvalue⟩

/-- The carriage return behind a value does not matter. -/
theorem infix_value_iff (h : (0x0D : Byte) ∉ needle) :
    needle <:+: value ++ [0x0D] ↔ needle <:+: value := by
  rw [List.infix_concat_iff, List.suffix_concat_iff]
  constructor
  · rintro ((rfl | ⟨t, rfl, -⟩) | hin)
    · exact List.nil_infix
    · exact absurd (List.mem_append_right t List.mem_cons_self) h
    · exact hin
  · exact Or.inr

end Fields

/-! ## The test of the code -/

/-- The fields as the code looks for them: the names letter for letter, the words anywhere in the
values. -/
structure Spelled (lines : List HeaderLine) : Prop where
  upgrade : ∃ l ∈ lines, l.name = ascii "Upgrade" ∧ ascii "websocket" <:+: l.value
  connection : ∃ l ∈ lines, l.name = ascii "Connection" ∧
    (ascii "Upgrade" <:+: l.value ∨ ascii "upgrade" <:+: l.value)
  key : ∃ l ∈ lines, l.name = ascii "Sec-WebSocket-Key"

section Test

variable {lines lines' : List HeaderLine} {name needle : Bytes}

/-- The spelling of the header lines does not depend on their order. -/
theorem Spelled.perm (h : Spelled lines) (hperm : lines.Perm lines') : Spelled lines' := by
  obtain ⟨⟨u, hu, hupgrade⟩, ⟨c, hc, hconnection⟩, ⟨k, hk, hkey⟩⟩ := h
  exact ⟨⟨u, hperm.subset hu, hupgrade⟩, ⟨c, hperm.subset hc, hconnection⟩,
    ⟨k, hperm.subset hk, hkey⟩⟩

/-- On the parsed request, a field with a value is a header line of that very name whose value
contains the word. -/
theorem hasHeaderFieldValue_iff (line : RequestLine) (hplain : ∀ l ∈ lines, l.Plain)
    (hdistinct : DistinctNames lines) (h : (0x0D : Byte) ∉ needle) :
    hasHeaderFieldValue (parseHeaders (requestText line lines) []) name needle ↔
      ∃ l ∈ lines, l.name = name ∧ needle <:+: l.value := by
  have hlookup : ∀ value, (lines.map fun l => (l.name, l.value ++ [0x0D])).lookup name = some value ↔
      ∃ l ∈ lines, l.name = name ∧ l.value ++ [0x0D] = value := fun _ => lookup_lines_iff hdistinct
  rw [hasHeaderFieldValue, lookup_requestText line hplain]
  cases hval : (lines.map fun l => (l.name, l.value ++ [0x0D])).lookup name with
  | none =>
    refine iff_of_false Bool.false_ne_true ?_
    rintro ⟨l, hl, hname, -⟩
    exact absurd (hval.symm.trans ((hlookup _).mpr ⟨l, hl, hname, rfl⟩)) (Option.some_ne_none _).symm
  | some value =>
    obtain ⟨l, hl, rfl, rfl⟩ := (hlookup value).mp hval
    dsimp only
    rw [findSub_isSome_iff, infix_value_iff h]
    constructor
    · intro hin
      exact ⟨l, hl, rfl, hin⟩
    · rintro ⟨l', hl', hname, hin⟩
      rw [hdistinct.unique hl hl' (congrArg lowered hname.symm)]
      exact hin

/-- On the parsed request, a field is a header line of that very name. -/
theorem hasHeaderField_iff (line : RequestLine) (hplain : ∀ l ∈ lines, l.Plain)
    (hdistinct : DistinctNames lines) :
    hasHeaderField (parseHeaders (requestText line lines) []) name ↔
      ∃ l ∈ lines, l.name = name := by
  rw [hasHeaderField, lookup_requestText line hplain, Option.isSome_iff_exists]
  simp only [lookup_lines_iff hdistinct]
  constructor
  · rintro ⟨value, l, hl, hname, -⟩
    exact ⟨l, hl, hname⟩
  · rintro ⟨l, hl, hname⟩
    exact ⟨_, l, hl, hname, rfl⟩

/-- What `isWsRequest` says about the fields of a request. -/
theorem isWsRequest_iff (line : RequestLine) (hplain : ∀ l ∈ lines, l.Plain)
    (hdistinct : DistinctNames lines) :
    isWsRequest (parseHeaders (requestText line lines) []) ↔ Spelled lines := by
  rw [isWsRequest, Bool.and_eq_true, Bool.and_eq_true, Bool.or_eq_true,
    hasHeaderFieldValue_iff line hplain hdistinct (by decide),
    hasHeaderFieldValue_iff line hplain hdistinct (by decide),
    hasHeaderFieldValue_iff line hplain hdistinct (by decide),
    hasHeaderField_iff line hplain hdistinct]
  constructor
  · rintro ⟨⟨hupgrade, ⟨l, hl, hname, hin⟩ | ⟨l, hl, hname, hin⟩⟩, hkey⟩
    · exact ⟨hupgrade, ⟨l, hl, hname, Or.inl hin⟩, hkey⟩
    · exact ⟨hupgrade, ⟨l, hl, hname, Or.inr hin⟩, hkey⟩
  · rintro ⟨hupgrade, ⟨l, hl, hname, hin | hin⟩, hkey⟩
    · exact ⟨⟨hupgrade, Or.inl ⟨l, hl, hname, hin⟩⟩, hkey⟩
    · exact ⟨⟨hupgrade, Or.inr ⟨l, hl, hname, hin⟩⟩, hkey⟩

end Test

/-! ## Recognition -/

/-- `parse` returns, and the request is upgraded if and only if its header lines ask for it. -/
structure Recognises (line : RequestLine) (lines : List HeaderLine) : Prop where
  returns : (RequestInfo.parse (requestText line lines) (requestText line lines).length
    RequestInfo.init).1 = .ret ()
  upgraded : (RequestInfo.parse (requestText line lines) (requestText line lines).length
    RequestInfo.init).2.requestType = .getWs ↔ IsUpgrade lines

/-- The lines that ask for a WebSocket spell it as the code does: the names letter for letter, the
token `websocket` in lower case, the token `upgrade` in lower case or with a capital. -/
structure OwnSpelling (lines : List HeaderLine) : Prop where
  upgrade : ∀ l ∈ lines, SameWord l.name (ascii "Upgrade") →
    l.name = ascii "Upgrade" ∧ ascii "websocket" <:+: l.value
  connection : ∀ l ∈ lines, SameWord l.name (ascii "Connection") →
    l.name = ascii "Connection" ∧ (ascii "Upgrade" <:+: l.value ∨ ascii "upgrade" <:+: l.value)
  key : ∀ l ∈ lines, SameWord l.name (ascii "Sec-WebSocket-Key") →
    l.name = ascii "Sec-WebSocket-Key"

/-- The words that the code finds in the two values are elements of these, not parts of others. -/
structure WholeWords (lines : List HeaderLine) : Prop where
  upgrade : ∀ l ∈ lines, l.name = ascii "Upgrade" → HasToken (ascii "websocket") l.value
  connection : ∀ l ∈ lines, l.name = ascii "Connection" → HasToken (ascii "upgrade") l.value

section Recognition

variable {lines lines' : List HeaderLine} {line : RequestLine} {name target version request : Bytes}
  {P Q : Bytes → Prop}

/-- The one line with a name has it letter for letter. -/
theorem spelled_iff (hdistinct : DistinctNames lines)
    (h : ∃ l ∈ lines, SameWord l.name name) :
    (∀ l ∈ lines, SameWord l.name name → l.name = name ∧ P l.value) ↔
      ∃ l ∈ lines, l.name = name ∧ P l.value := by
  constructor
  · intro hall
    obtain ⟨l, hl, hname⟩ := h
    exact ⟨l, hl, hall l hl hname⟩
  · rintro ⟨l, hl, rfl, hvalue⟩ l' hl' hname
    rw [hdistinct.unique hl' hl hname]
    exact ⟨rfl, hvalue⟩

/-- The one line with a name has a value of the kind asked for. -/
theorem named_iff (hdistinct : DistinctNames lines) (h : ∃ l ∈ lines, l.name = name) :
    (∀ l ∈ lines, l.name = name → Q l.value) ↔ ∃ l ∈ lines, SameWord l.name name ∧ Q l.value := by
  obtain ⟨l, hl, rfl⟩ := h
  constructor
  · intro hall
    exact ⟨l, hl, rfl, hall l hl rfl⟩
  · rintro ⟨l', hl', hname, hvalue⟩ l'' hl'' hname''
    rw [hdistinct.unique hl'' hl' ((congrArg lowered hname'').trans hname.symm)]
    exact hvalue

/-- An upgrade request is upgraded if its lines are spelled as the code spells them. -/
theorem ownSpelling_iff (h : IsUpgrade lines) (hdistinct : DistinctNames lines) :
    OwnSpelling lines ↔ Spelled lines := by
  obtain ⟨⟨u, hu, huname, -⟩, ⟨c, hc, hcname, -⟩, ⟨k, hk, hkname⟩⟩ := h
  have hupgrade := spelled_iff (P := (ascii "websocket" <:+: ·)) hdistinct ⟨u, hu, huname⟩
  have hconnection := spelled_iff
    (P := fun value => ascii "Upgrade" <:+: value ∨ ascii "upgrade" <:+: value) hdistinct
    ⟨c, hc, hcname⟩
  have hkey := spelled_iff (P := fun _ => True) hdistinct ⟨k, hk, hkname⟩
  simp only [and_true] at hkey
  constructor
  · rintro ⟨hu, hc, hk⟩
    exact ⟨hupgrade.mp hu, hconnection.mp hc, hkey.mp hk⟩
  · rintro ⟨hu, hc, hk⟩
    exact ⟨hupgrade.mpr hu, hconnection.mpr hc, hkey.mpr hk⟩

/-- A request that is upgraded asks for it if the words are whole ones. -/
theorem wholeWords_iff (h : Spelled lines) (hdistinct : DistinctNames lines) :
    WholeWords lines ↔ IsUpgrade lines := by
  obtain ⟨⟨u, hu, huname, -⟩, ⟨c, hc, hcname, -⟩, ⟨k, hk, hkname⟩⟩ := h
  have hupgrade := named_iff (Q := HasToken (ascii "websocket")) hdistinct ⟨u, hu, huname⟩
  have hconnection := named_iff (Q := HasToken (ascii "upgrade")) hdistinct ⟨c, hc, hcname⟩
  constructor
  · rintro ⟨hu, hc⟩
    exact ⟨hupgrade.mp hu, hconnection.mp hc, ⟨k, hk, congrArg lowered hkname⟩⟩
  · rintro ⟨hu, hc, -⟩
    exact ⟨hupgrade.mpr hu, hconnection.mpr hc⟩

/-- How `parse` ends on a request with a complete request line. -/
theorem parse_requestText (h : GetLine line.val target version) (lines : List HeaderLine) :
    RequestInfo.parse (requestText line lines) (requestText line lines).length RequestInfo.init =
      if MAX_PATH_LEN < (pathOf target).length + 1 then
        (.ub, { RequestInfo.init with requestType := .get })
      else (.ret (), parsed (requestText line lines) (pathOf target) RequestInfo.init) := by
  have hfront : line.val <+: requestText line lines := by
    rw [requestText, List.append_assoc, List.append_assoc]
    exact List.prefix_append _ _
  obtain ⟨post, hcopies⟩ := h.copies hfront (le_refl _)
  exact infoParse_copies hcopies

/-- The parser takes a GET request for an upgrade exactly when its header lines have the parser's
own spelling. -/
theorem parsed_getWs_iff (line : RequestLine) (copied : Bytes) (hplain : ∀ l ∈ lines, l.Plain)
    (hdistinct : DistinctNames lines) :
    (parsed (requestText line lines) copied RequestInfo.init).requestType = .getWs ↔
      Spelled lines := by
  rw [← isWsRequest_iff line hplain hdistinct, parsed]
  change (if isWsRequest (parseHeaders (requestText line lines) []) then _ else _) = _ ↔ _
  cases isWsRequest (parseHeaders (requestText line lines) []) <;> simp

/-- The order of the header lines does not matter. -/
theorem requestType_perm (h : GetLine line.val target version)
    (hfit : (pathOf target).length < MAX_PATH_LEN) (hplain : ∀ l ∈ lines, l.Plain)
    (hdistinct : DistinctNames lines) (hperm : lines.Perm lines') :
    (RequestInfo.parse (requestText line lines') (requestText line lines').length
        RequestInfo.init).2.requestType = .getWs ↔
      (RequestInfo.parse (requestText line lines) (requestText line lines).length
        RequestInfo.init).2.requestType = .getWs := by
  have hplain' : ∀ l ∈ lines', l.Plain := fun l hl => hplain l (hperm.symm.subset hl)
  rw [parse_requestText h, parse_requestText h, if_neg (by omega), if_neg (by omega),
    parsed_getWs_iff line _ hplain' (hdistinct.perm hperm), parsed_getWs_iff line _ hplain hdistinct]
  constructor
  · exact fun hspelled => hspelled.perm hperm.symm
  · exact fun hspelled => hspelled.perm hperm

end Recognition

/-- A request with a complete request line is recognised if and only if its path fits, and its header
lines, if they ask for a WebSocket, spell it as the code does and, if the code finds its words in
them, have these as whole words. -/
theorem upgrade_recognised_iff (line : RequestLine) (lines : List HeaderLine)
    {target version : Bytes} (h : GetLine line.val target version)
    (hplain : ∀ l ∈ lines, l.Plain) (hdistinct : DistinctNames lines) :
    Recognises line lines ↔
      (pathOf target).length < MAX_PATH_LEN ∧ (IsUpgrade lines → OwnSpelling lines) ∧
        (Spelled lines → WholeWords lines) := by
  have hparse := parse_requestText h lines
  have hspelled : (IsUpgrade lines → OwnSpelling lines) ∧ (Spelled lines → WholeWords lines) ↔
      (Spelled lines ↔ IsUpgrade lines) := by
    refine and_comm.trans (Iff.trans ?_ iff_def.symm)
    exact and_congr (imp_congr_right fun hcode => wholeWords_iff hcode hdistinct)
      (imp_congr_right fun hasks => ownSpelling_iff hasks hdistinct)
  rw [hspelled]
  by_cases hlong : MAX_PATH_LEN < (pathOf target).length + 1
  · rw [if_pos hlong] at hparse
    refine iff_of_false (fun hrec => ?_) fun hcond => ?_
    · have hreturns := hrec.returns
      rw [hparse] at hreturns
      cases hreturns
    · omega
  · rw [if_neg hlong] at hparse
    have hgetWs := parsed_getWs_iff line (pathOf target) hplain hdistinct
    constructor
    · rintro ⟨-, hupgraded⟩
      rw [hparse, hgetWs] at hupgraded
      exact ⟨by omega, hupgraded⟩
    · rintro ⟨-, hupgraded⟩
      refine ⟨by rw [hparse], ?_⟩
      rw [hparse, hgetWs]
      exact hupgraded

/-- A line of the form `name: value`. -/
def plainLine (name value : Bytes)
    (h : name ≠ [] ∧ (∀ b ∈ name, isTchar b) ∧ ∀ b ∈ value, isText b) : HeaderLine where
  name := name
  before := [0x20]
  value := value
  after := []
  name_ne_nil := h.1
  name_tchar := h.2.1
  before_ows := isOws_space
  value_text := h.2.2
  after_ows := isOws_nil

/-- The sample request line consists of text. -/
theorem indexLine_text : ∀ b ∈ ascii "GET / HTTP/1.1", isText b := by decide +kernel

/-- `GET / HTTP/1.1` -/
def indexLine : RequestLine := ⟨ascii "GET / HTTP/1.1", indexLine_text⟩

/-- The sample request line is a GET line for the root. -/
theorem getLine_indexLine : GetLine indexLine.val (ascii "/") (ascii "HTTP/1.1") :=
  ⟨by decide +kernel, by decide +kernel, by decide +kernel⟩

/-- Three lines as they are usually spelled. -/
def usualLines : List HeaderLine :=
  [plainLine (ascii "Upgrade") (ascii "websocket") (by decide +kernel),
    plainLine (ascii "Connection") (ascii "keep-alive, Upgrade") (by decide +kernel),
    plainLine (ascii "Sec-WebSocket-Key") (ascii "dGhlIHNhbXBsZSBub25jZQ==") (by decide +kernel)]

/-- The usual upgrade request on the root. -/
theorem upgrade_recognised_iff_usual :
    Recognises indexLine usualLines ↔
      (pathOf (ascii "/")).length < MAX_PATH_LEN ∧ (IsUpgrade usualLines → OwnSpelling usualLines) ∧
        (Spelled usualLines → WholeWords usualLines) :=
  upgrade_recognised_iff indexLine usualLines getLine_indexLine
    (by unfold HeaderLine.Plain; decide +kernel) (by unfold DistinctNames; decide +kernel)

/-- The same lines with names in lower case, as some proxies send them. -/
def lowerCaseLines : List HeaderLine :=
  [plainLine (ascii "upgrade") (ascii "websocket") (by decide +kernel),
    plainLine (ascii "connection") (ascii "keep-alive, Upgrade") (by decide +kernel),
    plainLine (ascii "sec-websocket-key") (ascii "dGhlIHNhbXBsZSBub25jZQ==") (by decide +kernel)]

/-- A request that asks for other protocols. -/
def otherLines : List HeaderLine :=
  [plainLine (ascii "Upgrade") (ascii "websockets") (by decide +kernel),
    plainLine (ascii "Connection") (ascii "no-upgrade") (by decide +kernel),
    plainLine (ascii "Sec-WebSocket-Key") (ascii "dGhlIHNhbXBsZSBub25jZQ==") (by decide +kernel)]

/-- Field names in lower case are not recognised, and words that contain `websocket` and `upgrade` are
taken for these. -/
theorem lowerCase_not_recognised :
    (IsUpgrade lowerCaseLines ∧ ¬ Recognises indexLine lowerCaseLines) ∧
      ¬ IsUpgrade otherLines ∧ ¬ Recognises indexLine otherLines := by
  have hlower : IsUpgrade lowerCaseLines :=
    ⟨by decide +kernel, by decide +kernel, by decide +kernel⟩
  have hother : ¬ IsUpgrade otherLines := fun h => absurd h.upgrade (by decide +kernel)
  refine ⟨⟨hlower, fun h => ?_⟩, hother, fun h => ?_⟩
  · exact absurd (h.upgraded.mpr hlower) (by decide +kernel)
  · exact hother (h.upgraded.mp (by decide +kernel))

end CppSocks.Analysis
