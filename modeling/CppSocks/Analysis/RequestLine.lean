import CppSocks.Analysis.RequestPath

/-!
# Which request lines are accepted

`RequestInfo::parse` compares three letters and looks for two spaces, in the whole
request and not in its first line. It accepts exactly the well-formed request lines,
as long as a request that begins with `GET` and holds two spaces somewhere has a
well-formed first line (`request_line_accepted_iff`).
-/

set_option autoImplicit false

namespace CppSocks.Analysis

open CppSocks.Model Foundation

/-! ## Request lines -/

/-- The request up to the first `NEWLINE`. -/
def firstLine (request : Bytes) : Bytes :=
  match findSub NEWLINE request with
  | some pos => request.take pos
  | none => request

/-- A line of the form `GET SP target SP version`. -/
structure GetLine (line target version : Bytes) : Prop where
  eq : line = ascii "GET" ++ 0x20 :: (target ++ 0x20 :: version)
  notMem_target : 0x20 ∉ target
  version_ne_nil : version ≠ []

/-- The line is a well-formed request line. -/
def WellFormedLine (line : Bytes) : Prop := ∃ target version, GetLine line target version

section Line

variable {request line target version pre post : Bytes} {len : ℕ}

/-- The first line is the beginning of the request. -/
theorem firstLine_front (request : Bytes) : firstLine request <+: request := by
  rw [firstLine]
  cases findSub NEWLINE request with
  | none => exact List.prefix_refl request
  | some pos => exact List.take_prefix pos request

/-- A well-formed line holds two spaces. -/
theorem GetLine.two_le_count (h : GetLine line target version) : 2 ≤ line.count 0x20 := by
  rw [h.eq, List.count_append, List.count_cons_self, List.count_append, List.count_cons_self]
  omega

/-- The first two spaces of a request are those of the well-formed line that it begins with. -/
theorem GetLine.copies (h : GetLine line target version) (hfront : line <+: request)
    (hlen : request.length ≤ len) :
    ∃ post, Copies request len (ascii "GET") target post := by
  obtain ⟨rest, hrest⟩ := hfront
  have heq : request = ascii "GET" ++ 0x20 :: (target ++ 0x20 :: (version ++ rest)) := by
    rw [← hrest, h.eq]
    simp only [List.append_assoc, List.cons_append]
  have hget : ascii "GET" <+: request := ⟨_, heq.symm⟩
  have hlong : 3 ≤ request.length := hget.length_le
  exact ⟨version ++ rest, ⟨heq, by decide, h.notMem_target⟩, hlong.trans hlen, hget⟩

/-- The path fits if the bytes between the first two spaces do. -/
theorem Spaced.pathFits_iff (h : Spaced request pre target post) :
    PathFits request ↔ (pathOf target).length < MAX_PATH_LEN := by
  constructor
  · intro hfits
    exact hfits pre target post h
  · intro hfit pre' target' post' h'
    obtain ⟨-, rfl, -⟩ := h.unique h'
    exact hfit

/-- Two words with a space behind each need two spaces. -/
theorem Spaced.two_le_count (h : Spaced request pre target post) : 2 ≤ request.count 0x20 := by
  rw [h.eq, List.count_append, List.count_cons_self, List.count_append, List.count_cons_self]
  omega

/-- A request that holds two spaces has a first and a second one. -/
theorem exists_spaced (h : 2 ≤ request.count 0x20) :
    ∃ pre target post, Spaced request pre target post := by
  have hfirst : (0x20 : Byte) ∈ request := List.count_pos_iff.mp (by omega)
  obtain ⟨pre, rest, rfl, hpre⟩ := List.eq_append_cons_of_mem hfirst
  rw [List.count_append, List.count_eq_zero_of_not_mem hpre, List.count_cons_self] at h
  have hsecond : (0x20 : Byte) ∈ rest := List.count_pos_iff.mp (by omega)
  obtain ⟨target, post, rfl, htarget⟩ := List.eq_append_cons_of_mem hsecond
  exact ⟨pre, target, post, rfl, hpre, htarget⟩

end Line

/-! ## Acceptance -/

/-- `parse` accepts the request if its first line is well-formed, and then the path is the target up
to a question mark; otherwise it does not return, and no byte of a later line is in the path. -/
structure AcceptsLine (request : Bytes) (len : ℕ) (info : RequestInfo) : Prop where
  returns : (RequestInfo.parse request len info).1 = .ret () ↔ WellFormedLine (firstLine request)
  path : ∀ target version, GetLine (firstLine request) target version →
    (RequestInfo.parse request len info).2.path = pathOf target
  ownLine : (RequestInfo.parse request len info).1 = .ret () →
    (RequestInfo.parse request len info).2.path <:+: firstLine request

section Accept

variable {request target version pre post : Bytes} {len : ℕ} {info : RequestInfo}

/-- A request whose path fits returns if its path is copied. -/
theorem parse_returns (hfits : PathFits request) (h : Copies request len pre target post) :
    RequestInfo.parse request len info = (.ret (), parsed request (pathOf target) info) := by
  have hfit := hfits pre target post h.toSpaced
  rw [infoParse_copies h, if_neg (by omega)]

/-- Which requests are accepted. -/
theorem parse_returns_iff (hlen : request.length ≤ len) :
    (RequestInfo.parse request len info).1 = .ret () ↔
      ascii "GET" <+: request ∧ 2 ≤ request.count 0x20 ∧ PathFits request := by
  constructor
  · intro h
    obtain ⟨pre, target, post, hcopies⟩ | ⟨e, type, hrejected⟩ := parse_cases request len
    · refine ⟨hcopies.get, hcopies.toSpaced.two_le_count, hcopies.pathFits_iff.mpr ?_⟩
      by_contra hlong
      rw [infoParse_copies hcopies, if_pos (by omega)] at h
      cases h
    · rw [hrejected.info] at h
      cases h
  · rintro ⟨hget, htwo, hfits⟩
    obtain ⟨pre, target, post, hspaced⟩ := exists_spaced htwo
    have hlong : 3 ≤ request.length := hget.length_le
    rw [parse_returns hfits ⟨hspaced, hlong.trans hlen, hget⟩]

/-- The path of a well-formed request line. -/
theorem GetLine.path (h : GetLine (firstLine request) target version) (hfits : PathFits request)
    (hlen : request.length ≤ len) :
    (RequestInfo.parse request len info).2.path = pathOf target := by
  obtain ⟨post, hcopies⟩ := h.copies (firstLine_front request) hlen
  rw [parse_returns hfits hcopies, parsed]

/-- The path of a GET line is a part of the line. -/
theorem GetLine.path_infix (h : GetLine (firstLine request) target version) :
    pathOf target <:+: firstLine request := by
  rw [h.eq]
  refine (List.takeWhile_prefix _).isInfix.trans ?_
  exact ⟨ascii "GET" ++ [0x20], 0x20 :: version, by simp⟩

end Accept

/-- `parse` accepts exactly the well-formed request lines if and only if the first line is well-formed,
or the request does not begin with `GET`, or it holds fewer than two spaces. -/
theorem request_line_accepted_iff (request : Bytes) (len : ℕ) (hlen : request.length ≤ len)
    (hfits : PathFits request) (info : RequestInfo) :
    AcceptsLine request len info ↔
      WellFormedLine (firstLine request) ∨ ¬ ascii "GET" <+: request ∨
        request.count 0x20 < 2 := by
  have hreturns : (RequestInfo.parse request len info).1 = .ret () ↔
      ascii "GET" <+: request ∧ 2 ≤ request.count 0x20 := by
    rw [parse_returns_iff hlen, and_iff_left hfits]
  constructor
  · intro h
    by_contra hnot
    push Not at hnot
    exact hnot.1 (h.returns.mp (hreturns.mpr hnot.2))
  · intro h
    by_cases hwell : WellFormedLine (firstLine request)
    · obtain ⟨target, version, hline⟩ := hwell
      obtain ⟨post, hcopies⟩ := hline.copies (firstLine_front request) hlen
      refine ⟨iff_of_true ?_ ⟨target, version, hline⟩, fun _ _ h => h.path hfits hlen, fun _ => ?_⟩
      · rw [parse_returns hfits hcopies]
      · rw [hline.path hfits hlen]
        exact hline.path_infix
    · have hnot : (RequestInfo.parse request len info).1 ≠ .ret () := by
        intro hret
        obtain ⟨hget, htwo⟩ := hreturns.mp hret
        obtain h | h | h := h
        · exact hwell h
        · exact h hget
        · omega
      exact ⟨iff_of_false hnot hwell, fun target version h => absurd ⟨target, version, h⟩ hwell,
        fun hret => absurd hret hnot⟩

/-- A request with a query and a space in a header value. -/
theorem request_line_accepted_iff_index :
    AcceptsLine (ascii "GET /?q HTTP/1.1\r\nHost: a b\r\n\r\n") 33 RequestInfo.init ↔
      WellFormedLine (firstLine (ascii "GET /?q HTTP/1.1\r\nHost: a b\r\n\r\n")) ∨
        ¬ ascii "GET" <+: ascii "GET /?q HTTP/1.1\r\nHost: a b\r\n\r\n" ∨
        (ascii "GET /?q HTTP/1.1\r\nHost: a b\r\n\r\n").count 0x20 < 2 :=
  request_line_accepted_iff _ 33 (by decide +kernel)
    ((⟨by decide +kernel, by decide +kernel, by decide +kernel⟩ : Spaced _ (ascii "GET")
      (ascii "/?q") (ascii "HTTP/1.1\r\nHost: a b\r\n\r\n")).pathFits_iff.mpr (by decide +kernel))
    RequestInfo.init

/-- A request line without a version; the next line holds the second space. -/
def unfinishedLine : Bytes := ascii "GET /asdf\r\nHost: a\r\n\r\n"

/-- A request line without a version is accepted, and its path goes on in the next line. -/
theorem unfinishedLine_accepted :
    0 ∉ unfinishedLine ∧ PathFits unfinishedLine ∧
      ¬ AcceptsLine unfinishedLine unfinishedLine.length RequestInfo.init := by
  have hspaced : Spaced unfinishedLine (ascii "GET") (ascii "/asdf\r\nHost:")
      (ascii "a\r\n\r\n") := ⟨by decide +kernel, by decide +kernel, by decide +kernel⟩
  refine ⟨by decide +kernel, hspaced.pathFits_iff.mpr (by decide +kernel), fun h => ?_⟩
  obtain ⟨target, version, hline⟩ := h.returns.mp (by decide +kernel)
  exact absurd hline.two_le_count (by decide +kernel)

end CppSocks.Analysis
