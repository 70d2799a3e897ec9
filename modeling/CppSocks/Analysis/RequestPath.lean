import CppSocks.Foundation.Split
import CppSocks.Model.RequestPath

/-!
# The bounds of the path

`RequestInfo::parse` copies the bytes between the first two spaces of a request, up to
a question mark, and does not look at the size of `_path`. The writes stay within
`_path` if these bytes and their NUL fit, or if the request is rejected before they are
copied, and in no other case (`path_fits_iff`). What the rest of the model uses is the
same function on strings (`parse_refines`).
-/

set_option autoImplicit false

namespace CppSocks.Analysis

open CppSocks.Model Foundation

/-! ## Spaces -/

section Spaces

variable {s pre post request target : Bytes} {c : Byte}

/-- `strchr` finds nothing where there is nothing. -/
theorem strchr_none (h : c ∉ s) : strchr s c = none := by
  rw [strchr, dropWhile_ne_of_notMem h]

/-- `strchr` finds the first occurrence, and returns what begins with it. -/
theorem strchr_split (h : c ∉ pre) : strchr (pre ++ c :: post) c = some (c :: post) := by
  rw [strchr, dropWhile_split h]

/-- The first two spaces of the request and what is around them. -/
structure Spaced (request pre target post : Bytes) : Prop where
  eq : request = pre ++ 0x20 :: (target ++ 0x20 :: post)
  notMem_pre : 0x20 ∉ pre
  notMem_target : 0x20 ∉ target

/-- The first two spaces are found in one place. -/
theorem Spaced.unique {pre' target' post' : Bytes} (h : Spaced request pre target post)
    (h' : Spaced request pre' target' post') : pre = pre' ∧ target = target' ∧ post = post' := by
  obtain ⟨hpre, hrest⟩ := split_unique h.notMem_pre h'.notMem_pre (h.eq.symm.trans h'.eq)
  obtain ⟨htarget, hpost⟩ := split_unique h.notMem_target h'.notMem_target hrest
  exact ⟨hpre, htarget, hpost⟩

/-- How the two searches end. -/
theorem spaces_cases (request : Bytes) :
    strchr request 0x20 = none ∨
      (∃ space, strchr request 0x20 = some space ∧ strchr space.tail 0x20 = none) ∨
      ∃ pre target post, Spaced request pre target post := by
  by_cases hfirst : (0x20 : Byte) ∈ request
  · obtain ⟨pre, rest, rfl, hpre⟩ := List.eq_append_cons_of_mem hfirst
    by_cases hsecond : (0x20 : Byte) ∈ rest
    · obtain ⟨target, post, rfl, htarget⟩ := List.eq_append_cons_of_mem hsecond
      exact Or.inr (Or.inr ⟨pre, target, post, rfl, hpre, htarget⟩)
    · exact Or.inr (Or.inl ⟨_, strchr_split hpre, strchr_none hsecond⟩)
  · exact Or.inl (strchr_none hfirst)

/-- The first space is the one in front of the target. -/
theorem Spaced.first (h : Spaced request pre target post) :
    strchr request 0x20 = some (0x20 :: (target ++ 0x20 :: post)) := by
  rw [h.eq, strchr_split h.notMem_pre]

/-- The next one is the one behind the target. -/
theorem Spaced.second (h : Spaced request pre target post) :
    strchr (target ++ 0x20 :: post) 0x20 = some (0x20 :: post) :=
  strchr_split h.notMem_target

/-- The bytes that are copied. -/
theorem Spaced.copied (h : Spaced request pre target post) :
    (target ++ 0x20 :: post).takeWhile (· != 0x20) = target :=
  takeWhile_split h.notMem_target

end Spaces

/-! ## The copy loop -/

/-- The bytes of the target up to a question mark. -/
def pathOf (target : Bytes) : Bytes := target.takeWhile (· != 0x3F)

section Copy

open RequestMembers

variable {m : RequestMembers} {i : ℕ} {target pathEnd : Bytes}

/-- The path ends where the query begins. -/
theorem pathOf_query (target : Bytes) : pathOf (0x3F :: target) = [] :=
  List.takeWhile_cons_of_neg (by simp)

/-- Any other byte belongs to the path. -/
theorem pathOf_cons {b : Byte} (hb : b ≠ 0x3F) (target : Bytes) :
    pathOf (b :: target) = b :: pathOf target :=
  List.takeWhile_cons_of_pos (by simpa using hb)

/-- A write within the array changes the byte at its index. -/
theorem writePath_within (hi : i < MAX_PATH_LEN) (b : Byte) (m : RequestMembers) :
    writePath i b m =
      (.ret (), { m with path := m.path.set i b hi, writes := m.writes ++ [i] }) := by
  rw [writePath, Act.bind_of_ret (Act.modify_apply _ m), dif_pos hi]
  rfl

/-- The place behind the array is written. -/
theorem writePath_behind (b : Byte) (m : RequestMembers) :
    ∃ m', writePath MAX_PATH_LEN b m = (.ub, m') ∧ MAX_PATH_LEN ∈ m'.writes := by
  refine ⟨{ m with writes := m.writes ++ [MAX_PATH_LEN] }, ?_, ?_⟩
  · rw [writePath, Act.bind_of_ret (Act.modify_apply _ m), dif_neg (Nat.lt_irrefl _)]
    rfl
  · exact List.mem_append_right _ List.mem_cons_self

/-- The places up to the one that is written. -/
theorem take_set (path : Vector Byte MAX_PATH_LEN) (hi : i < MAX_PATH_LEN) (b : Byte) :
    (path.set i b hi).toList.take (i + 1) = path.toList.take i ++ [b] := by
  have hlen : i < (path.toList.set i b).length := by
    rw [List.length_set, Vector.length_toList]
    exact hi
  rw [Vector.toList_set, List.take_succ_eq_append_getElem hlen, List.take_set_of_le (le_refl i),
    List.getElem_set_self]

/-- The loop ends at `pathEnd`. -/
theorem copyPath_end (pathEnd : Bytes) (i : ℕ) : copyPath pathEnd pathEnd i = writePath i 0 := by
  cases pathEnd with
  | nil => rfl
  | cons b rest => rw [copyPath, if_neg fun h => Nat.lt_irrefl _ h.1]

/-- The loop ends at a question mark. -/
theorem copyPath_query (i : ℕ) :
    copyPath pathEnd (0x3F :: target ++ pathEnd) i = writePath i 0 := by
  rw [List.cons_append, copyPath, if_neg fun h => h.2 rfl]

/-- The loop copies a byte of the path. -/
theorem copyPath_copy {b : Byte} (hb : b ≠ 0x3F) (i : ℕ) :
    copyPath pathEnd (b :: target ++ pathEnd) i =
      (writePath i b >>= fun _ => copyPath pathEnd (target ++ pathEnd) (i + 1)) := by
  have hlt : pathEnd.length < (b :: (target ++ pathEnd)).length := by
    rw [List.length_cons, List.length_append]
    omega
  rw [List.cons_append, copyPath, if_pos ⟨hlt, hb⟩]

/-- The path fits: it is written place by place, with a NUL behind it. -/
theorem copyPath_fits (target pathEnd : Bytes)
    (hfit : i + (pathOf target).length < MAX_PATH_LEN) :
    ∃ path : Vector Byte MAX_PATH_LEN,
      copyPath pathEnd (target ++ pathEnd) i m = (.ret (), { m with
        path := path
        writes := m.writes ++ List.range' i ((pathOf target).length + 1) }) ∧
      path.toList.take (i + (pathOf target).length + 1) =
        m.path.toList.take i ++ pathOf target ++ [0] := by
  induction target generalizing i m with
  | nil =>
    refine ⟨m.path.set i 0 hfit, ?_, ?_⟩
    · rw [List.nil_append, copyPath_end]
      exact writePath_within hfit 0 m
    · rw [pathOf, List.takeWhile_nil, List.append_nil]
      exact take_set m.path hfit 0
  | cons b target ih =>
    by_cases hb : b = 0x3F
    · subst hb
      rw [pathOf_query] at hfit ⊢
      refine ⟨m.path.set i 0 hfit, ?_, ?_⟩
      · rw [copyPath_query]
        exact writePath_within hfit 0 m
      · rw [List.append_nil]
        exact take_set m.path hfit 0
    · rw [pathOf_cons hb] at hfit ⊢
      rw [List.length_cons] at hfit ⊢
      have hi : i < MAX_PATH_LEN := by omega
      obtain ⟨path, hcopy, htake⟩ := ih (i := i + 1)
        (m := { m with path := m.path.set i b hi, writes := m.writes ++ [i] }) (by omega)
      refine ⟨path, ?_, ?_⟩
      · rw [copyPath_copy hb, Act.bind_of_ret (writePath_within hi b m), hcopy,
          List.range'_succ, List.append_assoc]
        rfl
      · rw [take_set] at htake
        rw [show i + ((pathOf target).length + 1) + 1 =
          i + 1 + (pathOf target).length + 1 by omega, htake]
        simp only [List.append_assoc, List.cons_append, List.nil_append]

/-- The path does not fit: the place behind the array is written. -/
theorem copyPath_overflows (target pathEnd : Bytes) (hi : i ≤ MAX_PATH_LEN)
    (hlong : MAX_PATH_LEN ≤ i + (pathOf target).length) :
    ∃ m', copyPath pathEnd (target ++ pathEnd) i m = (.ub, m') ∧ MAX_PATH_LEN ∈ m'.writes := by
  induction target generalizing i m with
  | nil =>
    obtain rfl : i = MAX_PATH_LEN := Nat.le_antisymm hi hlong
    rw [List.nil_append, copyPath_end]
    exact writePath_behind 0 m
  | cons b target ih =>
    by_cases hb : b = 0x3F
    · subst hb
      rw [pathOf_query] at hlong
      obtain rfl : i = MAX_PATH_LEN := Nat.le_antisymm hi hlong
      rw [copyPath_query]
      exact writePath_behind 0 m
    · rw [pathOf_cons hb, List.length_cons] at hlong
      rw [copyPath_copy hb]
      by_cases hlt : i < MAX_PATH_LEN
      · obtain ⟨m', hcopy, hmem⟩ := ih (i := i + 1)
          (m := { m with path := m.path.set i b hlt, writes := m.writes ++ [i] }) hlt (by omega)
        refine ⟨m', ?_, hmem⟩
        rw [Act.bind_of_ret (writePath_within hlt b m)]
        exact hcopy
      · obtain rfl : i = MAX_PATH_LEN := Nat.le_antisymm hi (Nat.not_lt.mp hlt)
        obtain ⟨m', hwrite, hmem⟩ := writePath_behind b m
        exact ⟨m', Act.bind_of_ub hwrite _, hmem⟩

end Copy

/-! ## Parsing -/

/-- The request is not rejected before the bytes between its first two spaces are copied. -/
structure Copies (request : Bytes) (len : ℕ) (pre target post : Bytes) : Prop
    extends Spaced request pre target post where
  long : 3 ≤ len
  get : ascii "GET" <+: request

section Parse

variable {request pre target post : Bytes} {len : ℕ} {m : RequestMembers} {info : RequestInfo}

/-- `strncmp` compares the first three bytes. -/
theorem take_eq_get_iff : request.take 3 = ascii "GET" ↔ ascii "GET" <+: request := by
  rw [List.prefix_iff_eq_take]
  exact eq_comm

/-- A request that does not come to the copy loop is rejected, alike with the path as an array and as a
string: no more than the type has been set. -/
structure Rejected (request : Bytes) (len : ℕ) (e : Exc) (type : RequestType → RequestType) :
    Prop where
  members : ∀ m, RequestMembers.parse request len m =
    (.exn e, { m with requestType := type m.requestType })
  info : ∀ info, RequestInfo.parse request len info =
    (.exn e, { info with requestType := type info.requestType })

/-- A request comes to the copy loop or is rejected. -/
theorem parse_cases (request : Bytes) (len : ℕ) :
    (∃ pre target post, Copies request len pre target post) ∨
      ∃ e type, Rejected request len e type := by
  by_cases hshort : len < 3
  · refine Or.inr ⟨.invalid_argument "Request is too short.", id, fun m => ?_, fun info => ?_⟩
    · rw [RequestMembers.parse, if_pos hshort]
      rfl
    · rw [RequestInfo.parse, if_pos hshort]
      rfl
  by_cases hget : request.take 3 = ascii "GET"
  · obtain hnone | ⟨space, hfirst, hsecond⟩ | ⟨pre, target, post, hspaced⟩ := spaces_cases request
    · refine Or.inr ⟨.invalid_argument "No path given.", fun _ => .get, fun m => ?_, fun info => ?_⟩
      · rw [RequestMembers.parse, if_neg hshort, if_neg (not_not.mpr hget), hnone]
        rfl
      · rw [RequestInfo.parse, if_neg hshort, if_neg (not_not.mpr hget), hnone]
        rfl
    · refine Or.inr
        ⟨.invalid_argument "No HTTP version given.", fun _ => .get, fun m => ?_, fun info => ?_⟩
      · rw [RequestMembers.parse, if_neg hshort, if_neg (not_not.mpr hget)]
        simp only [hfirst, hsecond]
        rfl
      · rw [RequestInfo.parse, if_neg hshort, if_neg (not_not.mpr hget)]
        simp only [hfirst, hsecond]
        rfl
    · exact Or.inl ⟨pre, target, post, hspaced, Nat.not_lt.mp hshort, take_eq_get_iff.mp hget⟩
  · refine Or.inr ⟨.invalid_argument "Unsupported request type.", id, fun m => ?_, fun info => ?_⟩
    · rw [RequestMembers.parse, if_neg hshort, if_pos hget]
      rfl
    · rw [RequestInfo.parse, if_neg hshort, if_pos hget]
      rfl

/-- A request that is not rejected is copied. -/
theorem parse_copies (h : Copies request len pre target post) :
    RequestMembers.parse request len m =
      (RequestMembers.copyPath (0x20 :: post) (target ++ 0x20 :: post) 0 >>= fun _ => do
        Act.modify fun m => { m with headers := parseHeaders request m.headers }
        Act.modify fun m => if isWsRequest m.headers then { m with requestType := .getWs } else m)
        { m with requestType := .get } := by
  rw [RequestMembers.parse, if_neg (Nat.not_lt.mpr h.long),
    if_neg (not_not.mpr (take_eq_get_iff.mpr h.get)), Act.bind_of_ret (Act.modify_apply _ m),
    h.first]
  dsimp only [List.tail_cons]
  rw [h.second]

/-- The path is a string that ends where the NUL has been written. -/
theorem cstr_path {path : Vector Byte MAX_PATH_LEN} {copied : Bytes} (hnul : 0 ∉ copied)
    (htake : path.toList.take (copied.length + 1) = copied ++ [0]) : cstr path.toList = copied := by
  rw [← List.take_append_drop (copied.length + 1) path.toList, htake, List.append_assoc,
    List.singleton_append, cstr]
  exact takeWhile_split hnul

/-- What is parsed from a request whose path is `copied`. -/
def parsed (request copied : Bytes) (info : RequestInfo) : RequestInfo where
  requestType := if isWsRequest (parseHeaders request info.headers) then .getWs else .get
  path := copied
  headers := parseHeaders request info.headers

/-- A request whose path is copied is accepted if the path fits with its NUL; else the copy runs
behind the end of the array. -/
theorem infoParse_copies (h : Copies request len pre target post) :
    RequestInfo.parse request len info =
      if MAX_PATH_LEN < (pathOf target).length + 1 then (.ub, { info with requestType := .get })
      else (.ret (), parsed request (pathOf target) info) := by
  rw [RequestInfo.parse, if_neg (Nat.not_lt.mpr h.long),
    if_neg (not_not.mpr (take_eq_get_iff.mpr h.get)), Act.bind_of_ret (Act.modify_apply _ info),
    h.first]
  simp only [List.tail_cons, h.second, h.copied]
  change (if MAX_PATH_LEN < (pathOf target).length + 1 then _ else _ : Act Exc RequestInfo Unit) _ = _
  by_cases hlong : MAX_PATH_LEN < (pathOf target).length + 1
  · rw [if_pos hlong, if_pos hlong]
    rfl
  · rw [if_neg hlong, if_neg hlong, Act.bind_of_ret (Act.modify_apply _ _), Act.modify_apply,
      parsed]
    dsimp only
    cases isWsRequest (parseHeaders request info.headers) <;> rfl

/-- The path fits: it is copied, and the header lines are read. -/
theorem parse_fits (h : Copies request len pre target post)
    (hfit : (pathOf target).length < MAX_PATH_LEN) :
    ∃ path : Vector Byte MAX_PATH_LEN,
      RequestMembers.parse request len m = (.ret (), {
        requestType := if isWsRequest (parseHeaders request m.headers) then .getWs else .get
        path := path
        headers := parseHeaders request m.headers
        writes := m.writes ++ List.range' 0 ((pathOf target).length + 1) }) ∧
      path.toList.take ((pathOf target).length + 1) = pathOf target ++ [0] := by
  obtain ⟨path, hcopy, htake⟩ := copyPath_fits (i := 0) (m := { m with requestType := .get }) target
    (0x20 :: post) (by omega)
  rw [Nat.zero_add, List.take_zero, List.nil_append] at htake
  refine ⟨path, ?_, htake⟩
  rw [parse_copies h, Act.bind_of_ret hcopy, Act.bind_of_ret (Act.modify_apply _ _),
    Act.modify_apply]
  dsimp only
  cases isWsRequest (parseHeaders request m.headers) <;> rfl

/-- The path does not fit: the place behind the array is written. -/
theorem parse_overflows (h : Copies request len pre target post)
    (hlong : MAX_PATH_LEN ≤ (pathOf target).length) :
    ∃ m', RequestMembers.parse request len m = (.ub, m') ∧ MAX_PATH_LEN ∈ m'.writes := by
  obtain ⟨m', hcopy, hmem⟩ := copyPath_overflows (i := 0)
    (m := { m with requestType := .get }) target (0x20 :: post) (Nat.zero_le _) (by omega)
  refine ⟨m', ?_, hmem⟩
  rw [parse_copies h, Act.bind_of_ub hcopy]

/-- With the path as an array, parsing does what it does with the path as a string. -/
theorem parse_refines (hnul : 0 ∉ request) (len : ℕ) (m : RequestMembers) :
    (RequestMembers.parse request len m).1 = (RequestInfo.parse request len m.info).1 ∧
      ((RequestMembers.parse request len m).1 ≠ .ub →
        (RequestMembers.parse request len m).2.info =
          (RequestInfo.parse request len m.info).2) := by
  obtain ⟨pre, target, post, h⟩ | ⟨e, type, hrejected⟩ := parse_cases request len
  · rw [infoParse_copies h]
    by_cases hfit : (pathOf target).length < MAX_PATH_LEN
    · obtain ⟨path, hparse, htake⟩ := parse_fits (m := m) h hfit
      have hcopied : (0 : Byte) ∉ pathOf target := by
        intro hmem
        refine hnul ?_
        rw [h.eq]
        have htarget : (0 : Byte) ∈ target := (List.takeWhile_prefix _).subset hmem
        simp [htarget]
      rw [if_neg (Nat.not_lt.mpr hfit), hparse]
      refine ⟨rfl, fun _ => ?_⟩
      rw [RequestMembers.info, cstr_path hcopied htake]
      rfl
    · obtain ⟨m', hparse, -⟩ := parse_overflows (m := m) h (Nat.not_lt.mp hfit)
      rw [if_pos (Nat.lt_succ_of_le (Nat.not_lt.mp hfit)), hparse]
      exact ⟨rfl, fun hne => absurd rfl hne⟩
  · rw [hrejected.members, hrejected.info]
    exact ⟨rfl, fun _ => rfl⟩

end Parse

/-! ## Writes -/

/-- The bytes between the first two spaces of the request, up to a question mark, and a NUL fit into
`_path`. -/
def PathFits (request : Bytes) : Prop :=
  ∀ pre target post, Spaced request pre target post → (pathOf target).length < MAX_PATH_LEN

/-- A call of `parse` writes within `_path`, and rejects a request whose path does not fit. -/
structure WritesWithin (request : Bytes) (len : ℕ) (m : RequestMembers) : Prop where
  within : ∀ i ∈ (RequestMembers.parse request len { m with writes := [] }).2.writes,
    i < MAX_PATH_LEN
  rejects : ¬ PathFits request →
    ∃ e, (RequestMembers.parse request len { m with writes := [] }).1 = .exn e

section Writes

variable {request pre target post : Bytes} {len : ℕ}

/-- If the path fits, every write is within the array. -/
theorem writesWithin_of_fits (h : Copies request len pre target post)
    (hfits : PathFits request) (m : RequestMembers) : WritesWithin request len m := by
  have hfit := hfits pre target post h.toSpaced
  obtain ⟨path, hparse, -⟩ := parse_fits (m := { m with writes := [] }) h hfit
  refine ⟨fun i hi => ?_, fun hnot => absurd hfits hnot⟩
  rw [hparse, List.nil_append, List.mem_range'_1] at hi
  omega

/-- A request that is rejected before its path is copied writes nothing to the array. -/
theorem writesWithin_of_rejected {e : Exc} {type : RequestType → RequestType}
    (h : Rejected request len e type) (m : RequestMembers) : WritesWithin request len m := by
  refine ⟨fun i hi => ?_, fun _ => ⟨e, ?_⟩⟩
  · rw [h.members] at hi
    exact absurd hi List.not_mem_nil
  · rw [h.members]

/-- If the path does not fit, there is a write behind the end of the array. -/
theorem not_writesWithin (h : Copies request len pre target post)
    (hlong : MAX_PATH_LEN ≤ (pathOf target).length) (m : RequestMembers) :
    ¬ WritesWithin request len m := by
  intro hwithin
  obtain ⟨m', hparse, hmem⟩ := parse_overflows (m := { m with writes := [] }) h hlong
  have hlt := hwithin.within MAX_PATH_LEN (by rw [hparse]; exact hmem)
  exact Nat.lt_irrefl _ hlt

end Writes

/-- `parse` writes within `_path`, and throws if the path does not fit, exactly if the path fits or the
request is rejected before it is copied. -/
theorem path_fits_iff (request : Bytes) (len : ℕ) (m : RequestMembers) :
    WritesWithin request len m ↔ (3 ≤ len → ascii "GET" <+: request → PathFits request) := by
  constructor
  · intro h hlen hget pre target post hspaced
    by_contra hlong
    exact not_writesWithin ⟨hspaced, hlen, hget⟩ (Nat.not_lt.mp hlong) m h
  · intro h
    obtain ⟨pre, target, post, hcopies⟩ | ⟨e, type, hrejected⟩ := parse_cases request len
    · exact writesWithin_of_fits hcopies (h hcopies.long hcopies.get) m
    · exact writesWithin_of_rejected hrejected m

/-- A request with a path of 1024 letters. -/
def longRequest : Bytes := ascii "GET " ++ List.replicate 1024 0x61 ++ ascii " HTTP/1.1\r\n\r\n"

/-- The NUL of the path of 1024 letters is written behind `_path`. -/
theorem longRequest_overruns :
    longRequest.length ≤ 4096 ∧ 0 ∉ longRequest ∧
      ¬ WritesWithin longRequest longRequest.length RequestMembers.init := by
  have hspaced : Spaced longRequest (ascii "GET") (List.replicate 1024 0x61)
      (ascii "HTTP/1.1\r\n\r\n") := by
    refine ⟨by decide +kernel, by decide +kernel, fun hmem => ?_⟩
    exact absurd (List.eq_of_mem_replicate hmem) (by decide)
  have hlong : MAX_PATH_LEN ≤ (pathOf (List.replicate 1024 0x61)).length := by
    rw [pathOf, List.takeWhile_replicate, if_pos (by decide), List.length_replicate]
    exact le_refl _
  refine ⟨by decide +kernel, by decide +kernel, ?_⟩
  exact not_writesWithin ⟨hspaced, by decide +kernel, by decide +kernel⟩ hlong _

end CppSocks.Analysis
