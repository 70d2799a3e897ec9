import CppSocks.Analysis.ConnectionLog
import CppSocks.Foundation.LexicalPath
import CppSocks.Model.HttpHandler

/-!
# Static files

`HttpFileHandler::do_GET` is meant to serve the files below its base directory.
It refuses paths that contain `..`, and removes one leading `/`; but it opens what
is left as it is, without the base directory. `do_GET_confined_iff` says when a
request is nevertheless confined: it is refused, or the file cannot be opened, or
the path happens to name, from the working directory, a location below the base
directory.
-/

set_option autoImplicit false

namespace CppSocks.Analysis

open CppSocks.Model Foundation

/-- The paths of the file system. -/
def filePaths : PathSyntax Byte := ⟨0x2F, 0x2E⟩

/-- The text of a response without content. -/
def responseText (responseCode : Bytes) : Bytes :=
  ascii "HTTP/1.1" ++ ascii " " ++ responseCode ++ NEWLINE ++ ascii "Server: CPP Socks" ++ NEWLINE

/-- The answer is 403 or 404, and no content of a file. -/
def Refused (evs : List Event) : Prop :=
  ∃ code ∈ [ascii "403 Forbidden", ascii "404 Not Found"],
    ∀ bytes, .wrote bytes ∈ evs → bytes <:+: responseText code

/-- The path names the same location as the base directory joined with a relative path without
`..`. -/
def BelowBase (cwd : filePaths.Location) (basePath path : Bytes) : Prop :=
  ∃ rel, filePaths.Relative rel ∧ filePaths.Plain rel ∧
    (filePaths.locate cwd (filePaths.join basePath rel)).names = (filePaths.locate cwd path).names

/-- What a call has done on the connection `c` is a refusal, or it opened files below the base
directory only. -/
def Confined (cwd : filePaths.Location) (basePath : Bytes) (c c' : Conn) : Prop :=
  ∃ evs, c'.log = c.log ++ evs ∧
    (Refused evs ∨ ∀ path, .opened path ∈ evs → BelowBase cwd basePath path)

/-! ## Programs that open no file -/

section OpensNothing

variable {α β : Type}

/-- The program opens no file. -/
def OpensNothing : Prog α → Prop
  | .ret _ => True
  | .throw _ => True
  | .ub => True
  | .send _ k => ∀ r, OpensNothing (k r)
  | .close k => OpensNothing k
  | .isClosed k => ∀ b, OpensNothing (k b)
  | .openFile _ _ => False

/-- Programs that open nothing open nothing in sequence. -/
theorem opensNothing_bind {p : Prog α} {f : α → Prog β} (hp : OpensNothing p)
    (hf : ∀ a, OpensNothing (f a)) : OpensNothing (p >>= f) := by
  change OpensNothing (p.bind f)
  induction p with
  | ret a => exact hf a
  | throw e => exact trivial
  | ub => exact trivial
  | send buf k ih => exact fun r => ih r (hp r)
  | close k ih => exact ih hp
  | isClosed k ih => exact fun b => ih b (hp b)
  | openFile path k _ => exact absurd hp id

/-- Sending opens no file. -/
theorem opensNothing_sendAll (buf : Bytes) : OpensNothing (Prog.sendAll buf) := by
  intro r
  cases r <;> exact trivial

/-- Running such a program records no opened file. -/
theorem run_opensNothing (pf : Platform) {p : Prog α} (hp : OpensNothing p) (c : Conn) :
    ∃ evs, ((p.run pf) c).2.log = c.log ++ evs ∧ ∀ path, Event.opened path ∉ evs := by
  induction p generalizing c with
  | ret a => exact ⟨[], (List.append_nil _).symm, by simp⟩
  | throw e => exact ⟨[], (List.append_nil _).symm, by simp⟩
  | ub => exact ⟨[], (List.append_nil _).symm, by simp⟩
  | send buf k ih =>
    obtain ⟨evs, hext, hparts⟩ := send_extends buf c
    have hnone : ∀ path, Event.opened path ∉ evs := by
      intro path hmem
      obtain ⟨bytes, heq, _⟩ := hparts _ hmem
      cases heq
    have hrest : ∀ (r : Except Exc ℕ) (c' : Conn), c'.log = c.log ++ evs →
        ∃ evs', (((k r).run pf) c').2.log = c.log ++ evs' ∧ ∀ path, Event.opened path ∉ evs' := by
      intro r c' hc'
      obtain ⟨evs', hlog, hnone'⟩ := ih r (hp r) c'
      refine ⟨evs ++ evs', by rw [hlog, hc', List.append_assoc], ?_⟩
      intro path hmem
      exact (List.mem_append.mp hmem).elim (hnone path) (hnone' path)
    rw [run_send]
    rcases hs : Connection.send buf c with ⟨r, c'⟩
    rw [hs] at hext
    cases r with
    | ret n => exact hrest (.ok n) c' hext.log_eq
    | exn e => exact hrest (.error e) c' hext.log_eq
    | ub => exact ⟨evs, hext.log_eq, hnone⟩
  | close k ih => exact ih hp { c with closed := true }
  | isClosed k ih => exact ih c.closed (hp c.closed) c
  | openFile path k _ => exact absurd hp id

end OpensNothing

/-! ## The handler -/

section Handler

variable {pf : Platform} {cwd : filePaths.Location} {basePath : Bytes} {requestInfo : RequestInfo}

/-- The loop that copies a file opens no other one. -/
theorem opensNothing_copyLoop (rest : Bytes) : OpensNothing (HttpFileHandler.copyLoop rest) := by
  induction rest using HttpFileHandler.copyLoop.induct with
  | case1 rest h =>
    rw [HttpFileHandler.copyLoop, dif_pos h]
    exact opensNothing_bind (opensNothing_sendAll _) fun _ => trivial
  | case2 rest h ih =>
    rw [HttpFileHandler.copyLoop, dif_neg h]
    exact opensNothing_bind (opensNothing_sendAll _) fun _ => ih

/-- The head of a response opens no file. -/
theorem opensNothing_http_200 (contentLength : ℤ) :
    OpensNothing (HttpConnection.http_200 contentLength) :=
  opensNothing_bind (opensNothing_sendAll _) fun _ =>
    opensNothing_bind (opensNothing_sendAll _) fun _ => opensNothing_sendAll _

variable (pf) in
/-- A response without content writes parts of its text. -/
theorem run_response (code : Bytes) (c : Conn) :
    ∃ evs, (((do
        let _ ← HttpConnection.http_response_code code
        .ret () : Prog Unit).run pf) c).2.log = c.log ++ evs ∧
      ∀ e ∈ evs, IsPartOf (responseText code) e := by
  obtain ⟨evs, hext, hparts⟩ := send_extends (responseText code) c
  refine ⟨evs, ?_, hparts⟩
  have hrun : ((HttpConnection.http_response_code code >>= fun _ => Prog.ret ()).run pf) c =
      (Connection.send (responseText code) >>= fun _ => pure ()) c := by
    rw [run_bind, HttpConnection.http_response_code, run_sendAll]
    rfl
  rw [hrun, Act.bind_apply]
  rcases hs : Connection.send (responseText code) c with ⟨r, c'⟩
  rw [hs] at hext
  cases r <;> exact hext.log_eq

/-- A request is refused when all that is written belongs to one of the two error texts. -/
theorem refused_of_parts {code : Bytes} {evs : List Event}
    (hcode : code ∈ [ascii "403 Forbidden", ascii "404 Not Found"])
    (h : ∀ e ∈ evs, IsPartOf (responseText code) e) : Refused evs := by
  refine ⟨code, hcode, fun bytes hmem => ?_⟩
  obtain ⟨bytes', heq, hpart⟩ := h _ hmem
  rw [Event.wrote.injEq] at heq
  exact heq ▸ hpart

/-- A path with `..` in it is refused. -/
theorem do_GET_dotdot (h : (findSub (ascii "..") (HttpFileHandler.target requestInfo.path)).isSome)
    (c : Conn) :
    Confined cwd basePath c
      ((HttpFileHandler.do_GET basePath requestInfo).run pf c).2 := by
  have hprog : HttpFileHandler.do_GET basePath requestInfo = (do
      let _ ← HttpConnection.http_403
      .ret ()) := by
    rw [HttpFileHandler.do_GET, if_pos h]
  rw [hprog]
  obtain ⟨evs, hlog, hparts⟩ := run_response pf (ascii "403 Forbidden") c
  exact ⟨evs, hlog, Or.inl (refused_of_parts (by simp) hparts)⟩

/-- A file that cannot be opened is refused. -/
theorem do_GET_missing
    (h : ¬ (findSub (ascii "..") (HttpFileHandler.target requestInfo.path)).isSome)
    (hopen : pf.openFile (HttpFileHandler.target requestInfo.path) = none) (c : Conn) :
    Confined cwd basePath c
      ((HttpFileHandler.do_GET basePath requestInfo).run pf c).2 := by
  have hrun : (HttpFileHandler.do_GET basePath requestInfo).run pf c = ((do
      let _ ← HttpConnection.http_404
      .ret () : Prog Unit).run pf)
        (c.record (.opened (HttpFileHandler.target requestInfo.path))) := by
    rw [HttpFileHandler.do_GET, if_neg h, Prog.run, hopen]
    rfl
  obtain ⟨evs, hlog, hparts⟩ := run_response pf (ascii "404 Not Found")
    (c.record (.opened (HttpFileHandler.target requestInfo.path)))
  refine ⟨.opened (HttpFileHandler.target requestInfo.path) :: evs, ?_, Or.inl ?_⟩
  · rw [hrun]
    refine hlog.trans ?_
    rw [Conn.record, List.append_assoc, List.singleton_append]
  · obtain ⟨code, hcode, hinfix⟩ := refused_of_parts (by simp) hparts
    refine ⟨code, hcode, fun bytes hmem => hinfix bytes ?_⟩
    obtain heq | hmem := List.mem_cons.mp hmem
    · cases heq
    · exact hmem

/-- A file that can be opened is opened twice and sent. -/
theorem do_GET_found
    (h : ¬ (findSub (ascii "..") (HttpFileHandler.target requestInfo.path)).isSome) {file : OpenedFile}
    (hopen : pf.openFile (HttpFileHandler.target requestInfo.path) = some file) (c : Conn) :
    (HttpFileHandler.do_GET basePath requestInfo).run pf c = ((do
      let _ ← HttpConnection.http_200 file.size
      HttpFileHandler.copyLoop file.content : Prog Unit).run pf)
        ((c.record (.opened (HttpFileHandler.target requestInfo.path))).record
          (.opened (HttpFileHandler.target requestInfo.path))) := by
  rw [HttpFileHandler.do_GET, if_neg h, Prog.run, hopen, Act.bind_of_ret (Act.modify_apply _ c)]
  dsimp only
  rw [Prog.run, hopen, Act.bind_of_ret (Act.modify_apply _ _)]
  rfl

variable (basePath) in
/-- The only path that is opened is the target. -/
theorem do_GET_opens
    (h : ¬ (findSub (ascii "..") (HttpFileHandler.target requestInfo.path)).isSome) {file : OpenedFile}
    (hopen : pf.openFile (HttpFileHandler.target requestInfo.path) = some file) (c : Conn) :
    ∃ evs, ((HttpFileHandler.do_GET basePath requestInfo).run pf c).2.log = c.log ++ evs ∧
      ∀ path, .opened path ∈ evs → path = HttpFileHandler.target requestInfo.path := by
  rw [do_GET_found h hopen]
  obtain ⟨evs, hlog, hnone⟩ := run_opensNothing pf (opensNothing_bind
    (opensNothing_http_200 file.size) fun _ => opensNothing_copyLoop file.content)
    ((c.record (.opened (HttpFileHandler.target requestInfo.path))).record
      (.opened (HttpFileHandler.target requestInfo.path)))
  refine ⟨.opened (HttpFileHandler.target requestInfo.path) ::
    .opened (HttpFileHandler.target requestInfo.path) :: evs, ?_, ?_⟩
  · refine hlog.trans ?_
    simp [Conn.record]
  · intro path hmem
    obtain heq | hmem := List.mem_cons.mp hmem
    · exact Event.opened.inj heq
    · obtain heq | hmem := List.mem_cons.mp hmem
      · exact Event.opened.inj heq
      · exact absurd hmem (hnone path)

variable (basePath) in
/-- On a connection that takes everything, the answer for such a file shows. -/
theorem do_GET_answers
    (h : ¬ (findSub (ascii "..") (HttpFileHandler.target requestInfo.path)).isSome) {file : OpenedFile}
    (hopen : pf.openFile (HttpFileHandler.target requestInfo.path) = some file) :
    ∃ evs, ((HttpFileHandler.do_GET basePath requestInfo).run pf (Conn.init [])).2.log =
      .opened (HttpFileHandler.target requestInfo.path) ::
        .opened (HttpFileHandler.target requestInfo.path) ::
          .wrote (responseText (ascii "200 OK")) :: evs := by
  rw [do_GET_found h hopen]
  have hsend : ∀ log : Log, Connection.send (responseText (ascii "200 OK")) ⟨false, [], log⟩ =
      (.ret (responseText (ascii "200 OK")).length,
        ⟨false, [], log ++ [.wrote (responseText (ascii "200 OK"))]⟩) := by
    intro log
    rw [Connection.send, Connection.sendLoop, if_pos ⟨rfl, by decide⟩]
    rfl
  have hrun : ∀ log : Log, ∃ p : Prog Unit, ((do
      let _ ← HttpConnection.http_200 file.size
      HttpFileHandler.copyLoop file.content : Prog Unit).run pf) ⟨false, [], log⟩ =
        (p.run pf) ⟨false, [], log ++ [.wrote (responseText (ascii "200 OK"))]⟩ := by
    intro log
    refine ⟨(do
      let _ ← (do
        let _ ← Prog.sendAll (ascii "Content-Length: " ++
          ascii (toString file.size) ++ NEWLINE)
        HttpConnection.end_headers : Prog ℕ)
      HttpFileHandler.copyLoop file.content), ?_⟩
    rw [run_bind, run_bind, Act.bind_apply, Act.bind_apply, HttpConnection.http_200, run_bind,
      HttpConnection.http_response_code, run_sendAll, Act.bind_apply]
    have hfirst := hsend log
    unfold responseText at hfirst
    rw [hfirst]
    rfl
  obtain ⟨p, hp⟩ := hrun [.opened (HttpFileHandler.target requestInfo.path),
    .opened (HttpFileHandler.target requestInfo.path)]
  obtain ⟨evs, hext⟩ := run_extends pf p ⟨false, [],
    [.opened (HttpFileHandler.target requestInfo.path),
      .opened (HttpFileHandler.target requestInfo.path)] ++
        [.wrote (responseText (ascii "200 OK"))]⟩
  refine ⟨evs, ?_⟩
  have hlog := hext.log_eq
  rw [← hp] at hlog
  exact hlog

/-- A request whose 200 line is written is not refused. -/
theorem not_refused_ok {evs : List Event} (h : .wrote (responseText (ascii "200 OK")) ∈ evs) :
    ¬ Refused evs := by
  rintro ⟨code, hcode, hinfix⟩
  have hbad := hinfix _ h
  simp only [List.mem_cons, List.not_mem_nil, or_false] at hcode
  obtain rfl | rfl := hcode
  · revert hbad
    decide +kernel
  · revert hbad
    decide +kernel

end Handler

/-- A request is confined on every connection if and only if its path contains `..`, or names no file
that can be opened, or names a location below the base directory. -/
theorem do_GET_confined_iff (pf : Platform) (cwd : filePaths.Location) (basePath : Bytes)
    (requestInfo : RequestInfo) :
    (∀ c, Confined cwd basePath c ((HttpFileHandler.do_GET basePath requestInfo).run pf c).2) ↔
      (findSub (ascii "..") (HttpFileHandler.target requestInfo.path)).isSome ∨
        pf.openFile (HttpFileHandler.target requestInfo.path) = none ∨
        filePaths.Under (filePaths.locate cwd basePath)
          (filePaths.locate cwd (HttpFileHandler.target requestInfo.path)) := by
  rw [PathSyntax.under_iff]
  by_cases hdots : (findSub (ascii "..") (HttpFileHandler.target requestInfo.path)).isSome
  · exact iff_of_true (fun c => do_GET_dotdot hdots c) (Or.inl hdots)
  · cases hopen : pf.openFile (HttpFileHandler.target requestInfo.path) with
    | none => exact iff_of_true (fun c => do_GET_missing hdots hopen c) (Or.inr (Or.inl rfl))
    | some file =>
      constructor
      · intro hall
        obtain ⟨evs, hlog, hconfined⟩ := hall (Conn.init [])
        obtain ⟨evs', hanswer⟩ := do_GET_answers basePath hdots hopen
        have hevs : evs = _ := hlog.symm.trans hanswer
        right
        right
        obtain hrefused | hbelow := hconfined
        · exact absurd hrefused (not_refused_ok (by rw [hevs]; simp))
        · exact hbelow _ (by rw [hevs]; simp)
      · rintro (h | h | hbelow) c
        · exact absurd h hdots
        · cases h
        · obtain ⟨evs, hlog, hopens⟩ := do_GET_opens basePath hdots hopen c
          refine ⟨evs, hlog, Or.inr fun path hmem => ?_⟩
          rw [hopens path hmem]
          exact hbelow

/-! ## A path with two slashes -/

/-- A page that has an empty line of its own. -/
def page : OpenedFile := .regular (ascii "Welcome\r\n\r\nto all\r\n") (by decide +kernel)

/-- A file system in which every path names the page. -/
def fullPlatform : Platform := { Platform.plain with openFile := fun _ => some page }

/-- The root directory. -/
def rootLocation : filePaths.Location := ⟨[], by simp⟩

/-- The sample request leads out of the directory that is served. -/
theorem etc_passwd_not_under : ¬ filePaths.Under (filePaths.locate rootLocation (ascii "/srv/www"))
    (filePaths.locate rootLocation (ascii "/etc/passwd")) := by
  unfold PathSyntax.Under
  decide +kernel

/-- The request of `//etc/passwd` leads out of the base directory `/srv/www`. -/
theorem etc_passwd_not_confined :
    ∃ requestInfo, RequestInfo.parse (ascii "GET //etc/passwd HTTP/1.1\r\n\r\n") 29
        RequestInfo.init = (.ret (), requestInfo) ∧
      ∃ c, ¬ Confined rootLocation (ascii "/srv/www") c
        ((HttpFileHandler.do_GET (ascii "/srv/www") requestInfo).run fullPlatform c).2 := by
  refine ⟨⟨.get, ascii "//etc/passwd", []⟩, by decide +kernel, ?_⟩
  refine ⟨Conn.init [], ?_⟩
  rintro ⟨evs, hlog, hconfined⟩
  have hdots : ¬ (findSub (ascii "..") (HttpFileHandler.target (ascii "//etc/passwd"))).isSome := by
    decide +kernel
  have htarget : HttpFileHandler.target (ascii "//etc/passwd") = ascii "/etc/passwd" := by
    decide +kernel
  have hopen : fullPlatform.openFile (HttpFileHandler.target
      (⟨.get, ascii "//etc/passwd", []⟩ : RequestInfo).path) = some page := rfl
  obtain ⟨evs', hanswer⟩ := do_GET_answers (ascii "/srv/www") hdots hopen
  have hevs : evs = _ := hlog.symm.trans hanswer
  obtain hrefused | hbelow := hconfined
  · exact not_refused_ok (by rw [hevs]; simp) hrefused
  · refine etc_passwd_not_under ((filePaths.under_iff _ _ _).mpr ?_)
    rw [← htarget]
    exact hbelow _ (by rw [hevs]; simp)

end CppSocks.Analysis
