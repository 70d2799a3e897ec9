import Mathlib.Data.List.Basic

/-!
# Paths and the locations they name

A path is a word over some alphabet with a separator and a dot; a `Location` is
the list of names that leads to it from the root. `locate cwd path` is the
lexical meaning of a path: an absolute path is walked from the root, any other
one from the location `cwd`, and `..` leads back to the parent.

The locations under a base directory are exactly those named by the base directory
joined with a relative path without `..` (`under_iff`).
-/

set_option autoImplicit false

namespace Foundation

/-- The symbols that have a meaning in a path. -/
structure PathSyntax (β : Type) where
  sep : β
  dot : β

namespace PathSyntax

variable {β : Type} [DecidableEq β] (S : PathSyntax β)

/-- The component `..`. -/
def parent : List β := [S.dot, S.dot]

/-- A component that is a name. -/
structure IsName (c : List β) : Prop where
  ne_nil : c ≠ []
  ne_dot : c ≠ [S.dot]
  ne_parent : c ≠ S.parent
  sep_not_mem : S.sep ∉ c

/-- A directory or a file, by the names that lead to it. -/
structure Location where
  names : List (List β)
  isName : ∀ c ∈ names, S.IsName c

/-- The components of a path; empty ones and `.` are left out. -/
def components (path : List β) : List (List β) :=
  (path.splitOn S.sep).filter fun c => c ≠ [] ∧ c ≠ [S.dot]

/-- The path does not begin at the root. -/
def Relative (path : List β) : Prop := path.head? ≠ some S.sep

/-- The path has no component `..`. -/
def Plain (path : List β) : Prop := S.parent ∉ S.components path

/-- One component further. -/
def step (names : List (List β)) (c : List β) : List (List β) :=
  if c = S.parent then names.dropLast else names ++ [c]

/-- Follow components from some place. -/
def walk (names cs : List (List β)) : List (List β) := cs.foldl S.step names

/-- Walking along two lists of components is walking along the first and from there along the
second. -/
theorem walk_append (names cs cs' : List (List β)) :
    S.walk names (cs ++ cs') = S.walk (S.walk names cs) cs' :=
  List.foldl_append

/-- Components other than `..` lead downwards. -/
theorem walk_plain {names cs : List (List β)} (h : S.parent ∉ cs) :
    S.walk names cs = names ++ cs := by
  induction cs generalizing names with
  | nil => exact (List.append_nil names).symm
  | cons c cs ih =>
    have hc : c ≠ S.parent := fun heq => h (heq ▸ List.mem_cons_self)
    have hcs : S.parent ∉ cs := fun hmem => h (List.mem_cons_of_mem c hmem)
    change S.walk (S.step names c) cs = _
    rw [step, if_neg hc, ih hcs, List.append_assoc, List.singleton_append]

/-- No component of a path contains the separator. -/
theorem sep_not_mem_of_mem_splitOn {path c : List β} (h : c ∈ path.splitOn S.sep) : S.sep ∉ c := by
  induction path generalizing c with
  | nil =>
    rw [List.splitOn_nil, List.mem_singleton] at h
    simp [h]
  | cons b path ih =>
    rw [List.splitOn_cons_eq_if_modifyHead] at h
    by_cases hb : b = S.sep
    · rw [if_pos (by simpa using hb)] at h
      obtain rfl | h := List.mem_cons.mp h
      · simp
      · exact ih h
    · rw [if_neg (by simpa using hb)] at h
      obtain ⟨d, ds, hsplit⟩ := List.exists_cons_of_ne_nil (List.splitOn_ne_nil S.sep path)
      rw [hsplit, List.modifyHead_cons] at h
      obtain rfl | h := List.mem_cons.mp h
      · have hd : S.sep ∉ d := ih (by rw [hsplit]; exact List.mem_cons_self)
        intro hmem
        obtain heq | hmem := List.mem_cons.mp hmem
        · exact hb heq.symm
        · exact hd hmem
      · exact ih (by rw [hsplit]; exact List.mem_cons_of_mem d h)

/-- A component is a name or `..`. -/
theorem isName_of_mem_components {path c : List β} (h : c ∈ S.components path)
    (hc : c ≠ S.parent) : S.IsName c := by
  obtain ⟨hmem, hkeep⟩ := List.mem_filter.mp h
  have hkeep := of_decide_eq_true hkeep
  exact ⟨hkeep.1, hkeep.2, hc, S.sep_not_mem_of_mem_splitOn hmem⟩

/-- Walking along the components of a path leads from a location to a location. -/
theorem isName_of_mem_walk {names cs : List (List β)} (hnames : ∀ c ∈ names, S.IsName c)
    (hcs : ∀ c ∈ cs, c ≠ S.parent → S.IsName c) : ∀ c ∈ S.walk names cs, S.IsName c := by
  induction cs generalizing names with
  | nil => exact hnames
  | cons c cs ih =>
    refine ih ?_ fun x hx => hcs x (List.mem_cons_of_mem c hx)
    intro x hx
    unfold step at hx
    split at hx
    · exact hnames x ((List.dropLast_sublist names).subset hx)
    · rename_i hc
      obtain hx | hx := List.mem_append.mp hx
      · exact hnames x hx
      · rw [List.mem_singleton.mp hx]
        exact hcs c List.mem_cons_self hc

/-- The place where a path begins. -/
def start (cwd : S.Location) (path : List β) : List (List β) :=
  if path.head? = some S.sep then [] else cwd.names

/-- The place where a path starts is a location: the working directory, or the root. -/
theorem isName_of_mem_start (cwd : S.Location) (path : List β) :
    ∀ c ∈ S.start cwd path, S.IsName c := by
  unfold start
  split
  · simp
  · exact cwd.isName

/-- The location that a path names. -/
def locate (cwd : S.Location) (path : List β) : S.Location where
  names := S.walk (S.start cwd path) (S.components path)
  isName := S.isName_of_mem_walk (S.isName_of_mem_start cwd path)
    fun _ hc hne => S.isName_of_mem_components hc hne

/-- The base directory, or what lies below it. -/
def Under (base loc : S.Location) : Prop := base.names <+: loc.names

/-- A path below a directory. -/
def join (base rel : List β) : List β := if base = [] then rel else base ++ S.sep :: rel

/-- The components of a path that is put behind another one with a separator. -/
theorem components_append (base rel : List β) :
    S.components (base ++ S.sep :: rel) = S.components base ++ S.components rel := by
  unfold components
  rw [List.splitOn_append_cons_self, List.filter_append]

/-- The empty path has no components. -/
@[simp] theorem components_nil : S.components [] = [] := by
  simp [components]

/-- A relative path without `..` leads below the base directory. -/
theorem names_locate_join (cwd : S.Location) (base : List β) {rel : List β}
    (hrel : S.Relative rel) (hplain : S.Plain rel) :
    (S.locate cwd (S.join base rel)).names = (S.locate cwd base).names ++ S.components rel := by
  unfold join
  by_cases hbase : base = []
  · have hcwd : (S.locate cwd base).names = cwd.names := by
      subst hbase
      simp [locate, start, walk]
    have hstart : S.start cwd rel = cwd.names := if_neg hrel
    rw [if_pos hbase, hcwd]
    change S.walk (S.start cwd rel) (S.components rel) = _
    rw [hstart, S.walk_plain hplain]
  · have hhead : (base ++ S.sep :: rel).head? = base.head? := List.head?_append_of_ne_nil base hbase
    rw [if_neg hbase]
    change S.walk (S.start cwd (base ++ S.sep :: rel)) (S.components (base ++ S.sep :: rel)) = _
    rw [start, hhead, S.components_append, S.walk_append, S.walk_plain hplain]
    rfl

/-- Names can be put together to a relative path that has them as its components. -/
theorem exists_path_of_names {names : List (List β)} (h : ∀ c ∈ names, S.IsName c) :
    ∃ rel, S.Relative rel ∧ S.Plain rel ∧ S.components rel = names := by
  cases names with
  | nil => exact ⟨[], by simp [Relative], by simp [Plain], S.components_nil⟩
  | cons c cs =>
    have hsplit : ([S.sep].intercalate (c :: cs)).splitOn S.sep = c :: cs :=
      List.splitOn_intercalate S.sep (fun x hx => (h x hx).sep_not_mem) (List.cons_ne_nil c cs)
    have hcomp : S.components ([S.sep].intercalate (c :: cs)) = c :: cs := by
      unfold components
      rw [hsplit]
      refine List.filter_eq_self.mpr fun x hx => ?_
      exact decide_eq_true ⟨(h x hx).ne_nil, (h x hx).ne_dot⟩
    refine ⟨[S.sep].intercalate (c :: cs), ?_, ?_, hcomp⟩
    · have hc := h c List.mem_cons_self
      obtain ⟨b, d, hbd⟩ := List.exists_cons_of_ne_nil hc.ne_nil
      have hb : b ≠ S.sep := by
        rintro rfl
        exact hc.sep_not_mem (by rw [hbd]; exact List.mem_cons_self)
      unfold Relative
      cases cs with
      | nil => simpa [hbd] using hb
      | cons c' cs => simpa [hbd] using hb
    · unfold Plain
      rw [hcomp]
      exact fun hmem => (h _ hmem).ne_parent rfl

/-- What lies under a base directory is what the base directory joined with a relative path without
`..` names. -/
theorem under_iff (cwd loc : S.Location) (base : List β) :
    S.Under (S.locate cwd base) loc ↔
      ∃ rel, S.Relative rel ∧ S.Plain rel ∧ (S.locate cwd (S.join base rel)).names = loc.names := by
  constructor
  · rintro ⟨rest, hrest⟩
    have hnames : ∀ c ∈ rest, S.IsName c := fun c hc =>
      loc.isName c (hrest ▸ List.mem_append_right _ hc)
    obtain ⟨rel, hrel, hplain, hcomp⟩ := S.exists_path_of_names hnames
    refine ⟨rel, hrel, hplain, ?_⟩
    rw [S.names_locate_join cwd base hrel hplain, hcomp, hrest]
  · rintro ⟨rel, hrel, hplain, hloc⟩
    rw [S.names_locate_join cwd base hrel hplain] at hloc
    exact ⟨S.components rel, hloc⟩

end PathSyntax

end Foundation
