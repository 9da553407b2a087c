import Mathlib.Logic.Function.Basic
import WhatsVault.Library.Paths

/-!
# A file tree

What stands at each resolved path: a directory, a file with its contents, or a symbolic link with the
text it leads to.  `resolve` is where a path as text leads, from the working directory or from the
root; `isDir`, `openTarget` and `mkdirTarget` are what the system says before it opens a file for
writing or makes a directory.

A tree carries the two facts about its working directory that the system promises: no link is on it,
and its components are names.  So whatever a path resolves to is again free of links and made of names
(`resolve_real`, `resolve_names`), and opening its text opens it and nothing else
(`openTarget_render`).  Writing at a path that is no link leaves every link as it was (`links_put`),
and with them every path (`resolve_put`).
-/

namespace Paths

/-- What stands at a path. -/
inductive Node (β : Type*)
  | dir
  | file (contents : List β)
  | link (text : Text)

/-- A node that is no link. -/
def Node.IsPlain {β : Type*} : Node β → Prop
  | .link _ => False
  | _ => True

lemma Node.isPlain_dir {β : Type*} : (Node.dir : Node β).IsPlain := trivial

lemma Node.isPlain_file {β : Type*} (contents : List β) : (Node.file contents).IsPlain := trivial

/-- The links among what stands at the paths. -/
def linksOf {β : Type*} (node : List Text → Option (Node β)) : Links Text := fun path =>
  match node path with
  | some (.link text) => some (target text)
  | _ => none

/-- A file tree, as a process sees it from its working directory. -/
structure FileTree (β : Type*) where
  node : List Text → Option (Node β)
  /-- How many links inside one another are followed. -/
  depth : ℕ
  cwd : List Text
  cwd_real : Real (linksOf node) cwd
  cwd_names : ∀ name ∈ cwd, IsName name

namespace FileTree

variable {β : Type*}

def links (t : FileTree β) : Links Text := linksOf t.node

/-- The directory a path starts from. -/
def start (t : FileTree β) (path : Text) : List Text := if isAbs path then [] else t.cwd

/-- Where a path leads. -/
def resolve (t : FileTree β) (path : Text) : Option (List Text) :=
  walk t.links t.depth (t.start path) (steps path)

/-- Whether a directory stands at a resolved path. -/
def isDirAt (t : FileTree β) (path : List Text) : Bool :=
  if path = [] then true
  else
    match t.node path with
    | some .dir => true
    | _ => false

/-- The contents of a file. -/
def contents (t : FileTree β) (path : List Text) : List β :=
  match t.node path with
  | some (.file contents) => contents
  | _ => []

/-- Whether steps from `start` lead to a directory. -/
def isDir (t : FileTree β) (start : List Text) (ss : List (Step Text)) : Bool :=
  (walk t.links t.depth start ss).any t.isDirAt

/-- The resolved path that `open(path, "wb")` opens: no directory, but in one. -/
def openTarget (t : FileTree β) (path : Text) : Option (List Text) :=
  (t.resolve path).bind fun p =>
    if t.isDirAt p ∨ ¬ t.isDirAt p.dropLast then none else some p

/-- The resolved path where `mkdir` makes a directory: the last step goes down, in a directory, to
where nothing is. -/
def mkdirTarget (t : FileTree β) (start : List Text) (front : List (Step Text)) :
    Step Text → Option (List Text)
  | .down name =>
    (walk t.links t.depth start front).bind fun p =>
      if t.isDirAt p ∧ (t.node (p ++ [name])).isNone then some (p ++ [name]) else none
  | _ => none

/-! ## Where paths lead -/

variable {t : FileTree β} {path : Text} {q : List Text}

lemma links_names {p : List Text} {target : Target Text} (h : t.links p = some target) {name : Text}
    (hname : Step.down name ∈ target.steps) : IsName name := by
  unfold links linksOf at h
  split at h
  · cases h
    exact isName_of_mem_steps hname
  · cases h

/-- Going up and down between names leaves a path made of names. -/
lemma names_kept : Kept t.links IsName fun p => ∀ name ∈ p, IsName name where
  root := by simp
  up p hp name hname := hp name (List.dropLast_subset p hname)
  down p name hp hname _ := by
    intro name' hmem
    rcases List.mem_append.mp hmem with hmem | hmem
    · exact hp name' hmem
    · rwa [List.mem_singleton.mp hmem]
  target _ _ hlink _ hname := links_names hlink hname

lemma start_real : Real t.links (t.start path) := by
  unfold start
  split
  · exact real_nil
  · exact t.cwd_real

lemma start_names : ∀ name ∈ t.start path, IsName name := by
  unfold start
  split
  · simp
  · exact t.cwd_names

/-- What a path leads to has no link on it. -/
theorem resolve_real (h : t.resolve path = some q) : Real t.links q := walk_real start_real h

/-- What a path leads to is made of names. -/
theorem resolve_names (h : t.resolve path = some q) : ∀ name ∈ q, IsName name :=
  names_kept.walk t.depth start_names (fun _ => isName_of_mem_steps) h

lemma resolve_render (hreal : Real t.links q) (hnames : ∀ name ∈ q, IsName name) :
    t.resolve (render q) = some q := by
  unfold resolve start
  rw [if_pos (isAbs_render q)]
  exact walk_render hreal hnames

lemma resolve_join {name : Text} (hname : isAbs name = false) :
    t.resolve (join path name) =
      (t.resolve path).bind fun mid => walk t.links t.depth mid (steps name) := by
  unfold resolve start
  rw [isAbs_join hname, walk_join hname]

/-- Opening the text of a resolved path opens that path, which is no directory. -/
theorem openTarget_render {p : List Text} (hreal : Real t.links q) (hnames : ∀ name ∈ q, IsName name)
    (h : t.openTarget (render q) = some p) : p = q ∧ t.isDirAt q = false := by
  unfold openTarget at h
  rw [resolve_render hreal hnames, Option.bind_some] at h
  split at h
  · cases h
  · rename_i hplain
    cases h
    rw [not_or] at hplain
    exact ⟨rfl, by simpa using hplain.1⟩

/-! ## Changing the tree -/

/-- The tree with a directory or a file put at a path. -/
def put (t : FileTree β) (p : List Text) (n : Node β) (hn : n.IsPlain) : FileTree β where
  node := Function.update t.node p (some n)
  depth := t.depth
  cwd := t.cwd
  cwd_names := t.cwd_names
  cwd_real := by
    intro r hr hpre
    have hlink := t.cwd_real r hr hpre
    unfold linksOf at hlink ⊢
    by_cases hrp : r = p
    · subst hrp
      rw [Function.update_self]
      cases n with
      | link text => exact hn.elim
      | dir => rfl
      | file contents => rfl
    · rwa [Function.update_of_ne hrp]

/-- What is put at a path where no link is leaves the links as they are. -/
theorem links_put {p : List Text} {n : Node β} (hn : n.IsPlain) (hp : t.links p = none) :
    (t.put p n hn).links = t.links := by
  funext r
  unfold links linksOf put
  by_cases hrp : r = p
  · subst hrp
    simp only [Function.update_self]
    unfold links linksOf at hp
    rw [hp]
    cases n with
    | link text => exact hn.elim
    | dir => rfl
    | file contents => rfl
  · simp only [Function.update_of_ne hrp]

lemma isDirAt_put {p : List Text} {n : Node β} (hn : n.IsPlain) (hp : t.isDirAt p = false)
    (hq : t.isDirAt q = true) : (t.put p n hn).isDirAt q = true := by
  have hne : q ≠ p := by
    rintro rfl
    rw [hq] at hp
    cases hp
  unfold isDirAt put at *
  simpa only [Function.update_of_ne hne] using hq

lemma ne_nil_of_isDirAt {p : List Text} (h : t.isDirAt p = false) : p ≠ [] := by
  rintro rfl
  cases h

lemma isDirAt_put_file {p : List Text} {contents : List β} (hp : t.isDirAt p = false) :
    (t.put p (.file contents) (Node.isPlain_file contents)).isDirAt p = false := by
  simp [isDirAt, put, ne_nil_of_isDirAt hp]

/-- Nothing that `t` has leads elsewhere in `t'`, and its directories are still there. -/
structure Extends (t t' : FileTree β) : Prop where
  links : t'.links = t.links
  depth : t'.depth = t.depth
  cwd : t'.cwd = t.cwd
  dirs : ∀ p, t.isDirAt p = true → t'.isDirAt p = true

lemma Extends.refl (t : FileTree β) : Extends t t := ⟨rfl, rfl, rfl, fun _ h => h⟩

lemma Extends.trans {t t' t'' : FileTree β} (h : Extends t t') (h' : Extends t' t'') :
    Extends t t'' :=
  ⟨h'.links.trans h.links, h'.depth.trans h.depth, h'.cwd.trans h.cwd,
    fun p hp => h'.dirs p (h.dirs p hp)⟩

lemma extends_put {p : List Text} {n : Node β} (hn : n.IsPlain) (hlink : t.links p = none)
    (hdir : t.isDirAt p = false) : Extends t (t.put p n hn) :=
  ⟨links_put hn hlink, rfl, rfl, fun _ hq => isDirAt_put hn hdir hq⟩

lemma Extends.start_eq {t' : FileTree β} (h : Extends t t') (path : Text) :
    t'.start path = t.start path := by
  unfold FileTree.start
  rw [h.cwd]

/-- A path leads where it led. -/
theorem Extends.resolve_eq {t' : FileTree β} (h : Extends t t') (path : Text) :
    t'.resolve path = t.resolve path := by
  unfold FileTree.resolve
  rw [h.links, h.depth, h.start_eq]

/-! ## What the system opens and makes -/

lemma openTarget_spec {p : List Text} (h : t.openTarget path = some p) :
    t.links p = none ∧ t.isDirAt p = false := by
  unfold openTarget at h
  obtain ⟨r, hr, hopen⟩ := Option.bind_eq_some_iff.mp h
  split at hopen
  · cases hopen
  · rename_i hplain
    cases hopen
    rw [not_or] at hplain
    have hdir : t.isDirAt p = false := by simpa using hplain.1
    exact ⟨resolve_real hr p (ne_nil_of_isDirAt hdir) (List.prefix_refl p), hdir⟩

lemma mkdirTarget_spec {start p : List Text} {front : List (Step Text)} {s : Step Text}
    (h : t.mkdirTarget start front s = some p) : t.links p = none ∧ t.isDirAt p = false := by
  unfold mkdirTarget at h
  split at h
  · rename_i name
    obtain ⟨r, -, hmake⟩ := Option.bind_eq_some_iff.mp h
    split at hmake
    · rename_i hfree
      cases hmake
      have hnode : t.node (r ++ [name]) = none := Option.isNone_iff_eq_none.mp hfree.2
      constructor
      · unfold links linksOf
        rw [hnode]
      · simp [isDirAt, hnode]
    · cases hmake
  · cases h

/-- A directory that was made stands where its path leads. -/
lemma isDir_mkdir {start p : List Text} {front : List (Step Text)} {s : Step Text}
    (h : t.mkdirTarget start front s = some p) :
    (t.put p .dir Node.isPlain_dir).isDir start (front ++ [s]) = true := by
  have hlinks := (mkdirTarget_spec h).1
  unfold mkdirTarget at h
  split at h
  · rename_i name
    obtain ⟨r, hr, hmake⟩ := Option.bind_eq_some_iff.mp h
    split at hmake
    · cases hmake
      have hlink : (t.put (r ++ [name]) .dir Node.isPlain_dir).links (r ++ [name]) = none := by
        rwa [links_put Node.isPlain_dir hlinks]
      have hdir : (t.put (r ++ [name]) .dir Node.isPlain_dir).isDirAt (r ++ [name]) = true := by
        simp [isDirAt, put]
      have hfront : walk (t.put (r ++ [name]) .dir Node.isPlain_dir).links t.depth start front = some r := by
        rwa [links_put Node.isPlain_dir hlinks]
      have hlast : ∀ depth, walk (t.put (r ++ [name]) .dir Node.isPlain_dir).links depth r [.down name] =
          some (r ++ [name]) := by
        intro depth
        have hup : Step.up ∉ [Step.down name] := by simp
        refine walk_eq_append hup fun names hne hpre => ?_
        have hnames : names = [name] := by
          rcases List.prefix_cons_iff.mp hpre with rfl | ⟨rest, rfl, hrest⟩
          · exact absurd rfl hne
          · rw [List.prefix_nil.mp hrest]
        rwa [hnames]
      unfold isDir
      have hdepth : (t.put (r ++ [name]) .dir Node.isPlain_dir).depth = t.depth := rfl
      rw [hdepth, walk_append, hfront, Option.bind_some, hlast, Option.any_some]
      exact hdir
    · cases hmake
  · cases h

lemma isDir_steps : t.isDir (t.start path) (steps path) = (t.resolve path).any t.isDirAt := rfl

end FileTree

end Paths
