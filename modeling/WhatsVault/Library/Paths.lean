import WhatsVault.Library.Loop

/-!
# Paths and symbolic links

A path is read component by component: each stays where it is, goes up, or goes down to a name.
`walk` resolves a path from a directory that is itself free of links, following the links it meets, as
many inside one another as `depth` says; a walk that goes deeper is in a loop and ends nowhere.

What a walk ends in is again free of links (`walk_real`), so walking to it a second time is no
surprise (`walk_downs`), and a walk through a part of the tree without links, with no step up in it,
stays there (`walk_plain`).

The second part reads and writes paths as text, as code points: `steps` is how a text is read,
`render` the text of a resolved path, and `join` puts one behind the other (`walk_join`).
-/

namespace Paths

/-! ## Walking -/

section Walk

variable {κ : Type*}

/-- What a component of a path asks for. -/
inductive Step (κ : Type*)
  | here
  | up
  | down (name : κ)
  deriving DecidableEq

/-- Where a link leads: from the root, or from the directory it is in. -/
structure Target (κ : Type*) where
  absolute : Bool
  steps : List (Step κ)

/-- The symbolic links of a tree, by where they are. -/
abbrev Links (κ : Type*) := List κ → Option (Target κ)

/-- One step of a walk; `follow` resolves the target of a link. -/
def next (links : Links κ) (follow : List κ → List (Step κ) → Option (List κ)) (path : List κ) :
    Step κ → Option (List κ)
  | .here => some path
  | .up => some path.dropLast
  | .down name =>
    match links (path ++ [name]) with
    | none => some (path ++ [name])
    | some target => follow (if target.absolute then [] else path) target.steps

/-- Where a path leads from `path`, `none` where it goes through more links inside one another than
`depth`. -/
def walk (links : Links κ) : ℕ → List κ → List (Step κ) → Option (List κ)
  | 0, path, steps => steps.foldlM (next links fun _ _ => none) path
  | depth + 1, path, steps => steps.foldlM (next links (walk links depth)) path

variable {links : Links κ} {depth : ℕ} {path q : List κ} {steps : List (Step κ)}

lemma walk_append (xs ys : List (Step κ)) :
    walk links depth path (xs ++ ys) =
      (walk links depth path xs).bind fun mid => walk links depth mid ys := by
  cases depth <;> exact List.foldlM_append

@[simp] lemma walk_nil : walk links depth path [] = some path := by
  cases depth <;> rfl

@[simp] lemma walk_here : walk links depth path (.here :: steps) = walk links depth path steps := by
  cases depth <;> rfl

lemma next_down_of_none {follow : List κ → List (Step κ) → Option (List κ)} {name : κ}
    (h : links (path ++ [name]) = none) :
    next links follow path (.down name) = some (path ++ [name]) := by
  simp only [next]
  rw [h]

lemma next_down_of_some {follow : List κ → List (Step κ) → Option (List κ)} {name : κ}
    {target : Target κ} (h : links (path ++ [name]) = some target) :
    next links follow path (.down name) =
      follow (if target.absolute then [] else path) target.steps := by
  simp only [next]
  rw [h]

/-! ### Invariants of a walk -/

/-- `I` holds of the root, and going up keeps it, and so does going down to a name with `N` that is no
link; the links lead to names with `N`. -/
structure Kept (links : Links κ) (N : κ → Prop) (I : List κ → Prop) : Prop where
  root : I []
  up : ∀ p, I p → I p.dropLast
  down : ∀ p name, I p → N name → links (p ++ [name]) = none → I (p ++ [name])
  target : ∀ p target, links p = some target → ∀ name, Step.down name ∈ target.steps → N name

/-- Every walk from a directory with `I` along names with `N` ends in one with `I`. -/
def Leads (N : κ → Prop) (I : List κ → Prop) (follow : List κ → List (Step κ) → Option (List κ)) :
    Prop :=
  ∀ ⦃p steps q⦄, I p → (∀ name, Step.down name ∈ steps → N name) → follow p steps = some q → I q

variable {N : κ → Prop} {I : List κ → Prop}

lemma Kept.next (h : Kept links N I) {follow : List κ → List (Step κ) → Option (List κ)}
    (hfollow : Leads N I follow) {s : Step κ} (hpath : I path)
    (hs : ∀ name, s = Step.down name → N name) (hq : next links follow path s = some q) : I q := by
  cases s with
  | here =>
    cases hq
    exact hpath
  | up =>
    cases hq
    exact h.up path hpath
  | down name =>
    cases hlink : links (path ++ [name]) with
    | none =>
      rw [next_down_of_none hlink] at hq
      cases hq
      exact h.down path name hpath (hs name rfl) hlink
    | some target =>
      rw [next_down_of_some hlink] at hq
      refine hfollow ?_ (h.target _ _ hlink) hq
      split
      · exact h.root
      · exact hpath

lemma Kept.foldlM (h : Kept links N I) {follow : List κ → List (Step κ) → Option (List κ)}
    (hfollow : Leads N I follow) : Leads N I fun p ss => ss.foldlM (Paths.next links follow) p := by
  intro p ss q hp hss hq
  simp only at hq
  induction ss generalizing p with
  | nil =>
    cases hq
    exact hp
  | cons s ss ih =>
    obtain ⟨mid, hmid, hrest⟩ := Loop.cons_eq_some.mp hq
    have hnow : I mid := h.next hfollow hp
      (fun name hname => hss name (by rw [hname]; exact List.mem_cons_self)) hmid
    exact ih hnow (fun name hname => hss name (List.mem_cons_of_mem _ hname)) hrest

/-- The induction is on how many links may still be followed inside one another. -/
theorem Kept.walk (h : Kept links N I) : ∀ depth, Leads N I (walk links depth)
  | 0 => by
    have hnone : Leads N I fun _ _ => none := fun _ _ _ _ _ hq => by cases hq
    exact h.foldlM hnone
  | depth + 1 => h.foldlM (Kept.walk h depth)

/-- No link is on a path. -/
def Real (links : Links κ) (path : List κ) : Prop :=
  ∀ p, p ≠ [] → p <+: path → links p = none

lemma real_nil : Real links [] := by
  intro p hp hpre
  exact absurd (List.prefix_nil.mp hpre) hp

lemma Real.dropLast (h : Real links path) : Real links path.dropLast := by
  intro p hp hpre
  exact h p hp (hpre.trans (List.dropLast_prefix path))

lemma Real.concat {name : κ} (h : Real links path) (hname : links (path ++ [name]) = none) :
    Real links (path ++ [name]) := by
  intro p hp hpre
  rcases List.prefix_concat_iff.mp hpre with rfl | hpre
  · exact hname
  · exact h p hp hpre

lemma real_kept : Kept links (fun _ => True) (Real links) where
  root := real_nil
  up _ hp := hp.dropLast
  down _ _ hp _ hlink := hp.concat hlink
  target _ _ _ _ _ := trivial

/-- Where a walk ends no link is on the way. -/
theorem walk_real (hpath : Real links path) (h : walk links depth path steps = some q) :
    Real links q :=
  real_kept.walk depth hpath (fun _ _ => trivial) h

/-- The names a path goes down to. -/
def downs (steps : List (Step κ)) : List κ :=
  steps.filterMap fun
    | .down name => some name
    | _ => none

/-- A walk that never goes up and meets no link goes down. -/
theorem walk_eq_append (hup : Step.up ∉ steps)
    (hlinks : ∀ names, names ≠ [] → names <+: downs steps → links (path ++ names) = none) :
    walk links depth path steps = some (path ++ downs steps) := by
  have hrun : ∀ (follow : List κ → List (Step κ) → Option (List κ)) (ss : List (Step κ)) (p : List κ),
      Step.up ∉ ss → (∀ names, names ≠ [] → names <+: downs ss → links (p ++ names) = none) →
      ss.foldlM (next links follow) p = some (p ++ downs ss) := by
    intro follow ss
    induction ss with
    | nil =>
      intro p _ _
      simp [downs]
    | cons s ss ih =>
      intro p hss hp
      have htail : Step.up ∉ ss := fun h => hss (List.mem_cons_of_mem _ h)
      cases s with
      | here => exact ih p htail hp
      | up => exact absurd List.mem_cons_self hss
      | down name =>
        have hdowns : downs (.down name :: ss) = name :: downs ss := rfl
        rw [hdowns] at hp ⊢
        have hlink : links (p ++ [name]) = none := hp [name] (by simp) (by simp)
        have hrest := ih (p ++ [name]) htail (by
          intro names _ hpre
          rw [List.append_assoc]
          exact hp (name :: names) (by simp) (List.cons_prefix_cons.mpr ⟨rfl, hpre⟩))
        rw [List.append_assoc] at hrest
        rw [List.foldlM_cons, next_down_of_none hlink]
        exact hrest
  cases depth with
  | zero => exact hrun _ steps path hup hlinks
  | succ depth => exact hrun _ steps path hup hlinks

/-- Where nothing below a directory is a link, a walk that never goes up stays below it. -/
theorem walk_plain (hup : Step.up ∉ steps)
    (hlinks : ∀ names, names ≠ [] → links (path ++ names) = none) :
    walk links depth path steps = some (path ++ downs steps) :=
  walk_eq_append hup fun names hne _ => hlinks names hne

@[simp] lemma downs_map_down (names : List κ) : downs (names.map Step.down) = names := by
  induction names with
  | nil => rfl
  | cons name names ih => exact congrArg (name :: ·) ih

/-- The walk down to a path without links ends there. -/
theorem walk_downs (h : Real links path) :
    walk links depth [] (path.map Step.down) = some path := by
  have hup : Step.up ∉ path.map Step.down := by simp
  have hlinks : ∀ names, names ≠ [] → names <+: downs (path.map Step.down) →
      links ([] ++ names) = none := by
    intro names hne hpre
    rw [downs_map_down] at hpre
    exact h names hne hpre
  rw [walk_eq_append hup hlinks, downs_map_down, List.nil_append]

end Walk

/-! ## Paths as text -/

/-- A path as its code points. -/
abbrev Text := List ℕ

/-- `'/'`. -/
def sep : ℕ := 47

/-- `'.'`. -/
def dot : ℕ := 46

def stepOf (name : Text) : Step Text :=
  if name = [] ∨ name = [dot] then .here
  else if name = [dot, dot] then .up
  else .down name

/-- How a path is read. -/
def steps (path : Text) : List (Step Text) := (path.splitOn sep).map stepOf

def isAbs (path : Text) : Bool := path.head? = some sep

/-- `os.path.join`. -/
def join (path name : Text) : Text :=
  if isAbs name then name
  else if path = [] ∨ path.getLast? = some sep then path ++ name
  else path ++ sep :: name

/-- The text of a resolved path. -/
def render (path : List Text) : Text :=
  if path = [] then [sep] else path.flatMap fun name => sep :: name

/-- The text of a link. -/
def target (text : Text) : Target Text := ⟨isAbs text, steps text⟩

/-- A name that a directory can have in it. -/
def IsName (name : Text) : Prop := stepOf name = .down name ∧ sep ∉ name

lemma stepOf_eq_down {name name' : Text} (h : stepOf name = .down name') : name = name' := by
  unfold stepOf at h
  split at h
  · cases h
  · split at h
    · cases h
    · exact Step.down.inj h

lemma stepOf_eq_up {name : Text} : stepOf name = .up ↔ name = [dot, dot] := by
  unfold stepOf
  split
  · rename_i h
    constructor
    · intro hup
      cases hup
    · rintro rfl
      simp at h
  · split
    · rename_i h
      simp [h]
    · rename_i h
      simp [h]

lemma sep_notMem_of_mem_splitOn {path name : Text} (h : name ∈ path.splitOn sep) : sep ∉ name := by
  induction path generalizing name with
  | nil =>
    rw [List.splitOn_nil, List.mem_singleton] at h
    simp [h]
  | cons c path ih =>
    rw [List.splitOn_cons_eq_if_modifyHead] at h
    split at h
    · rcases List.mem_cons.mp h with rfl | h
      · simp
      · exact ih h
    · rename_i hc
      have hne : c ≠ sep := by simpa using hc
      cases hsplit : path.splitOn sep with
      | nil => exact absurd hsplit (List.splitOn_ne_nil _ _)
      | cons first others =>
        rw [hsplit] at h
        rcases List.mem_cons.mp h with rfl | h
        · have hfirst : sep ∉ first := ih (by rw [hsplit]; exact List.mem_cons_self)
          intro hmem
          rcases List.mem_cons.mp hmem with heq | hmem
          · exact hne heq.symm
          · exact hfirst hmem
        · exact ih (by rw [hsplit]; exact List.mem_cons_of_mem _ h)

/-- A path goes down to names only. -/
lemma isName_of_mem_steps {path name : Text} (h : Step.down name ∈ steps path) : IsName name := by
  obtain ⟨part, hpart, hstep⟩ := List.mem_map.mp h
  have heq : part = name := stepOf_eq_down hstep
  subst heq
  exact ⟨hstep, sep_notMem_of_mem_splitOn hpart⟩

lemma up_mem_steps {path : Text} : Step.up ∈ steps path ↔ [dot, dot] ∈ path.splitOn sep := by
  unfold steps
  rw [List.mem_map]
  constructor
  · rintro ⟨part, hpart, hstep⟩
    rwa [← stepOf_eq_up.mp hstep]
  · intro h
    exact ⟨_, h, stepOf_eq_up.mpr rfl⟩

lemma steps_append_sep (path name : Text) : steps (path ++ sep :: name) = steps path ++ steps name := by
  unfold steps
  rw [List.splitOn_append_cons_self, List.map_append]

lemma isAbs_join {path name : Text} (hname : isAbs name = false) :
    isAbs (join path name) = isAbs path := by
  unfold join
  rw [if_neg (by simp [hname])]
  cases path with
  | nil => simpa [isAbs] using hname
  | cons c path => split <;> rfl

/-- Walking to a name behind a path is walking to the path and on to the name. -/
theorem walk_join {links : Links Text} {depth : ℕ} {start : List Text} {path name : Text}
    (hname : isAbs name = false) :
    walk links depth start (steps (join path name)) =
      (walk links depth start (steps path)).bind fun mid => walk links depth mid (steps name) := by
  unfold join
  rw [if_neg (by simp [hname])]
  split
  · rename_i h
    rcases h with rfl | h
    · have hnil : steps [] = [.here] := rfl
      rw [hnil]
      simp
    · obtain ⟨front, rfl⟩ : ∃ front, path = front ++ [sep] := List.getLast?_eq_some_iff.mp h
      have hfront : steps (front ++ [sep]) = steps front ++ [.here] := steps_append_sep front []
      rw [hfront, List.append_assoc, List.singleton_append, steps_append_sep, walk_append, walk_append]
      simp
  · rw [steps_append_sep, walk_append]

lemma steps_flatMap {names : List Text} (h : ∀ name ∈ names, IsName name) (hne : names ≠ []) :
    steps (names.flatMap fun name => sep :: name) = .here :: names.map Step.down := by
  cases names with
  | nil => exact absurd rfl hne
  | cons name names =>
    have hcons : ((name :: names).flatMap fun name => sep :: name) =
        [] ++ sep :: (name ++ names.flatMap fun name => sep :: name) := by simp
    rw [hcons, steps_append_sep]
    have hrest : ∀ name : Text, IsName name → ∀ names : List Text, (∀ name ∈ names, IsName name) →
        steps (name ++ names.flatMap fun name => sep :: name) = (name :: names).map Step.down := by
      intro name hname names
      induction names generalizing name with
      | nil =>
        intro _
        simp [steps, List.splitOn_eq_singleton hname.2, hname.1]
      | cons name' names ih =>
        intro hnames
        have hcons : name ++ ((name' :: names).flatMap fun name => sep :: name) =
            name ++ sep :: (name' ++ names.flatMap fun name => sep :: name) := by simp
        have hfirst : steps name = [.down name] := by
          simp [steps, List.splitOn_eq_singleton hname.2, hname.1]
        rw [hcons, steps_append_sep, hfirst,
          ih name' (hnames name' List.mem_cons_self)
            fun n hn => hnames n (List.mem_cons_of_mem _ hn)]
        rfl
    rw [hrest name (h name List.mem_cons_self) names fun n hn => h n (List.mem_cons_of_mem _ hn)]
    rfl

/-- Walking from the root to the text of a resolved path ends there. -/
theorem walk_render {links : Links Text} {depth : ℕ} {path : List Text} (hreal : Real links path)
    (hnames : ∀ name ∈ path, IsName name) :
    walk links depth [] (steps (render path)) = some path := by
  unfold render
  split
  · rename_i h
    subst h
    have hroot : steps [sep] = [.here, .here] := rfl
    rw [hroot]
    simp
  · rename_i hne
    rw [steps_flatMap hnames hne, walk_here]
    exact walk_downs hreal

lemma isAbs_render (path : List Text) : isAbs (render path) = true := by
  unfold render
  split
  · rfl
  · cases path with
    | nil => contradiction
    | cons name path => rfl

end Paths
