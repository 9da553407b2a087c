import Mathlib.Data.List.TakeWhile
import Mathlib.Tactic.Common

/-!
# Backtracking regular expressions

The matches of an expression at the front of a string, in the order a backtracking matcher tries
them; `re.match` returns the first.  A repetition ranges over a class of characters, which is all
that a scanner of lines needs, and an optional part prefers to be there.

`Accepts` is the language of an expression.  A match takes a word of the language
(`accepts_of_mem`), every word of it is a match in front of any rest (`exists_mem_of_accepts`), what a
group captured is in the language of the group (`group_accepts`), and a group that is not optional
captures something (`group_isSome`).  The first match of a sequence whose parts each have a first
match is made of these (`firstMatch_seq`): that is how a match without backtracking is computed.
-/

inductive Regex
  /-- One character of a class. -/
  | one (p : Char → Bool)
  /-- Between `lo` and `hi` characters of a class, as many as possible first, or as few. -/
  | many (p : Char → Bool) (lo : ℕ) (hi : Option ℕ) (greedy : Bool)
  | seq (r s : Regex)
  /-- `(?:r)?`. -/
  | opt (r : Regex)
  /-- `(?P<name>r)`. -/
  | group (name : String) (r : Regex)
  /-- `$`: the end, or a newline at the end. -/
  | eos

namespace Regex

/-- A match: what it took of the string, what is left, and what its groups captured. -/
structure Match where
  taken : List Char
  rest : List Char
  groups : List (String × List Char)
  deriving DecidableEq

/-- The lengths a repetition may take of a string whose first `n` characters are in its class. -/
def lengths (lo : ℕ) (hi : Option ℕ) (greedy : Bool) (n : ℕ) : List ℕ :=
  let all := (List.range (hi.elim n (min n) + 1)).filter fun k => lo ≤ k
  if greedy then all.reverse else all

/-- The matches at the front of a string, best first. -/
def allMatches : Regex → List Char → List Match
  | one _, [] => []
  | one p, c :: s => if p c then [⟨[c], s, []⟩] else []
  | many p lo hi greedy, s =>
    (lengths lo hi greedy (s.takeWhile p).length).map fun k => ⟨s.take k, s.drop k, []⟩
  | seq r r', s =>
    (r.allMatches s).flatMap fun m =>
      (r'.allMatches m.rest).map fun m' => ⟨m.taken ++ m'.taken, m'.rest, m.groups ++ m'.groups⟩
  | opt r, s => r.allMatches s ++ [⟨[], s, []⟩]
  | group name r, s => (r.allMatches s).map fun m => { m with groups := (name, m.taken) :: m.groups }
  | eos, s => if s = [] ∨ s = ['\n'] then [⟨[], s, []⟩] else []

/-- `re.match`. -/
def firstMatch (r : Regex) (s : List Char) : Option Match := (r.allMatches s).head?

/-- `m.group(name)`, `none` where the group took no part in the match. -/
def Match.group (m : Match) (name : String) : Option (List Char) := m.groups.lookup name

/-! ## Languages -/

/-- The words of an expression. -/
def Accepts : Regex → List Char → Prop
  | one p, w => ∃ c, w = [c] ∧ p c = true
  | many p lo hi _, w => (∀ c ∈ w, p c = true) ∧ lo ≤ w.length ∧ ∀ n ∈ hi, w.length ≤ n
  | seq r s, w => ∃ u v, w = u ++ v ∧ r.Accepts u ∧ s.Accepts v
  | opt r, w => r.Accepts w ∨ w = []
  | group _ r, w => r.Accepts w
  | eos, w => w = []

lemma mem_lengths {lo : ℕ} {hi : Option ℕ} {greedy : Bool} {n k : ℕ} :
    k ∈ lengths lo hi greedy n ↔ lo ≤ k ∧ k ≤ n ∧ ∀ m ∈ hi, k ≤ m := by
  have hall : k ∈ (List.range (hi.elim n (min n) + 1)).filter (fun k => lo ≤ k) ↔
      lo ≤ k ∧ k ≤ n ∧ ∀ m ∈ hi, k ≤ m := by
    rw [List.mem_filter, List.mem_range]
    cases hi with
    | none =>
      simp only [Option.elim_none, decide_eq_true_eq, Option.mem_def, reduceCtorEq,
        IsEmpty.forall_iff, implies_true, and_true]
      omega
    | some m =>
      simp only [Option.elim_some, decide_eq_true_eq, Option.mem_def, Option.some.injEq,
        forall_eq']
      omega
  unfold lengths
  cases greedy with
  | true => simpa using hall
  | false => simpa using hall

lemma take_eq_of_le_takeWhile {p : Char → Bool} {s : List Char} {k : ℕ}
    (h : k ≤ (s.takeWhile p).length) : s.take k = (s.takeWhile p).take k := by
  obtain ⟨t, ht⟩ : s.takeWhile p <+: s := List.takeWhile_prefix p
  conv_lhs => rw [← ht]
  exact List.take_append_of_le_length h

/-- A match splits the string. -/
lemma taken_append_rest {r : Regex} {s : List Char} {m : Match} (h : m ∈ r.allMatches s) :
    m.taken ++ m.rest = s := by
  induction r generalizing s m with
  | one p =>
    cases s with
    | nil => simp [allMatches] at h
    | cons c s =>
      simp only [allMatches] at h
      split at h
      · rw [List.mem_singleton] at h
        subst h
        rfl
      · simp at h
  | many p lo hi greedy =>
    obtain ⟨k, -, rfl⟩ := List.mem_map.mp h
    exact List.take_append_drop k s
  | seq r r' ih ih' =>
    obtain ⟨m₁, h₁, hrest⟩ := List.mem_flatMap.mp h
    obtain ⟨m₂, h₂, rfl⟩ := List.mem_map.mp hrest
    rw [List.append_assoc, ih' h₂, ih h₁]
  | opt r ih =>
    rcases List.mem_append.mp h with hthere | hempty
    · exact ih hthere
    · rw [List.mem_singleton.mp hempty, List.nil_append]
  | group name r ih =>
    obtain ⟨m₁, h₁, rfl⟩ := List.mem_map.mp h
    have hsplit := ih h₁
    exact hsplit
  | eos =>
    simp only [allMatches] at h
    split at h
    · rw [List.mem_singleton.mp h, List.nil_append]
    · simp at h

/-- A match takes a word of the language. -/
theorem accepts_of_mem {r : Regex} {s : List Char} {m : Match} (h : m ∈ r.allMatches s) :
    r.Accepts m.taken := by
  induction r generalizing s m with
  | one p =>
    cases s with
    | nil => simp [allMatches] at h
    | cons c s =>
      simp only [allMatches] at h
      split at h
      · rename_i hp
        rw [List.mem_singleton] at h
        subst h
        exact ⟨c, rfl, hp⟩
      · simp at h
  | many p lo hi greedy =>
    obtain ⟨k, hk, rfl⟩ := List.mem_map.mp h
    obtain ⟨hlo, hle, hhi⟩ := mem_lengths.mp hk
    have hlength : (s.take k).length = k :=
      List.length_take_of_le (le_trans hle (List.takeWhile_sublist p).length_le)
    refine ⟨fun c hc => ?_, hlength.symm ▸ hlo, hlength.symm ▸ hhi⟩
    rw [take_eq_of_le_takeWhile hle] at hc
    have hmem : c ∈ s.takeWhile p := List.mem_of_mem_take hc
    exact List.mem_takeWhile_imp hmem
  | seq r r' ih ih' =>
    obtain ⟨m₁, h₁, hrest⟩ := List.mem_flatMap.mp h
    obtain ⟨m₂, h₂, rfl⟩ := List.mem_map.mp hrest
    exact ⟨m₁.taken, m₂.taken, rfl, ih h₁, ih' h₂⟩
  | opt r ih =>
    rcases List.mem_append.mp h with hthere | hempty
    · exact .inl (ih hthere)
    · exact .inr (by rw [List.mem_singleton.mp hempty])
  | group name r ih =>
    obtain ⟨m₁, h₁, rfl⟩ := List.mem_map.mp h
    have hword := ih h₁
    exact hword
  | eos =>
    simp only [allMatches] at h
    split at h
    · rw [List.mem_singleton.mp h]
      rfl
    · simp at h

/-- An expression that does not ask for the end of the string. -/
def EosFree : Regex → Prop
  | one _ => True
  | many .. => True
  | seq r s => r.EosFree ∧ s.EosFree
  | opt r => r.EosFree
  | group _ r => r.EosFree
  | eos => False

/-- A word of the language is a match, whatever follows it. -/
theorem exists_mem_of_accepts {r : Regex} (hfree : r.EosFree) {u : List Char} (h : r.Accepts u)
    (v : List Char) : ∃ m ∈ r.allMatches (u ++ v), m.taken = u := by
  induction r generalizing u v with
  | one p =>
    obtain ⟨c, rfl, hc⟩ := h
    exact ⟨⟨[c], v, []⟩, by simp [allMatches, hc], rfl⟩
  | many p lo hi greedy =>
    obtain ⟨hall, hlo, hhi⟩ := h
    have hle : u.length ≤ ((u ++ v).takeWhile p).length := by
      rw [List.takeWhile_append_of_pos hall, List.length_append]
      omega
    refine ⟨_, List.mem_map.mpr ⟨u.length, mem_lengths.mpr ⟨hlo, hle, hhi⟩, rfl⟩, ?_⟩
    exact List.take_left
  | seq r r' ih ih' =>
    obtain ⟨u₁, u₂, rfl, h₁, h₂⟩ := h
    obtain ⟨m₁, hm₁, htaken₁⟩ := ih hfree.1 h₁ (u₂ ++ v)
    have hrest : m₁.rest = u₂ ++ v := by
      have hsplit := taken_append_rest hm₁
      rw [htaken₁] at hsplit
      exact List.append_cancel_left hsplit
    obtain ⟨m₂, hm₂, htaken₂⟩ := ih' hfree.2 h₂ v
    rw [← hrest] at hm₂
    rw [← List.append_assoc] at hm₁
    refine ⟨_, List.mem_flatMap.mpr ⟨m₁, hm₁, List.mem_map.mpr ⟨m₂, hm₂, rfl⟩⟩, ?_⟩
    rw [htaken₁, htaken₂]
  | opt r ih =>
    rcases h with h | rfl
    · obtain ⟨m, hm, htaken⟩ := ih hfree h v
      exact ⟨m, List.mem_append_left _ hm, htaken⟩
    · exact ⟨⟨[], v, []⟩, List.mem_append_right _ (List.mem_singleton.mpr rfl), rfl⟩
  | group name r ih =>
    obtain ⟨m, hm, htaken⟩ := ih hfree h v
    exact ⟨_, List.mem_map.mpr ⟨m, hm, rfl⟩, htaken⟩
  | eos => exact absurd hfree id

lemma firstMatch_isSome {r : Regex} (hfree : r.EosFree) {u : List Char} (h : r.Accepts u)
    (v : List Char) : (r.firstMatch (u ++ v)).isSome := by
  obtain ⟨m, hm, -⟩ := exists_mem_of_accepts hfree h v
  unfold firstMatch
  rw [List.isSome_head?]
  exact List.ne_nil_of_mem hm

lemma mem_of_firstMatch {r : Regex} {s : List Char} {m : Match} (h : r.firstMatch s = some m) :
    m ∈ r.allMatches s := List.mem_of_mem_head? h

/-! ## Groups -/

/-- The groups of an expression. -/
def captures : Regex → List (String × Regex)
  | one _ => []
  | many .. => []
  | seq r s => r.captures ++ s.captures
  | opt r => r.captures
  | group name r => (name, r) :: r.captures
  | eos => []

/-- The names of the groups under no `opt`. -/
def mandatory : Regex → List String
  | one _ => []
  | many .. => []
  | seq r s => r.mandatory ++ s.mandatory
  | opt _ => []
  | group name r => name :: r.mandatory
  | eos => []

lemma groups_accept {r : Regex} {s : List Char} {m : Match} (h : m ∈ r.allMatches s) :
    ∀ g ∈ m.groups, ∃ r', (g.1, r') ∈ r.captures ∧ r'.Accepts g.2 := by
  induction r generalizing s m with
  | one p =>
    intro g hg
    cases s with
    | nil => simp [allMatches] at h
    | cons c s =>
      simp only [allMatches] at h
      split at h
      · rw [List.mem_singleton] at h
        simp [h] at hg
      · simp at h
  | many p lo hi greedy =>
    obtain ⟨k, -, rfl⟩ := List.mem_map.mp h
    simp
  | seq r r' ih ih' =>
    obtain ⟨m₁, h₁, hrest⟩ := List.mem_flatMap.mp h
    obtain ⟨m₂, h₂, rfl⟩ := List.mem_map.mp hrest
    intro g hg
    rcases List.mem_append.mp hg with hg | hg
    · obtain ⟨r₁, hr₁, haccepts⟩ := ih h₁ g hg
      exact ⟨r₁, List.mem_append_left _ hr₁, haccepts⟩
    · obtain ⟨r₂, hr₂, haccepts⟩ := ih' h₂ g hg
      exact ⟨r₂, List.mem_append_right _ hr₂, haccepts⟩
  | opt r ih =>
    rcases List.mem_append.mp h with hthere | hempty
    · exact ih hthere
    · rw [List.mem_singleton.mp hempty]
      simp
  | group name r ih =>
    obtain ⟨m₁, h₁, rfl⟩ := List.mem_map.mp h
    intro g hg
    rcases List.mem_cons.mp hg with rfl | hg
    · exact ⟨r, List.mem_cons_self, accepts_of_mem h₁⟩
    · obtain ⟨r₁, hr₁, haccepts⟩ := ih h₁ g hg
      exact ⟨r₁, List.mem_cons_of_mem _ hr₁, haccepts⟩
  | eos =>
    simp only [allMatches] at h
    split at h
    · rw [List.mem_singleton.mp h]
      simp
    · simp at h

lemma mandatory_captured {r : Regex} {s : List Char} {m : Match} (h : m ∈ r.allMatches s) :
    ∀ name ∈ r.mandatory, ∃ w, (name, w) ∈ m.groups := by
  induction r generalizing s m with
  | one p => simp [mandatory]
  | many p lo hi greedy => simp [mandatory]
  | seq r r' ih ih' =>
    obtain ⟨m₁, h₁, hrest⟩ := List.mem_flatMap.mp h
    obtain ⟨m₂, h₂, rfl⟩ := List.mem_map.mp hrest
    intro name hname
    rcases List.mem_append.mp hname with hname | hname
    · obtain ⟨w, hw⟩ := ih h₁ name hname
      exact ⟨w, List.mem_append_left _ hw⟩
    · obtain ⟨w, hw⟩ := ih' h₂ name hname
      exact ⟨w, List.mem_append_right _ hw⟩
  | opt r ih => simp [mandatory]
  | group name r ih =>
    obtain ⟨m₁, h₁, rfl⟩ := List.mem_map.mp h
    intro other hother
    rcases List.mem_cons.mp hother with rfl | hother
    · exact ⟨m₁.taken, List.mem_cons_self⟩
    · obtain ⟨w, hw⟩ := ih h₁ other hother
      exact ⟨w, List.mem_cons_of_mem _ hw⟩
  | eos => simp [mandatory]

/-- What a group captured is a word of the group. -/
theorem group_accepts {r : Regex} {s : List Char} {m : Match} (h : m ∈ r.allMatches s)
    {name : String} {w : List Char} (hw : m.group name = some w) :
    ∃ r', (name, r') ∈ r.captures ∧ r'.Accepts w := by
  obtain ⟨before, after, hgroups, -⟩ := List.lookup_eq_some_iff.mp hw
  have hmem : (name, w) ∈ m.groups := by
    rw [hgroups]
    simp
  exact groups_accept h _ hmem

/-- A group that is not optional captures something. -/
theorem group_isSome (name : String) {r : Regex} {s : List Char} {m : Match}
    (h : m ∈ r.allMatches s) (hname : name ∈ r.mandatory) : (m.group name).isSome := by
  obtain ⟨w, hw⟩ := mandatory_captured h name hname
  unfold Match.group
  rw [Option.isSome_iff_ne_none]
  intro hnone
  have hfree := List.lookup_eq_none_iff.mp hnone (name, w) hw
  simp at hfree

/-! ## First matches -/

lemma mem_seq {r r' : Regex} {s : List Char} {m : Match} :
    m ∈ (seq r r').allMatches s ↔ ∃ m₁ ∈ r.allMatches s, ∃ m₂ ∈ r'.allMatches m₁.rest,
      ⟨m₁.taken ++ m₂.taken, m₂.rest, m₁.groups ++ m₂.groups⟩ = m := by
  simp only [allMatches, List.mem_flatMap, List.mem_map]

lemma mem_group {name : String} {r : Regex} {s : List Char} {m : Match} :
    m ∈ (group name r).allMatches s ↔
      ∃ m₁ ∈ r.allMatches s, ⟨m₁.taken, m₁.rest, (name, m₁.taken) :: m₁.groups⟩ = m := by
  simp only [allMatches, List.mem_map]

/-- An expression without groups captures nothing. -/
lemma groups_eq_nil {r : Regex} {s : List Char} {m : Match} (h : m ∈ r.allMatches s)
    (hr : r.captures = []) : m.groups = [] := by
  rw [List.eq_nil_iff_forall_not_mem]
  intro g hg
  obtain ⟨r', hr', -⟩ := groups_accept h g hg
  rw [hr] at hr'
  cases hr'

section Sequences

variable {r r' : Regex} {s : List Char} {m : Match}

/-- A match of a sequence: a word of the first part, and a match of the second on what is left. -/
lemma split_seq (hr : r.captures = []) (h : m ∈ (seq r r').allMatches s) :
    ∃ w m', r.Accepts w ∧ s = w ++ (m'.taken ++ m'.rest) ∧
      m' ∈ r'.allMatches (m'.taken ++ m'.rest) ∧ m.rest = m'.rest ∧ m.groups = m'.groups := by
  obtain ⟨m₁, h₁, m₂, h₂, rfl⟩ := mem_seq.mp h
  have hrest := taken_append_rest h₂
  refine ⟨m₁.taken, m₂, accepts_of_mem h₁, ?_, ?_, rfl, ?_⟩
  · rw [hrest, taken_append_rest h₁]
  · rwa [hrest]
  · show m₁.groups ++ m₂.groups = m₂.groups
    rw [groups_eq_nil h₁ hr, List.nil_append]

lemma split_seq_group {name : String} (hr : r.captures = [])
    (h : m ∈ (seq (group name r) r').allMatches s) :
    ∃ w m', r.Accepts w ∧ s = w ++ (m'.taken ++ m'.rest) ∧
      m' ∈ r'.allMatches (m'.taken ++ m'.rest) ∧ m.rest = m'.rest ∧
      m.groups = (name, w) :: m'.groups := by
  obtain ⟨m₁, h₁, m₂, h₂, rfl⟩ := mem_seq.mp h
  obtain ⟨m₀, h₀, rfl⟩ := mem_group.mp h₁
  have hrest := taken_append_rest h₂
  refine ⟨m₀.taken, m₂, accepts_of_mem h₀, ?_, ?_, rfl, ?_⟩
  · rw [hrest, taken_append_rest h₀]
  · rwa [hrest]
  · show ((name, m₀.taken) :: m₀.groups) ++ m₂.groups = (name, m₀.taken) :: m₂.groups
    rw [groups_eq_nil h₀ hr, List.cons_append, List.nil_append]

end Sequences

/-- The end of a string that holds no newline. -/
lemma rest_eq_nil_of_eos {s : List Char} {m : Match} (h : m ∈ eos.allMatches s) (hs : '\n' ∉ s) :
    s = [] ∧ m = ⟨[], [], []⟩ := by
  simp only [allMatches] at h
  split at h
  · rename_i hend
    rcases hend with rfl | rfl
    · exact ⟨rfl, List.mem_singleton.mp h⟩
    · exact absurd (List.mem_singleton.mpr rfl) hs
  · cases h

lemma firstMatch_one {p : Char → Bool} {c : Char} (hc : p c = true) (s : List Char) :
    (one p).firstMatch (c :: s) = some ⟨[c], s, []⟩ := by
  simp [firstMatch, allMatches, hc]

lemma head?_lengths_greedy {lo : ℕ} {hi : Option ℕ} {n : ℕ} (hlo : lo ≤ hi.elim n (min n)) :
    (lengths lo hi true n).head? = some (hi.elim n (min n)) := by
  unfold lengths
  simp only [if_true]
  rw [List.range_succ, List.filter_append, List.reverse_append]
  simp [hlo]

/-- A greedy repetition first takes all it can. -/
lemma firstMatch_many {p : Char → Bool} {lo : ℕ} {hi : Option ℕ} {w s : List Char}
    (hw : ∀ c ∈ w, p c = true) (hs : ∀ c ∈ s.head?, p c = false) (hlo : lo ≤ w.length)
    (hhi : ∀ n ∈ hi, w.length ≤ n) :
    (many p lo hi true).firstMatch (w ++ s) = some ⟨w, s, []⟩ := by
  have htake : (w ++ s).takeWhile p = w := by
    rw [List.takeWhile_append_of_pos hw]
    cases s with
    | nil => simp
    | cons c s => simp [hs c rfl]
  have hlength : hi.elim w.length (min w.length) = w.length := by
    cases hi with
    | none => rfl
    | some n => exact min_eq_left (hhi n rfl)
  have hhead : (lengths lo hi true w.length).head? = some (hi.elim w.length (min w.length)) :=
    head?_lengths_greedy (by rwa [hlength])
  unfold firstMatch
  rw [allMatches, htake, List.head?_map, hhead, hlength]
  simp

/-- A repetition of an exact count takes it. -/
lemma firstMatch_many_exact {p : Char → Bool} {n : ℕ} {greedy : Bool} {w s : List Char}
    (hw : ∀ c ∈ w, p c = true) (hlength : w.length = n) :
    (many p n (some n) greedy).firstMatch (w ++ s) = some ⟨w, s, []⟩ := by
  have hle : n ≤ ((w ++ s).takeWhile p).length := by
    rw [List.takeWhile_append_of_pos hw, List.length_append]
    omega
  have hmin : min ((w ++ s).takeWhile p).length n = n := min_eq_right hle
  have hall : (List.range (n + 1)).filter (fun k => decide (n ≤ k)) = [n] := by
    rw [List.range_succ, List.filter_append]
    have hnone : (List.range n).filter (fun k => decide (n ≤ k)) = [] := by
      simp [List.filter_eq_nil_iff]
    simp [hnone]
  have hlengths : lengths n (some n) greedy ((w ++ s).takeWhile p).length = [n] := by
    unfold lengths
    simp only [Option.elim_some, hmin, hall]
    cases greedy with
    | true => rfl
    | false => rfl
  unfold firstMatch
  rw [allMatches, hlengths]
  subst hlength
  simp

lemma firstMatch_seq {r r' : Regex} {s : List Char} {m m' : Match} (h : r.firstMatch s = some m)
    (h' : r'.firstMatch m.rest = some m') :
    (seq r r').firstMatch s = some ⟨m.taken ++ m'.taken, m'.rest, m.groups ++ m'.groups⟩ := by
  obtain ⟨ms, hms⟩ := List.head?_eq_some_iff.mp h
  obtain ⟨ms', hms'⟩ := List.head?_eq_some_iff.mp h'
  unfold firstMatch
  rw [allMatches, hms, List.flatMap_cons, hms']
  rfl

lemma firstMatch_group {r : Regex} {s : List Char} {m : Match} (h : r.firstMatch s = some m)
    (name : String) :
    (group name r).firstMatch s = some ⟨m.taken, m.rest, (name, m.taken) :: m.groups⟩ := by
  obtain ⟨ms, hms⟩ := List.head?_eq_some_iff.mp h
  unfold firstMatch
  rw [allMatches, hms]
  rfl

lemma firstMatch_opt_some {r : Regex} {s : List Char} {m : Match} (h : r.firstMatch s = some m) :
    (opt r).firstMatch s = some m := by
  obtain ⟨ms, hms⟩ := List.head?_eq_some_iff.mp h
  unfold firstMatch
  rw [allMatches, hms]
  rfl

lemma firstMatch_opt_none {r : Regex} {s : List Char} (h : r.firstMatch s = none) :
    (opt r).firstMatch s = some ⟨[], s, []⟩ := by
  have hnil : r.allMatches s = [] := List.head?_eq_none_iff.mp h
  unfold firstMatch
  rw [allMatches, hnil]
  rfl

/-- What the first match of an optional part leaves. -/
def after (r : Regex) (s : List Char) : List Char := ((r.firstMatch s).map Match.rest).getD s

lemma firstMatch_opt (r : Regex) (s : List Char) :
    ∃ m, (opt r).firstMatch s = some m ∧ m.rest = after r s := by
  unfold after
  rcases h : r.firstMatch s with _ | m
  · exact ⟨_, firstMatch_opt_none h, rfl⟩
  · exact ⟨m, firstMatch_opt_some h, rfl⟩

lemma after_split (r : Regex) (s : List Char) :
    ∃ w, (opt r).Accepts w ∧ s = w ++ after r s := by
  obtain ⟨m, hm, hrest⟩ := firstMatch_opt r s
  have hmem := mem_of_firstMatch hm
  exact ⟨m.taken, accepts_of_mem hmem, by rw [← hrest, taken_append_rest hmem]⟩

lemma after_suffix (r : Regex) (s : List Char) : after r s <:+ s := by
  obtain ⟨w, -, hsplit⟩ := after_split r s
  exact ⟨w, hsplit.symm⟩

lemma after_eq_rest {r : Regex} {s : List Char} {m : Match} (h : r.firstMatch s = some m) :
    after r s = m.rest := by
  unfold after
  rw [h]
  rfl

/-- An optional part that takes nothing leaves everything. -/
lemma after_cases (r : Regex) (s : List Char) :
    after r s = s ∨ ∃ w, r.Accepts w ∧ s = w ++ after r s := by
  rcases h : r.firstMatch s with _ | m
  · left
    unfold after
    rw [h]
    rfl
  · right
    have hmem := mem_of_firstMatch h
    exact ⟨m.taken, accepts_of_mem hmem, by rw [after_eq_rest h, taken_append_rest hmem]⟩

/-- A word of the first part and a match of the second make a match. -/
lemma exists_mem_seq {r r' : Regex} (hfree : r.EosFree) {u v : List Char} (hu : r.Accepts u)
    {m' : Match} (hm' : m' ∈ r'.allMatches v) :
    ∃ m ∈ (seq r r').allMatches (u ++ v), m.rest = m'.rest := by
  obtain ⟨m₁, hm₁, htaken⟩ := exists_mem_of_accepts hfree hu v
  have hrest : m₁.rest = v := by
    have hsplit := taken_append_rest hm₁
    rw [htaken] at hsplit
    exact List.append_cancel_left hsplit
  subst hrest
  exact ⟨_, mem_seq.mpr ⟨m₁, hm₁, m', hm', rfl⟩, rfl⟩

end Regex
