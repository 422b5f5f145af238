import Mathlib.Data.List.Basic
import Mathlib.Data.List.TakeDrop

/-- Patterns in the sense of ECMAScript, in the fragment whose repetitions
range over one character and whose optional parts hold no capture. -/
inductive Regex (α : Type*) where
  | empty
  | char (p : α → Bool)
  | star (p : α → Bool)
  | opt (r : Regex α)
  | group (r : Regex α)
  | seq (r s : Regex α)

namespace Regex
variable {α : Type*}

/-- One or more characters, greedy. -/
def plus (p : α → Bool) : Regex α := seq (char p) (star p)

/-- The characters of `w`, each one literally. -/
def lit [DecidableEq α] (w : List α) : Regex α :=
  w.foldr (fun c r => seq (char (fun d => d == c)) r) empty

/-- The rests that a repetition of `p` can leave, the longest repetition first. -/
def rests (p : α → Bool) : List α → List (List α)
  | [] => [[]]
  | c :: cs => if p c then rests p cs ++ [c :: cs] else [c :: cs]

/-- Every way to match a prefix of the text, in the order in which the
backtracking matcher tries them: the captures made and the rest of the text. -/
def runs : Regex α → List α → List (List (List α) × List α)
  | empty, s => [([], s)]
  | char _, [] => []
  | char p, c :: cs => if p c then [([], cs)] else []
  | star p, s => (rests p s).map fun t => ([], t)
  | opt r, s => runs r s ++ [([], s)]
  | group r, s => (runs r s).map fun m => (s.take (s.length - m.2.length) :: m.1, m.2)
  | seq r r', s => (runs r s).flatMap fun m => (runs r' m.2).map fun m' => (m.1 ++ m'.1, m'.2)

section Runs
variable (p : α → Bool) (r r' : Regex α) (s : List α)

@[simp] theorem runs_empty : runs empty s = [([], s)] := rfl

@[simp] theorem runs_char_nil : runs (char p) [] = [] := rfl

@[simp] theorem runs_char_cons (c : α) (cs : List α) :
    runs (char p) (c :: cs) = if p c then [([], cs)] else [] := rfl

@[simp] theorem runs_star : runs (star p) s = (rests p s).map fun t => ([], t) := rfl

@[simp] theorem runs_opt : runs (opt r) s = runs r s ++ [([], s)] := rfl

@[simp] theorem runs_group :
    runs (group r) s = (runs r s).map fun m => (s.take (s.length - m.2.length) :: m.1, m.2) := rfl

@[simp] theorem runs_seq : runs (seq r r') s =
    (runs r s).flatMap fun m => (runs r' m.2).map fun m' => (m.1 ++ m'.1, m'.2) := rfl

end Runs

/-- `std::regex_search`: the captures of the first match at the leftmost
position that has one. -/
def search (r : Regex α) : List α → Option (List (List α))
  | [] => (runs r []).head?.map Prod.fst
  | c :: cs =>
    match (runs r (c :: cs)).head? with
    | some m => some m.1
    | none => search r cs

/-- `std::regex_match`: the captures of the first match that uses up the text. -/
def fullMatch (r : Regex α) (s : List α) : Option (List (List α)) :=
  ((runs r s).find? fun m => m.2.isEmpty).map Prod.fst

/-- No match of `r` starts with a character of `p`. -/
def Fails (r : Regex α) (p : α → Bool) : Prop :=
  ∀ c cs, p c = true → runs r (c :: cs) = []

theorem runs_char_seq_cons (p : α → Bool) (r : Regex α) (c : α) (cs : List α) :
    runs (seq (char p) r) (c :: cs) = if p c then runs r cs else [] := by
  by_cases accepted : p c = true <;> simp [accepted]

theorem runs_seq_assoc (a b r : Regex α) (s : List α) :
    runs (seq (seq a b) r) s = runs (seq a (seq b r)) s := by
  simp only [runs_seq, List.flatMap_assoc, List.map_flatMap, List.flatMap_map, List.map_map,
    Function.comp_def, List.append_assoc]

/-- A literal consumes exactly its own characters. -/
theorem runs_lit_seq [DecidableEq α] (w : List α) (r : Regex α) (s : List α) :
    runs (seq (lit w) r) s = if w <+: s then runs r (s.drop w.length) else [] := by
  induction w generalizing s with
  | nil => simp [lit]
  | cons c w ih =>
    change runs (seq (seq (char fun d => d == c) (lit w)) r) s = _
    rw [runs_seq_assoc]
    cases s with
    | nil => simp
    | cons d s =>
      rw [runs_char_seq_cons, ih]
      by_cases same : d = c
      · subst same
        simp
      · have different : ¬ (c :: w <+: d :: s) := by
          intro before
          exact same (List.cons_prefix_cons.mp before).1.symm
        simp [same, different]

theorem runs_lit_seq_append [DecidableEq α] (w : List α) (r : Regex α) (s : List α) :
    runs (seq (lit w) r) (w ++ s) = runs r s := by
  rw [runs_lit_seq, if_pos (List.prefix_append w s), List.drop_left]

/-- Whatever continues after a repetition and cannot start with one of its
characters sees all of them taken: giving any back never helps. -/
theorem flatMap_rests {β : Type*} {p : α → Bool} {k : List α → List β}
    (fails : ∀ c cs, p c = true → k (c :: cs) = []) (s : List α) :
    (rests p s).flatMap k = k (s.dropWhile p) := by
  induction s with
  | nil => simp [rests]
  | cons c cs ih =>
    by_cases accepted : p c = true
    · simp [rests, accepted, ih, fails c cs accepted]
    · simp [rests, accepted]

theorem runs_star_seq {r : Regex α} {p : α → Bool} (fails : Fails r p) (s : List α) :
    runs (seq (star p) r) s = runs r (s.dropWhile p) := by
  rw [← flatMap_rests fails]
  simp [List.flatMap_map]

theorem length_sub_dropWhile (p : α → Bool) (s : List α) :
    s.length - (s.dropWhile p).length = (s.takeWhile p).length := by
  have whole := congrArg List.length (@List.takeWhile_append_dropWhile _ p s)
  rw [List.length_append] at whole
  omega

theorem take_sub_dropWhile (p : α → Bool) (s : List α) :
    s.take (s.length - (s.dropWhile p).length) = s.takeWhile p := by
  rw [length_sub_dropWhile]
  exact (List.prefix_iff_eq_take.mp (List.takeWhile_prefix p)).symm

/-- What a group before `r` matches, with the capture spelled out. -/
theorem runs_group_seq (a r : Regex α) (s : List α) :
    runs (seq (group a) r) s = (runs a s).flatMap fun m =>
      (runs r m.2).map fun m' => (s.take (s.length - m.2.length) :: (m.1 ++ m'.1), m'.2) := by
  simp [List.flatMap_map]

/-- The capturing form of `runs_star_seq`. -/
theorem runs_group_star_seq {r : Regex α} {p : α → Bool} (fails : Fails r p) (s : List α) :
    runs (seq (group (star p)) r) s =
      (runs r (s.dropWhile p)).map fun m => (s.takeWhile p :: m.1, m.2) := by
  have shape := flatMap_rests
    (k := fun t => (runs r t).map fun m => (s.take (s.length - t.length) :: m.1, m.2))
    (fun c cs accepted => by rw [fails c cs accepted, List.map_nil]) s
  rw [take_sub_dropWhile] at shape
  rw [runs_group_seq, ← shape]
  simp [List.flatMap_map]

theorem fails_char_seq {p q : α → Bool} (r : Regex α) (apart : ∀ c, q c = true → p c = false) :
    Fails (seq (char p) r) q := by
  intro c cs started
  rw [runs_char_seq_cons, apart c started]
  rfl

theorem search_cons_of_fails {r : Regex α} {c : α} {cs : List α} (fails : runs r (c :: cs) = []) :
    search r (c :: cs) = search r cs := by
  simp [search, fails]

theorem search_of_head {r : Regex α} {s : List α} {m : List (List α) × List α}
    (found : (runs r s).head? = some m) : search r s = some m.1 := by
  cases s with
  | nil => simp [search, found]
  | cons c cs => simp [search, found]

/-- A stretch of text in which the pattern never starts is skipped. -/
theorem search_append_of_fails {r : Regex α} {p : α → Bool} (fails : Fails r p) {s : List α}
    (plain : ∀ c ∈ s, p c = true) (t : List α) : search r (s ++ t) = search r t := by
  induction s with
  | nil => rfl
  | cons c cs ih =>
    rw [List.cons_append, search_cons_of_fails (fails c (cs ++ t) (plain c List.mem_cons_self))]
    exact ih fun d member => plain d (List.mem_cons_of_mem c member)

theorem head_rests (p : α → Bool) (s : List α) : (rests p s).head? = some (s.dropWhile p) := by
  induction s with
  | nil => rfl
  | cons c cs ih =>
    by_cases accepted : p c = true
    · simp [rests, accepted, ih]
    · simp [rests, accepted]

theorem head_runs_seq {r r' : Regex α} {s : List α} {m m' : List (List α) × List α}
    (first : (runs r s).head? = some m) (second : (runs r' m.2).head? = some m') :
    (runs (seq r r') s).head? = some (m.1 ++ m'.1, m'.2) := by
  obtain ⟨ms, shape⟩ := List.head?_eq_some_iff.mp first
  obtain ⟨ms', shape'⟩ := List.head?_eq_some_iff.mp second
  simp [shape, shape']

theorem head_runs_opt {r : Regex α} {s : List α} {m : List (List α) × List α}
    (found : (runs r s).head? = some m) : (runs (opt r) s).head? = some m := by
  obtain ⟨ms, shape⟩ := List.head?_eq_some_iff.mp found
  simp [shape]

theorem head_runs_opt_of_fails {r : Regex α} {s : List α} (fails : runs r s = []) :
    (runs (opt r) s).head? = some ([], s) := by
  simp [fails]

/-- The greedy match of a repetition that has something to take. -/
theorem head_runs_plus {p : α → Bool} {taken : List α} (all : ∀ c ∈ taken, p c = true)
    (nonempty : taken ≠ []) {rest : List α} (stop : rest.takeWhile p = []) :
    (runs (plus p) (taken ++ rest)).head? = some ([], rest) := by
  have whole := @List.takeWhile_append_dropWhile _ p rest
  rw [stop, List.nil_append] at whole
  cases taken with
  | nil => exact absurd rfl nonempty
  | cons c cs =>
    have tail : ∀ d ∈ cs, p d = true := fun d member => all d (List.mem_cons_of_mem c member)
    have one : (runs (char p) (c :: (cs ++ rest))).head? = some ([], cs ++ rest) := by
      simp [all c List.mem_cons_self]
    have many : (runs (star p) (cs ++ rest)).head? = some ([], rest) := by
      simp [head_rests, List.dropWhile_append_of_pos tail, whole]
    exact head_runs_seq one many

/-- A group captures the text that its pattern uses up. -/
theorem head_runs_group {r : Regex α} {taken rest : List α} {caps : List (List α)}
    (found : (runs r (taken ++ rest)).head? = some (caps, rest)) :
    (runs (group r) (taken ++ rest)).head? = some (taken :: caps, rest) := by
  obtain ⟨ms, shape⟩ := List.head?_eq_some_iff.mp found
  simp [shape]

/-- The texts that a pattern matches, with the captures of a match. -/
inductive Matches : Regex α → List α → List (List α) → Prop
  | empty : Matches empty [] []
  | char {p c} : p c = true → Matches (char p) [c] []
  | star {p w} : (∀ c ∈ w, p c = true) → Matches (star p) w []
  | skip {r} : Matches (opt r) [] []
  | take {r w caps} : Matches r w caps → Matches (opt r) w caps
  | group {r w caps} : Matches r w caps → Matches (group r) w (w :: caps)
  | seq {r r' w w' caps caps'} : Matches r w caps → Matches r' w' caps' →
      Matches (seq r r') (w ++ w') (caps ++ caps')

theorem mem_rests {p : α → Bool} {s t : List α} :
    t ∈ rests p s ↔ ∃ w, s = w ++ t ∧ ∀ c ∈ w, p c = true := by
  induction s with
  | nil =>
    simp only [rests, List.mem_singleton]
    constructor
    · rintro rfl
      exact ⟨[], rfl, by simp⟩
    · rintro ⟨w, split, _⟩
      exact (List.append_eq_nil_iff.mp split.symm).2
  | cons c cs ih =>
    by_cases accepted : p c = true
    · simp only [rests, accepted, if_true, List.mem_append, ih, List.mem_singleton]
      constructor
      · rintro (⟨w, rfl, all⟩ | rfl)
        · exact ⟨c :: w, rfl, by simpa [accepted] using all⟩
        · exact ⟨[], rfl, by simp⟩
      · rintro ⟨w, split, all⟩
        cases w with
        | nil => exact Or.inr split.symm
        | cons d w =>
          obtain ⟨rfl, rest⟩ := List.cons.inj split
          exact Or.inl ⟨w, rest, fun e member => all e (List.mem_cons_of_mem _ member)⟩
    · simp only [rests, accepted, Bool.false_eq_true, if_false, List.mem_singleton]
      constructor
      · rintro rfl
        exact ⟨[], rfl, by simp⟩
      · rintro ⟨w, split, all⟩
        cases w with
        | nil => exact split.symm
        | cons d w =>
          obtain ⟨rfl, _⟩ := List.cons.inj split
          exact absurd (all c List.mem_cons_self) accepted

/-- The matcher enumerates exactly the matches of the pattern. -/
theorem mem_runs_iff {r : Regex α} {s t : List α} {caps : List (List α)} :
    (caps, t) ∈ runs r s ↔ ∃ w, s = w ++ t ∧ Matches r w caps := by
  induction r generalizing s t caps with
  | empty =>
    simp only [runs_empty, List.mem_singleton, Prod.mk.injEq]
    constructor
    · rintro ⟨rfl, rfl⟩
      exact ⟨[], rfl, .empty⟩
    · rintro ⟨w, rfl, matched⟩
      cases matched
      exact ⟨rfl, rfl⟩
  | char p =>
    constructor
    · intro member
      cases s with
      | nil => simp at member
      | cons c cs =>
        by_cases accepted : p c = true
        · simp only [runs_char_cons, accepted, if_true, List.mem_singleton, Prod.mk.injEq] at member
          obtain ⟨rfl, rfl⟩ := member
          exact ⟨[c], rfl, .char accepted⟩
        · simp [accepted] at member
    · rintro ⟨w, rfl, matched⟩
      cases matched with
      | char accepted => simp [accepted]
  | star p =>
    simp only [runs_star, List.mem_map, Prod.mk.injEq]
    constructor
    · rintro ⟨u, member, rfl, rfl⟩
      obtain ⟨w, split, all⟩ := mem_rests.mp member
      exact ⟨w, split, .star all⟩
    · rintro ⟨w, split, matched⟩
      cases matched with
      | star all => exact ⟨t, mem_rests.mpr ⟨w, split, all⟩, rfl, rfl⟩
  | opt r ih =>
    simp only [runs_opt, List.mem_append, ih, List.mem_singleton, Prod.mk.injEq]
    constructor
    · rintro (⟨w, split, matched⟩ | ⟨rfl, rfl⟩)
      · exact ⟨w, split, .take matched⟩
      · exact ⟨[], rfl, .skip⟩
    · rintro ⟨w, rfl, matched⟩
      cases matched with
      | skip => exact Or.inr ⟨rfl, rfl⟩
      | take inner => exact Or.inl ⟨w, rfl, inner⟩
  | group r ih =>
    simp only [runs_group, List.mem_map, Prod.mk.injEq]
    constructor
    · rintro ⟨⟨inner, rest⟩, member, rfl, rfl⟩
      obtain ⟨w, rfl, matched⟩ := ih.mp member
      exact ⟨w, rfl, by simpa using Matches.group matched⟩
    · rintro ⟨w, rfl, matched⟩
      cases matched with
      | @group _ _ inner matched => exact ⟨(inner, t), ih.mpr ⟨w, rfl, matched⟩, by simp, rfl⟩
  | seq r r' ih ih' =>
    simp only [runs_seq, List.mem_flatMap, List.mem_map, Prod.mk.injEq]
    constructor
    · rintro ⟨⟨first, middle⟩, member, ⟨second, rest⟩, member', rfl, rfl⟩
      obtain ⟨w, rfl, matched⟩ := ih.mp member
      obtain ⟨w', rfl, matched'⟩ := ih'.mp member'
      exact ⟨w ++ w', by simp, .seq matched matched'⟩
    · rintro ⟨w, rfl, matched⟩
      cases matched with
      | @seq _ _ u u' first second matched matched' =>
        exact ⟨(first, u' ++ t), ih.mpr ⟨u, by simp, matched⟩, (second, t), ih'.mpr ⟨u', rfl, matched'⟩, rfl, rfl⟩

/-- What a search finds is a match of some part of the text. -/
theorem matches_of_search {r : Regex α} {s : List α} {caps : List (List α)} (found : search r s = some caps) :
    ∃ before w after, s = before ++ (w ++ after) ∧ Matches r w caps := by
  have here {s : List α} {m : List (List α) × List α} (first : (runs r s).head? = some m) :
      ∃ before w after, s = before ++ (w ++ after) ∧ Matches r w m.1 := by
    obtain ⟨w, split, matched⟩ := mem_runs_iff.mp (List.mem_of_mem_head? first : (m.1, m.2) ∈ runs r s)
    exact ⟨[], w, m.2, split, matched⟩
  induction s with
  | nil =>
    obtain ⟨m, first, rfl⟩ := Option.map_eq_some_iff.mp found
    exact here first
  | cons c cs ih =>
    rw [search] at found
    split at found
    · rename_i m first
      cases found
      exact here first
    · obtain ⟨before, w, after, rfl, matched⟩ := ih found
      exact ⟨c :: before, w, after, rfl, matched⟩

theorem matches_of_fullMatch {r : Regex α} {s : List α} {caps : List (List α)}
    (found : fullMatch r s = some caps) : Matches r s caps := by
  obtain ⟨⟨caps', t⟩, first, rfl⟩ := Option.map_eq_some_iff.mp found
  have member := List.mem_of_find?_eq_some first
  have finished : t = [] := by simpa using List.find?_some first
  obtain ⟨w, split, matched⟩ := mem_runs_iff.mp member
  rw [finished, List.append_nil] at split
  rwa [split]

/-- A text that the pattern matches is matched with some captures. -/
theorem fullMatch_of_matches {r : Regex α} {s : List α} {caps : List (List α)} (matched : Matches r s caps) :
    ∃ caps', fullMatch r s = some caps' := by
  have member : (caps, []) ∈ runs r s := mem_runs_iff.mpr ⟨s, (List.append_nil s).symm, matched⟩
  have found : ((runs r s).find? fun m => m.2.isEmpty).isSome = true :=
    List.find?_isSome.mpr ⟨_, member, rfl⟩
  obtain ⟨m, first⟩ := Option.isSome_iff_exists.mp found
  exact ⟨m.1, by rw [fullMatch, first]; rfl⟩

section Inversion
variable {r r' : Regex α} {p : α → Bool} {s : List α} {caps : List (List α)}

theorem matches_char_iff : Matches (char p) s caps ↔ ∃ c, p c = true ∧ s = [c] ∧ caps = [] := by
  constructor
  · rintro ⟨⟩
    exact ⟨_, by assumption, rfl, rfl⟩
  · rintro ⟨c, accepted, rfl, rfl⟩
    exact .char accepted

theorem matches_star_iff : Matches (star p) s caps ↔ (∀ c ∈ s, p c = true) ∧ caps = [] := by
  constructor
  · rintro ⟨⟩
    exact ⟨by assumption, rfl⟩
  · rintro ⟨all, rfl⟩
    exact .star all

theorem matches_opt_iff : Matches (opt r) s caps ↔ (s = [] ∧ caps = []) ∨ Matches r s caps := by
  constructor
  · intro matched
    cases matched with
    | skip => exact Or.inl ⟨rfl, rfl⟩
    | take inner => exact Or.inr inner
  · rintro (⟨rfl, rfl⟩ | inner)
    · exact .skip
    · exact .take inner

theorem matches_group_iff : Matches (group r) s caps ↔ ∃ inner, caps = s :: inner ∧ Matches r s inner := by
  constructor
  · intro matched
    cases matched with
    | group inner => exact ⟨_, rfl, inner⟩
  · rintro ⟨inner, rfl, matched⟩
    exact .group matched

theorem matches_seq_iff : Matches (seq r r') s caps ↔
    ∃ w w' c c', s = w ++ w' ∧ caps = c ++ c' ∧ Matches r w c ∧ Matches r' w' c' := by
  constructor
  · intro matched
    cases matched with
    | seq first second => exact ⟨_, _, _, _, rfl, rfl, first, second⟩
  · rintro ⟨w, w', c, c', rfl, rfl, first, second⟩
    exact .seq first second

theorem matches_plus_iff : Matches (plus p) s caps ↔ s ≠ [] ∧ (∀ c ∈ s, p c = true) ∧ caps = [] := by
  rw [plus, matches_seq_iff]
  constructor
  · rintro ⟨w, w', c, c', rfl, rfl, first, second⟩
    obtain ⟨d, accepted, rfl, rfl⟩ := matches_char_iff.mp first
    obtain ⟨all, rfl⟩ := matches_star_iff.mp second
    exact ⟨by simp, by simpa [accepted] using all, rfl⟩
  · rintro ⟨nonempty, all, rfl⟩
    cases s with
    | nil => exact absurd rfl nonempty
    | cons d s =>
      exact ⟨[d], s, [], [], rfl, rfl, .char (all d List.mem_cons_self),
        .star fun e member => all e (List.mem_cons_of_mem d member)⟩

theorem eq_of_matches_lit [DecidableEq α] {w : List α} (matched : Matches (lit w) s caps) : s = w ∧ caps = [] := by
  induction w generalizing s caps with
  | nil =>
    cases matched
    exact ⟨rfl, rfl⟩
  | cons c w ih =>
    obtain ⟨u, v, d, e, rfl, rfl, first, rest⟩ := matches_seq_iff.mp matched
    obtain ⟨other, same, rfl, rfl⟩ := matches_char_iff.mp first
    obtain ⟨rfl, rfl⟩ := ih rest
    exact ⟨by rw [beq_iff_eq.mp same]; rfl, rfl⟩

end Inversion

/-- A stretch of characters of a class, up to something outside it, is determined by the text. -/
theorem span_unique {p : α → Bool} {a a' b b' : List α} (all : ∀ c ∈ a, p c = true)
    (all' : ∀ c ∈ a', p c = true) (stop : b.takeWhile p = []) (stop' : b'.takeWhile p = [])
    (same : a ++ b = a' ++ b') : a = a' ∧ b = b' := by
  have taken := congrArg (List.takeWhile p) same
  rw [List.takeWhile_append_of_pos all, List.takeWhile_append_of_pos all', stop, stop', List.append_nil,
    List.append_nil] at taken
  subst taken
  exact ⟨rfl, List.append_cancel_left same⟩

end Regex
