import SysNetMon.Server
import SysNetMon.Text.Framing

namespace SysNetMon
open Bytes Decimal Regex

/-- The part of the alert pattern that captures the threshold. -/
def numeralPattern : Regex UInt8 := seq (plus isdigit) (opt (seq (char fun ch => ch == point) (plus isdigit)))

/-- A text of the form of an alert command, cut at the parts of the pattern. -/
structure AlertText where
  lead : Bytes
  letters : Bytes
  gap : Bytes
  word : Bytes
  beforeComparison : Bytes
  comparison : UInt8
  beforeNumeral : Bytes
  numeral : Bytes
  beforePercent : Bytes
  percent : Bytes
  trail : Bytes
  lead_blank : ∀ ch ∈ lead, isspace ch = true
  letters_eq : lower_copy letters = ascii "alert"
  gap_ne_nil : gap ≠ []
  gap_blank : ∀ ch ∈ gap, isspace ch = true
  word_ne_nil : word ≠ []
  word_letters : ∀ ch ∈ word, isletter ch = true
  beforeComparison_blank : ∀ ch ∈ beforeComparison, isspace ch = true
  comparison_eq : comparison = 62 ∨ comparison = 60
  beforeNumeral_blank : ∀ ch ∈ beforeNumeral, isspace ch = true
  numeral_form : Matches numeralPattern numeral []
  beforePercent_blank : ∀ ch ∈ beforePercent, isspace ch = true
  percent_eq : percent = [] ∨ percent = [37]
  trail_blank : ∀ ch ∈ trail, isspace ch = true

/-- A character of a threshold numeral. -/
def isnumeral (ch : UInt8) : Bool := isdigit ch || ch == point

theorem isletter_not_space {ch : UInt8} (letter : isletter ch = true) : isspace ch = false := by
  rw [Bool.eq_false_iff]
  intro space
  rw [isspace_iff] at space
  simp only [isletter, Bool.or_eq_true, Bool.and_eq_true, decide_eq_true_eq, beq_iff_eq, UInt8.le_iff_toNat_le,
    ← UInt8.toNat_inj, UInt8.reduceToNat] at letter
  omega

theorem isnumeral_not_space {ch : UInt8} (numeral : isnumeral ch = true) : isspace ch = false := by
  rw [Bool.eq_false_iff]
  intro space
  rw [isspace_iff] at space
  simp only [isnumeral, Bool.or_eq_true, isdigit_iff, beq_iff_eq, ← UInt8.toNat_inj, point,
    UInt8.reduceToNat] at numeral
  omega

theorem not_of_space {p : UInt8 → Bool} (apart : ∀ {ch}, p ch = true → isspace ch = false) {ch : UInt8}
    (space : isspace ch = true) : p ch = false := by
  by_contra accepted
  rw [Bool.not_eq_false] at accepted
  rw [apart accepted] at space
  cases space

/-- A stretch outside a class stops a repetition of the class, if it is there
or what follows it does. -/
theorem takeWhile_append_eq_nil {p : UInt8 → Bool} {s t : Bytes} (outside : ∀ ch ∈ s, p ch = false)
    (stop : s = [] → t.takeWhile p = []) : (s ++ t).takeWhile p = [] := by
  cases s with
  | nil => exact stop rfl
  | cons ch cs =>
    rw [List.cons_append, List.takeWhile_cons_of_neg]
    rw [outside ch List.mem_cons_self]
    exact Bool.false_ne_true

theorem rdropWhile_append_of_pos {p : UInt8 → Bool} {s t : Bytes} (all : ∀ ch ∈ t, p ch = true) :
    (s ++ t).rdropWhile p = s.rdropWhile p := by
  rw [List.rdropWhile, List.reverse_append, List.dropWhile_append_of_pos, List.rdropWhile]
  exact fun ch member => all ch (List.mem_reverse.mp member)

/-- Trimming removes white space around a text that starts and ends with something else. -/
theorem trim_append {lead s trail : Bytes} {first last : UInt8} (leadBlank : ∀ ch ∈ lead, isspace ch = true)
    (trailBlank : ∀ ch ∈ trail, isspace ch = true) (firstSolid : isspace first = false)
    (lastSolid : isspace last = false) (head : s.head? = some first) (back : s.getLast? = some last) :
    trim (lead ++ (s ++ trail)) = s := by
  obtain ⟨rest, rfl⟩ := List.head?_eq_some_iff.mp head
  have front : (lead ++ (first :: rest ++ trail)).dropWhile isspace = first :: rest ++ trail := by
    rw [List.dropWhile_append_of_pos leadBlank, List.cons_append, List.dropWhile_cons_of_neg (by simp [firstSolid])]
  rw [trim, front, rdropWhile_append_of_pos trailBlank]
  obtain ⟨start, shape⟩ := List.getLast?_eq_some_iff.mp back
  rw [shape]
  exact List.rdropWhile_concat_neg isspace start last (by simp [lastSolid])

theorem numeral_spec {numeral : Bytes} {captures : List Bytes} (form : Matches numeralPattern numeral captures) :
    numeral ≠ [] ∧ (∀ ch ∈ numeral, isnumeral ch = true) ∧ captures = [] := by
  obtain ⟨whole, fraction, c, c', rfl, rfl, first, second⟩ := matches_seq_iff.mp form
  obtain ⟨nonempty, digits, rfl⟩ := matches_plus_iff.mp first
  have wholeNumeral : ∀ ch ∈ whole, isnumeral ch = true := fun ch member => by simp [isnumeral, digits ch member]
  rcases matches_opt_iff.mp second with ⟨rfl, rfl⟩ | present
  · exact ⟨by simp [nonempty], by simpa using wholeNumeral, rfl⟩
  · obtain ⟨dot, ds, c, c', rfl, rfl, isDot, rest⟩ := matches_seq_iff.mp present
    obtain ⟨d, same, rfl, rfl⟩ := matches_char_iff.mp isDot
    obtain ⟨-, digits', rfl⟩ := matches_plus_iff.mp rest
    refine ⟨by simp, fun ch member => ?_, rfl⟩
    rcases List.mem_append.mp member with inWhole | inFraction
    · exact wholeNumeral ch inWhole
    · rcases List.mem_cons.mp inFraction with rfl | later
      · simp [isnumeral, beq_iff_eq.mp same]
      · simp [isnumeral, digits' ch later]

namespace AlertText

/-- What a text shows after the command word, up to the percent sign. -/
def middle (parts : AlertText) (tail : Bytes) : Bytes :=
  47 :: (parts.letters ++ (parts.gap ++ (parts.word ++ (parts.beforeComparison ++
    (parts.comparison :: (parts.beforeNumeral ++ (parts.numeral ++ tail)))))))

def text (parts : AlertText) : Bytes :=
  parts.lead ++ parts.middle (parts.beforePercent ++ (parts.percent ++ parts.trail))

/-- What stands after the numeral once the text is trimmed. -/
def trimmedTail (parts : AlertText) : Bytes := if parts.percent = [] then [] else parts.beforePercent ++ [37]

theorem middle_append (parts : AlertText) (s t : Bytes) : parts.middle (s ++ t) = parts.middle s ++ t := by
  simp [middle]

theorem getLast?_middle (parts : AlertText) (tail : Bytes) {last : UInt8}
    (back : (parts.numeral ++ tail).getLast? = some last) : (parts.middle tail).getLast? = some last := by
  obtain ⟨start, shape⟩ := List.getLast?_eq_some_iff.mp back
  simp only [middle, shape, ← List.append_assoc, ← List.cons_append, List.getLast?_concat]

theorem trim_text (parts : AlertText) : trim parts.text = parts.middle parts.trimmedTail := by
  obtain ⟨nonempty, numerals, -⟩ := numeral_spec parts.numeral_form
  rcases parts.percent_eq with none | some
  · have blank : ∀ ch ∈ parts.beforePercent ++ parts.trail, isspace ch = true := by
      intro ch member
      rcases List.mem_append.mp member with before | after
      · exact parts.beforePercent_blank ch before
      · exact parts.trail_blank ch after
    have back := parts.getLast?_middle [] (by rw [List.append_nil, List.getLast?_eq_some_getLast nonempty])
    have whole : parts.text = parts.lead ++ (parts.middle [] ++ (parts.beforePercent ++ parts.trail)) := by
      rw [text, none, ← middle_append, List.nil_append, List.nil_append]
    rw [trimmedTail, if_pos none, whole]
    exact trim_append parts.lead_blank blank (by decide)
      (isnumeral_not_space (numerals _ (List.getLast_mem nonempty))) rfl back
  · have back := parts.getLast?_middle (parts.beforePercent ++ [37])
      (by rw [← List.append_assoc, List.getLast?_concat])
    rw [trimmedTail, if_neg (by simp [some]), text, some, ← List.append_assoc parts.beforePercent, middle_append]
    exact trim_append parts.lead_blank parts.trail_blank (by decide) (by decide) rfl back

theorem trimmedTail_stop (parts : AlertText) : parts.trimmedTail.takeWhile isnumeral = [] := by
  unfold trimmedTail
  split
  · rfl
  · exact takeWhile_append_eq_nil
      (fun ch member => not_of_space isnumeral_not_space (parts.beforePercent_blank ch member)) fun _ => rfl

/-- The trimmed text determines what the pattern captures. -/
theorem captures_eq {parts other : AlertText}
    (same : parts.middle parts.trimmedTail = other.middle other.trimmedTail) :
    parts.word = other.word ∧ parts.comparison = other.comparison ∧ parts.numeral = other.numeral := by
  have comparisonPlain (a : AlertText) : isspace a.comparison = false ∧ isletter a.comparison = false := by
    rcases a.comparison_eq with is | is <;> rw [is] <;> decide
  have length (a : AlertText) : a.letters.length = 5 := by
    have whole := congrArg List.length a.letters_eq
    rwa [lower_copy, List.length_map] at whole
  have wordStop (a : AlertText) (t : Bytes) : (a.word ++ t).takeWhile isspace = [] :=
    takeWhile_append_eq_nil (fun ch member => isletter_not_space (a.word_letters ch member))
      fun empty => absurd empty a.word_ne_nil
  have comparisonStop (a : AlertText) (t : Bytes) :
      (a.beforeComparison ++ (a.comparison :: t)).takeWhile isletter = [] :=
    takeWhile_append_eq_nil
      (fun ch member => not_of_space isletter_not_space (a.beforeComparison_blank ch member))
      fun _ => List.takeWhile_cons_of_neg (by simp [(comparisonPlain a).2])
  have signStop (a : AlertText) (t : Bytes) : (a.comparison :: t).takeWhile isspace = [] :=
    List.takeWhile_cons_of_neg (by simp [(comparisonPlain a).1])
  have numeralStop (a : AlertText) (t : Bytes) : (a.numeral ++ t).takeWhile isspace = [] := by
    obtain ⟨nonempty, numerals, -⟩ := numeral_spec a.numeral_form
    exact takeWhile_append_eq_nil (fun ch member => isnumeral_not_space (numerals ch member))
      fun empty => absurd empty nonempty
  have afterLetters := (List.append_inj (List.cons.inj same).2 (by rw [length, length])).2
  have afterGap := (span_unique parts.gap_blank other.gap_blank (wordStop _ _) (wordStop _ _) afterLetters).2
  obtain ⟨word, afterWord⟩ := span_unique parts.word_letters other.word_letters (comparisonStop _ _)
    (comparisonStop _ _) afterGap
  have atComparison := (span_unique parts.beforeComparison_blank other.beforeComparison_blank (signStop _ _)
    (signStop _ _) afterWord).2
  obtain ⟨comparison, afterComparison⟩ := List.cons.inj atComparison
  have atNumeral := (span_unique parts.beforeNumeral_blank other.beforeNumeral_blank (numeralStop _ _)
    (numeralStop _ _) afterComparison).2
  have numeral := (span_unique (numeral_spec parts.numeral_form).2.1 (numeral_spec other.numeral_form).2.1
    parts.trimmedTail_stop other.trimmedTail_stop atNumeral).1
  exact ⟨word, comparison, numeral⟩

/-- What the alert pattern matches and captures. -/
theorem of_matches {s : Bytes} {captures : List Bytes} (matched : Matches alertPattern s captures) :
    ∃ parts : AlertText, parts.text = s ∧ captures = [parts.word, [parts.comparison], parts.numeral] := by
  unfold alertPattern at matched
  obtain ⟨lead, _, _, _, rfl, rfl, isLead, afterLead⟩ := matches_seq_iff.mp matched
  obtain ⟨leadBlank, rfl⟩ := matches_star_iff.mp isLead
  obtain ⟨_, _, _, _, rfl, rfl, isSlash, afterSlash⟩ := matches_seq_iff.mp afterLead
  obtain ⟨slash, slashEq, rfl, rfl⟩ := matches_char_iff.mp isSlash
  obtain ⟨_, _, _, _, rfl, rfl, isA, afterA⟩ := matches_seq_iff.mp afterSlash
  obtain ⟨a, aEq, rfl, rfl⟩ := matches_char_iff.mp isA
  obtain ⟨_, _, _, _, rfl, rfl, isL, afterL⟩ := matches_seq_iff.mp afterA
  obtain ⟨l, lEq, rfl, rfl⟩ := matches_char_iff.mp isL
  obtain ⟨_, _, _, _, rfl, rfl, isE, afterE⟩ := matches_seq_iff.mp afterL
  obtain ⟨e, eEq, rfl, rfl⟩ := matches_char_iff.mp isE
  obtain ⟨_, _, _, _, rfl, rfl, isR, afterR⟩ := matches_seq_iff.mp afterE
  obtain ⟨r, rEq, rfl, rfl⟩ := matches_char_iff.mp isR
  obtain ⟨_, _, _, _, rfl, rfl, isT, afterT⟩ := matches_seq_iff.mp afterR
  obtain ⟨t, tEq, rfl, rfl⟩ := matches_char_iff.mp isT
  obtain ⟨gap, _, _, _, rfl, rfl, isGap, afterGap⟩ := matches_seq_iff.mp afterT
  obtain ⟨gapNonempty, gapBlank, rfl⟩ := matches_plus_iff.mp isGap
  obtain ⟨word, _, _, _, rfl, rfl, isWord, afterWord⟩ := matches_seq_iff.mp afterGap
  obtain ⟨_, rfl, wordMatched⟩ := matches_group_iff.mp isWord
  obtain ⟨wordNonempty, wordLetters, rfl⟩ := matches_plus_iff.mp wordMatched
  obtain ⟨beforeComparison, _, _, _, rfl, rfl, isBlank, afterBlank⟩ := matches_seq_iff.mp afterWord
  obtain ⟨beforeComparisonBlank, rfl⟩ := matches_star_iff.mp isBlank
  obtain ⟨_, _, _, _, rfl, rfl, isComparison, afterComparison⟩ := matches_seq_iff.mp afterBlank
  obtain ⟨_, rfl, comparisonMatched⟩ := matches_group_iff.mp isComparison
  obtain ⟨comparison, comparisonEq, rfl, rfl⟩ := matches_char_iff.mp comparisonMatched
  obtain ⟨beforeNumeral, _, _, _, rfl, rfl, isSecondBlank, afterSecondBlank⟩ := matches_seq_iff.mp afterComparison
  obtain ⟨beforeNumeralBlank, rfl⟩ := matches_star_iff.mp isSecondBlank
  obtain ⟨numeral, _, _, _, rfl, rfl, isNumeral, afterNumeral⟩ := matches_seq_iff.mp afterSecondBlank
  obtain ⟨_, rfl, numeralForm⟩ := matches_group_iff.mp isNumeral
  obtain ⟨-, -, rfl⟩ := numeral_spec numeralForm
  obtain ⟨beforePercent, _, _, _, rfl, rfl, isThirdBlank, afterThirdBlank⟩ := matches_seq_iff.mp afterNumeral
  obtain ⟨beforePercentBlank, rfl⟩ := matches_star_iff.mp isThirdBlank
  obtain ⟨percent, trail, _, _, rfl, rfl, isPercent, isTrail⟩ := matches_seq_iff.mp afterThirdBlank
  obtain ⟨trailBlank, rfl⟩ := matches_star_iff.mp isTrail
  have percentEq : percent = [] ∨ percent = [37] := by
    rcases matches_opt_iff.mp isPercent with ⟨rfl, -⟩ | present
    · exact Or.inl rfl
    · obtain ⟨sign, signEq, rfl, -⟩ := matches_char_iff.mp present
      exact Or.inr (by rw [beq_iff_eq.mp signEq])
  have noCapture : ∀ captures, Matches (opt (char fun ch => ch == 37)) percent captures → captures = [] := by
    intro captures form
    rcases matches_opt_iff.mp form with ⟨-, rfl⟩ | present
    · rfl
    · exact (matches_char_iff.mp present).choose_spec.2.2
  obtain rfl := noCapture _ isPercent
  have lettersEq : lower_copy [a, l, e, r, t] = ascii "alert" := by
    simp only [lower_copy, List.map_cons, List.map_nil, beq_iff_eq.mp aEq, beq_iff_eq.mp lEq,
      beq_iff_eq.mp eEq, beq_iff_eq.mp rEq, beq_iff_eq.mp tEq]
    decide
  refine ⟨⟨lead, [a, l, e, r, t], gap, word, beforeComparison, comparison, beforeNumeral, numeral,
    beforePercent, percent, trail, leadBlank, lettersEq, gapNonempty, gapBlank, wordNonempty, wordLetters,
    beforeComparisonBlank, by simpa using comparisonEq, beforeNumeralBlank, numeralForm, beforePercentBlank,
    percentEq, trailBlank⟩, ?_, rfl⟩
  simp [text, middle, beq_iff_eq.mp slashEq]

end AlertText

/-- A bar occurs in no trimmed alert command. -/
theorem AlertText.bar_not_mem (parts : AlertText) : 124 ∉ parts.middle parts.trimmedTail := by
  have letters : 124 ∉ parts.letters := by
    intro member
    have lowered : tolower 124 ∈ lower_copy parts.letters := List.mem_map_of_mem member
    rw [parts.letters_eq] at lowered
    exact absurd lowered (by decide)
  have word : 124 ∉ parts.word := fun member => absurd (parts.word_letters _ member) (by decide)
  have comparison : 124 ≠ parts.comparison := by
    rcases parts.comparison_eq with is | is <;> rw [is] <;> decide
  have numeral : 124 ∉ parts.numeral := fun member =>
    absurd ((numeral_spec parts.numeral_form).2.1 _ member) (by decide)
  have blank {s : Bytes} (all : ∀ ch ∈ s, isspace ch = true) : 124 ∉ s := fun member =>
    absurd (all _ member) (by decide)
  have tail : 124 ∉ parts.trimmedTail := by
    unfold trimmedTail
    split
    · exact List.not_mem_nil
    · rw [List.mem_append, not_or]
      exact ⟨blank parts.beforePercent_blank, by decide⟩
  simp only [middle, List.mem_cons, List.mem_append, not_or]
  exact ⟨by decide, letters, blank parts.gap_blank, word, blank parts.beforeComparison_blank, comparison,
    blank parts.beforeNumeral_blank, numeral, tail⟩

/-- The rule that an alert command registers, in terms of the parts of its text. -/
theorem parse_alert_command_some {platform : Platform} {text : Bytes} {rule : AlertRule}
    (parsed : parse_alert_command platform text = .ok (some rule)) :
    ∃ parts : AlertText, parts.text = text ∧ rule.raw_command = parts.middle parts.trimmedTail ∧
      stod platform parts.numeral = .ok rule.threshold ∧ rule.comparison = parts.comparison ∧
      metricOfToken (lower_copy parts.word) = some (rule.metric_key, rule.display_metric) := by
  unfold parse_alert_command at parsed
  split at parsed
  · rename_i word comparison numeral found
    obtain ⟨parts, rfl, captures⟩ := AlertText.of_matches (matches_of_fullMatch found)
    simp only [List.cons.injEq, and_true] at captures
    obtain ⟨rfl, rfl, rfl⟩ := captures
    cases converted : stod platform parts.numeral with
    | error abort =>
      rw [converted] at parsed
      cases parsed
    | ok threshold =>
      rw [converted] at parsed
      dsimp only [bind, Except.bind] at parsed
      split at parsed
      · rename_i key display named
        cases parsed
        exact ⟨parts, rfl, parts.trim_text, converted, rfl, named⟩
      · cases parsed
  · cases parsed

/-- The rules that `/alert` commands can register. -/
def Accepted (platform : Platform) (rule : AlertRule) : Prop :=
  ∃ text, parse_alert_command platform text = .ok (some rule)

theorem Accepted.bar_not_mem {platform : Platform} {rule : AlertRule} (accepted : Accepted platform rule) :
    124 ∉ rule.raw_command := by
  obtain ⟨text, parsed⟩ := accepted
  obtain ⟨parts, -, raw, -⟩ := parse_alert_command_some parsed
  rw [raw]
  exact parts.bar_not_mem

/-- The text of an accepted command determines the rule. -/
theorem Accepted.eq_of_raw_command {platform : Platform} {rule other : AlertRule}
    (accepted : Accepted platform rule) (accepted' : Accepted platform other)
    (same : rule.raw_command = other.raw_command) : rule = other := by
  obtain ⟨text, parsed⟩ := accepted
  obtain ⟨text', parsed'⟩ := accepted'
  obtain ⟨parts, -, raw, threshold, comparison, named⟩ := parse_alert_command_some parsed
  obtain ⟨parts', -, raw', threshold', comparison', named'⟩ := parse_alert_command_some parsed'
  obtain ⟨word, sign, numeral⟩ := AlertText.captures_eq (raw.symm.trans (same.trans raw'))
  rw [numeral, threshold'] at threshold
  rw [word, named'] at named
  simp only [Except.ok.injEq, Option.some.injEq, Prod.mk.injEq] at threshold named
  obtain ⟨key, display⟩ := named
  cases rule
  cases other
  simp only [AlertRule.mk.injEq]
  exact ⟨same, key.symm, display.symm, threshold.symm, comparison.trans (sign.trans comparison'.symm)⟩

/-- Keys of the alert map are distinct for distinct hosts or commands: the last
bar of a key is the one that `dedupe_key` puts in. -/
theorem dedupe_key_inj {host host' raw raw' : Bytes} (noBar : 124 ∉ raw) (noBar' : 124 ∉ raw')
    (same : dedupe_key host raw = dedupe_key host' raw') : host = host' ∧ raw = raw' := by
  have bar : ascii "|" = [124] := by decide
  rw [dedupe_key, dedupe_key, bar, List.append_assoc, List.append_assoc] at same
  exact Framing.cut_last_inj noBar noBar' same

end SysNetMon
