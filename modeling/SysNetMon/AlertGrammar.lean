import SysNetMon.AlertCommand
import SysNetMon.NumeralRange

/-!
The texts that `parse_alert_command` accepts, without its pattern, and the rules
that it makes of them.
-/

namespace SysNetMon
open Bytes Decimal Regex

/-- The words that name a metric, each with its key. -/
def aliases : List (Bytes × Bytes) :=
  [(ascii "cpu", ascii "cpu_percent"), (ascii "memory", ascii "memory_percent"), (ascii "mem", ascii "memory_percent"),
    (ascii "disk", ascii "disk_percent"), (ascii "rx", ascii "network_rx_kbps"),
    (ascii "netrx", ascii "network_rx_kbps"), (ascii "net_rx", ascii "network_rx_kbps"),
    (ascii "networkrx", ascii "network_rx_kbps"), (ascii "network_rx", ascii "network_rx_kbps"),
    (ascii "tx", ascii "network_tx_kbps"), (ascii "nettx", ascii "network_tx_kbps"),
    (ascii "net_tx", ascii "network_tx_kbps"), (ascii "networktx", ascii "network_tx_kbps"),
    (ascii "network_tx", ascii "network_tx_kbps")]

/-- The fields of a metric that a rule can be about, by their keys. -/
def metricFields : List (Bytes × (MetricSnapshot → Double)) :=
  [(ascii "cpu_percent", MetricSnapshot.cpu_percent), (ascii "memory_percent", MetricSnapshot.memory_percent),
    (ascii "disk_percent", MetricSnapshot.disk_percent), (ascii "network_rx_kbps", MetricSnapshot.network_rx_kbps),
    (ascii "network_tx_kbps", MetricSnapshot.network_tx_kbps)]

def Blank (s : Bytes) : Prop := ∀ ch ∈ s, isspace ch = true

def Digits (s : Bytes) : Prop := s ≠ [] ∧ ∀ ch ∈ s, isdigit ch = true

/-- Digits with an optional point and more digits. -/
def Numeral (s : Bytes) : Prop :=
  Digits s ∨ ∃ whole fraction, Digits whole ∧ Digits fraction ∧ s = whole ++ point :: fraction

/-- The form of an alert command, with the parts that the rule is made of. -/
def AlertForm (text word : Bytes) (comparison : UInt8) (numeral : Bytes) : Prop :=
  ∃ lead command gap beforeComparison beforeNumeral beforePercent percent trail,
    text = lead ++ command ++ gap ++ word ++ beforeComparison ++ [comparison] ++ beforeNumeral ++ numeral ++
      beforePercent ++ percent ++ trail ∧
    Blank lead ∧ lower_copy command = ascii "/alert" ∧ gap ≠ [] ∧ Blank gap ∧ lower_copy word ∈ aliases.map Prod.fst ∧
    Blank beforeComparison ∧ (comparison = 62 ∨ comparison = 60) ∧ Blank beforeNumeral ∧ Numeral numeral ∧
    Blank beforePercent ∧ (percent = [] ∨ percent = [37]) ∧ Blank trail

/-- What holds of a rule that a text was accepted as. -/
structure RuleOf (platform : Platform) (text : Bytes) (rule : AlertRule) : Prop where
  written : ∀ word comparison numeral, AlertForm text word comparison numeral →
    rule.comparison = comparison ∧ rule.threshold.val = readDecimal numeral ∧
      (lower_copy word, rule.metric_key) ∈ aliases
  resolved : ∃ field, (rule.metric_key, field) ∈ metricFields ∧
    ∀ metric, metric_value_for_key metric rule.metric_key = field metric
  again : parse_alert_command platform rule.raw_command = .ok (some rule)
  routed : startsWith (ascii "/alert") (lower_copy (trim text)) = true
  registered : ∀ (server : MonitorServer) clock client, ∃ outputs,
    server.handle_command platform clock client text =
      .ok ({ server with alert_rules_ := server.alert_rules_ ++ [rule] }, outputs)

/-- A converted numeral is read exactly. -/
theorem stod_val {platform : Platform} {numeral : Bytes} {value : Double}
    (converted : stod platform numeral = .ok value) : value.val = readDecimal numeral := by
  unfold stod at converted
  split at converted
  · split at converted
    · cases converted
    · cases converted
      rfl
  · cases converted

section Words
variable {token : Bytes}

/-- The chain of comparisons knows the words of the list, with their keys. -/
theorem metricOfToken_iff (key : Bytes) :
    (metricOfToken token).map Prod.fst = some key ↔ (token, key) ∈ aliases := by
  constructor
  · intro found
    unfold metricOfToken at found
    simp only [aliases, List.mem_cons, Prod.mk.injEq]
    split_ifs at found with cpu memory disk rx tx
    all_goals cases found
    · exact Or.inl ⟨cpu, rfl⟩
    · rcases memory with rfl | rfl <;> simp
    · simp [disk]
    · rcases rx with rfl | rfl | rfl | rfl | rfl <;> simp
    · rcases tx with rfl | rfl | rfl | rfl | rfl <;> simp
  · have all : ∀ entry ∈ aliases, (metricOfToken entry.1).map Prod.fst = some entry.2 := by decide +kernel
    exact fun member => all (token, key) member

/-- Every key of the list names a field. -/
theorem metric_value_for_key_field {key : Bytes} (listed : (token, key) ∈ aliases) :
    ∃ field, (key, field) ∈ metricFields ∧ ∀ metric, metric_value_for_key metric key = field metric := by
  have named : ∀ entry ∈ aliases, entry.2 ∈ metricFields.map Prod.fst := by decide +kernel
  obtain ⟨⟨key', field⟩, member, is⟩ := List.mem_map.mp (named _ listed)
  obtain rfl : key' = key := is
  refine ⟨field, member, fun metric => ?_⟩
  simp only [metricFields, List.mem_cons, Prod.mk.injEq, List.not_mem_nil, or_false] at member
  rcases member with ⟨rfl, rfl⟩ | ⟨rfl, rfl⟩ | ⟨rfl, rfl⟩ | ⟨rfl, rfl⟩ | ⟨rfl, rfl⟩
  all_goals rfl

theorem isletter_of_tolower {ch : UInt8} (letter : isletter (tolower ch) = true) : isletter ch = true := by
  unfold tolower at letter
  split at letter
  · rename_i upper
    simp only [isletter, upper, Bool.true_or]
  · exact letter

/-- The listed words are words of the pattern. -/
theorem letters_of_alias (listed : lower_copy token ∈ aliases.map Prod.fst) :
    token ≠ [] ∧ ∀ ch ∈ token, isletter ch = true := by
  have words : ∀ word ∈ aliases.map Prod.fst, word ≠ [] ∧ ∀ ch ∈ word, isletter ch = true := by decide +kernel
  obtain ⟨nonempty, letters⟩ := words _ listed
  refine ⟨fun empty => nonempty (by rw [empty]; rfl), fun ch member => ?_⟩
  exact isletter_of_tolower (letters _ (List.mem_map_of_mem member))

end Words

/-- The numerals of the pattern are those of the form. -/
theorem matches_numeralPattern_iff {numeral : Bytes} : Matches numeralPattern numeral [] ↔ Numeral numeral := by
  constructor
  · intro form
    obtain ⟨whole, fraction, c, c', rfl, -, first, second⟩ := matches_seq_iff.mp form
    obtain ⟨nonempty, digits, -⟩ := matches_plus_iff.mp first
    rcases matches_opt_iff.mp second with ⟨rfl, -⟩ | present
    · rw [List.append_nil]
      exact Or.inl ⟨nonempty, digits⟩
    · obtain ⟨dot, more, c, c', rfl, -, isDot, rest⟩ := matches_seq_iff.mp present
      obtain ⟨d, same, rfl, -⟩ := matches_char_iff.mp isDot
      obtain ⟨nonempty', digits', -⟩ := matches_plus_iff.mp rest
      exact Or.inr ⟨whole, more, ⟨nonempty, digits⟩, ⟨nonempty', digits'⟩, by rw [beq_iff_eq.mp same]; rfl⟩
  · have digits {s : Bytes} (is : Digits s) : Matches (plus isdigit) s [] := matches_plus_iff.mpr ⟨is.1, is.2, rfl⟩
    rintro (whole | ⟨whole, fraction, isWhole, isFraction, rfl⟩)
    · exact matches_seq_iff.mpr ⟨numeral, [], [], [], (List.append_nil _).symm, rfl, digits whole, .skip⟩
    · have dot : Matches (char fun ch => ch == point) [point] [] := .char (beq_self_eq_true point)
      exact matches_seq_iff.mpr ⟨whole, _, [], [], rfl, rfl, digits isWhole, .take (.seq dot (digits isFraction))⟩

namespace AlertText

/-- The pattern matches every text of its form, and captures the three parts. -/
theorem matches_text (parts : AlertText) :
    Matches alertPattern parts.text [parts.word, [parts.comparison], parts.numeral] := by
  have spelled : parts.letters.map tolower = [97, 108, 101, 114, 116] := parts.letters_eq.trans (by decide)
  obtain ⟨a, _, shape, isA, spelled⟩ := List.map_eq_cons_iff.mp spelled
  obtain ⟨l, _, rfl, isL, spelled⟩ := List.map_eq_cons_iff.mp spelled
  obtain ⟨e, _, rfl, isE, spelled⟩ := List.map_eq_cons_iff.mp spelled
  obtain ⟨r, _, rfl, isR, spelled⟩ := List.map_eq_cons_iff.mp spelled
  obtain ⟨t, _, rfl, isT, spelled⟩ := List.map_eq_cons_iff.mp spelled
  obtain rfl := List.map_eq_nil_iff.mp spelled
  have sign : (parts.comparison == 62 || parts.comparison == 60) = true := by
    rcases parts.comparison_eq with is | is <;> rw [is] <;> rfl
  have percent : Matches (opt (char fun ch => ch == 37)) parts.percent [] := by
    rcases parts.percent_eq with is | is <;> rw [is]
    · exact .skip
    · exact .take (.char rfl)
  have fromNumeral := Matches.seq (Matches.group parts.numeral_form)
    (.seq (.star parts.beforePercent_blank) (.seq percent (.star parts.trail_blank)))
  have fromWord := Matches.seq (Matches.group (matches_plus_iff.mpr ⟨parts.word_ne_nil, parts.word_letters, rfl⟩))
    (.seq (.star parts.beforeComparison_blank)
      (.seq (Matches.group (@Matches.char _ (fun ch => ch == 62 || ch == 60) _ sign))
        (.seq (.star parts.beforeNumeral_blank) fromNumeral)))
  have whole : Matches alertPattern _ _ := .seq (.star parts.lead_blank) (.seq (@Matches.char _ _ 47 rfl)
    (.seq (@Matches.char _ _ a (beq_iff_eq.mpr isA)) (.seq (@Matches.char _ _ l (beq_iff_eq.mpr isL))
    (.seq (@Matches.char _ _ e (beq_iff_eq.mpr isE)) (.seq (@Matches.char _ _ r (beq_iff_eq.mpr isR))
    (.seq (@Matches.char _ _ t (beq_iff_eq.mpr isT))
    (.seq (matches_plus_iff.mpr ⟨parts.gap_ne_nil, parts.gap_blank, rfl⟩) fromWord)))))))
  simpa [text, middle, shape] using whole

theorem fullMatch_text (parts : AlertText) :
    fullMatch alertPattern parts.text = some [parts.word, [parts.comparison], parts.numeral] := by
  obtain ⟨captures, found⟩ := fullMatch_of_matches parts.matches_text
  obtain ⟨other, same, rfl⟩ := of_matches (matches_of_fullMatch found)
  have trimmed : other.middle other.trimmedTail = parts.middle parts.trimmedTail := by
    rw [← other.trim_text, same, parts.trim_text]
  obtain ⟨word, comparison, numeral⟩ := captures_eq trimmed
  rw [found, word, comparison, numeral]

/-- The rule of a text whose word is listed and whose numeral is converted. -/
theorem parse_text {platform : Platform} (parts : AlertText) {threshold : Double} {key display : Bytes}
    (converted : stod platform parts.numeral = .ok threshold)
    (named : metricOfToken (lower_copy parts.word) = some (key, display)) :
    parse_alert_command platform parts.text =
      .ok (some ⟨parts.middle parts.trimmedTail, key, display, threshold, parts.comparison⟩) := by
  unfold parse_alert_command
  rw [parts.fullMatch_text]
  dsimp only
  rw [converted, named, parts.trim_text]
  rfl

/-- The text without the white space around it. -/
def trimmed (parts : AlertText) : AlertText :=
  { parts with
    lead := []
    beforePercent := if parts.percent = [] then [] else parts.beforePercent
    trail := []
    lead_blank := List.forall_mem_nil _
    beforePercent_blank := by
      split
      · exact List.forall_mem_nil _
      · exact parts.beforePercent_blank
    trail_blank := List.forall_mem_nil _ }

theorem trimmed_text (parts : AlertText) : parts.trimmed.text = parts.middle parts.trimmedTail := by
  rcases parts.percent_eq with is | is <;> simp [text, trimmed, middle, trimmedTail, is]

/-- A registered command is parsed to the same rule again. -/
theorem parse_trimmed {platform : Platform} (parts : AlertText) {threshold : Double} {key display : Bytes}
    (converted : stod platform parts.numeral = .ok threshold)
    (named : metricOfToken (lower_copy parts.word) = some (key, display)) :
    parse_alert_command platform (parts.middle parts.trimmedTail) =
      .ok (some ⟨parts.middle parts.trimmedTail, key, display, threshold, parts.comparison⟩) := by
  have same : parts.trimmed.middle parts.trimmed.trimmedTail = parts.middle parts.trimmedTail := by
    rcases parts.percent_eq with is | is <;> simp [trimmed, middle, trimmedTail, is]
  rw [← parts.trimmed_text, parts.trimmed.parse_text converted named, same, parts.trimmed_text]
  rfl

theorem startsWith_alert (parts : AlertText) :
    startsWith (ascii "/alert") (lower_copy (parts.middle parts.trimmedTail)) = true := by
  have slash : ascii "/alert" = tolower 47 :: ascii "alert" := by decide
  rw [startsWith, decide_eq_true_eq, middle, lower_copy, List.map_cons, List.map_append, slash, ← parts.letters_eq]
  exact ⟨_, rfl⟩

end AlertText

section Form
variable {text word numeral : Bytes} {comparison : UInt8}

theorem AlertForm.parts (form : AlertForm text word comparison numeral) :
    ∃ parts : AlertText, parts.text = text ∧ parts.word = word ∧ parts.comparison = comparison ∧
      parts.numeral = numeral := by
  obtain ⟨lead, command, gap, beforeComparison, beforeNumeral, beforePercent, percent, trail, rfl, leadBlank, spelled,
    gapNonempty, gapBlank, listed, blank, sign, blank', isNumeral, blank'', isPercent, trailBlank⟩ := form
  have slash : ascii "/alert" = 47 :: ascii "alert" := by decide
  rw [slash] at spelled
  obtain ⟨ch, letters, rfl, first, lettersEq⟩ := List.map_eq_cons_iff.mp spelled
  have isSlash : ch = 47 := by
    unfold tolower at first
    split at first
    · rename_i upper
      simp only [Bool.and_eq_true, decide_eq_true_eq, UInt8.le_iff_toNat_le] at upper
      rw [← UInt8.toNat_inj, UInt8.toNat_add] at first
      simp at first upper
      omega
    · exact first
  obtain ⟨nonempty, wordLetters⟩ := letters_of_alias listed
  refine ⟨⟨lead, letters, gap, word, beforeComparison, comparison, beforeNumeral, numeral, beforePercent, percent,
    trail, leadBlank, lettersEq, gapNonempty, gapBlank, nonempty, wordLetters, blank, sign, blank',
    matches_numeralPattern_iff.mpr isNumeral, blank'', isPercent, trailBlank⟩, ?_, rfl, rfl, rfl⟩
  simp [AlertText.text, AlertText.middle, isSlash]

theorem AlertText.form (parts : AlertText) (listed : lower_copy parts.word ∈ aliases.map Prod.fst) :
    AlertForm parts.text parts.word parts.comparison parts.numeral := by
  have slash : ascii "/alert" = tolower 47 :: ascii "alert" := by decide
  refine ⟨parts.lead, 47 :: parts.letters, parts.gap, parts.beforeComparison, parts.beforeNumeral,
    parts.beforePercent, parts.percent, parts.trail, ?_, parts.lead_blank, ?_, parts.gap_ne_nil, parts.gap_blank,
    listed, parts.beforeComparison_blank, parts.comparison_eq, parts.beforeNumeral_blank,
    matches_numeralPattern_iff.mp parts.numeral_form, parts.beforePercent_blank, parts.percent_eq, parts.trail_blank⟩
  · simp [text, middle]
  · rw [slash, ← parts.letters_eq]
    rfl

/-- A text of the form, with a numeral within range, is accepted. -/
theorem AlertForm.accepted {platform : Platform} (form : AlertForm text word comparison numeral)
    (range : StodInRange platform numeral) : ∃ rule, parse_alert_command platform text = .ok (some rule) := by
  obtain ⟨parts, rfl, rfl, rfl, rfl⟩ := form.parts
  obtain ⟨threshold, converted⟩ := stod_ok_iff.mpr range
  obtain ⟨-, -, -, -, -, -, -, -, -, -, -, -, -, listed, -⟩ := form
  obtain ⟨⟨_, key⟩, member, rfl⟩ := List.mem_map.mp listed
  obtain ⟨⟨_, display⟩, named, rfl⟩ := Option.map_eq_some_iff.mp ((metricOfToken_iff key).mpr member)
  exact ⟨_, parts.parse_text converted named⟩

/-- An accepted text is of the form. -/
theorem AlertForm.of_parsed {platform : Platform} {rule : AlertRule}
    (parsed : parse_alert_command platform text = .ok (some rule)) :
    ∃ word comparison numeral, AlertForm text word comparison numeral := by
  obtain ⟨parts, rfl, -, -, -, named⟩ := parse_alert_command_some parsed
  have listed : (lower_copy parts.word, rule.metric_key) ∈ aliases :=
    (metricOfToken_iff _).mp (by rw [named]; rfl)
  exact ⟨_, _, _, parts.form (List.mem_map_of_mem listed)⟩

/-- A text is of the form in one way, as far as the parts in the rule go. -/
theorem AlertForm.unique {word' numeral' : Bytes} {comparison' : UInt8}
    (form : AlertForm text word comparison numeral) (form' : AlertForm text word' comparison' numeral') :
    word = word' ∧ comparison = comparison' ∧ numeral = numeral' := by
  obtain ⟨parts, same, rfl, rfl, rfl⟩ := form.parts
  obtain ⟨parts', same', rfl, rfl, rfl⟩ := form'.parts
  refine AlertText.captures_eq ?_
  rw [← parts.trim_text, ← parts'.trim_text, same, same']

theorem RuleOf.of_parsed {platform : Platform} {rule : AlertRule}
    (parsed : parse_alert_command platform text = .ok (some rule)) : RuleOf platform text rule := by
  obtain ⟨parts, rfl, raw, converted, sign, named⟩ := parse_alert_command_some parsed
  have listed : (lower_copy parts.word, rule.metric_key) ∈ aliases :=
    (metricOfToken_iff _).mp (by rw [named]; rfl)
  have routed : startsWith (ascii "/alert") (lower_copy (trim parts.text)) = true := by
    rw [parts.trim_text]
    exact parts.startsWith_alert
  have whole : rule = ⟨parts.middle parts.trimmedTail, rule.metric_key, rule.display_metric, rule.threshold,
      parts.comparison⟩ := by rw [← raw, ← sign]
  constructor
  case written =>
    intro word comparison numeral form
    obtain ⟨rfl, rfl, rfl⟩ := form.unique (parts.form (List.mem_map_of_mem listed))
    exact ⟨sign, stod_val converted, listed⟩
  case resolved => exact metric_value_for_key_field listed
  case again =>
    rw [raw, whole]
    exact parts.parse_trimmed converted named
  case routed => exact routed
  case registered =>
    intro server clock client
    unfold MonitorServer.handle_command
    simp only [routed, if_true, parsed, bind, Except.bind]
    exact ⟨_, rfl⟩

end Form

/-- The accepted texts are those of the form, and each accepted rule is the one
that its text writes. -/
theorem alert_commands_exact {platform : Platform} {text : Bytes}
    (inRange : ∀ word comparison numeral, AlertForm text word comparison numeral → StodInRange platform numeral) :
    ((∃ rule, parse_alert_command platform text = .ok (some rule)) ↔
      ∃ word comparison numeral, AlertForm text word comparison numeral) ∧
    ∀ rule, parse_alert_command platform text = .ok (some rule) → RuleOf platform text rule := by
  refine ⟨⟨fun ⟨rule, parsed⟩ => AlertForm.of_parsed parsed, ?_⟩, fun rule parsed => RuleOf.of_parsed parsed⟩
  rintro ⟨word, comparison, numeral, form⟩
  exact form.accepted (inRange word comparison numeral form)

theorem alert_commands_exact_mixed_case :
    ∃ rule, parse_alert_command ⟨fun _ => false⟩ (ascii " /ALERT net_RX<07.50 % ") = .ok (some rule) ∧
      RuleOf ⟨fun _ => false⟩ (ascii " /ALERT net_RX<07.50 % ") rule := by
  have form : AlertForm (ascii " /ALERT net_RX<07.50 % ") (ascii "net_RX") 60 (ascii "07.50") := by
    have blank : Blank [32] := List.forall_mem_singleton.mpr rfl
    have whole : Digits (ascii "07") := ⟨by decide, List.all_eq_true.mp rfl⟩
    have fraction : Digits (ascii "50") := ⟨by decide, List.all_eq_true.mp rfl⟩
    exact ⟨[32], ascii "/ALERT", [32], [], [], [32], [37], [32], by decide +kernel, blank, by decide, by decide, blank,
      by decide +kernel, List.forall_mem_nil _, Or.inr rfl, List.forall_mem_nil _,
      Or.inr ⟨ascii "07", ascii "50", whole, fraction, by decide⟩, blank, Or.inr rfl, blank⟩
  have inRange : ∀ word comparison numeral, AlertForm (ascii " /ALERT net_RX<07.50 % ") word comparison numeral →
      StodInRange ⟨fun _ => false⟩ numeral := by
    intro word comparison numeral form'
    obtain ⟨rfl, rfl, rfl⟩ := form.unique form'
    unfold StodInRange
    decide +kernel
  obtain ⟨accepted, fits⟩ := alert_commands_exact inRange
  obtain ⟨rule, parsed⟩ := accepted.mpr ⟨_, _, _, form⟩
  exact ⟨rule, parsed, fits rule parsed⟩

/-- Two keys of the alert map are the same for one host and one rule only. -/
theorem dedupe_keys_apart {platform : Platform} {host host' : Bytes} {rule rule' : AlertRule}
    (accepted : Accepted platform rule) (accepted' : Accepted platform rule')
    (same : dedupe_key host rule.raw_command = dedupe_key host' rule'.raw_command) : host = host' ∧ rule = rule' := by
  obtain ⟨hosts, commands⟩ := dedupe_key_inj accepted.bar_not_mem accepted'.bar_not_mem same
  exact ⟨hosts, accepted.eq_of_raw_command accepted' commands⟩

/-- A host that looks like a command, and a rule that was given twice. -/
theorem dedupe_keys_apart_padded : ∃ rule rule' : AlertRule,
    parse_alert_command ⟨fun _ => false⟩ (ascii "/alert tx>1") = .ok (some rule) ∧
      parse_alert_command ⟨fun _ => false⟩ (ascii " /alert tx>1") = .ok (some rule') ∧
      ascii "a|/alert tx>1" = ascii "a|/alert tx>1" ∧ rule = rule' := by
  let rule : AlertRule := ⟨ascii "/alert tx>1", ascii "network_tx_kbps", ascii "Network TX", ⟨1, by decide +kernel⟩, 62⟩
  have parsed : parse_alert_command ⟨fun _ => false⟩ (ascii "/alert tx>1") = .ok (some rule) := by decide +kernel
  have parsed' : parse_alert_command ⟨fun _ => false⟩ (ascii " /alert tx>1") = .ok (some rule) := by decide +kernel
  exact ⟨rule, rule, parsed, parsed', dedupe_keys_apart ⟨_, parsed⟩ ⟨_, parsed'⟩ rfl⟩

end SysNetMon
