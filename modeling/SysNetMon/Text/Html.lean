import Mathlib.Data.List.Basic

/-!
The tokens of an HTML fragment, from the data state on, and templates that
insert values into markup. Character references stay as they are written: they
are resolved inside the text and never become markup. What an element's parser
makes of the text after a tag such as `script` is left out, so a sequence of
tokens is exact up to the first such tag.
-/

namespace Html

/-- A tag with its attributes. Those read so far come first. -/
structure Tag where
  closing : Bool
  name : List Char
  attributes : List (List Char × List Char) := []
  selfClosing : Bool := false
  deriving DecidableEq

/-- A character of the text, a tag, or source that is neither: a comment, a
document type, or an end tag without a name. -/
inductive Token where
  | character (c : Char)
  | tag (tag : Tag)
  | skipped
  deriving DecidableEq

/-- The tokenization states, with the tag that is being read. -/
inductive State where
  | data
  | tagOpen
  | endTagOpen
  | tagName (tag : Tag)
  | beforeAttributeName (tag : Tag)
  | attributeName (tag : Tag)
  | afterAttributeName (tag : Tag)
  | beforeAttributeValue (tag : Tag)
  | attributeValueQuoted (mark : Char) (tag : Tag)
  | attributeValueUnquoted (tag : Tag)
  | afterAttributeValueQuoted (tag : Tag)
  | selfClosingStartTag (tag : Tag)
  | bogusComment
  | markupDeclarationOpen
  | markupDeclarationDash
  | commentStart
  | commentStartDash
  | comment
  | commentEndDash
  | commentEnd
  | commentEndBang
  deriving DecidableEq

def isBlank (c : Char) : Bool := c ∈ ['\t', '\n', '\x0c', '\r', ' ']

namespace Tag

def pushName (tag : Tag) (c : Char) : Tag := { tag with name := tag.name ++ [c.toLower] }

/-- A new attribute with the first character of its name. -/
def newAttribute (tag : Tag) (c : Char) : Tag := { tag with attributes := tag.attributes ++ [([c.toLower], [])] }

def modifyLast (tag : Tag) (f : List Char × List Char → List Char × List Char) : Tag :=
  { tag with attributes := tag.attributes.modify (tag.attributes.length - 1) f }

def pushAttributeName (tag : Tag) (c : Char) : Tag := tag.modifyLast fun a => (a.1 ++ [c.toLower], a.2)

def pushAttributeValue (tag : Tag) (c : Char) : Tag := tag.modifyLast fun a => (a.1, a.2 ++ [c])

/-- Of attributes with one name the first one counts. -/
def emit (tag : Tag) : Token :=
  let attributes := tag.attributes.foldl (fun kept a => if a.1 ∈ kept.map Prod.fst then kept else kept ++ [a]) []
  .tag { tag with attributes }

end Tag

/-- One character in a state: the next state, and the tokens that are emitted.
Where the standard reconsumes a character, the result of that is written out. -/
def step : State → Char → State × List Token
  | .data, c => if c = '<' then (.tagOpen, []) else (.data, [.character c])
  | .tagOpen, c =>
    if c = '!' then (.markupDeclarationOpen, [])
    else if c = '/' then (.endTagOpen, [])
    else if c.isAlpha then (.tagName { closing := false, name := [c.toLower] }, [])
    else if c = '?' then (.bogusComment, [])
    else if c = '<' then (.tagOpen, [.character '<'])
    else (.data, [.character '<', .character c])
  | .endTagOpen, c =>
    if c.isAlpha then (.tagName { closing := true, name := [c.toLower] }, [])
    else if c = '>' then (.data, [.skipped])
    else (.bogusComment, [])
  | .tagName tag, c =>
    if isBlank c then (.beforeAttributeName tag, [])
    else if c = '/' then (.selfClosingStartTag tag, [])
    else if c = '>' then (.data, [tag.emit])
    else (.tagName (tag.pushName c), [])
  | .beforeAttributeName tag, c =>
    if isBlank c then (.beforeAttributeName tag, [])
    else if c = '/' then (.selfClosingStartTag tag, [])
    else if c = '>' then (.data, [tag.emit])
    else (.attributeName (tag.newAttribute c), [])
  | .attributeName tag, c =>
    if isBlank c then (.afterAttributeName tag, [])
    else if c = '/' then (.selfClosingStartTag tag, [])
    else if c = '>' then (.data, [tag.emit])
    else if c = '=' then (.beforeAttributeValue tag, [])
    else (.attributeName (tag.pushAttributeName c), [])
  | .afterAttributeName tag, c =>
    if isBlank c then (.afterAttributeName tag, [])
    else if c = '/' then (.selfClosingStartTag tag, [])
    else if c = '=' then (.beforeAttributeValue tag, [])
    else if c = '>' then (.data, [tag.emit])
    else (.attributeName (tag.newAttribute c), [])
  | .beforeAttributeValue tag, c =>
    if isBlank c then (.beforeAttributeValue tag, [])
    else if c = '"' ∨ c = '\'' then (.attributeValueQuoted c tag, [])
    else if c = '>' then (.data, [tag.emit])
    else (.attributeValueUnquoted (tag.pushAttributeValue c), [])
  | .attributeValueQuoted mark tag, c =>
    if c = mark then (.afterAttributeValueQuoted tag, [])
    else (.attributeValueQuoted mark (tag.pushAttributeValue c), [])
  | .attributeValueUnquoted tag, c =>
    if isBlank c then (.beforeAttributeName tag, [])
    else if c = '>' then (.data, [tag.emit])
    else (.attributeValueUnquoted (tag.pushAttributeValue c), [])
  | .afterAttributeValueQuoted tag, c =>
    if isBlank c then (.beforeAttributeName tag, [])
    else if c = '/' then (.selfClosingStartTag tag, [])
    else if c = '>' then (.data, [tag.emit])
    else (.attributeName (tag.newAttribute c), [])
  | .selfClosingStartTag tag, c =>
    if c = '>' then (.data, [{ tag with selfClosing := true }.emit])
    else if isBlank c then (.beforeAttributeName tag, [])
    else if c = '/' then (.selfClosingStartTag tag, [])
    else (.attributeName (tag.newAttribute c), [])
  | .bogusComment, c => if c = '>' then (.data, [.skipped]) else (.bogusComment, [])
  | .markupDeclarationOpen, c =>
    -- a document type ends at the first `>`, like a bogus comment
    if c = '-' then (.markupDeclarationDash, [])
    else if c = '>' then (.data, [.skipped])
    else (.bogusComment, [])
  | .markupDeclarationDash, c =>
    if c = '-' then (.commentStart, [])
    else if c = '>' then (.data, [.skipped])
    else (.bogusComment, [])
  | .commentStart, c =>
    if c = '-' then (.commentStartDash, []) else if c = '>' then (.data, [.skipped]) else (.comment, [])
  | .commentStartDash, c =>
    if c = '-' then (.commentEnd, []) else if c = '>' then (.data, [.skipped]) else (.comment, [])
  | .comment, c => if c = '-' then (.commentEndDash, []) else (.comment, [])
  | .commentEndDash, c => if c = '-' then (.commentEnd, []) else (.comment, [])
  | .commentEnd, c =>
    if c = '>' then (.data, [.skipped])
    else if c = '!' then (.commentEndBang, [])
    else if c = '-' then (.commentEnd, [])
    else (.comment, [])
  | .commentEndBang, c =>
    if c = '-' then (.commentEndDash, []) else if c = '>' then (.data, [.skipped]) else (.comment, [])

/-- What is emitted at the end of the source. A tag that is not complete is dropped. -/
def finish : State → List Token
  | .data => []
  | .tagOpen => [.character '<']
  | .endTagOpen => [.character '<', .character '/']
  | .tagName _ => []
  | .beforeAttributeName _ => []
  | .attributeName _ => []
  | .afterAttributeName _ => []
  | .beforeAttributeValue _ => []
  | .attributeValueQuoted _ _ => []
  | .attributeValueUnquoted _ => []
  | .afterAttributeValueQuoted _ => []
  | .selfClosingStartTag _ => []
  | _ => [.skipped]

def run : State → List Char → State × List Token
  | state, [] => (state, [])
  | state, c :: cs =>
    let next := step state c
    let rest := run next.1 cs
    (rest.1, next.2 ++ rest.2)

def tokens (state : State) (source : List Char) : List Token := (run state source).2 ++ finish (run state source).1

theorem tokens_cons (state : State) (c : Char) (cs : List Char) :
    tokens state (c :: cs) = (step state c).2 ++ tokens (step state c).1 cs := by
  rw [tokens, run, tokens]
  exact List.append_assoc _ _ _

theorem tokens_append (state : State) (s t : List Char) :
    tokens state (s ++ t) = (run state s).2 ++ tokens (run state s).1 t := by
  induction s generalizing state with
  | nil => rfl
  | cons c s ih =>
    rw [List.cons_append, tokens_cons, ih, run]
    exact (List.append_assoc _ _ _).symm

/-- The characters that make markup of a `<` before them. -/
def opensMarkup (c : Char) : Bool := c.isAlpha || c == '/' || c == '!' || c == '?'

/-- Text without a `<` that would make markup of what follows. -/
def Plain (text : List Char) : Prop := text.IsChain fun a b => ¬ (a = '<' ∧ opensMarkup b = true)

instance (text : List Char) : Decidable (Plain text) := inferInstanceAs (Decidable (List.IsChain _ text))

/-- The tokens of a text that is shown as it is. -/
def shown (text : List Char) : List Token := text.map .character

theorem tokens_data_of_ne {c : Char} (ne : c ≠ '<') (cs : List Char) :
    tokens .data (c :: cs) = .character c :: tokens .data cs := by
  rw [tokens_cons, step, if_neg ne]
  rfl

/-- A `<` before a character that does not make markup of it is text. -/
theorem tokens_data_open {d : Char} (stops : opensMarkup d = false) (cs : List Char) :
    tokens .data ('<' :: d :: cs) = .character '<' :: tokens .data (d :: cs) := by
  simp only [opensMarkup, Bool.or_eq_false_iff, beq_eq_false_iff_ne] at stops
  obtain ⟨⟨⟨alpha, slash⟩, bang⟩, question⟩ := stops
  rw [tokens_cons, tokens_cons, tokens_cons]
  by_cases again : d = '<'
  · subst again
    rfl
  · simp [step, alpha, slash, bang, question, again]

/-- The states from which the next token is no character. -/
def State.markup : State → Bool
  | .data => false
  | .tagOpen => false
  | .endTagOpen => false
  | _ => true

/-- A step inside markup emits nothing and stays there, or ends it with one token. -/
theorem step_markup {state : State} (inside : state.markup = true) (c : Char) :
    ((step state c).1.markup = true ∧ (step state c).2 = []) ∨
      ∃ token, (step state c).2 = [token] ∧ ∀ d, token ≠ .character d := by
  have tag (tag : Tag) : ∃ token, [tag.emit] = [token] ∧ ∀ d, token ≠ .character d :=
    ⟨_, rfl, fun _ same => by cases same⟩
  have skipped : ∃ token, [Token.skipped] = [token] ∧ ∀ d, token ≠ .character d :=
    ⟨_, rfl, fun _ same => by cases same⟩
  cases state with
  | data => cases inside
  | tagOpen => cases inside
  | endTagOpen => cases inside
  | _ =>
    simp only [step]
    split_ifs
    all_goals first | exact Or.inl ⟨rfl, rfl⟩ | exact Or.inr (tag _) | exact Or.inr skipped

/-- From inside markup, the first token, if there is one, is no character. -/
theorem tokens_markup_head {state : State} (inside : state.markup = true) (source : List Char) (d : Char)
    (rest : List Token) : tokens state source ≠ .character d :: rest := by
  induction source generalizing state with
  | nil =>
    intro same
    cases state <;> first | (cases same; done) | cases inside
  | cons c cs ih =>
    rw [tokens_cons]
    rcases step_markup inside c with ⟨inside', none⟩ | ⟨token, one, other⟩
    · rw [none]
      exact ih inside'
    · rw [one]
      exact fun same => other d (List.cons.inj same).1

/-- After a `<` and a character that makes markup of it, more source has no
character for its first token. -/
theorem tokens_data_markup {c : Char} (opens : opensMarkup c = true) (e : Char) (cs : List Char) (d : Char)
    (rest : List Token) : tokens .data ('<' :: c :: e :: cs) ≠ .character d :: rest := by
  have opened : tokens .data ('<' :: c :: e :: cs) = tokens .tagOpen (c :: e :: cs) := by
    rw [tokens_cons]
    rfl
  rw [opened, tokens_cons]
  by_cases bang : c = '!'
  · subst bang
    exact tokens_markup_head rfl _ d rest
  by_cases slash : c = '/'
  · subst slash
    have end_ : tokens .endTagOpen (e :: cs) ≠ .character d :: rest := by
      rw [tokens_cons, step]
      split_ifs
      · exact tokens_markup_head rfl _ d rest
      · exact fun same => by cases same
      · exact tokens_markup_head rfl _ d rest
    exact end_
  by_cases alpha : c.isAlpha = true
  · simp only [step, if_neg bang, if_neg slash, if_pos alpha]
    exact tokens_markup_head rfl _ d rest
  · have question : c = '?' := by simpa [opensMarkup, bang, slash, alpha] using opens
    subst question
    exact tokens_markup_head rfl _ d rest

/-- A value in front of a character that stops a pending `<` stands in the tokens
as it is exactly if it is plain. -/
theorem tokens_value_iff {value : List Char} {d : Char} (stops : opensMarkup d = false) (cs : List Char)
    (expected : List Token) :
    tokens .data (value ++ d :: cs) = shown value ++ expected ↔ Plain value ∧ tokens .data (d :: cs) = expected := by
  induction value with
  | nil => simp [shown, Plain]
  | cons c value ih =>
    have same (first : tokens .data (c :: (value ++ d :: cs)) = .character c :: tokens .data (value ++ d :: cs)) :
        tokens .data (c :: value ++ d :: cs) = shown (c :: value) ++ expected ↔
          Plain value ∧ tokens .data (d :: cs) = expected := by
      rw [List.cons_append, first, shown, List.map_cons, List.cons_append, List.cons.injEq, ← ih]
      exact and_iff_right rfl
    by_cases open_ : c = '<'
    · subst open_
      cases value with
      | nil =>
        rw [same (tokens_data_open stops cs)]
        simp [Plain]
      | cons b value =>
        by_cases opens : opensMarkup b = true
        · obtain ⟨e, more, after⟩ : ∃ e more, value ++ d :: cs = e :: more := by
            cases value with
            | nil => exact ⟨d, cs, rfl⟩
            | cons e value => exact ⟨e, value ++ d :: cs, rfl⟩
          refine iff_of_false ?_ fun both => ?_
          · rw [List.cons_append, List.cons_append, after]
            exact tokens_data_markup opens e more '<' _
          · exact (List.isChain_cons_cons.mp both.1).1 ⟨rfl, opens⟩
        · rw [same (tokens_data_open (by simpa using opens) _)]
          simp [Plain, opens]
    · rw [same (tokens_data_of_ne open_ _)]
      cases value with
      | nil => simp [Plain]
      | cons b value => simp [Plain, open_]

theorem tokens_data_of_not_mem {text : List Char} (absent : '<' ∉ text) (cs : List Char) :
    tokens .data (text ++ cs) = shown text ++ tokens .data cs := by
  induction text with
  | nil => rfl
  | cons c text ih =>
    rw [List.mem_cons, not_or] at absent
    rw [List.cons_append, tokens_data_of_ne (Ne.symm absent.1), ih absent.2]
    rfl

/-- A piece of a template: markup that is written in it, the text of a number,
or a value that is put in as it is. -/
inductive Piece where
  | markup (source : String)
  | number (text : List Char)
  | value (text : List Char)

def Piece.source : Piece → List Char
  | markup source => source.toList
  | number text => text
  | value text => text

/-- The source that a template makes of its pieces. -/
def fill (pieces : List Piece) : List Char := pieces.flatMap Piece.source

/-- The tokens a piece stands for when its markup is the template's own. -/
def Piece.tokens : Piece → List Token
  | markup source => (run .data source.toList).2
  | number text => Html.shown text
  | value text => Html.shown text

/-- Markup that starts and ends outside of its tags. Its first character stops a
`<` before it. -/
def Closed (source : String) : Prop :=
  (run .data source.toList).1 = .data ∧ (source.toList.head?.any fun c => !opensMarkup c) = true

instance (source : String) : Decidable (Closed source) := inferInstanceAs (Decidable (_ ∧ _))

/-- Templates whose markup leaves nothing open, where no number holds a `<` and
markup that stops a `<` comes after every value. -/
def Safe : List Piece → Prop
  | [] => True
  | .markup source :: pieces => (run .data source.toList).1 = .data ∧ Safe pieces
  | .number text :: pieces => '<' ∉ text ∧ Safe pieces
  | .value _ :: pieces => (∃ source rest, pieces = .markup source :: rest ∧ Closed source) ∧ Safe pieces

section Safe
variable {l : List Char} {text : List Char} {rest : List Piece}

-- a literal is `String.ofList` of its characters by definition, `String.toList` of it is slow to evaluate
theorem Safe.markup (ends : (run .data l).1 = .data) (safe : Safe rest) :
    Safe (.markup (String.ofList l) :: rest) :=
  ⟨by rw [String.toList_ofList]; exact ends, safe⟩

theorem Safe.number (absent : '<' ∉ text) (safe : Safe rest) : Safe (.number text :: rest) := ⟨absent, safe⟩

theorem Safe.value (ends : (run .data l).1 = .data) (stops : (l.head?.any fun c => !opensMarkup c) = true)
    (safe : Safe rest) : Safe (.value text :: .markup (String.ofList l) :: rest) := by
  have closed : Closed (String.ofList l) := by
    rw [Closed, String.toList_ofList]
    exact ⟨ends, stops⟩
  exact ⟨⟨_, rest, rfl, closed⟩, closed.1, safe⟩

end Safe

theorem Safe.append {first second : List Piece} (safe : Safe first) (safe' : Safe second) : Safe (first ++ second) := by
  induction first with
  | nil => exact safe'
  | cons piece first ih =>
    cases piece with
    | markup source => exact ⟨safe.1, ih safe.2⟩
    | number text => exact ⟨safe.1, ih safe.2⟩
    | value text =>
      obtain ⟨⟨source, rest, shape, closed⟩, safe⟩ := safe
      exact ⟨⟨source, rest ++ second, by rw [shape]; rfl, closed⟩, ih safe⟩

theorem Safe.flatMap {α : Type} {template : α → List Piece} (safe : ∀ a, Safe (template a)) (items : List α) :
    Safe (items.flatMap template) := by
  induction items with
  | nil => trivial
  | cons item items ih =>
    rw [List.flatMap_cons]
    exact (safe item).append ih

/-- The values are shown as text and the tags are those of the template: the
tokens of the source are those of the pieces. -/
def Shown (pieces : List Piece) : Prop := tokens .data (fill pieces) = pieces.flatMap Piece.tokens

/-- This is so exactly when all values are plain. -/
theorem shown_iff_plain {pieces : List Piece} (safe : Safe pieces) :
    Shown pieces ↔ ∀ text, .value text ∈ pieces → Plain text := by
  unfold Shown
  induction pieces with
  | nil => exact iff_of_true rfl fun text member => absurd member List.not_mem_nil
  | cons piece pieces ih =>
    have others (other : ∀ text, .value text ≠ piece) :
        (∀ text, .value text ∈ piece :: pieces → Plain text) ↔ ∀ text, .value text ∈ pieces → Plain text := by
      simp [other]
    rw [fill, List.flatMap_cons, List.flatMap_cons]
    cases piece with
    | markup source =>
      rw [others (by simp), ← ih safe.2, Piece.source, tokens_append, safe.1]
      exact List.append_right_inj _
    | number text =>
      rw [others (by simp), ← ih safe.2, Piece.source, tokens_data_of_not_mem safe.1]
      exact List.append_right_inj _
    | value text =>
      obtain ⟨⟨source, rest, rfl, -, stops⟩, safe⟩ := safe
      obtain ⟨d, more, first⟩ : ∃ d more, source.toList = d :: more := by
        cases shape : source.toList with
        | nil => simp [shape] at stops
        | cons d more => exact ⟨d, more, rfl⟩
      have stop : opensMarkup d = false := by simpa [first] using stops
      have following : fill (.markup source :: rest) = d :: (more ++ fill rest) := by
        rw [fill, List.flatMap_cons, Piece.source, first]
        rfl
      have ahead := ih safe
      rw [following] at ahead
      change tokens .data (text ++ fill (.markup source :: rest)) = shown text ++ _ ↔ _
      rw [following, tokens_value_iff stop, ahead]
      simp

def Token.tag? : Token → Option Tag
  | .tag found => some found
  | _ => none

/-- The tags of a source in order, with their attributes. -/
def tags (source : List Char) : List Tag := (tokens .data source).filterMap Token.tag?

/-- The template without its numbers and values. -/
def markups (pieces : List Piece) : List String :=
  pieces.filterMap fun piece =>
    match piece with
    | .markup source => some source
    | _ => none

/-- The tags that are written in the markup of a template. -/
def ownTags (sources : List String) : List Tag :=
  sources.flatMap fun source => (run .data source.toList).2.filterMap Token.tag?

/-- Where the values are shown as text, the tags depend on the template alone. -/
theorem tags_of_shown {pieces : List Piece} (all : Shown pieces) : tags (fill pieces) = ownTags (markups pieces) := by
  have text (text : List Char) : (shown text).filterMap Token.tag? = [] :=
    List.filterMap_eq_nil_iff.mpr fun token member => by
      obtain ⟨c, -, rfl⟩ := List.mem_map.mp member
      rfl
  rw [tags, all]
  clear all
  induction pieces with
  | nil => rfl
  | cons piece pieces ih =>
    rw [List.flatMap_cons, List.filterMap_append, ih]
    cases piece with
    | markup source => rfl
    | number number =>
      rw [Piece.tokens, text]
      rfl
    | value value =>
      rw [Piece.tokens, text]
      rfl

/-- Templates that differ in their values only make the same markup for lists of one length. -/
theorem markups_flatMap {α : Type} {template : α → List Piece} (same : ∀ a b, markups (template a) = markups (template b))
    {items items' : List α} (count : items.length = items'.length) :
    markups (items.flatMap template) = markups (items'.flatMap template) := by
  induction items generalizing items' with
  | nil => rw [List.eq_nil_of_length_eq_zero count.symm]
  | cons item items ih =>
    obtain ⟨item', items', rfl⟩ := List.exists_cons_of_length_eq_add_one count.symm
    rw [List.flatMap_cons, List.flatMap_cons, markups, markups, List.filterMap_append, List.filterMap_append]
    exact congrArg₂ _ (same item item') (ih (Nat.succ_inj.mp count))

end Html
