import SysNetMon.Text.Decimal

/-- A decoded document. Strings are held as the UTF-8 encoding of their
characters, objects as their members in the order of the text. -/
inductive Json where
  | null
  | bool (b : Bool)
  | num (q : ℚ)
  | str (s : Bytes)
  | arr (items : List Json)
  | obj (members : List (Bytes × Json))

namespace Json
open Bytes Decimal

/-- The value that the last member of this name has, as in a Python `dict`. -/
def member (name : Bytes) : List (Bytes × Json) → Option Json
  | [] => none
  | (key, j) :: rest =>
    match member name rest with
    | some last => some last
    | none => if key = name then some j else none

/-- JSON whitespace: space, `\t`, `\n`, `\r`. -/
def isBlank (ch : UInt8) : Bool := ch == 32 || ch == 9 || ch == 10 || ch == 13

def skipBlanks (s : Bytes) : Bytes := s.dropWhile isBlank

def eat (ch : UInt8) : Bytes → Option Bytes
  | [] => none
  | c :: cs => if c = ch then some cs else none

/-- The escapes of one letter. -/
def letterEscape (ch : UInt8) : Option UInt8 :=
  if ch = 34 then some 34
  else if ch = 92 then some 92
  else if ch = 47 then some 47
  else if ch = 98 then some 8
  else if ch = 102 then some 12
  else if ch = 110 then some 10
  else if ch = 114 then some 13
  else if ch = 116 then some 9
  else none

def hexDigit (ch : UInt8) : Option ℕ :=
  if 48 ≤ ch ∧ ch ≤ 57 then some (ch.toNat - 48)
  else if 97 ≤ ch ∧ ch ≤ 102 then some (ch.toNat - 87)
  else if 65 ≤ ch ∧ ch ≤ 70 then some (ch.toNat - 55)
  else none

/-- One item of a string body: a byte of the text, or the UTF-16 unit of a `\u` escape. -/
inductive StringUnit where
  | byte (ch : UInt8)
  | code (n : ℕ)

/-- A code point in UTF-8; a lone surrogate, which Python keeps, in the same bit layout. -/
def encodePoint (n : ℕ) : Bytes :=
  if n < 0x80 then [UInt8.ofNat n]
  else if n < 0x800 then [UInt8.ofNat (0xC0 + n / 0x40), UInt8.ofNat (0x80 + n % 0x40)]
  else if n < 0x10000 then
    [UInt8.ofNat (0xE0 + n / 0x1000), UInt8.ofNat (0x80 + n / 0x40 % 0x40), UInt8.ofNat (0x80 + n % 0x40)]
  else
    [UInt8.ofNat (0xF0 + n / 0x40000), UInt8.ofNat (0x80 + n / 0x1000 % 0x40),
      UInt8.ofNat (0x80 + n / 0x40 % 0x40), UInt8.ofNat (0x80 + n % 0x40)]

/-- The items of a string body as text; two surrogate escapes in a row are one character. -/
def joinUnits : List StringUnit → Bytes
  | [] => []
  | .byte ch :: units => ch :: joinUnits units
  | [.code n] => encodePoint n
  | .code n :: .byte ch :: units => encodePoint n ++ ch :: joinUnits units
  | .code n :: .code m :: units =>
    if 0xD800 ≤ n ∧ n < 0xDC00 ∧ 0xDC00 ≤ m ∧ m < 0xE000 then
      encodePoint (0x10000 + (n - 0xD800) * 0x400 + (m - 0xDC00)) ++ joinUnits units
    else encodePoint n ++ joinUnits (.code m :: units)

/-- A string body up to its closing quote. Raw bytes below 0x20 are refused. -/
def stringUnits : Bytes → Option (List StringUnit × Bytes)
  | [] => none
  | c :: cs =>
    if c = quote then some ([], cs)
    else if c = backslash then
      match cs with
      | [] => none
      | e :: es =>
        match letterEscape e with
        | some ch => (stringUnits es).map fun m => (.byte ch :: m.1, m.2)
        | none =>
          if e = 117 then
            match es with
            | h₁ :: h₂ :: h₃ :: h₄ :: rest =>
              match hexDigit h₁, hexDigit h₂, hexDigit h₃, hexDigit h₄ with
              | some d₁, some d₂, some d₃, some d₄ =>
                (stringUnits rest).map fun m => (.code (d₁ * 4096 + d₂ * 256 + d₃ * 16 + d₄) :: m.1, m.2)
              | _, _, _, _ => none
            | _ => none
          else none
    else if c < 32 then none
    else (stringUnits cs).map fun m => (.byte c :: m.1, m.2)

def stringBody (s : Bytes) : Option (Bytes × Bytes) :=
  (stringUnits s).map fun m => (joinUnits m.1, m.2)

/-- The whole part of a number: a zero, or digits that do not start with one. -/
def wholePart : Bytes → Option (Bytes × Bytes)
  | [] => none
  | c :: cs =>
    if c = 48 then some ([48], cs)
    else if isdigit c then some (c :: cs.takeWhile isdigit, cs.dropWhile isdigit)
    else none

def fractionPart : Bytes → Bytes × Bytes
  | [] => ([], [])
  | c :: cs =>
    if c = point ∧ cs.takeWhile isdigit ≠ [] then (cs.takeWhile isdigit, cs.dropWhile isdigit)
    else ([], c :: cs)

def exponentSign : Bytes → Bool × Bytes
  | [] => (false, [])
  | c :: cs => if c = 45 then (true, cs) else if c = 43 then (false, cs) else (false, c :: cs)

def exponentPart : Bytes → ℤ × Bytes
  | [] => (0, [])
  | c :: cs =>
    let (negative, rest) := exponentSign cs
    let ds := rest.takeWhile isdigit
    if (c = 101 ∨ c = 69) ∧ ds ≠ [] then
      (if negative then -(readNat ds : ℤ) else readNat ds, rest.dropWhile isdigit)
    else (0, c :: cs)

def unsignedNumber (s : Bytes) : Option (ℚ × Bytes) :=
  (wholePart s).map fun whole =>
    let fraction := fractionPart whole.2
    let exponent := exponentPart fraction.2
    (((readNat whole.1 : ℚ) + readNat fraction.1 / 10 ^ fraction.1.length) * 10 ^ exponent.1, exponent.2)

def number : Bytes → Option (ℚ × Bytes)
  | [] => none
  | c :: cs => if c = 45 then (unsignedNumber cs).map fun m => (-m.1, m.2) else unsignedNumber (c :: cs)

def keyword (s : Bytes) : Option (Json × Bytes) :=
  if ascii "null" <+: s then some (null, s.drop 4)
  else if ascii "true" <+: s then some (bool true, s.drop 4)
  else if ascii "false" <+: s then some (bool false, s.drop 5)
  else none

mutual

/-- One value at the head of the text; `fuel` bounds the nesting. -/
def value : ℕ → Bytes → Option (Json × Bytes)
  | 0, _ => none
  | _ + 1, [] => none
  | fuel + 1, c :: cs =>
    if c = quote then (stringBody cs).map fun m => (str m.1, m.2)
    else if c = 91 then
      match eat 93 (skipBlanks cs) with
      | some rest => some (arr [], rest)
      | none => (elements fuel (skipBlanks cs)).map fun m => (arr m.1, m.2)
    else if c = 123 then
      match eat 125 (skipBlanks cs) with
      | some rest => some (obj [], rest)
      | none => (members fuel (skipBlanks cs)).map fun m => (obj m.1, m.2)
    else
      match keyword (c :: cs) with
      | some m => some m
      | none => (number (c :: cs)).map fun m => (num m.1, m.2)

def elements : ℕ → Bytes → Option (List Json × Bytes)
  | 0, _ => none
  | fuel + 1, s =>
    match value fuel s with
    | none => none
    | some (j, rest) =>
      match eat comma (skipBlanks rest) with
      | some more => (elements fuel (skipBlanks more)).map fun m => (j :: m.1, m.2)
      | none => (eat 93 (skipBlanks rest)).map fun more => ([j], more)

def members : ℕ → Bytes → Option (List (Bytes × Json) × Bytes)
  | 0, _ => none
  | fuel + 1, s =>
    match (eat quote s).bind stringBody with
    | none => none
    | some (key, rest) =>
      match eat colon (skipBlanks rest) with
      | none => none
      | some rest =>
        match value fuel (skipBlanks rest) with
        | none => none
        | some (j, rest) =>
          match eat comma (skipBlanks rest) with
          | some more => (members fuel (skipBlanks more)).map fun m => ((key, j) :: m.1, m.2)
          | none => (eat 125 (skipBlanks rest)).map fun more => ([(key, j)], more)

end

/-- `json.loads` as the strict decoder of RFC 8259. -/
def loads (s : Bytes) : Option Json :=
  match value (s.length + 1) (skipBlanks s) with
  | none => none
  | some (j, rest) => if skipBlanks rest = [] then some j else none

theorem stringBody_quote (s : Bytes) : stringBody (quote :: s) = some ([], s) := by
  rw [stringBody, stringUnits.eq_def]
  simp [joinUnits]

theorem stringBody_plain {ch : UInt8} (notQuote : ch ≠ quote) (notBackslash : ch ≠ backslash)
    (printable : ¬ ch < 32) (s : Bytes) :
    stringBody (ch :: s) = (stringBody s).map fun m => (ch :: m.1, m.2) := by
  rw [stringBody, stringUnits.eq_def]
  simp only [notQuote, notBackslash, printable, if_false, Option.map_map, stringBody]
  rfl

theorem stringBody_control {ch : UInt8} (control : ch < 32) (s : Bytes) : stringBody (ch :: s) = none := by
  have notQuote : ch ≠ quote := by rintro rfl; exact absurd control (by decide)
  have notBackslash : ch ≠ backslash := by rintro rfl; exact absurd control (by decide)
  rw [stringBody, stringUnits.eq_def]
  simp [notQuote, notBackslash, control]

theorem stringBody_escape {e ch : UInt8} (escape : letterEscape e = some ch) (s : Bytes) :
    stringBody (backslash :: e :: s) = (stringBody s).map fun m => (ch :: m.1, m.2) := by
  have notQuote : backslash ≠ quote := by decide
  rw [stringBody, stringUnits.eq_def]
  simp only [notQuote, escape, if_false, if_true, Option.map_map, stringBody]
  rfl

end Json
