import Mathlib.Data.List.DropRight
import Mathlib.Data.List.Infix

/-- A C++ `std::string`, or any text on the wire: a sequence of bytes. -/
abbrev Bytes := List UInt8

namespace Bytes

/-- The bytes of an ASCII literal of the source. -/
def ascii (s : String) : Bytes := s.toList.map Char.toUInt8

def quote : UInt8 := 34
def backslash : UInt8 := 92
def colon : UInt8 := 58
def comma : UInt8 := 44
def newline : UInt8 := 10

/-- `std::isspace` in the C locale: space, `\t`, `\n`, `\v`, `\f`, `\r`. -/
def isspace (ch : UInt8) : Bool := ch == 32 || (9 ≤ ch && ch ≤ 13)

/-- The pattern class `[0-9]`. -/
def isdigit (ch : UInt8) : Bool := 48 ≤ ch && ch ≤ 57

/-- `std::tolower` in the C locale. -/
def tolower (ch : UInt8) : UInt8 := if 65 ≤ ch && ch ≤ 90 then ch + 32 else ch

/-- Every byte is a printable ASCII character. -/
def Printable (s : Bytes) : Prop := ∀ ch ∈ s, 32 ≤ ch.toNat ∧ ch.toNat < 127

instance (s : Bytes) : Decidable (Printable s) := List.decidableBAll _ s

theorem Printable.append {s t : Bytes} (first : Printable s) (second : Printable t) : Printable (s ++ t) :=
  fun ch member => (List.mem_append.mp member).elim (first ch) (second ch)

theorem isdigit_iff {ch : UInt8} : isdigit ch = true ↔ 48 ≤ ch.toNat ∧ ch.toNat ≤ 57 := by
  simp [isdigit, UInt8.le_iff_toNat_le]

theorem isspace_iff {ch : UInt8} :
    isspace ch = true ↔ ch.toNat = 32 ∨ 9 ≤ ch.toNat ∧ ch.toNat ≤ 13 := by
  simp [isspace, UInt8.le_iff_toNat_le, ← UInt8.toNat_inj]

end Bytes

/-!
UTF-8 text held as bytes: what keeps it well formed when it is cut at, or
rewritten in, its ASCII characters.
-/

namespace Utf8

/-- The UTF-8 bytes of a text. -/
def encode (text : List Char) : Bytes := text.flatMap String.utf8EncodeChar

/-- The bytes are those of some text. -/
def Valid (s : Bytes) : Prop := ∃ text, encode text = s

theorem encode_append (text more : List Char) : encode (text ++ more) = encode text ++ encode more :=
  List.flatMap_append

theorem encode_cons (c : Char) (text : List Char) : encode (c :: text) = String.utf8EncodeChar c ++ encode text :=
  List.flatMap_cons

/-- A character is one ASCII byte or a sequence of bytes beyond ASCII. -/
theorem utf8EncodeChar_cases (c : Char) :
    (c.toNat < 128 ∧ String.utf8EncodeChar c = [UInt8.ofNat c.toNat]) ∨
      (128 ≤ c.toNat ∧ ∀ ch ∈ String.utf8EncodeChar c, 128 ≤ ch.toNat) := by
  have number : c.val.toNat = c.toNat := rfl
  unfold String.utf8EncodeChar
  dsimp only
  rw [number]
  split
  · exact Or.inl ⟨by omega, rfl⟩
  · refine Or.inr ⟨by omega, ?_⟩
    split
    · simp only [List.mem_cons, List.not_mem_nil, or_false, forall_eq_or_imp, forall_eq, UInt8.toNat_ofNat']
      omega
    · split <;>
      · simp only [List.mem_cons, List.not_mem_nil, or_false, forall_eq_or_imp, forall_eq, UInt8.toNat_ofNat']
        omega

theorem valid_nil : Valid [] := ⟨[], rfl⟩

theorem Valid.append {s t : Bytes} (first : Valid s) (second : Valid t) : Valid (s ++ t) := by
  obtain ⟨u, rfl⟩ := first
  obtain ⟨v, rfl⟩ := second
  exact ⟨u ++ v, encode_append u v⟩

theorem valid_ascii {s : Bytes} (ascii : ∀ ch ∈ s, ch.toNat < 128) : Valid s := by
  induction s with
  | nil => exact valid_nil
  | cons ch s ih =>
    have small := ascii ch List.mem_cons_self
    let c : Char := Char.ofNatAux ch.toNat (Or.inl (by omega))
    have number : c.toNat = ch.toNat := rfl
    have one : Valid [ch] := by
      refine ⟨[c], ?_⟩
      rcases utf8EncodeChar_cases c with ⟨-, shape⟩ | ⟨large, -⟩
      · rw [encode_cons, shape, number, UInt8.ofNat_toNat]
        rfl
      · omega
    exact one.append (ih fun other member => ascii other (List.mem_cons_of_mem ch member))

/-- Cutting a text at an ASCII character. -/
theorem Valid.split {a b : Bytes} {ch : UInt8} (ascii : ch.toNat < 128) (valid : Valid (a ++ ch :: b)) :
    Valid a ∧ Valid b := by
  obtain ⟨text, same⟩ := valid
  induction text generalizing a with
  | nil => simp [encode] at same
  | cons c text ih =>
    rw [encode_cons] at same
    rcases List.append_eq_append_iff.mp same with ⟨a', rfl, rest⟩ | ⟨inner, shape, rest⟩
    · obtain ⟨left, right⟩ := ih rest
      exact ⟨Valid.append ⟨[c], by simp [encode]⟩ left, right⟩
    · cases inner with
      | nil =>
        rw [List.append_nil] at shape
        rw [List.nil_append] at rest
        obtain ⟨left, right⟩ := ih (a := []) rest.symm
        exact ⟨⟨[c], by simp [encode, shape]⟩, right⟩
      | cons first inner =>
        obtain ⟨rfl, tail⟩ := List.cons.inj rest
        have member : ch ∈ String.utf8EncodeChar c := by
          rw [shape]
          simp
        rcases utf8EncodeChar_cases c with ⟨-, one⟩ | ⟨-, large⟩
        · rw [one] at shape
          have empty : a = [] ∧ inner = [] := by
            have length := congrArg List.length shape
            simp only [List.length_append, List.length_cons, List.length_nil] at length
            exact ⟨List.length_eq_zero_iff.mp (by omega), List.length_eq_zero_iff.mp (by omega)⟩
          exact ⟨empty.1 ▸ valid_nil, text, by rw [tail, empty.2]; rfl⟩
        · exact absurd (large ch member) (by omega)

/-- Rewriting each ASCII character to ASCII text. -/
theorem Valid.flatMap {f : UInt8 → Bytes} (ascii : ∀ ch : UInt8, ch.toNat < 128 → ∀ d ∈ f ch, d.toNat < 128)
    (other : ∀ ch : UInt8, 128 ≤ ch.toNat → f ch = [ch]) {s : Bytes} (valid : Valid s) : Valid (s.flatMap f) := by
  obtain ⟨text, rfl⟩ := valid
  induction text with
  | nil => exact valid_nil
  | cons c text ih =>
    rw [encode_cons, List.flatMap_append]
    refine Valid.append ?_ ih
    rcases utf8EncodeChar_cases c with ⟨small, shape⟩ | ⟨-, large⟩
    · rw [shape, List.flatMap_singleton]
      exact valid_ascii (ascii _ (by rw [UInt8.toNat_ofNat']; omega))
    · have same : (String.utf8EncodeChar c).flatMap f = String.utf8EncodeChar c := by
        rw [List.flatMap_congr fun ch member => other ch (large ch member), List.flatMap_singleton']
      exact ⟨[c], by rw [same]; simp [encode]⟩

theorem Valid.dropWhile {p : UInt8 → Bool} (ascii : ∀ ch, p ch = true → ch.toNat < 128) {s : Bytes}
    (valid : Valid s) : Valid (s.dropWhile p) := by
  induction s with
  | nil => exact valid
  | cons ch s ih =>
    by_cases dropped : p ch = true
    · rw [List.dropWhile_cons_of_pos dropped]
      exact ih (Valid.split (a := []) (ascii ch dropped) valid).2
    · rwa [List.dropWhile_cons_of_neg dropped]

theorem Valid.rdropWhile {p : UInt8 → Bool} (ascii : ∀ ch, p ch = true → ch.toNat < 128) {s : Bytes}
    (valid : Valid s) : Valid (s.rdropWhile p) := by
  induction s using List.reverseRecOn with
  | nil => exact valid
  | append_singleton s ch ih =>
    by_cases dropped : p ch = true
    · rw [List.rdropWhile_concat_pos p s ch dropped]
      exact ih (valid.split (ascii ch dropped)).1
    · rwa [List.rdropWhile_concat_neg p s ch dropped]

/-- The text that the bytes encode, all of them. -/
def decode (s : Bytes) : Option (List Char) := s.toByteArray.utf8Decode?.map Array.toList

theorem decode_encode (text : List Char) : decode (encode text) = some text := by
  have same : (encode text).toByteArray = text.utf8Encode := rfl
  rw [decode, same, List.utf8Decode?_utf8Encode]
  rfl

theorem encode_injective {text more : List Char} (same : encode text = encode more) : text = more := by
  have decoded := decode_encode text
  rw [same, decode_encode] at decoded
  exact (Option.some.inj decoded).symm

theorem encode_of_decode {s : Bytes} {text : List Char} (decoded : decode s = some text) : encode text = s := by
  obtain ⟨chars, result, rfl⟩ := Option.map_eq_some_iff.mp decoded
  have back := ByteArray.utf8Encode_get_utf8Decode? (h := by rw [result]; rfl) (b := s.toByteArray)
  simp only [result, Option.get_some] at back
  exact List.toByteArray_inj.mp back

/-- An ASCII character is in a text when its byte is in the bytes. -/
theorem mem_of_mem_encode {c : Char} (small : c.toNat < 128) {text : List Char}
    (member : UInt8.ofNat c.toNat ∈ encode text) : c ∈ text := by
  obtain ⟨d, inText, inner⟩ := List.mem_flatMap.mp member
  have number : (UInt8.ofNat c.toNat).toNat = c.toNat := by
    rw [UInt8.toNat_ofNat']
    omega
  rcases utf8EncodeChar_cases d with ⟨small', shape⟩ | ⟨-, large⟩
  · rw [shape, List.mem_singleton] at inner
    have same := congrArg UInt8.toNat inner
    rw [number, UInt8.toNat_ofNat', Nat.mod_eq_of_lt (by omega)] at same
    rwa [Char.toNat_inj.mp same]
  · have beyond := large _ inner
    omega

theorem mem_encode {c : Char} (small : c.toNat < 128) {text : List Char} (member : c ∈ text) :
    UInt8.ofNat c.toNat ∈ encode text := by
  refine List.mem_flatMap.mpr ⟨c, member, ?_⟩
  rcases utf8EncodeChar_cases c with ⟨-, shape⟩ | ⟨large, -⟩
  · rw [shape]
    exact List.mem_singleton_self _
  · omega

end Utf8
