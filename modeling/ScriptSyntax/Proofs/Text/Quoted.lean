import ScriptSyntax.Proofs.Lexeme.Spellings
import ScriptSyntax.Text.Quoted

/-! Quoting loses nothing: whatever the text is, it can be read back from between its quotes,
and there is no line feed there. -/
namespace ScriptSyntax

/-- A text up to a mark, and what is behind the mark. -/
def cutAt (mark : Char) (text : List Char) : List Char × List Char :=
  (text.takeWhile (· != mark), (text.dropWhile (· != mark)).drop 1)

theorem cutAt_append {mark : Char} {piece : List Char} (free : mark ∉ piece) (rest : List Char) :
    cutAt mark (piece ++ mark :: rest) = (piece, rest) := by
  have other : ∀ c ∈ piece, (c != mark) = true := by
    intro c member
    rw [bne_iff_ne]
    rintro rfl
    exact free member
  simp [cutAt, List.takeWhile_append_of_pos other, List.dropWhile_append_of_pos other]

theorem cutAt_length_le (mark : Char) (text : List Char) :
    (cutAt mark text).2.length ≤ text.length :=
  ((List.drop_sublist 1 _).trans (List.dropWhile_sublist _)).length_le

namespace Quoted

/-- The first character of an escaped text that goes on to a closing quote, and the rest. -/
def unescape? : List Char → Option (Char × List Char)
  | '\\' :: '"' :: rest => some ('"', rest)
  | '\\' :: '\\' :: rest => some ('\\', rest)
  | '\\' :: 't' :: rest => some ('\t', rest)
  | '\\' :: 'n' :: rest => some ('\n', rest)
  | '\\' :: 'r' :: rest => some ('\r', rest)
  | '\\' :: '0' :: rest => some ('\x00', rest)
  | '\\' :: 'u' :: '\x7b' :: rest => do
    let (digits, rest) := cutAt '\x7d' rest
    let c ← scalar? (← hexNumber? digits.length digits)
    return (c, rest)
  | '\\' :: _ | '"' :: _ | [] => none
  | c :: rest => some (c, rest)

theorem unescape?_length {text rest : List Char} {c : Char}
    (read : unescape? text = some (c, rest)) : rest.length < text.length := by
  unfold unescape? at read
  split at read
  case h_7 text =>
    simp only [bind, Option.bind_eq_some_iff] at read
    obtain ⟨code, -, other, -, same⟩ := read
    obtain ⟨-, rfl⟩ := Prod.mk.inj (Option.some.inj same)
    have shorter := cutAt_length_le '\x7d' text
    simp only [List.length_cons]
    omega
  all_goals cases read
  all_goals simp only [List.length_cons]; omega

/-- An escaped text up to the quote that closes it, which is the last character. -/
def unescaped? (text : List Char) : Option (List Char) :=
  if text = ['"'] then some []
  else
    match _read : unescape? text with
    | none => none
    | some (c, rest) => (unescaped? rest).map (c :: ·)
  termination_by text.length
  decreasing_by exact unescape?_length _read

/-- A quoted text without its quotes and escapes. -/
def decode? : List Char → Option (List Char)
  | '"' :: text => unescaped? text
  | _ => none

theorem hex_spells (value : Nat) : SpellsHex (hex value) value := by
  have digit : ∀ value < 16, IsHexDigitOf value value.digitChar := by decide
  induction value using Nat.strongRecOn with
  | ind value ih =>
    rcases Nat.lt_or_ge value 16 with single | more
    · have spelled := SpellsHex.digit .nil (digit value single)
      rwa [Nat.mul_zero, Nat.zero_add, List.nil_append, ← Nat.toDigits_of_lt_base single] at spelled
    · have higher := ih (value / 16) (Nat.div_lt_self (by omega) (by decide))
      have spelled := higher.digit (digit (value % 16) (Nat.mod_lt _ (by decide)))
      rwa [hex, ← Nat.toDigits_of_base_le (by decide) more, Nat.div_add_mod] at spelled

theorem isHexDigit_of_mem_hex {value : Nat} {c : Char} (member : c ∈ hex value) :
    isHexDigit c = true := by
  have spelled := hex_spells value
  generalize hex value = digits at member spelled
  induction spelled with
  | nil => cases member
  | digit _ lowest ih =>
    rcases List.mem_append.mp member with before | last
    · exact ih before
    · obtain rfl := List.mem_singleton.mp last
      rw [isHexDigit, lowest.hexValue?_eq]
      rfl

/-- However a character is written, it is read back. -/
theorem unescape?_escape (c : Char) (rest : List Char) :
    unescape? (escape c ++ rest) = some (c, rest) := by
  unfold escape
  split
  case h_7 =>
    split
    · have free : '\x7d' ∉ hex c.toNat := fun member =>
        absurd (isHexDigit_of_mem_hex member) (by decide)
      have number : hexNumber? (hex c.toNat).length (hex c.toNat) = some c.toNat := by
        simpa using (hex_spells c.toNat).hexNumber?_eq rfl []
      simp [unescape?, cutAt_append free, number, scalar?_toNat]
    · simp_all [unescape?]
  all_goals rfl

theorem unescaped?_flatMap_escape (text : List Char) :
    unescaped? (text.flatMap escape ++ ['"']) = some text := by
  induction text with
  | nil => simp [unescaped?]
  | cons c text ih =>
    have first := unescape?_escape c (text.flatMap escape ++ ['"'])
    rw [List.flatMap_cons, List.append_assoc, unescaped?, if_neg]
    · split
      · next nothing =>
        rw [first] at nothing
        cases nothing
      · next read =>
        rw [first] at read
        obtain ⟨rfl, rfl⟩ := Prod.mk.inj (Option.some.inj read)
        rw [ih]
        rfl
    · intro closed
      rw [closed] at first
      cases first

theorem decode?_encode (text : List Char) : decode? (encode text) = some text :=
  unescaped?_flatMap_escape text

theorem newline_not_mem_escape (c : Char) : '\n' ∉ escape c := by
  by_cases feed : c = '\n'
  · subst feed
    decide
  unfold escape
  split
  case h_7 =>
    split
    · have free : '\n' ∉ hex c.toNat := fun member =>
        absurd (isHexDigit_of_mem_hex member) (by decide)
      simp [free]
    · exact fun member => feed (List.mem_singleton.mp member).symm
  all_goals decide

/-- A quoted text stays on its line. -/
theorem newline_not_mem_encode (text : List Char) : '\n' ∉ encode text := by
  simp [encode, newline_not_mem_escape]

end Quoted

end ScriptSyntax
