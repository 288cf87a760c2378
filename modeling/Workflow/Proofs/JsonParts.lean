import Workflow.Json.Printer
import Workflow.Json.Reader
import Workflow.Proofs.Decimals

/-! The smallest parts of texts of data. A string, a word and a number that is not too long are read as what was printed, and
doubles are read as doubles. -/

namespace Workflow.Number

theorem ofDigits_chars (cs : List Char) : ofDigits 10 (cs.map (fun c => c.toNat - 48)) = Nat.ofDigitChars 10 cs 0 := by
  rw [ofDigits, Nat.ofDigitChars_eq_foldl, List.foldl_map]
  congr 1
  funext n c
  rw [Nat.mul_comm]
  rfl

theorem ofDigits_decimalText (n : Nat) : ofDigits 10 ((decimalText n).map (fun c => c.toNat - 48)) = n := by
  rw [ofDigits_chars, decimalText, Nat.ofDigitChars_ten_toDigits]

theorem decimalText_length_le {n k : Nat} (positive : 0 < k) (small : n < Nat.pow 10 k) : (decimalText n).length ≤ k :=
  (Nat.length_toDigits_le_iff (by omega) positive).mpr small

theorem decimalText_length {n : Int} (short : isLong n = false) : (decimalText n.natAbs).length ≤ digitLimit :=
  decimalText_length_le (by decide) (Nat.lt_of_not_le (of_decide_eq_false short))

end Workflow.Number

namespace Workflow.Json

/-! Strings. -/

theorem hexValue?_hex : ∀ d < 16, Number.digitValue? (Text.hexDigit d) = some d := by decide

theorem unit?_hex {n : Nat} (small : n < 0x10000) (rest : List Char) : unit? (Text.hex 4 n ++ rest) = some (n, rest) := by
  have digits : Text.hex 4 n = [Text.hexDigit (n / 16 / 16 / 16 % 16), Text.hexDigit (n / 16 / 16 % 16),
      Text.hexDigit (n / 16 % 16), Text.hexDigit (n % 16)] := rfl
  have digit (k : Nat) : Number.digitValue? (Text.hexDigit (k % 16)) = some (k % 16) :=
    hexValue?_hex _ (Nat.mod_lt _ (by omega))
  have bound (k : Nat) : k % 16 < 16 := Nat.mod_lt _ (by omega)
  have value : hexValue? (Text.hex 4 n) = some n := by
    rw [digits]
    simp only [hexValue?, List.foldlM_cons, List.foldlM_nil, digit, Option.bind_eq_bind, Option.bind_some, if_pos (bound _),
      Option.pure_def]
    congr 1
    omega
  have four : (Text.hex 4 n).length = 4 := by rw [digits]; rfl
  simp only [unit?, List.take_left' four, List.drop_left' four, four, value]
  rfl

theorem charOf_toNat (c : Char) : charOf c.toNat = c := by
  have valid : c.toNat.isValidChar := c.valid
  rw [charOf, if_pos valid]
  exact Char.ofNat_toNat c

/-- A character that is no half of a pair is read back from its code. -/
theorem codeEscape_char {c : Char} (small : c.toNat < 0x10000) (rest : List Char) :
    codeEscape (Text.hex 4 c.toNat ++ rest) = .ok (c, rest) := by
  have whole : ¬ (0xD800 ≤ c.toNat ∧ c.toNat < 0xDC00) := by
    rintro ⟨above, below⟩
    obtain lower | upper := c.valid
    · have : c.toNat < 0xD800 := lower
      omega
    · have : 0xDFFF < c.toNat := upper.1
      omega
  simp only [codeEscape, unit?_hex small, charOf_toNat]
  split
  · split
    · split
      · next halves => exact absurd (by simp at halves; omega) whole
      · rfl
    · rfl
  · rfl

theorem codeEscape_halves {high low : Nat} (first : 0xD800 ≤ high ∧ high < 0xDC00) (second : 0xDC00 ≤ low ∧ low < 0xE000)
    (rest : List Char) : codeEscape (Text.hex 4 high ++ '\\' :: 'u' :: (Text.hex 4 low ++ rest)) =
      .ok (charOf (0x10000 + (high - 0xD800) * 0x400 + (low - 0xDC00)), rest) := by
  have halves : (0xD800 ≤ high && high < 0xDC00 && 0xDC00 ≤ low && low < 0xE000) = true := by
    simp only [first, second, decide_true, Bool.and_self]
  simp only [codeEscape, unit?_hex (by omega : high < 0x10000), unit?_hex (by omega : low < 0x10000), halves, if_true]

/-- A character behind the first plane is read back from a pair. -/
theorem codeEscape_pair {c : Char} (large : 0x10000 ≤ c.toNat) (rest : List Char) :
    codeEscape (Text.hex 4 (0xD800 + (c.toNat - 0x10000) / 0x400) ++
      '\\' :: 'u' :: (Text.hex 4 (0xDC00 + (c.toNat - 0x10000) % 0x400) ++ rest)) = .ok (c, rest) := by
  have below : c.toNat < 0x110000 := by
    obtain lower | upper := c.valid
    · have : c.toNat < 0xD800 := lower
      omega
    · exact upper.2
  rw [codeEscape_halves ⟨by omega, by omega⟩ ⟨by omega, by omega⟩]
  have whole : 0x10000 + (0xD800 + (c.toNat - 0x10000) / 0x400 - 0xD800) * 0x400 +
      (0xDC00 + (c.toNat - 0x10000) % 0x400 - 0xDC00) = c.toNat := by omega
  rw [whole, charOf_toNat]

theorem string_code {code rest : List Char} {c : Char} (fuel : Nat) (found : codeEscape code = .ok (c, rest)) :
    string (fuel + 1) ('\\' :: 'u' :: code) = (do
      let (more, left) ← string fuel rest
      return (c :: more, left)) := by
  simp only [string, found]
  rfl

/-- An escaped character is read back. -/
theorem string_escape (fuel : Nat) (c : Char) (rest : List Char) : string (fuel + 1) (escape c ++ rest) = (do
    let (more, left) ← string fuel rest
    return (c :: more, left)) := by
  unfold escape
  split
  case h_8 quote backslash _ _ _ _ _ =>
    dsimp only
    split
    · next printable =>
      have visible : 32 ≤ c.toNat := by simp at printable; omega
      have noQuote : (c == '"') = false := by simpa using quote
      have noBackslash : (c == '\\') = false := by simpa using backslash
      simp only [List.singleton_append, string, noQuote, noBackslash, if_neg (by omega : ¬ c.toNat < 32)]
      rfl
    split
    · next small => exact string_code fuel (codeEscape_char small rest)
    · next large =>
      have pair := codeEscape_pair (c := c) (by omega) rest
      simp only [escapedUnit, List.cons_append, List.append_assoc]
      exact string_code fuel pair
  all_goals rfl

/-- A string is read back, up to its closing quote. -/
theorem string_escaped {fuel : Nat} (cs rest : List Char) (enough : cs.length < fuel) :
    string fuel (cs.flatMap escape ++ '"' :: rest) = .ok (cs, rest) := by
  induction cs generalizing fuel with
  | nil =>
    obtain ⟨fuel, rfl⟩ : ∃ n, fuel = n + 1 := ⟨fuel - 1, by simp at enough; omega⟩
    rfl
  | cons c cs ih =>
    obtain ⟨fuel, rfl⟩ : ∃ n, fuel = n + 1 := ⟨fuel - 1, by simp at enough; omega⟩
    rw [List.flatMap_cons, List.append_assoc, string_escape, ih (by simpa using enough)]
    rfl

/-! Numbers and words. -/

/-- What may stand after a value on a line of its own. -/
def Ends (rest : List Char) : Prop := ∀ c ∈ rest.head?, c = ',' ∨ c = '\n'

namespace Ends

theorem nil : Ends [] := nofun

theorem comma (rest : List Char) : Ends (',' :: rest) := by
  intro c head
  exact .inl (Option.mem_some.mp head).symm

theorem line (rest : List Char) : Ends ('\n' :: rest) := by
  intro c head
  exact .inr (Option.mem_some.mp head).symm

variable {rest : List Char} (ends : Ends rest)
include ends

theorem takeWhile_isDigit : rest.takeWhile Char.isDigit = [] := by
  cases rest with
  | nil => rfl
  | cons c rest => obtain rfl | rfl := ends c rfl <;> rfl

theorem fraction : fraction rest = ([], rest) := by
  cases rest with
  | nil => rfl
  | cons c rest => obtain rfl | rfl := ends c rfl <;> rfl

theorem exponent : exponent rest = (none, rest) := by
  cases rest with
  | nil => rfl
  | cons c rest => obtain rfl | rfl := ends c rfl <;> rfl

end Ends

/-- What a number starts with: a digit, behind a sign or not. -/
def Numeral (cs : List Char) : Prop :=
  ∃ (negative : Bool) (d : Char) (others : List Char), cs = (if negative then ['-'] else []) ++ d :: others ∧ d.isDigit = true

theorem Numeral.append {cs : List Char} (numeral : Numeral cs) (rest : List Char) : Numeral (cs ++ rest) := by
  obtain ⟨negative, d, others, rfl, digit⟩ := numeral
  exact ⟨negative, d, others ++ rest, by rw [List.append_assoc, List.cons_append], digit⟩

theorem Numeral.whole (negative : Bool) {whole : List Char} (leads : Number.Leads whole) (rest : List Char) :
    Numeral ((if negative then ['-'] else []) ++ (whole ++ rest)) := by
  obtain ⟨d, others, rfl⟩ : ∃ d others, whole = d :: others := by
    obtain rfl | ⟨d, others, rfl, -⟩ := leads.first
    · exact ⟨'0', [], rfl⟩
    · exact ⟨d, others, rfl⟩
  exact ⟨negative, d, others ++ rest, rfl, leads.digits d List.mem_cons_self⟩

theorem unsigned_numeral (negative : Bool) {d : Char} (digit : d.isDigit = true) (rest : List Char) :
    unsigned ((if negative then ['-'] else []) ++ d :: rest) = (negative, d :: rest) := by
  cases negative with
  | true => rfl
  | false =>
    change unsigned (d :: rest) = _
    unfold unsigned
    split
    · next first =>
      obtain ⟨rfl, -⟩ := List.cons.inj first
      cases digit
    · rfl

theorem unsigned_whole (negative : Bool) {whole : List Char} (leads : Number.Leads whole) (rest : List Char) :
    unsigned ((if negative then ['-'] else []) ++ (whole ++ rest)) = (negative, whole ++ rest) := by
  obtain rfl | ⟨d, others, rfl, -⟩ := leads.first
  · exact unsigned_numeral negative rfl rest
  · exact unsigned_numeral negative (leads.digits d List.mem_cons_self) (others ++ rest)

/-- No word starts as a number does. -/
theorem scalar_numeral {cs : List Char} (numeral : Numeral cs) : scalar cs = number cs := by
  obtain ⟨negative, d, others, rfl, digit⟩ := numeral
  have letter (a : Char) (w : List Char) (other : a.isDigit = false) : (a :: w).isPrefixOf (d :: others) = false := by
    have apart : (a == d) = false := by
      rw [beq_eq_false_iff_ne]
      rintro rfl
      rw [digit] at other
      cases other
    rw [List.isPrefixOf, apart, Bool.false_and]
  have noWord : ∀ word ∈ words, ¬ word.1.toList.isPrefixOf ((if negative then ['-'] else []) ++ d :: others) = true := by
    intro word member
    simp only [words, List.mem_cons, List.not_mem_nil, or_false] at member
    cases negative with
    | false => obtain rfl | rfl | rfl | rfl | rfl | rfl := member <;> exact ne_true_of_eq_false (letter _ _ rfl)
    | true =>
      obtain rfl | rfl | rfl | rfl | rfl | rfl := member
      case inr.inr.inr.inr.inr =>
        -- The word for an infinite number starts with a sign too, but goes on with a letter.
        exact ne_true_of_eq_false (letter 'I' _ rfl)
      all_goals exact Bool.false_ne_true
  rw [scalar]
  split
  · next found => exact absurd (List.find?_some found) (noWord _ (List.mem_of_find?_eq_some found))
  · rfl

/-- The digits before a point, an exponent or the end are taken as a whole. -/
theorem whole_leads {whole rest : List Char} (leads : Number.Leads whole) (stops : rest.takeWhile Char.isDigit = []) :
    Json.whole (whole ++ rest) = whole := by
  have taken : (whole ++ rest).takeWhile Char.isDigit = whole := by
    rw [List.takeWhile_append_of_pos leads.digits, stops, List.append_nil]
  obtain rfl | ⟨c, others, rfl, nonzero⟩ := leads.first
  · rfl
  · unfold Json.whole
    split
    · next first =>
      obtain ⟨same, -⟩ := List.cons.inj first
      exact absurd same nonzero
    · exact taken

theorem leads_nonempty {whole : List Char} (leads : Number.Leads whole) : whole.isEmpty = false := by
  obtain rfl | ⟨c, others, rfl, -⟩ := leads.first <;> rfl

theorem intText_toList (n : Int) :
    (Number.intText n).toList = (if decide (n < 0) then ['-'] else []) ++ (Number.decimalText n.natAbs ++ []) := by
  by_cases below : n < 0 <;> simp [Number.intText, below]

theorem intText_numeral (n : Int) : Numeral (Number.intText n).toList := by
  rw [intText_toList]
  exact .whole _ (Number.decimalText_leads _) _

/-- A whole number is read back, if it is not too long. -/
theorem number_intText {n : Int} (short : Number.isLong n = false) {rest : List Char} (ends : Ends rest) :
    number ((Number.intText n).toList ++ rest) = .ok (.int n, rest) := by
  have few := Number.decimalText_length short
  have leads := Number.decimalText_leads n.natAbs
  have value : (if decide (n < 0) then -(n.natAbs : Int) else n.natAbs) = n := by
    split
    · next below => simp only [decide_eq_true_eq] at below; omega
    · next above => simp only [decide_eq_true_eq] at above; omega
  rw [intText_toList, List.append_nil, List.append_assoc]
  simp only [number, unsigned_whole _ leads, whole_leads leads ends.takeWhile_isDigit, List.drop_left, ends.fraction,
    ends.exponent, leads_nonempty leads, List.append_nil, Number.ofDigits_decimalText, if_neg (Nat.not_lt.mpr few)]
  rw [if_neg Bool.false_ne_true, value]
  rfl

/-! Doubles. -/

/-- What may stand behind the digits of a fraction or an exponent. -/
theorem stops_power {power rest : List Char} (powered : Number.Power power) (ends : Ends rest) :
    (power ++ rest).takeWhile Char.isDigit = [] := by
  obtain rfl | ⟨exponent, rfl⟩ := powered
  · exact ends.takeWhile_isDigit
  · rfl

theorem fraction_places {places rest : List Char} (present : places ≠ []) (digits : ∀ c ∈ places, c.isDigit = true)
    (stops : rest.takeWhile Char.isDigit = []) : fraction ('.' :: (places ++ rest)) = (places, rest) := by
  have taken : (places ++ rest).takeWhile Char.isDigit = places := by
    rw [List.takeWhile_append_of_pos digits, stops, List.append_nil]
  have nonempty : places.isEmpty = false := by simpa using present
  simp only [fraction, taken, nonempty, List.drop_left, if_neg Bool.false_ne_true]

theorem fraction_power {power rest : List Char} (powered : Number.Power power) (ends : Ends rest) :
    fraction (power ++ rest) = ([], power ++ rest) := by
  obtain rfl | ⟨exponent, rfl⟩ := powered
  · exact ends.fraction
  · rfl

/-- An exponent is read as the same number whatever follows it. -/
theorem exponent_text (e : Int) :
    ∃ n, ∀ rest, Ends rest → exponent (Number.exponentText 'e' e ++ rest) = (some n, rest) := by
  have digits := Number.padLeft_digits 2 (Number.decimalText_digits e.natAbs)
  have nonempty : (Number.padLeft 2 '0' (Number.decimalText e.natAbs)).isEmpty = false := by
    obtain ⟨c, others, text, -⟩ := Number.decimalText_cons e.natAbs
    rw [List.isEmpty_eq_false_iff_exists_mem]
    exact ⟨c, List.mem_append_right _ (by rw [text]; exact List.mem_cons_self)⟩
  obtain ⟨negative, sign⟩ : ∃ negative, ∀ rest, Number.signed ((if e < 0 then '-' else '+') :: rest) = (negative, rest) := by
    split
    · exact ⟨true, fun _ => rfl⟩
    · exact ⟨false, fun _ => rfl⟩
  have mark : ('e' == 'e' || 'e' == 'E') = true := rfl
  let n : Int := Number.ofDigits 10 ((Number.padLeft 2 '0' (Number.decimalText e.natAbs)).map (fun c => c.toNat - 48))
  refine ⟨if negative then -n else n, fun rest ends => ?_⟩
  have taken : (Number.padLeft 2 '0' (Number.decimalText e.natAbs) ++ rest).takeWhile Char.isDigit =
      Number.padLeft 2 '0' (Number.decimalText e.natAbs) := by
    rw [List.takeWhile_append_of_pos digits, ends.takeWhile_isDigit, List.append_nil]
  simp only [exponent, Number.exponentText, List.cons_append, mark, if_true, sign, taken, nonempty, List.drop_left,
    if_neg Bool.false_ne_true]
  rfl

/-- A number with a fraction or an exponent is read as a double. -/
theorem number_decimals (negative : Bool) {whole part power : List Char} (decimals : Number.Decimals whole part power) :
    ∃ y, ∀ rest, Ends rest →
      number ((if negative then ['-'] else []) ++ (whole ++ (part ++ (power ++ rest)))) = .ok (.float y, rest) := by
  obtain ⟨leads, fractional, powered, broken⟩ := decimals
  obtain ⟨places, found, present⟩ : ∃ places, (∀ rest, Ends rest →
      fraction (part ++ (power ++ rest)) = (places, power ++ rest)) ∧ (part ≠ [] → places.isEmpty = false) := by
    obtain rfl | ⟨places, present, digits, rfl⟩ := fractional
    · refine ⟨[], fun rest ends => ?_, fun there => absurd rfl there⟩
      rw [List.nil_append]
      exact fraction_power powered ends
    · exact ⟨places, fun rest ends => fraction_places present digits (stops_power powered ends),
        fun _ => by simpa using present⟩
  obtain ⟨raised, read, given⟩ : ∃ raised, (∀ rest, Ends rest → exponent (power ++ rest) = (raised, rest)) ∧
      (power ≠ [] → raised.isNone = false) := by
    obtain rfl | ⟨e, rfl⟩ := powered
    · exact ⟨none, fun rest ends => ends.exponent, fun there => absurd rfl there⟩
    · obtain ⟨n, read⟩ := exponent_text e
      exact ⟨some n, read, fun _ => rfl⟩
  have double : (places.isEmpty && raised.isNone) = false := by
    obtain there | there := broken
    · rw [present there, Bool.false_and]
    · rw [given there, Bool.and_false]
  refine ⟨Number.floatOfDecimal negative (Number.ofDigits 10 ((whole ++ places).map (fun c => c.toNat - 48)))
    (raised.getD 0 - places.length), fun rest ends => ?_⟩
  have stops : (part ++ (power ++ rest)).takeWhile Char.isDigit = [] := by
    obtain rfl | ⟨places, -, -, rfl⟩ := fractional
    · rw [List.nil_append]
      exact stops_power powered ends
    · rfl
  simp only [number, unsigned_whole _ leads, whole_leads leads stops, List.drop_left, found rest ends, read rest ends,
    leads_nonempty leads, double, if_neg Bool.false_ne_true]

theorem scalar_word {text : String} {j : Json} (word : (text, j) ∈ words) (rest : List Char) :
    scalar (text.toList ++ rest) = .ok (j, rest) := by
  simp only [words, List.mem_cons, Prod.mk.injEq, List.not_mem_nil, or_false] at word
  obtain ⟨rfl, rfl⟩ | ⟨rfl, rfl⟩ | ⟨rfl, rfl⟩ | ⟨rfl, rfl⟩ | ⟨rfl, rfl⟩ | ⟨rfl, rfl⟩ := word <;> rfl

/-- The text of a double is a word for it, or a numeral. -/
theorem floatText_cases (x : Float) : (∃ y, (floatText x, .float y) ∈ words) ∨
    ∃ (negative : Bool) (whole part power : List Char),
      (floatText x).toList = (if negative then ['-'] else []) ++ (whole ++ (part ++ power)) ∧
        Number.Decimals whole part power := by
  unfold floatText
  cases double : Number.Double.ofFloat x with
  | nan => exact .inl ⟨_, by simp [words]; rfl⟩
  | infinite negative =>
    cases negative with
    | true => exact .inl ⟨_, by simp [words]; rfl⟩
    | false => exact .inl ⟨_, by simp [words]; rfl⟩
  | finite negative mantissa exponent =>
    right
    obtain ⟨whole, part, power, text, decimals⟩ := Number.finiteText_decimals negative mantissa exponent
    refine ⟨negative, whole, part, power, ?_, decimals⟩
    simp only [Number.floatText, double, String.toList_ofList]
    exact text

end Workflow.Json
