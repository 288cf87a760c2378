import Mathlib.Algebra.Group.Nat.Defs
import Workflow.Number.Notation

/-! Decimal texts of doubles: a sign, digits without zeros before them, and behind those a fraction or an exponent. -/

namespace Workflow.Number

/-! The digits of a double that is not zero do not stand for zero, unless there is no place for more digits. -/

namespace Ratio

theorem scale_down (r : Ratio) {base n : Nat} (positive : 0 < n) :
    r.scale base (-(n : Int)) = ⟨r.num, r.den * Nat.pow base n⟩ := by
  rw [scale, if_neg (by omega), Int.neg_neg, Int.toNat_natCast]

theorem scale_num_pos {r : Ratio} {base : Nat} (based : 0 < base) (positive : 0 < r.num) (exponent : Int) :
    0 < (r.scale base exponent).num := by
  unfold scale
  split
  · exact Nat.mul_pos positive (Nat.pow_pos based)
  · exact positive

theorem scale_den_pos {r : Ratio} {base : Nat} (based : 0 < base) (positive : 0 < r.den) (exponent : Int) :
    0 < (r.scale base exponent).den := by
  unfold scale
  split
  · exact positive
  · exact Nat.mul_pos positive (Nat.pow_pos based)

/-- A ratio reaches the power of a base. -/
def Reaches (r : Ratio) (base n : Nat) : Prop := r.den * base ^ n ≤ r.num

theorem Reaches.mono {r : Ratio} {base more n : Nat} (reaches : r.Reaches base n) (small : more ≤ base ^ n) :
    r.den * more ≤ r.num :=
  Nat.le_trans (Nat.mul_le_mul_left _ small) reaches

/-- The search for a magnitude ends where it starts, or at a power that the ratio reaches. -/
theorem magnitudeFrom_reached (r : Ratio) (base steps : Nat) (low : Int) :
    r.magnitudeFrom base steps low = low ∨
      (r.scale base (-r.magnitudeFrom base steps low)).den ≤ (r.scale base (-r.magnitudeFrom base steps low)).num := by
  induction steps generalizing low with
  | zero => exact .inl rfl
  | succ steps ih =>
    rw [magnitudeFrom]
    split
    · next reached =>
      obtain same | reached := ih (low + 1)
      · rw [same]
        exact .inr reached
      · exact .inr reached
    · exact .inl rfl

theorem magnitudeFrom_reaches {r : Ratio} {base steps n : Nat} {low : Int} (positive : 0 < n)
    (found : r.magnitudeFrom base steps low = n) : low = n ∨ r.Reaches base n := by
  obtain same | reached := r.magnitudeFrom_reached base steps low
  · exact .inl (same.symm.trans found)
  · rw [found, scale_down r positive] at reached
    exact .inr reached

theorem binaryMagnitude_reaches {r : Ratio} {n : Nat} (nonzero : r.num ≠ 0) (positive : 0 < n)
    (found : r.binaryMagnitude = n) : r.Reaches 2 n := by
  obtain start | reaches := magnitudeFrom_reaches positive found
  · have low := Nat.log2_self_le nonzero
    have high : r.den < 2 ^ (r.den.log2 + 1) := Nat.lt_log2_self
    have place : r.num.log2 = n + (r.den.log2 + 1) := by omega
    calc r.den * 2 ^ n ≤ 2 ^ (r.den.log2 + 1) * 2 ^ n := Nat.mul_le_mul_right _ (Nat.le_of_lt high)
      _ = 2 ^ r.num.log2 := by rw [place, Nat.pow_add 2 n, Nat.mul_comm]
      _ ≤ r.num := low
  · exact reaches

/-- Below this bound the decimal magnitude is estimated from the binary one without exceeding the ratio. -/
theorem decimalMagnitude_reaches {r : Ratio} {n : Nat} (nonzero : r.num ≠ 0) (low : 17 ≤ n) (high : n ≤ 31)
    (found : r.decimalMagnitude = n) : r.den * 10 ^ n ≤ r.num := by
  obtain start | reaches := magnitudeFrom_reaches (by omega) found
  · have estimate : ((n : Int) + 1) * 100000 ≤ (r.binaryMagnitude - 1) * 30103 := by
      rw [Int.fdiv_eq_ediv_of_nonneg _ (by omega)] at start
      omega
    obtain ⟨m, same⟩ : ∃ m : Nat, r.binaryMagnitude = m := ⟨r.binaryMagnitude.toNat, by omega⟩
    have bound : (n + 1) * 100000 + 30103 ≤ m * 30103 := by rw [same] at estimate; omega
    refine (binaryMagnitude_reaches nonzero (by omega) same).mono ?_
    have covers : ∀ n ≤ 31, 10 ^ n ≤ 2 ^ ((n + 1) * 100000 / 30103) := by decide
    exact Nat.le_trans (covers n high) (Nat.pow_le_pow_right (by omega) (by omega))
  · exact reaches

theorem round_pos {r : Ratio} (positive : 0 < r.den) (reaches : r.den ≤ r.num) : r.round ≠ 0 := by
  have whole : 0 < r.num / r.den := Nat.div_pos reaches positive
  unfold round roundQuotient
  dsimp only
  split <;> omega

end Ratio

/-- No double but zero reads as zero. -/
theorem readsBack_zero {mantissa : Nat} (positive : 0 < mantissa) (exponent place : Int) :
    readsBack mantissa exponent ⟨0, place⟩ = false := by
  have unit : 0 < ((Ratio.mk 1 1).scale 2 (exponent - 2)).num := Ratio.scale_num_pos (by omega) (by decide) _
  have den : 0 < ((Ratio.mk 0 1).scale 10 place).den := Ratio.scale_den_pos (by omega) (by decide) _
  have zero : ((Ratio.mk 0 1).scale 10 place).num = 0 := by
    unfold Ratio.scale
    split
    · exact Nat.zero_mul _
    · rfl
  have gap : lowerGap mantissa exponent ≤ 2 := by
    unfold lowerGap
    split <;> decide
  have low : 0 < (4 * mantissa - lowerGap mantissa exponent) * ((Ratio.mk 1 1).scale 2 (exponent - 2)).num *
      ((Ratio.mk 0 1).scale 10 place).den := Nat.mul_pos (Nat.mul_pos (by omega) unit) den
  simp only [readsBack, zero, Nat.zero_mul]
  split
  · rw [decide_eq_false (by omega), Bool.false_and]
  · rw [decide_eq_false (by omega), Bool.false_and]

/-- The search for the fewest digits finds some that do not stand for zero, or comes to its end. -/
theorem shortestFrom_digits {mantissa : Nat} (positive : 0 < mantissa) (exponent : Int) (value : Ratio) (top : Int)
    (more : Nat) (count : Int) : (shortestFrom mantissa exponent value top more count).digits ≠ 0 ∨
      shortestFrom mantissa exponent value top more count =
        ⟨(value.scale 10 (count + more - 1 - top)).round, top - (count + more) + 1⟩ := by
  induction more generalizing count with
  | zero =>
    right
    rw [shortestFrom, Int.natCast_zero, Int.add_zero]
  | succ more ih =>
    rw [shortestFrom]
    split
    · next found chosen =>
      left
      intro zero
      have reads := List.find?_some chosen
      obtain ⟨digits, place⟩ := found
      cases zero
      rw [readsBack_zero positive] at reads
      cases reads
    · obtain nonzero | ends := ih (count + 1)
      · exact .inl nonzero
      · right
        rw [ends]
        have place : count + 1 + (more : Int) = count + ((more + 1 : Nat) : Int) := by omega
        rw [place]

theorem Decimal.normalise_digits (steps : Nat) (d : Decimal) :
    (d.digits ≠ 0 → (Decimal.normalise steps d).digits ≠ 0) ∧ (d.digits = 0 → Decimal.normalise steps d = d) := by
  induction steps generalizing d with
  | zero => exact ⟨id, fun _ => rfl⟩
  | succ steps ih =>
    rw [Decimal.normalise]
    split
    · next divisible =>
      simp only [Bool.and_eq_true, bne_iff_ne, beq_iff_eq] at divisible
      refine ⟨fun nonzero => (ih _).1 ?_, fun zero => absurd zero divisible.1⟩
      show d.digits / 10 ≠ 0
      omega
    · exact ⟨id, fun _ => rfl⟩

/-- The digits of a double do not stand for zero, unless their place is no place of a whole number that is written
without an exponent. -/
theorem shortest_digits {mantissa : Nat} (positive : 0 < mantissa) (exponent : Int) :
    (shortest mantissa exponent).digits ≠ 0 ∨ (shortest mantissa exponent).exponent ≤ 0 ∨
      16 ≤ (shortest mantissa exponent).exponent := by
  have den : 0 < ((Ratio.mk mantissa 1).scale 2 exponent).den := Ratio.scale_den_pos (by omega) Nat.one_pos _
  have num : 0 < ((Ratio.mk mantissa 1).scale 2 exponent).num := Ratio.scale_num_pos (by omega) positive _
  rw [shortest]
  generalize (Ratio.mk mantissa 1).scale 2 exponent = value at den num
  have normal := Decimal.normalise_digits 400 (shortestFrom mantissa exponent value value.decimalMagnitude 16 1)
  obtain nonzero | ends := shortestFrom_digits positive exponent value value.decimalMagnitude 16 1
  · exact .inl (normal.1 nonzero)
  by_cases nonzero : (shortestFrom mantissa exponent value value.decimalMagnitude 16 1).digits = 0
  · right
    rw [normal.2 nonzero, ends]
    rw [ends] at nonzero
    show value.decimalMagnitude - (1 + (16 : Nat)) + 1 ≤ 0 ∨ 16 ≤ value.decimalMagnitude - (1 + (16 : Nat)) + 1
    by_cases inside : 17 ≤ value.decimalMagnitude ∧ value.decimalMagnitude ≤ 31
    · exfalso
      obtain ⟨n, top⟩ : ∃ n : Nat, value.decimalMagnitude = n := ⟨value.decimalMagnitude.toNat, by omega⟩
      have reaches := Ratio.decimalMagnitude_reaches (by omega) (by omega) (by omega) top
      have place : (1 + (16 : Nat) - 1 - value.decimalMagnitude : Int) = -((n - 16 : Nat) : Int) := by omega
      rw [place, Ratio.scale_down value (by omega)] at nonzero
      refine Ratio.round_pos (Nat.mul_pos den (Nat.pow_pos (by omega))) ?_ nonzero
      exact Nat.le_trans (Nat.mul_le_mul_left _ (Nat.pow_le_pow_right (by omega) (by omega))) reaches
    · omega
  · exact .inl (normal.1 nonzero)

/-! Digits. -/

theorem toDigits_zero_first {n : Nat} {rest : List Char} (first : Nat.toDigits 10 n = '0' :: rest) : n = 0 := by
  induction n using Nat.strongRecOn generalizing rest with
  | ind n ih =>
    by_cases small : n < 10
    · rw [Nat.toDigits_of_lt_base small] at first
      have zero : Nat.digitChar n = '0' := (List.cons.inj first).1
      simpa using zero
    · rw [Nat.toDigits_of_base_le (by omega) (by omega)] at first
      cases digits : Nat.toDigits 10 (n / 10) with
      | nil => exact absurd digits Nat.toDigits_ne_nil
      | cons c others =>
        rw [digits] at first
        obtain ⟨rfl, -⟩ := List.cons.inj first
        have := ih (n / 10) (by omega) digits
        omega

theorem decimalText_digits (n : Nat) : ∀ c ∈ decimalText n, c.isDigit = true :=
  fun _ member => Nat.isDigit_of_mem_toDigits (by omega) (by omega) member

theorem decimalText_cons (n : Nat) : ∃ c others, decimalText n = c :: others ∧ c.isDigit = true := by
  cases digits : decimalText n with
  | nil => exact absurd digits Nat.toDigits_ne_nil
  | cons c others => exact ⟨c, others, rfl, decimalText_digits n c (by rw [digits]; exact List.mem_cons_self)⟩

/-- Some digits of which the first is zero only if it is the only one. -/
structure Leads (whole : List Char) : Prop where
  digits : ∀ c ∈ whole, c.isDigit = true
  first : whole = ['0'] ∨ ∃ c others, whole = c :: others ∧ c ≠ '0'

theorem Leads.one {c : Char} (digit : c.isDigit = true) : Leads [c] := by
  refine ⟨by simpa using digit, ?_⟩
  by_cases zero : c = '0'
  · exact .inl (by rw [zero])
  · exact .inr ⟨c, [], rfl, zero⟩

theorem decimalText_first {n : Nat} (nonzero : n ≠ 0) : ∃ c others, decimalText n = c :: others ∧ c ≠ '0' := by
  obtain ⟨c, others, text, -⟩ := decimalText_cons n
  refine ⟨c, others, text, ?_⟩
  rintro rfl
  exact nonzero (toDigits_zero_first text)

theorem decimalText_leads (n : Nat) : Leads (decimalText n) := by
  refine ⟨decimalText_digits n, ?_⟩
  by_cases zero : n = 0
  · exact .inl (by rw [zero]; rfl)
  · exact .inr (decimalText_first zero)

theorem padLeft_digits (width : Nat) {cs : List Char} (digits : ∀ c ∈ cs, c.isDigit = true) :
    ∀ c ∈ padLeft width '0' cs, c.isDigit = true := by
  intro c member
  obtain zeros | member := List.mem_append.mp member
  · rw [(List.mem_replicate.mp zeros).2]
    rfl
  · exact digits c member

/-! Texts of doubles. -/

/-- A point and digits behind it, or nothing. -/
def Fraction (cs : List Char) : Prop :=
  cs = [] ∨ ∃ places, places ≠ [] ∧ (∀ c ∈ places, c.isDigit = true) ∧ cs = '.' :: places

def Power (cs : List Char) : Prop := cs = [] ∨ ∃ exponent, cs = exponentText 'e' exponent

/-- A number with a fraction, with an exponent, or with both. -/
structure Decimals (whole part power : List Char) : Prop where
  leads : Leads whole
  fractional : Fraction part
  powered : Power power
  broken : part ≠ [] ∨ power ≠ []

theorem Decimals.pointed {whole places : List Char} (leads : Leads whole) (present : places ≠ [])
    (digits : ∀ c ∈ places, c.isDigit = true) : Decimals whole ('.' :: places) [] :=
  ⟨leads, .inr ⟨places, present, digits, rfl⟩, .inl rfl, .inl (List.cons_ne_nil _ _)⟩

/-- Digits with a point before the last of them are those of a number. -/
theorem withPoint_decimals (digits : Nat) {places : Nat} (positive : 0 < places) :
    ∃ whole part, withPoint digits places = whole ++ part ∧ Decimals whole part [] := by
  have all := padLeft_digits (places + 1) (decimalText_digits digits)
  have long : places < (padLeft (places + 1) '0' (decimalText digits)).length := by
    rw [padLeft, List.length_append, List.length_replicate]
    omega
  have apart : (places == 0) = false := by simpa using Nat.ne_of_gt positive
  refine ⟨_, _, by rw [withPoint, apart, if_neg Bool.false_ne_true], .pointed ⟨?_, ?_⟩ ?_ ?_⟩
  · exact fun c member => all c (List.mem_of_mem_take member)
  · by_cases few : (decimalText digits).length < places + 1
    · -- Zeros are added until there is one digit before the point.
      left
      have whole : (padLeft (places + 1) '0' (decimalText digits)).length = places + 1 := by
        rw [padLeft, List.length_append, List.length_replicate]
        omega
      obtain ⟨zeros, count⟩ : ∃ zeros, places + 1 - (decimalText digits).length = zeros + 1 :=
        ⟨places - (decimalText digits).length, by omega⟩
      rw [whole, Nat.add_sub_cancel_left, padLeft, count]
      rfl
    · right
      have whole : padLeft (places + 1) '0' (decimalText digits) = decimalText digits := by
        rw [padLeft, Nat.sub_eq_zero_of_le (by omega)]
        rfl
      have nonzero : digits ≠ 0 := by
        rintro rfl
        exact few (Nat.succ_lt_succ positive)
      obtain ⟨c, others, text, first⟩ := decimalText_first nonzero
      obtain ⟨count, more⟩ : ∃ count, (decimalText digits).length - places = count + 1 :=
        ⟨(decimalText digits).length - places - 1, by omega⟩
      rw [whole, more, text]
      exact ⟨c, _, rfl, first⟩
  · exact List.ne_nil_of_length_pos (by rw [List.length_drop]; omega)
  · exact fun c member => all c (List.mem_of_mem_drop member)

theorem positional_decimals {d : Decimal} (placed : d.digits ≠ 0 ∨ d.exponent ≤ 0) :
    ∃ whole part, positional d = whole ++ part ∧ Decimals whole part [] := by
  rw [positional]
  split
  · refine ⟨_, _, rfl, .pointed ⟨?_, ?_⟩ (List.cons_ne_nil _ _) (List.forall_mem_singleton.mpr rfl)⟩
    · intro c member
      obtain member | zeros := List.mem_append.mp member
      · exact decimalText_digits _ c member
      · rw [(List.mem_replicate.mp zeros).2]
        rfl
    · by_cases zero : d.digits = 0
      · have none : d.exponent.toNat = 0 := by omega
        rw [zero, none]
        exact .inl rfl
      · obtain ⟨c, others, text, first⟩ := decimalText_first zero
        rw [text]
        exact .inr ⟨c, _, rfl, first⟩
  · exact withPoint_decimals _ (by omega)

theorem scientific_decimals (n : Nat) (exponent : Int) :
    ∃ whole part power, scientific (decimalText n) exponent = whole ++ (part ++ power) ∧ Decimals whole part power := by
  obtain ⟨c, others, text, digit⟩ := decimalText_cons n
  have power : exponentText 'e' exponent ≠ [] := by
    rw [exponentText]
    exact List.cons_ne_nil _ _
  refine ⟨[c], if others.isEmpty then [] else '.' :: others, exponentText 'e' exponent, ?_, .one digit, ?_, .inr ⟨_, rfl⟩,
    .inr power⟩
  · rw [text, scientific]
    rfl
  · cases others with
    | nil => exact .inl rfl
    | cons d more =>
      refine .inr ⟨d :: more, List.cons_ne_nil _ _, fun c member => ?_, rfl⟩
      exact decimalText_digits n c (by rw [text]; exact List.mem_cons_of_mem _ member)

/-- The text of a double is a sign, if it is below zero, and a number with a fraction or an exponent. -/
theorem finiteText_decimals (negative : Bool) (mantissa : Nat) (exponent : Int) :
    ∃ whole part power, finiteText negative mantissa exponent =
      (if negative then ['-'] else []) ++ (whole ++ (part ++ power)) ∧ Decimals whole part power := by
  by_cases zero : mantissa = 0
  · obtain ⟨whole, part, text, decimals⟩ := positional_decimals (d := ⟨0, 0⟩) (.inr (Int.le_refl 0))
    refine ⟨whole, part, [], ?_, decimals⟩
    rw [List.append_nil, ← text, zero]
    rfl
  · have nonzero : (mantissa == 0) = false := by simpa using zero
    simp only [finiteText, nonzero, Bool.false_or, if_neg Bool.false_ne_true]
    generalize (if negative then ['-'] else []) = sign
    split
    · next inside =>
      have placed : (shortest mantissa exponent).digits ≠ 0 ∨ (shortest mantissa exponent).exponent ≤ 0 := by
        by_cases digits : (shortest mantissa exponent).digits = 0
        · -- With zero as its only digit, the double would have the place of that digit as its magnitude.
          have one : (decimalText (shortest mantissa exponent).digits).length = 1 := by rw [digits]; rfl
          simp only [Bool.and_eq_true, decide_eq_true_eq, one] at inside
          have found := shortest_digits (Nat.pos_of_ne_zero zero) exponent
          omega
        · exact .inl digits
      obtain ⟨whole, part, text, decimals⟩ := positional_decimals placed
      exact ⟨whole, part, [], by rw [List.append_nil, text], decimals⟩
    · obtain ⟨whole, part, power, text, decimals⟩ := scientific_decimals (shortest mantissa exponent).digits
        ((shortest mantissa exponent).exponent + (decimalText (shortest mantissa exponent).digits).length - 1)
      exact ⟨whole, part, power, by rw [text], decimals⟩

end Workflow.Number
