import Mathlib.Data.List.Forall2
import Workflow.Proofs.JsonParts

/-! Texts of data. What is printed can be read, unless there are whole numbers in it that are too long. Members of one
name become one member. -/

namespace Workflow.Json

mutual

/-- All whole numbers in some data are short enough to be written. -/
def isWritable : Json → Bool
  | .null => true
  | .bool _ => true
  | .int n => !Number.isLong n
  | .float _ => true
  | .str _ => true
  | .array items => allWritable items
  | .object members => membersWritable members

def allWritable : List Json → Bool
  | [] => true
  | j :: rest => isWritable j && allWritable rest

def membersWritable : List (String × Json) → Bool
  | [] => true
  | (_, j) :: rest => isWritable j && membersWritable rest

end

theorem allWritable_of {js : List Json} (each : ∀ j ∈ js, j.isWritable = true) : allWritable js = true := by
  induction js with
  | nil => rfl
  | cons j js ih =>
    obtain ⟨first, others⟩ := List.forall_mem_cons.mp each
    rw [allWritable, first, ih others, Bool.and_self]

theorem membersWritable_of {ms : List (String × Json)} (each : ∀ m ∈ ms, m.2.isWritable = true) : membersWritable ms = true := by
  induction ms with
  | nil => rfl
  | cons m ms ih =>
    obtain ⟨first, others⟩ := List.forall_mem_cons.mp each
    rw [membersWritable, first, ih others, Bool.and_self]

/-! Rows. -/

theorem stringText_toList (s : String) : (stringText s).toList = '"' :: (s.toList.flatMap escape ++ ['"']) := by
  simp [stringText]

/-- What a part of a row starts with: no blank, and no end of a row. -/
def Starts (cs : List Char) : Prop := ∃ c rest, cs = c :: rest ∧ isSpace c = false ∧ c ≠ ']' ∧ c ≠ '\x7d'

namespace Starts

theorem append {cs : List Char} (starts : Starts cs) (rest : List Char) : Starts (cs ++ rest) := by
  obtain ⟨c, more, rfl, visible⟩ := starts
  exact ⟨c, more ++ rest, rfl, visible⟩

theorem skip {cs : List Char} (starts : Starts cs) : skip cs = cs := by
  obtain ⟨c, more, rfl, visible, -⟩ := starts
  exact List.dropWhile_cons_of_neg (by simp [visible])

theorem not_shut {cs : List Char} (starts : Starts cs) (left : List Char) : cs ≠ ']' :: left ∧ cs ≠ '\x7d' :: left := by
  obtain ⟨c, more, rfl, -, open_, closed⟩ := starts
  exact ⟨fun shut => open_ (List.cons.inj shut).1, fun shut => closed (List.cons.inj shut).1⟩

theorem positive {cs : List Char} (starts : Starts cs) : 0 < cs.length := by
  obtain ⟨c, more, rfl, -⟩ := starts
  exact Nat.succ_pos _

theorem digit {c : Char} (digit : c.isDigit = true) (rest : List Char) : Starts (c :: rest) := by
  have other (d : Char) (none : d.isDigit = false) : c ≠ d := by
    rintro rfl
    rw [digit] at none
    cases none
  refine ⟨c, rest, rfl, ?_, other _ rfl, other _ rfl⟩
  simp only [isSpace, beq_eq_false_iff_ne.mpr (other ' ' rfl), beq_eq_false_iff_ne.mpr (other '\t' rfl),
    beq_eq_false_iff_ne.mpr (other '\n' rfl), beq_eq_false_iff_ne.mpr (other '\r' rfl), Bool.or_self]

theorem letter {c : Char} {rest : List Char} (letter : (isSpace c || c == ']' || c == '\x7d') = false) :
    Starts (c :: rest) := by
  simp only [Bool.or_eq_false_iff, beq_eq_false_iff_ne] at letter
  exact ⟨c, rest, rfl, letter.1.1, letter.1.2, letter.2⟩

theorem stringText (s : String) : Starts (stringText s).toList := by
  rw [stringText_toList]
  exact .letter rfl

theorem block {opening closing : String} (level : Nat) (parts : List String) (starts : Starts opening.toList) :
    Starts (block opening closing level parts).toList := by
  unfold Json.block
  split
  · rw [String.toList_append]
    exact starts.append _
  · simp only [String.toList_append, List.append_assoc]
    exact starts.append _

theorem numeral {cs : List Char} (numeral : Numeral cs) : Starts cs := by
  obtain ⟨negative, d, others, rfl, digit_⟩ := numeral
  cases negative with
  | true => exact .letter rfl
  | false => exact .digit digit_ others

theorem word {text : String} {j : Json} (word : (text, j) ∈ words) : Starts text.toList := by
  simp only [words, List.mem_cons, Prod.mk.injEq, List.not_mem_nil, or_false] at word
  obtain ⟨rfl, -⟩ | ⟨rfl, -⟩ | ⟨rfl, -⟩ | ⟨rfl, -⟩ | ⟨rfl, -⟩ | ⟨rfl, -⟩ := word <;> exact .letter rfl

theorem indented (j : Json) (level : Nat) : Starts (indented level j).toList := by
  cases j with
  | null => exact show Starts "null".toList from .letter rfl
  | bool b =>
    cases b with
    | false => exact show Starts "false".toList from .letter rfl
    | true => exact show Starts "true".toList from .letter rfl
  | int n => exact .numeral (intText_numeral n)
  | float x =>
    change Starts (floatText x).toList
    obtain ⟨y, found⟩ | ⟨negative, whole, part, power, text, decimals⟩ := floatText_cases x
    · exact .word found
    · rw [text]
      exact .numeral (.whole negative decimals.leads _)
  | str s => exact .stringText s
  | array items => exact .block level _ (show Starts ['['] from .letter rfl)
  | object members => exact .block level _ (show Starts ['\x7b'] from .letter rfl)

end Starts

theorem skip_blanks (n : Nat) (cs : List Char) : skip (List.replicate n ' ' ++ cs) = skip cs := by
  induction n with
  | zero => rfl
  | succ n ih =>
    rw [List.replicate_succ, List.cons_append, ← ih]
    rfl

theorem skip_line (level : Nat) (cs : List Char) : skip ((lineStart level).toList ++ cs) = skip cs := by
  have text : (lineStart level).toList = '\n' :: List.replicate (2 * level) ' ' := by simp [lineStart]
  rw [text, ← skip_blanks (2 * level) cs]
  rfl

/-- What follows a row, from its last part on. -/
theorem ends_line (level : Nat) (cs : List Char) : Ends ((lineStart level).toList ++ cs) := by
  have text : (lineStart level).toList = '\n' :: List.replicate (2 * level) ' ' := by simp [lineStart]
  rw [text]
  exact .line _

/-- The parts of a row behind one another. -/
def row (level : Nat) (parts : List String) : List Char := (("," ++ lineStart level).intercalate parts).toList

theorem row_one (level : Nat) (part : String) : row level [part] = part.toList := by
  simp [row]

theorem row_cons (level : Nat) (part next : String) (parts : List String) :
    row level (part :: next :: parts) = part.toList ++ ',' :: ((lineStart level).toList ++ row level (next :: parts)) := by
  simp [row, String.toList_intercalate, String.toList_append]

theorem row_starts {part : String} (level : Nat) (parts : List String) (starts : Starts part.toList) :
    Starts (row level (part :: parts)) := by
  cases parts with
  | nil => simpa only [row_one] using starts
  | cons => simpa only [row_cons] using starts.append _

theorem indentedItems_nil (level : Nat) : indentedItems level [] = [] := rfl

theorem indentedMembers_nil (level : Nat) : indentedMembers level [] = [] := rfl

theorem indentedItems_cons (level : Nat) (j : Json) (js : List Json) :
    indentedItems level (j :: js) = indented level j :: indentedItems level js := rfl

theorem indentedMembers_cons (level : Nat) (m : String × Json) (ms : List (String × Json)) :
    indentedMembers level (m :: ms) = (stringText m.1 ++ ": " ++ indented level m.2) :: indentedMembers level ms := rfl

theorem members_starts (level : Nat) (m : String × Json) (ms : List (String × Json)) :
    Starts (row (level + 1) (indentedMembers (level + 1) (m :: ms))) := by
  obtain ⟨name, j⟩ := m
  refine row_starts _ _ ?_
  simpa only [String.toList_append, List.append_assoc] using (Starts.stringText name).append _

theorem block_row (opening closing : String) (level : Nat) (part : String) (parts : List String) :
    (block opening closing level (part :: parts)).toList = opening.toList ++ ((lineStart (level + 1)).toList ++
      (row (level + 1) (part :: parts) ++ ((lineStart level).toList ++ closing.toList))) := by
  simp [block, row, String.toList_append]

/-- Members in their order, of which the last of each name counts. -/
def gathered (found members : List (String × Json)) : List (String × Json) :=
  members.foldl (fun found m => setMember found m.1 m.2) found

theorem mem_setMember {members : List (String × Json)} {name other : String} (j : Json)
    (there : name = other ∨ name ∈ members.map (·.1)) : name ∈ (setMember members other j).map (·.1) := by
  unfold setMember
  split
  · next taken =>
    obtain ⟨m, member, rfl⟩ : ∃ m ∈ members, m.1 = name := by
      obtain rfl | there := there
      · obtain ⟨m, member, same⟩ := List.any_eq_true.mp taken
        exact ⟨m, member, beq_iff_eq.mp same⟩
      · exact List.mem_map.mp there
    rw [List.map_map]
    refine List.mem_map.mpr ⟨m, member, ?_⟩
    dsimp only [Function.comp_apply]
    split <;> rfl
  · rw [List.map_append]
    obtain rfl | there := there
    · exact List.mem_append_right _ List.mem_cons_self
    · exact List.mem_append_left _ there

/-- No name is lost when members are gathered. -/
theorem mem_gathered {name : String} {found members : List (String × Json)}
    (there : name ∈ found.map (·.1) ∨ name ∈ members.map (·.1)) : name ∈ (gathered found members).map (·.1) := by
  induction members generalizing found with
  | nil => exact there.resolve_right (by simp)
  | cons m members ih =>
    refine ih ?_
    obtain there | there := there
    · exact .inl (mem_setMember m.2 (.inr there))
    · rw [List.map_cons, List.mem_cons] at there
      exact there.imp_left (fun same => mem_setMember m.2 (.inl same))

theorem escape_nonempty (c : Char) : 0 < (escape c).length := by
  unfold escape
  split
  case h_8 =>
    dsimp only
    split
    · exact Nat.succ_pos _
    split <;> exact Nat.succ_pos _
  all_goals exact Nat.succ_pos _

theorem length_escaped (cs : List Char) : cs.length ≤ (cs.flatMap escape).length := by
  induction cs with
  | nil => exact Nat.le_refl _
  | cons c cs ih =>
    have := escape_nonempty c
    rw [List.flatMap_cons, List.length_append, List.length_cons]
    omega

/-- A text in quotes is read back. -/
theorem string_stringText (s : String) (rest : List Char) : ∃ more, (stringText s).toList ++ rest = '"' :: more ∧
    string (more.length + 1) more = .ok (s.toList, rest) := by
  refine ⟨s.toList.flatMap escape ++ '"' :: rest, by simp [stringText_toList], string_escaped _ _ ?_⟩
  have := length_escaped s.toList
  rw [List.length_append]
  omega

/-! Values. -/

/-- A text of some data is read as some data up to its end, with enough depth for its length. -/
def ReadsAs (j k : Json) : Prop := ∀ (level depth : Nat) (rest : List Char), Ends rest →
  (indented level j).toList.length < depth → value depth ((indented level j).toList ++ rest) = .ok (k, rest)

theorem value_string (depth : Nat) (cs : List Char) : value (depth + 1) ('"' :: cs) =
    (string (cs.length + 1) cs).bind (fun (s, rest) => .ok (.str (String.ofList s), rest)) := rfl

theorem value_array {depth : Nat} {cs more rest : List Char} {js : List Json} (begun : skip cs = more)
    (starts : Starts more) (read : items (value depth) (more.length + 1) more = .ok (js, rest)) :
    value (depth + 1) ('[' :: cs) = .ok (.array js, rest) := by
  subst begun
  rw [value]
  split
  · next shut => exact absurd shut (starts.not_shut _).1
  · rw [read]
    rfl

theorem value_object {depth : Nat} {cs more rest : List Char} {ms : List (String × Json)} (begun : skip cs = more)
    (starts : Starts more) (read : members (value depth) (more.length + 1) [] more = .ok (ms, rest)) :
    value (depth + 1) ('\x7b' :: cs) = .ok (.object ms, rest) := by
  subst begun
  rw [value]
  split
  · next shut => exact absurd shut (starts.not_shut _).2
  · rw [read]
    rfl

theorem value_scalar {depth : Nat} {cs : List Char} (other : ∀ c ∈ cs.head?, c ≠ '"' ∧ c ≠ '[' ∧ c ≠ '\x7b') :
    value (depth + 1) cs = scalar cs := by
  unfold value
  split
  · exact absurd rfl (other _ rfl).1
  · exact absurd rfl (other _ rfl).2.1
  · exact absurd rfl (other _ rfl).2.2
  · rfl

theorem value_numeral {depth : Nat} {cs : List Char} (numeral : Numeral cs) : value (depth + 1) cs = scalar cs := by
  obtain ⟨negative, d, others, rfl, digit⟩ := numeral
  refine value_scalar (fun c head => ?_)
  cases negative with
  | true =>
    obtain rfl : '-' = c := Option.mem_some.mp head
    decide
  | false =>
    obtain rfl : d = c := Option.mem_some.mp head
    refine ⟨?_, ?_, ?_⟩ <;>
    · rintro rfl
      cases digit

theorem value_word {text : String} {j : Json} (word : (text, j) ∈ words) (depth : Nat) (rest : List Char) :
    value (depth + 1) (text.toList ++ rest) = .ok (j, rest) := by
  have first : ∀ c ∈ (text.toList ++ rest).head?, c ≠ '"' ∧ c ≠ '[' ∧ c ≠ '\x7b' := by
    simp only [words, List.mem_cons, Prod.mk.injEq, List.not_mem_nil, or_false] at word
    obtain ⟨rfl, -⟩ | ⟨rfl, -⟩ | ⟨rfl, -⟩ | ⟨rfl, -⟩ | ⟨rfl, -⟩ | ⟨rfl, -⟩ := word <;>
    · intro c head
      obtain rfl := Option.mem_some.mp head
      decide
  rw [value_scalar first, scalar_word word]

theorem word_readsAs {text : String} {j k : Json} (word : (text, k) ∈ words) (written : ∀ level, indented level j = text) :
    ReadsAs j k := by
  intro level depth rest ends enough
  obtain ⟨depth, rfl⟩ : ∃ n, depth = n + 1 := ⟨depth - 1, by omega⟩
  rw [written]
  exact value_word word depth rest

theorem string_readsAs (s : String) : ReadsAs (.str s) (.str s) := by
  intro level depth rest ends enough
  obtain ⟨depth, rfl⟩ : ∃ n, depth = n + 1 := ⟨depth - 1, by omega⟩
  obtain ⟨more, text, found⟩ := string_stringText s rest
  have text : (indented level (.str s)).toList ++ rest = '"' :: more := text
  simp only [text, value_string, found, Except.bind, String.ofList_toList]

theorem int_readsAs {n : Int} (short : Number.isLong n = false) : ReadsAs (.int n) (.int n) := by
  intro level depth rest ends enough
  obtain ⟨depth, rfl⟩ : ∃ n, depth = n + 1 := ⟨depth - 1, by omega⟩
  have numeral := (intText_numeral n).append rest
  change value _ ((Number.intText n).toList ++ rest) = _
  rw [value_numeral numeral, scalar_numeral numeral]
  exact number_intText short ends

/-- The double that a text is read as does not depend on what follows the text. -/
theorem float_readsAs (x : Float) : ∃ k, ReadsAs (.float x) k := by
  obtain ⟨y, word⟩ | ⟨negative, whole, part, power, text, decimals⟩ := floatText_cases x
  · exact ⟨.float y, word_readsAs word (fun _ => rfl)⟩
  · obtain ⟨y, read⟩ := number_decimals negative decimals
    refine ⟨.float y, fun level depth rest ends enough => ?_⟩
    obtain ⟨depth, rfl⟩ : ∃ n, depth = n + 1 := ⟨depth - 1, by omega⟩
    have numeral : Numeral ((floatText x).toList ++ rest) := by
      rw [text]
      exact (Numeral.whole negative decimals.leads _).append rest
    change value _ ((floatText x).toList ++ rest) = _
    rw [value_numeral numeral, scalar_numeral numeral, text]
    simp only [List.append_assoc]
    exact read rest ends

/-- The items of an array are read, if each of them is. -/
theorem items_row {js ks : List Json} {level depth : Nat} (each : List.Forall₂ ReadsAs js ks) (some_ : js ≠ [])
    {fuel : Nat} {cs rest : List Char}
    (begun : skip cs = row (level + 1) (indentedItems (level + 1) js) ++ ((lineStart level).toList ++ ']' :: rest))
    (deep : (row (level + 1) (indentedItems (level + 1) js)).length < depth)
    (enough : (row (level + 1) (indentedItems (level + 1) js)).length ≤ fuel) :
    items (value depth) fuel cs = .ok (ks, rest) := by
  induction each generalizing fuel cs with
  | nil => exact absurd rfl some_
  | @cons j k js ks reads each ih =>
    have positive := (Starts.indented j (level + 1)).positive
    cases each with
    | nil =>
      simp only [indentedItems_cons, indentedItems_nil, row_one] at begun deep enough
      obtain ⟨fuel, rfl⟩ : ∃ n, fuel = n + 1 := ⟨fuel - 1, by omega⟩
      have closed : skip ((lineStart level).toList ++ ']' :: rest) = ']' :: rest := by
        rw [skip_line]
        rfl
      simp only [items, begun, reads _ _ _ (ends_line _ _) deep, Bind.bind, Except.bind, closed]
      rfl
    | @cons j' k' js ks reads' each =>
      simp only [indentedItems_cons, row_cons, List.append_assoc, List.cons_append, List.length_append, List.length_cons]
        at begun deep enough
      obtain ⟨fuel, rfl⟩ : ∃ n, fuel = n + 1 := ⟨fuel - 1, by omega⟩
      have next : Starts (row (level + 1) (indented (level + 1) j' :: indentedItems (level + 1) js)) :=
        row_starts _ _ (.indented j' _)
      have after : skip ((lineStart (level + 1)).toList ++ (row (level + 1) (indented (level + 1) j' ::
          indentedItems (level + 1) js) ++ ((lineStart level).toList ++ ']' :: rest))) =
          row (level + 1) (indentedItems (level + 1) (j' :: js)) ++ ((lineStart level).toList ++ ']' :: rest) := by
        rw [skip_line]
        exact (next.append _).skip
      have comma (cs : List Char) : skip (',' :: cs) = ',' :: cs := rfl
      have fits : (row (level + 1) (indentedItems (level + 1) (j' :: js))).length < depth ∧
          (row (level + 1) (indentedItems (level + 1) (j' :: js))).length ≤ fuel := by
        rw [indentedItems_cons]
        omega
      have more := ih (List.cons_ne_nil _ _) after fits.1 fits.2
      have head (cs : List Char) := reads (level + 1) depth (',' :: cs) (.comma cs) (by omega)
      simp only [items, begun, head, Bind.bind, Except.bind, comma, more]
      rfl

section
variable {read : Reader Json} {found : List (String × Json)} {name : String} {k : Json} {cs after left rest : List Char}
variable (begun : skip cs = (stringText name).toList ++ ':' :: after) (got : read (skip after) = .ok (k, left)) (fuel : Nat)
include begun got

/-- After a name and its value, what follows decides whether there are more members. -/
theorem members_head : members read (fuel + 1) found cs =
    match skip left with
    | ',' :: rest => members read fuel (setMember found name k) rest
    | '\x7d' :: rest => .ok (setMember found name k, rest)
    | _ => .error .malformed := by
  obtain ⟨more, text, told⟩ := string_stringText name (':' :: after)
  have colon : skip (':' :: after) = ':' :: after := rfl
  simp only [members, begun, text, told, Bind.bind, Except.bind, colon, got, String.ofList_toList]
  rfl

theorem members_next (next : skip left = ',' :: rest) :
    members read (fuel + 1) found cs = members read fuel (setMember found name k) rest := by
  rw [members_head begun got, next]
  rfl

theorem members_last (last : skip left = '\x7d' :: rest) :
    members read (fuel + 1) found cs = .ok (setMember found name k, rest) := by
  rw [members_head begun got, last]
  rfl

end

/-- A member is read as one of the same name. -/
def MemberReadsAs (m m' : String × Json) : Prop := m.1 = m'.1 ∧ ReadsAs m.2 m'.2

/-- The members of an object are read and gathered behind others, if each of them is read. -/
theorem members_row {ms ms' found : List (String × Json)} {level depth : Nat} (each : List.Forall₂ MemberReadsAs ms ms')
    (some_ : ms ≠ []) {fuel : Nat} {cs rest : List Char}
    (begun : skip cs = row (level + 1) (indentedMembers (level + 1) ms) ++ ((lineStart level).toList ++ '\x7d' :: rest))
    (deep : (row (level + 1) (indentedMembers (level + 1) ms)).length < depth)
    (enough : (row (level + 1) (indentedMembers (level + 1) ms)).length ≤ fuel) :
    members (value depth) fuel found cs = .ok (gathered found ms', rest) := by
  induction each generalizing fuel cs found with
  | nil => exact absurd rfl some_
  | @cons m m' ms ms' reads each ih =>
    obtain ⟨name, j⟩ := m
    obtain ⟨_, k⟩ := m'
    obtain ⟨rfl, reads⟩ : name = _ ∧ ReadsAs j k := reads
    have first := Starts.indented j (level + 1)
    have positive := first.positive
    have blank (cs : List Char) : skip (' ' :: ((indented (level + 1) j).toList ++ cs)) =
        (indented (level + 1) j).toList ++ cs := (first.append cs).skip
    have colon : ": ".toList = [':', ' '] := rfl
    cases each with
    | nil =>
      simp only [indentedMembers_cons, indentedMembers_nil, row_one, String.toList_append, List.length_append, colon, List.append_assoc,
        List.cons_append, List.nil_append, List.length_cons] at begun deep enough
      obtain ⟨fuel, rfl⟩ : ∃ n, fuel = n + 1 := ⟨fuel - 1, by omega⟩
      have got : value depth (skip (' ' :: ((indented (level + 1) j).toList ++ ((lineStart level).toList ++ '\x7d' :: rest)))) =
          .ok (k, (lineStart level).toList ++ '\x7d' :: rest) := by
        rw [blank]
        exact reads _ _ _ (ends_line _ _) (by omega)
      refine members_last begun got fuel ?_
      rw [skip_line]
      rfl
    | @cons n n' ms ms' reads' each =>
      simp only [indentedMembers_cons, row_cons, String.toList_append, List.length_append, colon, List.append_assoc,
        List.cons_append, List.nil_append, List.length_cons] at begun deep enough
      obtain ⟨fuel, rfl⟩ : ∃ n, fuel = n + 1 := ⟨fuel - 1, by omega⟩
      have got (cs : List Char) : value depth (skip (' ' :: ((indented (level + 1) j).toList ++ ',' :: cs))) =
          .ok (k, ',' :: cs) := by
        rw [blank]
        exact reads _ _ _ (.comma _) (by omega)
      have quote := members_starts level n ms
      have fits : (row (level + 1) (indentedMembers (level + 1) (n :: ms))).length < depth ∧
          (row (level + 1) (indentedMembers (level + 1) (n :: ms))).length ≤ fuel := by
        rw [indentedMembers_cons]
        omega
      refine (members_next begun (got _) fuel rfl).trans ?_
      exact ih (List.cons_ne_nil _ _) ((skip_line (level + 1) _).trans (quote.append _).skip) fits.1 fits.2

theorem array_readsAs {js ks : List Json} (each : List.Forall₂ ReadsAs js ks) : ReadsAs (.array js) (.array ks) := by
  intro level depth rest ends enough
  obtain ⟨depth, rfl⟩ : ∃ n, depth = n + 1 := ⟨depth - 1, by omega⟩
  cases js with
  | nil =>
    cases each
    have text : (indented level (.array [])).toList = ['[', ']'] := by
      change (block "[" "]" level []).toList = _
      simp [block]
    rw [text]
    rfl
  | cons j js =>
    have first : Starts (row (level + 1) (indentedItems (level + 1) (j :: js))) := row_starts _ _ (.indented j _)
    have text : (indented level (.array (j :: js))).toList = '[' :: ((lineStart (level + 1)).toList ++
        (row (level + 1) (indentedItems (level + 1) (j :: js)) ++ ((lineStart level).toList ++ [']']))) :=
      block_row _ _ _ _ _
    rw [text] at enough ⊢
    simp only [List.length_cons, List.length_append] at enough
    simp only [List.cons_append, List.append_assoc, List.nil_append]
    refine value_array ((skip_line _ _).trans (first.append _).skip) (first.append _) ?_
    refine items_row each (List.cons_ne_nil _ _) (first.append _).skip (by omega) ?_
    rw [List.length_append]
    omega

theorem object_readsAs {ms ms' : List (String × Json)} (each : List.Forall₂ MemberReadsAs ms ms') :
    ReadsAs (.object ms) (.object (gathered [] ms')) := by
  intro level depth rest ends enough
  obtain ⟨depth, rfl⟩ : ∃ n, depth = n + 1 := ⟨depth - 1, by omega⟩
  cases ms with
  | nil =>
    cases each
    have text : (indented level (.object [])).toList = ['\x7b', '\x7d'] := by
      change (block "\x7b" "\x7d" level []).toList = _
      simp [block]
    rw [text]
    rfl
  | cons m ms =>
    have first := members_starts level m ms
    have text : (indented level (.object (m :: ms))).toList = '\x7b' :: ((lineStart (level + 1)).toList ++
        (row (level + 1) (indentedMembers (level + 1) (m :: ms)) ++ ((lineStart level).toList ++ ['\x7d']))) := by
      obtain ⟨name, j⟩ := m
      exact block_row _ _ _ _ _
    rw [text] at enough ⊢
    simp only [List.length_cons, List.length_append] at enough
    simp only [List.cons_append, List.append_assoc, List.nil_append]
    refine value_object ((skip_line _ _).trans (first.append _).skip) (first.append _) ?_
    refine members_row each (List.cons_ne_nil _ _) (first.append _).skip (by omega) ?_
    rw [List.length_append]
    omega

mutual

theorem exists_readsAs (j : Json) (writable : j.isWritable = true) : ∃ k, ReadsAs j k := by
  cases j with
  | null =>
    have word : ("null", Json.null) ∈ words := by simp [words]
    exact ⟨.null, word_readsAs word (fun _ => rfl)⟩
  | bool b =>
    have word : ((if b then "true" else "false"), Json.bool b) ∈ words := by cases b <;> simp [words]
    exact ⟨.bool b, word_readsAs word (fun _ => rfl)⟩
  | int n =>
    rw [isWritable, Bool.not_eq_true'] at writable
    exact ⟨.int n, int_readsAs writable⟩
  | float x => exact float_readsAs x
  | str s => exact ⟨.str s, string_readsAs s⟩
  | array js =>
    obtain ⟨ks, each⟩ := exists_itemsRead js writable
    exact ⟨.array ks, array_readsAs each⟩
  | object ms =>
    obtain ⟨ms', each⟩ := exists_membersRead ms writable
    exact ⟨.object (gathered [] ms'), object_readsAs each⟩

theorem exists_itemsRead (js : List Json) (writable : allWritable js = true) : ∃ ks, List.Forall₂ ReadsAs js ks := by
  match js with
  | [] => exact ⟨[], .nil⟩
  | j :: js =>
    obtain ⟨first, others⟩ := Bool.and_eq_true_iff.mp writable
    obtain ⟨k, reads⟩ := exists_readsAs j first
    obtain ⟨ks, each⟩ := exists_itemsRead js others
    exact ⟨k :: ks, .cons reads each⟩

theorem exists_membersRead (ms : List (String × Json)) (writable : membersWritable ms = true) :
    ∃ ms', List.Forall₂ MemberReadsAs ms ms' := by
  match ms with
  | [] => exact ⟨[], .nil⟩
  | (name, j) :: ms =>
    obtain ⟨first, others⟩ := Bool.and_eq_true_iff.mp writable
    obtain ⟨k, reads⟩ := exists_readsAs j first
    obtain ⟨ms', each⟩ := exists_membersRead ms others
    exact ⟨(name, k) :: ms', .cons ⟨rfl, reads⟩ each⟩

end

theorem ReadsAs.read {j k : Json} (reads : ReadsAs j k) : read j.pretty = .ok k := by
  have back := reads 0 (j.pretty.toList.length + 1) [] .nil (Nat.lt_succ_self _)
  rw [List.append_nil] at back
  have begun : skip j.pretty.toList = (indented 0 j).toList := (Starts.indented j 0).skip
  simp only [Json.read, begun, back, Bind.bind, Except.bind]
  rfl

/-- The text of an object is read as an object, in which no name is missing. -/
theorem read_pretty_object {ms : List (String × Json)} (writable : membersWritable ms = true) :
    ∃ found, read (Json.object ms).pretty = .ok (.object found) ∧ ∀ name ∈ ms.map (·.1), name ∈ found.map (·.1) := by
  obtain ⟨ms', each⟩ := exists_membersRead ms writable
  have names : ms.map (·.1) = ms'.map (·.1) := by
    clear writable
    induction each with
    | nil => rfl
    | cons reads _ ih => rw [List.map_cons, List.map_cons, reads.1, ih]
  exact ⟨_, (object_readsAs each).read, fun name member => mem_gathered (.inr (names ▸ member))⟩

end Workflow.Json
