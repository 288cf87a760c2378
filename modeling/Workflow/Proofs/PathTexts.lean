import Workflow.Schema.Path

/-! Texts of paths. Each place in a path begins with a bracket or a point, and neither is in what follows up to the next
place, so a text is read in one way only. -/

namespace Workflow

/-- A place in a text of a path begins here. -/
def opensPlace (c : Char) : Bool := c == '[' || c == '.'

/-- A text that begins like a place and in which no other place begins. -/
def OpensOnce (cs : List Char) : Prop := ∃ c body, cs = c :: body ∧ opensPlace c = true ∧ ∀ d ∈ body, opensPlace d = false

theorem digit_not_opens {c : Char} (digit : c.isDigit = true) : opensPlace c = false := by
  cases opens : opensPlace c with
  | false => rfl
  | true =>
    rcases Bool.or_eq_true_iff.mp opens with bracket | point
    · rw [beq_iff_eq.mp bracket] at digit
      cases digit
    · rw [beq_iff_eq.mp point] at digit
      cases digit

namespace Place

theorem item_text (index : Nat) : (item index).text.toList = '[' :: (Nat.toDigits 10 index ++ [']']) := by
  simp only [text, String.toList_append, Nat.toString_eq_repr, Nat.toList_repr]
  rfl

/-- The places that are written as a word. -/
def words : List Place := [.steps, .gate, .test, .marker .breakLoop, .marker .continueLoop]

theorem item_or_word (place : Place) : (∃ index, place = .item index) ∨ place ∈ words := by
  cases place with
  | item index => exact .inl ⟨index, rfl⟩
  | marker signal => cases signal <;> exact .inr (by decide)
  | _ => exact .inr (by decide)

theorem words_open : ∀ place ∈ words, place.text.toList.head? = some '.' ∧ place.text.toList.tail.any opensPlace = false := by
  decide

theorem words_injective : ∀ place ∈ words, ∀ other ∈ words, place.text.toList = other.text.toList → place = other := by
  decide

theorem text_opens (place : Place) : OpensOnce place.text.toList := by
  rcases place.item_or_word with ⟨index, rfl⟩ | word
  · refine ⟨'[', _, item_text index, rfl, ?_⟩
    intro d member
    rcases List.mem_append.mp member with digit | last
    · exact digit_not_opens (Nat.isDigit_of_mem_toDigits (Nat.succ_pos _) (Nat.le_refl _) digit)
    · rw [List.mem_singleton.mp last]
      rfl
  · obtain ⟨point, plain⟩ := words_open place word
    obtain ⟨body, text⟩ := List.head?_eq_some_iff.mp point
    rw [text] at plain
    refine ⟨'.', body, text, rfl, ?_⟩
    intro d member
    exact eq_false_of_ne_true (List.any_eq_false.mp plain d member)

theorem item_text_injective {index other : Nat} (same : (item index).text.toList = (item other).text.toList) :
    index = other := by
  rw [item_text, item_text, List.cons_inj_right, List.append_cancel_right_eq] at same
  have read := congrArg (fun digits => Nat.ofDigitChars 10 digits 0) same
  simpa only [Nat.ofDigitChars_toDigits (b := 10) (by omega) (by omega)] using read

theorem item_text_not_word {index : Nat} {place : Place} (word : place ∈ words) :
    (item index).text.toList ≠ place.text.toList := by
  intro same
  have point := (words_open place word).1
  rw [← same, item_text] at point
  cases point

theorem text_injective {place other : Place} (same : place.text.toList = other.text.toList) : place = other := by
  rcases place.item_or_word with ⟨index, rfl⟩ | word <;> rcases other.item_or_word with ⟨later, rfl⟩ | word'
  · rw [item_text_injective same]
  · exact absurd same (item_text_not_word word')
  · exact absurd same.symm (item_text_not_word word)
  · exact words_injective place word other word' same

end Place

theorem takeWhile_opens {body rest : List Char} (plain : ∀ d ∈ body, opensPlace d = false)
    (starts : ∀ d ∈ rest.head?, opensPlace d = true) :
    (body ++ rest).takeWhile (fun d => !opensPlace d) = body ∧ (body ++ rest).dropWhile (fun d => !opensPlace d) = rest := by
  have closed : ∀ d ∈ body, (!opensPlace d) = true := by
    intro d member
    rw [plain d member]
    rfl
  rw [List.takeWhile_append_of_pos closed, List.dropWhile_append_of_pos closed]
  cases rest with
  | nil => exact ⟨List.append_nil _, rfl⟩
  | cons d rest =>
    have opens : opensPlace d = true := starts d rfl
    simp only [List.takeWhile_cons, List.dropWhile_cons, opens, Bool.not_true, Bool.false_eq_true, if_false, List.append_nil,
      and_self]

namespace Path

theorem text_toList (path : Path) : path.text.toList = "steps".toList ++ path.flatMap (fun place => place.text.toList) := by
  rw [text, String.toList_append, String.toList_join, List.flatMap_map]

theorem places_open (path : Path) : ∀ d ∈ (path.flatMap (fun place => place.text.toList)).head?, opensPlace d = true := by
  intro d first
  cases path with
  | nil => cases first
  | cons place deeper =>
    obtain ⟨c, body, text, opens, -⟩ := place.text_opens
    rw [List.flatMap_cons, text] at first
    cases first
    exact opens

theorem places_injective {path other : Path}
    (same : path.flatMap (fun place => place.text.toList) = other.flatMap (fun place => place.text.toList)) : path = other := by
  induction path generalizing other with
  | nil =>
    cases other with
    | nil => rfl
    | cons place deeper =>
      obtain ⟨c, body, text, -⟩ := place.text_opens
      rw [List.flatMap_cons, text] at same
      cases same
  | cons place deeper ih =>
    obtain ⟨c, body, text, -, plain⟩ := place.text_opens
    cases other with
    | nil =>
      rw [List.flatMap_cons, text] at same
      cases same
    | cons place' deeper' =>
      obtain ⟨c', body', text', -, plain'⟩ := place'.text_opens
      rw [List.flatMap_cons, List.flatMap_cons, text, text', List.cons_append, List.cons_append, List.cons.injEq] at same
      obtain ⟨rfl, same⟩ := same
      -- the first place ends where the next one begins
      obtain ⟨taken, left⟩ := takeWhile_opens plain (places_open deeper)
      obtain ⟨taken', left'⟩ := takeWhile_opens plain' (places_open deeper')
      rw [same] at taken left
      have bodies : body = body' := taken.symm.trans taken'
      rw [Place.text_injective (text.trans (bodies ▸ text'.symm)), ih (left.symm.trans left')]

/-- Paths that are written alike are the same path. -/
theorem text_injective {path other : Path} (same : path.text = other.text) : path = other := by
  have chars := congrArg String.toList same
  rw [text_toList, text_toList, List.append_cancel_left_eq] at chars
  exact places_injective chars

end Path

end Workflow
