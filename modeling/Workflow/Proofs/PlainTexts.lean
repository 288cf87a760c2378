import Workflow.Proofs.JsonTexts

/-! Texts of plain data. Data without doubles, in whose objects no name comes twice, are read back from their text as they
were. -/

namespace Workflow.Json

mutual

/-- Data without doubles, with whole numbers that can be written and with different names in each object. -/
def isPlain : Json → Bool
  | .null => true
  | .bool _ => true
  | .int n => !Number.isLong n
  | .float _ => false
  | .str _ => true
  | .array items => allPlain items
  | .object members => decide (members.map (·.1)).Nodup && membersPlain members

def allPlain : List Json → Bool
  | [] => true
  | j :: rest => isPlain j && allPlain rest

def membersPlain : List (String × Json) → Bool
  | [] => true
  | (_, j) :: rest => isPlain j && membersPlain rest

end

/-- Members of different names stay as they are when they are gathered. -/
theorem gathered_distinct {found members : List (String × Json)} (distinct : ((found ++ members).map (·.1)).Nodup) :
    gathered found members = found ++ members := by
  induction members generalizing found with
  | nil => exact (List.append_nil found).symm
  | cons m rest ih =>
    have new : (found.any fun other => other.1 == m.1) = false := by
      rw [List.map_append, List.nodup_append] at distinct
      rw [List.any_eq_false]
      intro other member same
      exact distinct.2.2 _ (List.mem_map_of_mem member) _ (List.mem_map_of_mem List.mem_cons_self) (beq_iff_eq.mp same)
    have added : setMember found m.1 m.2 = found ++ [m] := by
      rw [setMember, new]
      rfl
    change gathered (setMember found m.1 m.2) rest = _
    rw [added, ih (by simpa using distinct), List.append_assoc]
    rfl

mutual

theorem plain_readsAs (j : Json) (plain : j.isPlain = true) : ReadsAs j j := by
  cases j with
  | null => exact word_readsAs (show ("null", _) ∈ words by simp [words]) (fun _ => rfl)
  | bool b =>
    cases b with
    | true => exact word_readsAs (show ("true", _) ∈ words by simp [words]) (fun _ => rfl)
    | false => exact word_readsAs (show ("false", _) ∈ words by simp [words]) (fun _ => rfl)
  | int n =>
    rw [isPlain, Bool.not_eq_true'] at plain
    exact int_readsAs plain
  | float x => cases plain
  | str s => exact string_readsAs s
  | array js => exact array_readsAs (plain_itemsRead js plain)
  | object ms =>
    obtain ⟨distinct, plain⟩ := Bool.and_eq_true_iff.mp plain
    have reads := object_readsAs (plain_membersRead ms plain)
    have same : gathered [] ms = ms := gathered_distinct (of_decide_eq_true distinct)
    rwa [same] at reads

theorem plain_itemsRead (js : List Json) (plain : allPlain js = true) : List.Forall₂ ReadsAs js js := by
  match js with
  | [] => exact .nil
  | j :: js =>
    obtain ⟨first, others⟩ := Bool.and_eq_true_iff.mp plain
    exact .cons (plain_readsAs j first) (plain_itemsRead js others)

theorem plain_membersRead (ms : List (String × Json)) (plain : membersPlain ms = true) : List.Forall₂ MemberReadsAs ms ms := by
  match ms with
  | [] => exact .nil
  | (name, j) :: ms =>
    obtain ⟨first, others⟩ := Bool.and_eq_true_iff.mp plain
    exact .cons ⟨rfl, plain_readsAs j first⟩ (plain_membersRead ms others)

end

/-- Plain data are read back from their text as they were. -/
theorem read_pretty {j : Json} (plain : j.isPlain = true) : read j.pretty = .ok j := (plain_readsAs j plain).read

end Workflow.Json
