import Mathlib.Logic.Relation
import Workflow.Script.Compile

/-! The walk that looks for what a script may not contain. It meets every node of a program, a row of nodes before what is
below them, and what is reported is the offence of the first node that has one. -/

namespace Workflow.Script

/-- A node of a program. Operators are no nodes, and neither is the way in which a name is used: nothing offends there. -/
inductive Node where
  | program (p : Program)
  | expr (e : Expr)
  | stmt (s : Stmt)
  | piece (p : Piece)
  /-- The layout of a replacement field, a formatted text of its own. -/
  | layout (pieces : List Piece)
  | keyword (k : Keyword)
  | clause (c : Clause)
  | params (p : Params)
  | param (p : Param)
  | handler (h : Handler)

def Entry.key? : Entry → Option Expr
  | .mk key _ => key

def Entry.value : Entry → Expr
  | .mk _ value => value

namespace Node

def exprs (items : List Expr) : List Node := items.map .expr

def stmts (items : List Stmt) : List Node := items.map .stmt

/-- What is directly below a node, in the order of the fields of its kind. -/
def children : Node → List Node
  | .program (.expression body) => [.expr body]
  | .program (.block body) => stmts body
  | .expr (.literal _) | .expr (.name _) => []
  | .expr (.formatted pieces) | .layout pieces => pieces.map .piece
  | .expr (.tuple items) | .expr (.list items) | .expr (.set items) | .expr (.junction _ items) => exprs items
  | .expr (.dict entries) => exprs (entries.filterMap Entry.key?) ++ entries.map (fun e => .expr e.value)
  | .expr (.starred item) => [.expr item]
  | .expr (.unary _ operand) => [.expr operand]
  | .expr (.binary _ left right) => [.expr left, .expr right]
  | .expr (.compare left rest) => .expr left :: rest.map (fun c => .expr c.2)
  | .expr (.conditional test body orelse) => [.expr test, .expr body, .expr orelse]
  | .expr (.named target value) => [.expr (.name target), .expr value]
  | .expr (.lambda signature body) => [.params signature, .expr body]
  | .expr (.comprehension _ element value clauses) =>
    .expr element :: exprs value.toList ++ clauses.map .clause
  | .expr (.attribute object _) => [.expr object]
  | .expr (.subscript object index) => [.expr object, .expr index]
  | .expr (.slice lower upper step) => exprs lower.toList ++ exprs upper.toList ++ exprs step.toList
  | .expr (.call function args keywords) => .expr function :: exprs args ++ keywords.map .keyword
  | .expr (.yield value) => exprs value.toList
  | .expr (.yieldFrom value) | .expr (.await value) => [.expr value]
  | .stmt (.expr value) => [.expr value]
  | .stmt (.assign targets value) => exprs targets ++ [.expr value]
  | .stmt (.augment target _ value) => [.expr target, .expr value]
  | .stmt (.annotate target hint value) => .expr target :: .expr hint :: exprs value.toList
  | .stmt (.delete targets) => exprs targets
  | .stmt (.branch test body orelse) | .stmt (.whileLoop test body orelse) =>
    .expr test :: stmts body ++ stmts orelse
  | .stmt (.forLoop target source body orelse) =>
    .expr target :: .expr source :: stmts body ++ stmts orelse
  | .stmt .pass | .stmt .breakLoop | .stmt .continueLoop => []
  | .stmt (.giveBack value) => exprs value.toList
  | .stmt (.raise error cause) => exprs error.toList ++ exprs cause.toList
  | .stmt (.assertion test message) => .expr test :: exprs message.toList
  | .stmt (.guarded body handlers orelse final) =>
    stmts body ++ handlers.map .handler ++ stmts orelse ++ stmts final
  | .stmt (.function _ signature body decorators result) =>
    .params signature :: stmts body ++ exprs decorators ++ exprs result.toList
  | .stmt (.foreign _) => []
  | .piece (.text _) => []
  | .piece (.field value _ form) => [.expr value, .layout form]
  | .keyword (.mk _ value) => [.expr value]
  | .clause (.mk target source conditions) => .expr target :: .expr source :: exprs conditions
  | .params (.mk positionalOnly positional rest keywordOnly keywordDefaults keywordRest defaults) =>
    positionalOnly.map .param ++ positional.map .param ++ rest.toList.map .param ++ keywordOnly.map .param ++
      exprs (keywordDefaults.filterMap id) ++ keywordRest.toList.map .param ++ exprs defaults
  | .param (.mk _ hint) => exprs hint.toList
  | .handler (.mk type _ body) => exprs type.toList ++ stmts body

/-- What a node may not be: a name that starts with two underscores, an attribute whose name starts with one, or a statement
that loads names or rebinds names from elsewhere. -/
inductive Forbidden : Node → Offence → Prop
  | name {id : String} {rest : List Char} (starts : id.toList = '_' :: '_' :: rest) :
      Forbidden (.expr (.name id)) (.privateName id)
  | dotted {object : Expr} {name : String} {rest : List Char} (starts : name.toList = '_' :: rest) :
      Forbidden (.expr (.attribute object name)) (.privateAttribute name)
  | foreign {kind : Foreign} : Forbidden (.stmt (.foreign kind)) (.foreignStatement kind)

/-- A node lies somewhere in the tree below another one, or is that one. -/
def Within : Node → Node → Prop := Relation.ReflTransGen (fun n child => child ∈ n.children)

/-! Nodes and outlines. -/

def outline : Node → Outline
  | .program p => p.outline
  | .expr e => e.outline
  | .stmt s => s.outline
  | .piece (.text _) => .leaf
  | .piece (.field value _ form) => .node .plain [value.outline, .node .plain (Piece.outlines form)]
  | .layout pieces => .node .plain (Piece.outlines pieces)
  | .keyword (.mk _ value) => .node .plain [value.outline]
  | .clause (.mk target source conditions) =>
    .node .clause (target.outline :: source.outline :: Expr.outlines conditions)
  | .params p => p.outline
  | .param (.mk _ hint) => .node .plain (Expr.optionOutline hint)
  | .handler (.mk type _ body) => .node .plain (Expr.optionOutline type ++ Stmt.outlines body)

/-- What goes through a row and puts the outline of each item in front of the others is a map. -/
theorem outlines_of_rows {f : List α → List Outline} {node : α → Node} (empty : f [] = [])
    (more : ∀ a rest, f (a :: rest) = (node a).outline :: f rest) (items : List α) :
    f items = (items.map node).map outline := by
  induction items with
  | nil => exact empty
  | cons a rest ih => rw [more, ih, List.map_cons, List.map_cons]

theorem outlines_exprs (items : List Expr) : Expr.outlines items = (exprs items).map outline :=
  outlines_of_rows rfl (fun _ _ => rfl) items

theorem outlines_compared (items : List (Comparison × Expr)) :
    Expr.comparedOutlines items = (items.map (fun c => .expr c.2)).map outline :=
  outlines_of_rows rfl (fun _ _ => rfl) items

theorem outlines_values (entries : List Entry) :
    Entry.valueOutlines entries = (entries.map (fun e => .expr e.value)).map outline :=
  outlines_of_rows rfl (fun ⟨_, _⟩ _ => rfl) entries

theorem outlines_pieces (pieces : List Piece) : Piece.outlines pieces = (pieces.map .piece).map outline :=
  outlines_of_rows rfl (fun p _ => by cases p <;> rfl) pieces

theorem outlines_keywords (keywords : List Keyword) : Keyword.outlines keywords = (keywords.map .keyword).map outline :=
  outlines_of_rows rfl (fun ⟨_, _⟩ _ => rfl) keywords

theorem outlines_clauses (clauses : List Clause) : Clause.outlines clauses = (clauses.map .clause).map outline :=
  outlines_of_rows rfl (fun ⟨_, _, _⟩ _ => rfl) clauses

theorem outlines_params (names : List Param) : Param.outlines names = (names.map .param).map outline :=
  outlines_of_rows rfl (fun ⟨_, _⟩ _ => rfl) names

theorem outlines_stmts (items : List Stmt) : Stmt.outlines items = (stmts items).map outline :=
  outlines_of_rows rfl (fun _ _ => rfl) items

theorem outlines_handlers (handlers : List Handler) : Handler.outlines handlers = (handlers.map .handler).map outline :=
  outlines_of_rows rfl (fun ⟨_, _, _⟩ _ => rfl) handlers

/-! Some positions may be empty. -/

theorem outline_option (e : Option Expr) : Expr.optionOutline e = (exprs e.toList).map outline := by
  cases e <;> rfl

theorem outline_param (p : Option Param) : Param.optionOutline p = (p.toList.map .param).map outline := by
  obtain _ | ⟨_, _⟩ := p <;> rfl

theorem outlines_options (items : List (Option Expr)) :
    Expr.optionOutlines items = (exprs (items.filterMap id)).map outline := by
  induction items with
  | nil => rfl
  | cons e rest ih => cases e <;> simp [Expr.optionOutlines, ih, exprs, outline]

theorem outlines_keys (entries : List Entry) :
    Entry.keyOutlines entries = (exprs (entries.filterMap Entry.key?)).map outline := by
  induction entries with
  | nil => rfl
  | cons e rest ih =>
    obtain ⟨_ | key, value⟩ := e <;> simp [Entry.keyOutlines, Entry.key?, List.filterMap_cons, ih, exprs, outline]

/-- An outline forgets none of the nodes below, and keeps their order. -/
theorem parts_outline (n : Node) : n.outline.parts = n.children.map outline := by
  cases n with
  | program p => cases p <;> simp [outline, Program.outline, Outline.parts, children, outlines_stmts]
  | expr e =>
    cases e <;> simp [outline, Expr.outline, Outline.leaf, Outline.parts, children, outlines_exprs, outline_option,
      outlines_compared, outlines_pieces, outlines_keys, outlines_values, outlines_keywords, outlines_clauses]
  | stmt s =>
    cases s <;> simp [outline, Stmt.outline, Outline.leaf, Outline.parts, children, outlines_exprs, outline_option,
      outlines_stmts, outlines_handlers]
  | piece p => cases p <;> simp [outline, Outline.leaf, Outline.parts, children]
  | layout pieces => simp [outline, Outline.parts, children, outlines_pieces]
  | keyword k => cases k; simp [outline, Outline.parts, children]
  | clause c => cases c; simp [outline, Outline.parts, children, outlines_exprs]
  | params p =>
    cases p
    simp [outline, Params.outline, Outline.parts, children, outlines_params, outline_param, outlines_options, outlines_exprs]
  | param p => cases p; simp [outline, Outline.parts, children, outline_option]
  | handler h => cases h; simp [outline, Outline.parts, children, outline_option, outlines_stmts]

theorem startsPrivate_iff (cs : List Char) : "__".toList.isPrefixOf cs = true ↔ ∃ rest, cs = '_' :: '_' :: rest := by
  rw [List.isPrefixOf_iff_prefix]
  constructor
  · rintro ⟨rest, same⟩
    exact ⟨rest, same.symm⟩
  · rintro ⟨rest, same⟩
    exact ⟨rest, same.symm⟩

/-- The offence of a node is seen at the mark of its outline. -/
theorem ofMark?_outline {n : Node} {o : Offence} : Offence.ofMark? n.outline.mark = some o ↔ Forbidden n o := by
  constructor
  · intro found
    unfold outline at found
    split at found
    · next p => cases p <;> cases found
    · next e =>
      cases e with
      | name id =>
        obtain ⟨starts, same⟩ := Option.ite_none_right_eq_some.mp found
        obtain ⟨rest, starts⟩ := (startsPrivate_iff _).mp starts
        cases same
        exact .name starts
      | «attribute» object name =>
        obtain ⟨starts, same⟩ := Option.ite_none_right_eq_some.mp found
        cases same
        obtain ⟨rest, starts⟩ := List.head?_eq_some_iff.mp (beq_iff_eq.mp starts)
        exact .dotted starts
      | _ => cases found
    · next s =>
      cases s with
      | foreign kind =>
        cases found
        exact .foreign
      | _ => cases found
    · cases found
    · cases found
    · cases found
    · cases found
    · cases found
    · next p => cases p; cases found
    · cases found
    · cases found
  · intro forbidden
    cases forbidden with
    | name starts => exact if_pos ((startsPrivate_iff _).mpr ⟨_, starts⟩)
    | dotted starts => exact if_pos (by rw [starts]; rfl)
    | foreign => rfl

/-! The walk with a queue. -/

theorem sizeOf_append (left right : List Outline) : sizeOf (left ++ right) + 1 = sizeOf left + sizeOf right := by
  induction left with
  | nil => simp [Nat.add_comm]
  | cons t rest ih =>
    rw [List.cons_append, List.cons.sizeOf_spec, List.cons.sizeOf_spec]
    omega

theorem children_smaller (n : Node) : sizeOf (n.children.map outline) < sizeOf n.outline := by
  rw [← parts_outline]
  cases n.outline with
  | node mark parts =>
    rw [Outline.parts, Outline.node.sizeOf_spec]
    omega

/-- The front node of the queue is met, and what is directly below it joins the queue at the back. -/
def walk : List Node → List Node
  | [] => []
  | n :: queue => n :: walk (queue ++ n.children)
termination_by queue => sizeOf (queue.map outline)
decreasing_by
  have smaller := n.children_smaller
  have apart := sizeOf_append (queue.map outline) (n.children.map outline)
  rw [List.map_append, List.map_cons, List.cons.sizeOf_spec]
  omega

/-- A row at the front of the queue is met as a whole before what is below it. -/
theorem walk_append (row next : List Node) : walk (row ++ next) = row ++ walk (next ++ row.flatMap children) := by
  induction row generalizing next with
  | nil => simp
  | cons n rest ih =>
    rw [List.cons_append, walk, List.append_assoc, ih, List.flatMap_cons, List.cons_append, List.append_assoc]

theorem walk_row (row : List Node) : walk row = row ++ walk (row.flatMap children) := by
  have walked := walk_append row []
  rwa [List.append_nil, List.nil_append] at walked

/-- The walk meets what lies below the nodes of its queue, and nothing else. -/
theorem mem_walk {queue : List Node} {m : Node} : m ∈ walk queue ↔ ∃ n ∈ queue, Within n m := by
  fun_induction walk queue with
  | case1 => simp
  | case2 n queue ih =>
    rw [List.mem_cons, ih]
    constructor
    · rintro (rfl | ⟨k, member, inside⟩)
      · exact ⟨m, List.mem_cons_self, .refl⟩
      · obtain queued | child := List.mem_append.mp member
        · exact ⟨k, List.mem_cons_of_mem n queued, inside⟩
        · exact ⟨n, List.mem_cons_self, .head child inside⟩
    · rintro ⟨k, member, inside⟩
      obtain rfl | queued := List.mem_cons.mp member
      · obtain rfl | ⟨c, child, inside⟩ := inside.cases_head
        · exact .inl rfl
        · exact .inr ⟨c, List.mem_append_right queue child, inside⟩
      · exact .inr ⟨k, List.mem_append_left _ queued, inside⟩

end Node

/-! The walk level by level. -/

theorem Outline.heightAll_le {trees : List Outline} {n : Nat} : heightAll trees ≤ n ↔ ∀ t ∈ trees, t.height ≤ n := by
  induction trees with
  | nil => simp [heightAll]
  | cons t rest ih => rw [heightAll, Nat.max_le, ih, List.forall_mem_cons]

theorem Outline.height_parts {t part : Outline} {n : Nat} (low : t.height ≤ n + 1) (member : part ∈ t.parts) :
    part.height ≤ n := by
  cases t with
  | node mark parts =>
    rw [height, Nat.add_le_add_iff_right] at low
    exact heightAll_le.mp low part member

namespace Offence
open Node

/-- Looking at one level after the other finds what the walk with a queue meets first. -/
theorem inLevels?_eq {levels : Nat} {row : List Node} (low : ∀ n ∈ row, n.outline.height ≤ levels) :
    inLevels? levels (row.map outline) = (walk row).findSome? (fun n => ofMark? n.outline.mark) := by
  induction levels generalizing row with
  | zero =>
    have empty : row = [] := by
      refine List.eq_nil_iff_forall_not_mem.mpr (fun n member => ?_)
      have flat := low n member
      cases found : n.outline with
      | node mark parts =>
        rw [found, Outline.height] at flat
        omega
    rw [empty, walk]
    rfl
  | succ levels ih =>
    have below : (row.map outline).flatMap Outline.parts = (row.flatMap children).map outline := by
      rw [List.flatMap_map, List.map_flatMap]
      exact congrArg (row.flatMap ·) (funext parts_outline)
    have lower : ∀ n ∈ row.flatMap children, n.outline.height ≤ levels := by
      intro n member
      obtain ⟨above, inside, child⟩ := List.mem_flatMap.mp member
      apply Outline.height_parts (low above inside)
      rw [parts_outline]
      exact List.mem_map_of_mem child
    rw [inLevels?, below, ih lower, walk_row row, List.findSome?_append, List.findSome?_map]
    rfl

theorem first?_eq (p : Program) : first? p.outline = (walk [.program p]).findSome? (fun n => ofMark? n.outline.mark) := by
  refine @inLevels?_eq _ [.program p] (fun n member => ?_)
  rw [List.mem_singleton.mp member]
  exact Nat.le_refl _

/-- What is reported is the offence of the first node that is met and has one. -/
theorem first?_iff {p : Program} {o : Offence} :
    first? p.outline = some o ↔ ∃ before n after, walk [.program p] = before ++ n :: after ∧ Forbidden n o ∧
      ∀ m ∈ before, ∀ other, ¬Forbidden m other := by
  rw [first?_eq, List.findSome?_eq_some_iff]
  simp only [ofMark?_outline, Option.eq_none_iff_forall_ne_some, ne_eq]

/-- Something is reported if anything in the tree offends. -/
theorem exists_first?_iff {p : Program} :
    (∃ o, first? p.outline = some o) ↔ ∃ n o, Within (.program p) n ∧ Forbidden n o := by
  rw [← Option.isSome_iff_exists, first?_eq, List.findSome?_isSome_iff]
  simp only [mem_walk, List.mem_singleton, exists_eq_left, Option.isSome_iff_exists, ofMark?_outline, exists_and_left]

end Offence

open Node in
/-- Of a source that is read, the check refuses exactly the program with a forbidden node, anywhere in its tree, and what it
reports is the first one in breadth-first order. -/
theorem compile_refuses_first_offence {source : String} {p : Program} (clean : '\x00' ∉ sourceText source)
    (parsed : Parser.program? (sourceText source) = some p) :
    (∀ o, compile source = .error (.refused (.offence o)) ↔
        ∃ before n after, walk [.program p] = before ++ n :: after ∧ Forbidden n o ∧
          ∀ m ∈ before, ∀ other, ¬Forbidden m other) ∧
      ((∃ o, compile source = .error (.refused (.offence o))) ↔ ∃ n o, Within (.program p) n ∧ Forbidden n o) := by
  have compiled : ∀ o, compile source = .error (.refused (.offence o)) ↔ Offence.first? p.outline = some o := by
    intro o
    by_cases present : sourceText source = []
    · -- A text of blanks is read as no statements, and is refused before the check.
      rw [present] at parsed
      cases parsed
      simp only [compile, present, List.isEmpty_nil, if_true]
      exact ⟨nofun, nofun⟩
    · simp only [compile, List.isEmpty_iff, present, if_false, List.contains_iff_mem, clean, parsed]
      cases Offence.first? p.outline with
      | some other => simp
      | none => cases Placement.program p <;> simp
  exact ⟨fun o => (compiled o).trans Offence.first?_iff, (exists_congr compiled).trans Offence.exists_first?_iff⟩

/-- Why a source was refused, if it was. -/
def CompileFault.of? : Except CompileFault Program → Option CompileFault
  | .error fault => some fault
  | .ok _ => none

theorem CompileFault.eq_of {result : Except CompileFault Program} {fault : CompileFault} (refused : of? result = some fault) :
    result = .error fault := by
  cases result with
  | ok p => cases refused
  | error other => rw [Option.some.inj refused]

open Node in
/-- The attribute comes first in the text and lies deeper in the tree, so the name is reported. -/
theorem shallow_name_reported : ∃ p before n after,
    Parser.program? (sourceText "f'{x:{a._b}}' + __y") = some p ∧
      compile "f'{x:{a._b}}' + __y" = .error (.refused (.offence (.privateName "__y"))) ∧
      walk [.program p] = before ++ n :: after ∧ Forbidden n (.privateName "__y") ∧
        ∀ m ∈ before, ∀ other, ¬Forbidden m other := by
  have reads : (Parser.program? (sourceText "f'{x:{a._b}}' + __y")).isSome = true := by decide +kernel
  obtain ⟨p, parsed⟩ := Option.isSome_iff_exists.mp reads
  have refused : compile "f'{x:{a._b}}' + __y" = .error (.refused (.offence (.privateName "__y"))) :=
    CompileFault.eq_of (by decide +kernel)
  obtain ⟨before, n, after, walked, forbidden, clear⟩ :=
    ((compile_refuses_first_offence (by decide +kernel) parsed).1 _).mp refused
  exact ⟨p, before, n, after, parsed, refused, walked, forbidden, clear⟩

end Workflow.Script
