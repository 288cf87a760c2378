import Workflow.Proofs.Machines

/-! The interpreter comes to the same in machines that differ in private attributes only: assignment, comprehensions,
expressions, statements and calls, and from these the machines themselves. -/

namespace Workflow.Script

attribute [grind ←] Machine.Alike.eval Machine.Alike.exec Access.Alike.read Access.Alike.assign Access.Alike.delete

section
variable {m other : Machine} {scope a : Addr} {e target : Expr} {v : Value} {items : List Expr} {fuel depth : Nat}

/-! Assignment. -/

namespace Act

@[grind ←] theorem unpackExactly_agrees (alike : m.Alike other) {count : Nat} :
    Agree (unpackExactly m a count) (unpackExactly other a count) := by
  grind -funext [unpackExactly]

@[grind ←] theorem unpackAround_agrees (alike : m.Alike other) {place count : Nat} :
    Agree (unpackAround m a place count) (unpackAround other a place count) := by
  grind -funext [unpackAround]

@[grind ←] theorem unpack_agrees (alike : m.Alike other) : Agree (unpack m items v) (unpack other items v) := by
  grind -funext [unpack]

end Act

@[grind ←] theorem assign.assignAll_agrees {one one' : Expr → Value → Act Unit} {values : List Value}
    (each : ∀ e ∈ items, ∀ v, Agree (one e v) (one' e v)) :
    Agree (assign.assignAll one items values) (assign.assignAll one' items values) := by
  induction items generalizing values with
  | nil => exact .pure _
  | cons e rest ih => cases values with grind -funext [assign.assignAll]

@[grind ←] theorem assign_agrees (alike : m.Alike other) (clean : Node.Public (.expr target)) :
    Agree (assign m scope depth target v) (assign other scope depth target v) := by
  induction depth generalizing target v with
  | zero => exact .throw _
  | succ depth ih =>
    have below := clean.below
    cases target with
      simp only [Node.children, Node.exprs, List.forall_mem_cons, List.forall_mem_map] at below
    | _ => grind -funext [assign]

/-! Comprehensions. -/

@[grind ←] theorem allHold_agrees (alike : m.Alike other) (clean : ∀ e ∈ items, Node.Public (.expr e)) :
    Agree (allHold m scope items) (allHold other scope items) := by
  induction items with grind -funext [allHold]

/-- The parts of a public clause are public. -/
@[grind →] theorem Clause.public_parts {c : Clause} (clean : Node.Public (.clause c)) :
    Node.Public (.expr c.target) ∧ Node.Public (.expr c.source) ∧ ∀ e ∈ c.conditions, Node.Public (.expr e) := by
  obtain ⟨target, source, conditions⟩ := c
  have below := clean.below
  simp only [Node.children, Node.exprs, List.forall_mem_cons, List.forall_mem_map] at below
  exact below

section
variable {g : Generator}

theorem Generator.Public.clause (clean : g.Public) {i : Nat} {c : Clause} (found : g.clauses[i]? = some c) :
    Node.Public (.clause c) :=
  clean.clauses c (List.mem_of_getElem? found)

@[grind ←] theorem advance_agrees (alike : m.Alike other) (clean : g.Public) {cursors : List Addr} :
    Agree (advance m g fuel cursors) (advance other g fuel cursors) := by
  induction fuel generalizing cursors with
  | zero => exact .throw _
  | succ fuel ih =>
    cases cursors with
    | nil => exact .pure _
    | cons top below =>
      rw [advance, advance]
      refine (alike.next top).bind (fun item => ?_)
      split
      · next clause v found =>
        obtain ⟨target, -, conditions⟩ := Clause.public_parts (clean.clause found)
        refine (assign_agrees alike target).bind (fun _ => (allHold_agrees alike conditions).bind (fun holds => .ite ?_ ih))
        split
        · next inner found =>
          obtain ⟨-, source, -⟩ := Clause.public_parts (clean.clause found)
          exact (alike.eval _ _ source).bind (fun _ => Act.iterate_steady.bind (fun _ => ih))
        · exact .pure _
      · exact ih

@[grind ←] theorem element_agrees (alike : m.Alike other) (clean : g.Public) : Agree (element m g) (element other g) := by
  refine (alike.eval _ _ clean.element).bind (fun key => ?_)
  split
  · next e present => exact (alike.eval _ _ (clean.value e (by simp [present]))).bind (fun _ => .pure _)
  · exact .pure _

@[grind ←] theorem collect_agrees (alike : m.Alike other) (clean : g.Public) {keys : Bool} {cursors : List Addr}
    {found : Entries} : Agree (collect m g keys fuel cursors found) (collect other g keys fuel cursors found) := by
  induction fuel generalizing cursors found with grind -funext [collect]

/-- A comprehension holds the same code, wherever it stands. -/
theorem Generator.Public.moved (clean : g.Public) (cursors : List Addr) :
    Object.Public (.iterator (.generator { g with cursors })) := by
  refine ⟨by grind, fun moved same => ?_⟩
  cases same
  exact ⟨clean.element, clean.value, clean.clauses⟩

end

@[grind ←] theorem nextItem_agrees (alike : m.Alike other) : Agree (nextItem m a) (nextItem other a) := by
  refine .object a (fun o clean => ?_)
  split
  · next g =>
    have clean : g.Public := clean.2 g rfl
    refine (Act.write_steady a (clean.moved [])).bind (fun _ => ?_)
    rw [alike.fuel]
    refine (advance_agrees alike clean).bind (fun found => ?_)
    cases found with
    | none => exact .pure _
    | some cursors =>
      exact (element_agrees alike clean).bind (fun _ => (Act.write_steady a (clean.moved cursors)).bind (fun _ => .pure _))
  · next it plain =>
    refine (Iterator.step_agrees alike).bind_of Iterator.step_gives (fun found left => ?_)
    split
    · next v it => exact (Act.write_steady a (left v it rfl)).bind (fun _ => .pure _)
    · refine (Act.write_steady a ?_).bind (fun _ => .pure _)
      cases it with grind [Iterator.ended]
  · exact .pure _

@[grind ←] theorem comprehend_agrees (alike : m.Alike other) {kind : Collection} {value : Option Expr}
    {clauses : List Clause} (element : Node.Public (.expr e)) (value_public : ∀ e ∈ value.toList, Node.Public (.expr e))
    (clauses_public : ∀ c ∈ clauses, Node.Public (.clause c)) :
    Agree (comprehend m scope kind e value clauses) (comprehend other scope kind e value clauses) := by
  unfold comprehend
  split
  · exact Act.fail_steady
  · next first rest =>
    obtain ⟨-, source, -⟩ := Clause.public_parts (clauses_public first List.mem_cons_self)
    refine (alike.eval _ _ source).bind (fun v => Act.iterate_steady.bind (fun start => ?_))
    extract_lets declared
    refine (Act.alloc_steady (by grind)).bind (fun frame => ?_)
    extract_lets g
    have clean : g.Public := ⟨element, value_public, clauses_public⟩
    split <;> grind -funext [Generator.Public.moved]

/-! Parts of expressions. -/

@[grind ←] theorem evalRow_agrees (alike : m.Alike other) {refuse refuse' : Value → Act Addr}
    (refuses : ∀ v, Agree (refuse v) (refuse' v)) (clean : ∀ e ∈ items, Node.Public (.expr e)) :
    Agree (evalRow m scope refuse items) (evalRow other scope refuse' items) := by
  induction items with
  | nil => exact .pure _
  | cons e rest ih =>
    obtain ⟨first, others⟩ := List.forall_mem_cons.mp clean
    have ih := ih others
    cases e with
    | starred item =>
      have item : Node.Public (.expr item) := first.below _ List.mem_cons_self
      refine (alike.eval _ _ item).bind (fun v => Act.iterate?_steady.bind (fun found => ?_))
      extract_lets next next'
      have next_agrees : ∀ a, Agree (next a) (next' a) :=
        fun _ => (drain_agrees alike).bind (fun _ => ih.bind (fun _ => .pure _))
      clear_value next next'
      grind -funext
    | _ =>
      clear clean others
      grind -funext [evalRow]

@[grind ←] theorem evalEntries_agrees (alike : m.Alike other) {found : Entries} {waiting : List (Value × Value)}
    {entries : List Entry}
    (clean : ∀ entry ∈ entries, (∀ key ∈ entry.key?.toList, Node.Public (.expr key)) ∧ Node.Public (.expr entry.value)) :
    Agree (evalEntries m scope found waiting entries) (evalEntries other scope found waiting entries) := by
  induction entries generalizing found waiting with
  | nil => exact insertEntries_steady
  | cons entry rest ih =>
    obtain ⟨⟨key_public, value_public⟩, others⟩ := List.forall_mem_cons.mp clean
    obtain ⟨_ | key, value⟩ := entry
    · refine insertEntries_steady.bind (fun found => (alike.eval _ _ value_public).bind (fun v => ?_))
      extract_lets next next'
      have next_agrees : ∀ more, Agree (next more) (next' more) := fun _ => ih others
      clear_value next next'
      split <;> grind -funext
    · exact (alike.eval _ _ (key_public key (by simp [Entry.key?]))).bind
        (fun _ => (alike.eval _ _ value_public).bind (fun _ => ih others))

@[grind ←] theorem evalKeywords_agrees (alike : m.Alike other) {f : Value} {found : List (String × Value)}
    {keywords : List Keyword} (clean : ∀ k ∈ keywords, Node.Public (.keyword k)) :
    Agree (evalKeywords m scope f found keywords) (evalKeywords other scope f found keywords) := by
  induction keywords generalizing found with
  | nil => exact .pure _
  | cons keyword rest ih =>
    obtain ⟨first, others⟩ := List.forall_mem_cons.mp clean
    obtain ⟨name, value⟩ := keyword
    have value_public : Node.Public (.expr value) := first.below _ List.mem_cons_self
    cases name with
    | none =>
      refine (alike.eval _ _ value_public).bind (fun v => ?_)
      extract_lets next next'
      have next_agrees : ∀ entries, Agree (next entries) (next' entries) :=
        fun _ => evalKeywords.addAll_steady.bind (fun _ => ih others)
      clear_value next next'
      split <;> grind -funext
    | some name =>
      exact (alike.eval _ _ value_public).bind (fun v => evalKeywords.addAll_steady.bind (fun _ => ih others))

@[grind ←] theorem evalOption_agrees (alike : m.Alike other) {chosen : Option Expr}
    (clean : ∀ e ∈ chosen.toList, Node.Public (.expr e)) : Agree (evalOption m scope chosen) (evalOption other scope chosen) := by
  cases chosen with
  | none => exact .pure _
  | some e => exact alike.eval _ _ (clean e (by simp))

@[grind ←] theorem evalChain_agrees (alike : m.Alike other) {rest : List (Comparison × Expr)}
    (clean : ∀ c ∈ rest, Node.Public (.expr c.2)) : Agree (evalChain m scope v rest) (evalChain other scope v rest) := by
  induction rest generalizing v with
  | nil => exact .pure _
  | cons c rest ih =>
    obtain ⟨c, e⟩ := c
    obtain ⟨first, others⟩ := List.forall_mem_cons.mp clean
    have ih {v} := @ih v others
    cases rest with
    | nil =>
      exact (alike.eval _ _ first).bind (fun _ => (Act.compare_agrees alike).bind (fun _ => .pure _))
    | cons next rest =>
      exact (alike.eval _ _ first).bind (fun _ => (Act.compare_agrees alike).bind (fun _ => .ite ih (.pure _)))

@[grind ←] theorem evalJunction_agrees (alike : m.Alike other) {op : Connective}
    (clean : ∀ e ∈ items, Node.Public (.expr e)) : Agree (evalJunction m scope op items) (evalJunction other scope op items) := by
  induction items with
  | nil => exact .pure _
  | cons e rest ih =>
    obtain ⟨first, others⟩ := List.forall_mem_cons.mp clean
    have ih := ih others
    cases rest with
    | nil => exact alike.eval _ _ first
    | cons next rest =>
      exact (alike.eval _ _ first).bind (fun v => (Act.truth_steady v).bind (fun _ => .ite (.pure v) ih))

theorem evalPieces.row_agrees (alike : m.Alike other)
    (specs : ∀ pieces, (∀ p ∈ pieces, Node.Public (.piece p)) →
      Agree (evalPieces m scope depth pieces) (evalPieces other scope depth pieces))
    {pieces : List Piece} (clean : ∀ p ∈ pieces, Node.Public (.piece p)) :
    Agree (evalPieces.row m scope depth pieces) (evalPieces.row other scope depth pieces) := by
  induction pieces with
  | nil =>
    simp only [evalPieces.row]
    exact .pure _
  | cons piece rest ih =>
    obtain ⟨first, others⟩ := List.forall_mem_cons.mp clean
    have ih := ih others
    have below := first.below
    cases piece with
    | text s =>
      simp only [evalPieces.row]
      exact ih.bind (fun _ => .pure _)
    | field value conversion spec =>
      simp only [Node.children, List.forall_mem_cons] at below
      obtain ⟨value, layout, -⟩ := below
      have spec := specs spec (List.forall_mem_map.mp layout.below)
      simp only [evalPieces.row]
      exact (alike.eval _ _ value).bind (fun _ => convertPiece_steady.bind (fun _ => spec.bind
        (fun _ => layoutValue_steady.bind (fun _ => ih.bind (fun _ => .pure _)))))

@[grind ←] theorem evalPieces_agrees (alike : m.Alike other) {pieces : List Piece}
    (clean : ∀ p ∈ pieces, Node.Public (.piece p)) :
    Agree (evalPieces m scope depth pieces) (evalPieces other scope depth pieces) := by
  induction depth generalizing pieces with
  | zero =>
    simp only [evalPieces]
    exact .throw _
  | succ depth ih =>
    simp only [evalPieces]
    exact (evalPieces.row_agrees alike (fun _ => ih) clean).bind (fun _ => .pure _)

/-- The parts of a public signature are public. -/
theorem Params.public_parts {p : Params} (clean : Node.Public (.params p)) :
    (∀ e ∈ p.defaults, Node.Public (.expr e)) ∧
      (∀ chosen ∈ p.keywordDefaults, ∀ e ∈ chosen.toList, Node.Public (.expr e)) ∧
      ∀ param ∈ p.positional ++ p.positionalOnly ++ p.rest.toList ++ p.keywordOnly ++ p.keywordRest.toList,
        Node.Public (.param param) := by
  obtain ⟨positionalOnly, positional, rest, keywordOnly, keywordDefaults, keywordRest, defaults⟩ := p
  have below := clean.below
  simp only [Node.children, Node.exprs, List.forall_mem_append, List.forall_mem_map] at below
  obtain ⟨⟨⟨⟨⟨⟨first, second⟩, third⟩, fourth⟩, options⟩, fifth⟩, usual⟩ := below
  refine ⟨usual, fun chosen inside e present => options e ?_, ?_⟩
  · exact List.mem_filterMap.mpr ⟨chosen, inside, Option.mem_toList.mp present⟩
  · simp only [List.forall_mem_append]
    exact ⟨⟨⟨⟨second, first⟩, third⟩, fourth⟩, fifth⟩

/-- A function keeps its body, and the values of its defaults. -/
@[grind ←] theorem makeFunction_agrees (alike : m.Alike other) {name : String} {params : Params} {body : Body}
    (signature : Node.Public (.params params)) (code : body.Public) :
    Agree (makeFunction m scope name params body) (makeFunction other scope name params body) := by
  obtain ⟨defaults, options, -⟩ := Params.public_parts signature
  refine Agree.mapM (fun e inside => alike.eval _ _ (defaults e inside)) |>.bind (fun given => ?_)
  refine Agree.mapM (fun chosen inside => ?_) |>.bind (fun others => Act.allocate_steady ?_)
  · cases chosen with
    | none => exact .pure _
    | some e => exact .map _ (alike.eval _ _ (options _ inside e (by simp)))
  · refine ⟨fun f same => ?_, by grind⟩
    cases same
    exact code

/-- An expression without private attributes comes to the same, whatever private attributes come to. -/
theorem evalWith_agrees (alike : m.Alike other) (clean : Node.Public (.expr e)) :
    Agree (evalWith m scope e) (evalWith other scope e) := by
  have below := clean.below
  cases e with
    simp only [Node.children, Node.exprs, List.forall_mem_append, List.forall_mem_cons, List.forall_mem_map] at below
  | dict entries =>
    refine (evalEntries_agrees alike (fun entry inside => ⟨fun key chosen => below.1 key ?_, below.2 entry inside⟩)).bind
      (fun _ => Act.newDict_steady)
    exact List.mem_filterMap.mpr ⟨entry, inside, Option.mem_toList.mp chosen⟩
  | lambda params body => exact makeFunction_agrees alike below.1 below.2.1
  | call function args keywords =>
    obtain ⟨⟨function, args⟩, keywords⟩ := below
    refine (alike.eval _ _ function).bind (fun f => ?_)
    refine (evalRow_agrees alike (fun v => ?_) args).bind (fun values => ?_)
    · split <;> grind
    · exact (evalKeywords_agrees alike keywords).bind (fun named => alike.call f values named)
  | _ => grind -funext [evalWith]

/-! Statements. -/

section
variable {stmts body orelse : List Stmt}

@[grind ←] theorem overItems_agrees (alike : m.Alike other) (clean : Node.Public (.expr target))
    (body_public : ∀ s ∈ body, Node.Public (.stmt s)) :
    Agree (overItems m scope target body a fuel) (overItems other scope target body a fuel) := by
  induction fuel with
  | zero => exact .throw _
  | succ fuel ih =>
    refine (alike.next a).bind (fun item => ?_)
    cases item with
    | none => exact .pure _
    | some v =>
      refine (assign_agrees alike clean).bind (fun _ => (alike.exec _ _ body_public).bind (fun flow => ?_))
      cases flow <;> grind

@[grind ←] theorem whileHolds_agrees (alike : m.Alike other) (clean : Node.Public (.expr e))
    (body_public : ∀ s ∈ body, Node.Public (.stmt s)) :
    Agree (whileHolds m scope e body fuel) (whileHolds other scope e body fuel) := by
  induction fuel with grind -funext [whileHolds]

@[grind ←] theorem errorOf_agrees (alike : m.Alike other) {refusal : String} :
    Agree (errorOf m refusal v) (errorOf other refusal v) := by
  unfold errorOf
  split <;> grind -funext

@[grind ←] theorem execRaise_agrees (alike : m.Alike other) {error cause : Option Expr}
    (error_public : ∀ e ∈ error.toList, Node.Public (.expr e)) (cause_public : ∀ e ∈ cause.toList, Node.Public (.expr e)) :
    Agree (execRaise m scope error cause) (execRaise other scope error cause) := by
  cases error with grind -funext [execRaise]

theorem handling_steady (errors : List Value) :
    Steady (modify (fun h => { h with handling := errors }) : Act PUnit) :=
  fun _ clean => ⟨rfl, clean.handling errors⟩

@[grind ←] theorem whileHandling_agrees (alike : m.Alike other) {error : Value} {name : Option String}
    (body_public : ∀ s ∈ body, Node.Public (.stmt s)) :
    Agree (whileHandling m scope error name body) (whileHandling other scope error name body) := by
  have ran := (alike.exec scope body body_public).attempt
  unfold whileHandling
  extract_lets next next'
  have next_agrees : ∀ u, Agree (next u) (next' u) := by
    intro u
    refine .get (fun h _ => (handling_steady _).bind (fun _ => ran.bind (fun answer => (handling_steady _).bind (fun _ => ?_))))
    cases name <;> grind
  clear_value next next'
  cases name <;> grind

@[grind ←] theorem handle_agrees (alike : m.Alike other) {error : Value} {handlers : List Handler}
    (clean : ∀ h ∈ handlers, Node.Public (.handler h)) :
    Agree (handle m scope error handlers) (handle other scope error handlers) := by
  induction handlers with
  | nil => exact Act.raise_steady
  | cons handler rest ih =>
    obtain ⟨first, others⟩ := List.forall_mem_cons.mp clean
    obtain ⟨type, name, body⟩ := handler
    have below := first.below
    simp only [Node.children, Node.exprs, Node.stmts, List.forall_mem_append, List.forall_mem_map] at below
    cases type with
    | none => exact whileHandling_agrees alike below.2
    | some type =>
      have caught : Agree (do catches error (← m.eval scope type)) (do catches error (← other.eval scope type)) :=
        (alike.eval scope type (below.1 type (by simp))).bind (fun _ => catches_steady)
      refine .get (fun h _ => (handling_steady _).bind (fun _ => caught.attempt.bind (fun answer => ?_)))
      refine (handling_steady _).bind (fun _ => Act.ofAttempt_steady.bind (fun catches => ?_))
      exact .ite (whileHandling_agrees alike below.2) (ih others)

@[grind ←] theorem execGuarded_agrees (alike : m.Alike other) {handlers : List Handler}
    (body_public : ∀ s ∈ body, Node.Public (.stmt s)) (handlers_public : ∀ h ∈ handlers, Node.Public (.handler h))
    (orelse_public : ∀ s ∈ orelse, Node.Public (.stmt s)) :
    Agree (execGuarded m scope body handlers orelse) (execGuarded other scope body handlers orelse) := by
  unfold execGuarded
  refine (alike.exec scope body body_public).attempt.bind (fun answer => ?_)
  split <;> grind -funext

@[grind ←] theorem execFinally_agrees {act act' last last' : Act Flow} (first : Agree act act') (final : Agree last last') :
    Agree (execFinally act last) (execFinally act' last') := by
  unfold execFinally
  refine first.attempt.bind (fun answer => ?_)
  split
  · grind
  · refine .get (fun h _ => ?_)
    extract_lets before next next'
    have next_agrees : ∀ u, Agree (next u) (next' u) := by
      refine fun _ => final.attempt.bind (fun ended => (handling_steady _).bind (fun _ => ?_))
      refine Act.ofAttempt_steady.bind (fun flow => ?_)
      split <;> grind
    clear_value next next'
    split
    · exact (handling_steady _).bind next_agrees
    · exact next_agrees ()

@[grind ←] theorem delete_agrees (alike : m.Alike other) (clean : Node.Public (.expr target)) :
    Agree (delete m scope depth target) (delete other scope depth target) := by
  induction depth generalizing target with
  | zero => exact .throw _
  | succ depth ih =>
    have below := clean.below
    cases target with
      simp only [Node.children, Node.exprs, List.forall_mem_cons, List.forall_mem_map] at below
    | _ => grind -funext [delete]

@[grind ←] theorem execAugment_agrees (alike : m.Alike other) {op : BinaryOp} (target_public : Node.Public (.expr target))
    (clean : Node.Public (.expr e)) :
    Agree (execAugment m scope target op e) (execAugment other scope target op e) := by
  have below := target_public.below
  cases target with
    simp only [Node.children, Node.exprs, List.forall_mem_cons, List.forall_mem_map] at below
  | _ => grind -funext [execAugment]

@[grind ←] theorem execAnnotate_agrees (alike : m.Alike other) {hint : Expr} {value : Option Expr}
    (target_public : Node.Public (.expr target)) (hint_public : Node.Public (.expr hint))
    (value_public : ∀ e ∈ value.toList, Node.Public (.expr e)) :
    Agree (execAnnotate m scope target hint value) (execAnnotate other scope target hint value) := by
  have below := target_public.below
  unfold execAnnotate
  extract_lets next next'
  have next_agrees : ∀ u, Agree (next u) (next' u) := by grind -funext
  clear_value next next'
  split
  · grind -funext
  · simp only [Node.children, List.forall_mem_cons] at below
    grind -funext
  · simp only [Node.children, List.forall_mem_cons] at below
    grind -funext
  · exact next_agrees ()

@[grind ←] theorem decorate_agrees (alike : m.Alike other) {wrappers : List Value} :
    Agree (decorate m v wrappers) (decorate other v wrappers) := by
  induction wrappers with grind -funext [decorate]

theorem annotations_public {params : Params} {result : Option Expr} (signature : Node.Public (.params params))
    (result_public : ∀ e ∈ result.toList, Node.Public (.expr e)) :
    ∀ e ∈ annotations params result, Node.Public (.expr e) := by
  obtain ⟨-, -, each⟩ := Params.public_parts signature
  unfold annotations
  refine List.forall_mem_append.mpr ⟨fun e inside => ?_, result_public⟩
  obtain ⟨⟨name, hint⟩, member, chosen⟩ := List.mem_flatMap.mp inside
  exact (each _ member).below _ (List.mem_map_of_mem chosen)

@[grind ←] theorem execFunction_agrees (alike : m.Alike other) {name : String} {params : Params} {decorators : List Expr}
    {result : Option Expr} (signature : Node.Public (.params params)) (body_public : ∀ s ∈ body, Node.Public (.stmt s))
    (decorators_public : ∀ e ∈ decorators, Node.Public (.expr e))
    (result_public : ∀ e ∈ result.toList, Node.Public (.expr e)) :
    Agree (execFunction m scope name params body decorators result)
      (execFunction other scope name params body decorators result) := by
  refine Agree.mapM (fun e inside => alike.eval scope e (decorators_public e inside)) |>.bind (fun wrappers => ?_)
  have code : Body.Public (.block body) := body_public
  refine (makeFunction_agrees alike signature code).bind (fun f => ?_)
  have hints := annotations_public signature result_public
  refine Agree.mapM (fun e inside => alike.eval scope e (hints e inside)) |>.bind (fun _ => ?_)
  exact (decorate_agrees alike).bind (fun _ => Act.bindName_steady)

@[grind ←] theorem execOne_agrees (alike : m.Alike other) {s : Stmt} (clean : Node.Public (.stmt s)) :
    Agree (execOne m scope s) (execOne other scope s) := by
  have below := clean.below
  cases s with
    simp only [Node.children, Node.exprs, Node.stmts, List.forall_mem_append, List.forall_mem_cons, List.forall_mem_map]
      at below
  | assertion test message =>
    refine (alike.eval _ _ below.1).bind (fun v => (Act.truth_steady v).bind (fun holds => .ite (.pure _) ?_))
    cases message <;> grind
  | _ => grind -funext [execOne]

/-- A row of public statements ends the same, whatever private attributes come to. -/
theorem execAll_agrees (alike : m.Alike other) (clean : ∀ s ∈ stmts, Node.Public (.stmt s)) :
    Agree (execAll m scope stmts) (execAll other scope stmts) := by
  induction stmts with
  | nil => exact .pure _
  | cons s rest ih =>
    obtain ⟨first, others⟩ := List.forall_mem_cons.mp clean
    refine (execOne_agrees alike first).bind (fun flow => ?_)
    cases flow <;> grind

end

/-! Calls. -/

@[grind ←] theorem runProgram_agrees (alike : m.Alike other) {p : Program} (clean : Node.Public (.program p)) :
    Agree (runProgram m scope p) (runProgram other scope p) := by
  have below := clean.below
  cases p with simp only [Node.children, Node.stmts, List.forall_mem_cons, List.forall_mem_map] at below
  | _ => grind -funext [runProgram]

@[grind ←] theorem compiled_steady {source : String} : Steady (compiled source) := by
  grind [compiled]

theorem compiled_gives {source : String} : Gives (fun p => Node.Public (.program p)) (compiled source) := by
  unfold compiled
  split
  · next p accepted => exact .pure (compile_public accepted)
  · exact .bind (fun error => .raise error)
  · exact .bind (fun error => .raise error)

@[grind ←] theorem runSupplied_agrees (alike : m.Alike other) {f : Supplied} {args : List Value} :
    Agree (runSupplied m f args) (runSupplied other f args) := by
  refine compiled_steady.bind_of compiled_gives (fun program clean => Act.newList_steady.bind (fun all => ?_))
  exact (Act.alloc_steady (by grind)).bind (fun scope => runProgram_agrees alike clean)

@[grind ←] theorem callFunction_agrees (alike : m.Alike other) {f : Function} (code : f.body.Public) {args : List Value}
    {named : List (String × Value)} : Agree (callFunction m f args named) (callFunction other f args named) := by
  obtain ⟨name, params, defaults, keywordDefaults, body, outer⟩ := f
  refine Act.fillParams_steady.bind (fun values => (Act.alloc_steady (by grind)).bind (fun scope => ?_))
  rw [alike.calls]
  extract_lets next next'
  have next_agrees : ∀ u, Agree (next u) (next' u) := by
    intro u
    cases body with
    | expression e => exact alike.eval scope e code
    | block stmts =>
      refine (alike.exec scope stmts code).bind (fun flow => ?_)
      cases flow <;> exact .pure _
  clear_value next next'
  grind -funext

theorem callWith_agrees {deeper deeper' : Machine} (alike : m.Alike other) (below : deeper.Alike deeper') {args : List Value}
    {named : List (String × Value)} : Agree (callWith m deeper v args named) (callWith other deeper' v args named) := by
  cases v with
  | ref a =>
    refine .object a (fun o clean => ?_)
    cases o with
    | function g => exact callFunction_agrees below (clean.1 g rfl)
    | supplied g => grind -funext
    | _ => grind
  | method method => cases args <;> grind -funext [callWith]
  | _ => grind -funext [callWith]

end

/-- Machines with the same fuel are alike if their ways to reach attributes are. -/
theorem machine_alike {access other : Access} (alike : access.Alike other) (fuel calls : Nat) :
    (machine access fuel calls).Alike (machine other fuel calls) := by
  induction fuel generalizing calls with
  | zero =>
    exact
      { fuel := rfl
        calls := rfl
        access := alike
        eval := fun _ _ _ => .throw _
        exec := fun _ _ _ => .throw _
        call := fun _ _ _ => .throw _
        next := fun _ => .throw _ }
  | succ fuel ih =>
    exact
      { fuel := rfl
        calls := rfl
        access := alike
        eval := fun _ _ clean => evalWith_agrees (ih calls) clean
        exec := fun _ _ clean => execAll_agrees (ih calls) clean
        call := fun _ _ _ => callWith_agrees (ih calls) (ih (calls - 1))
        next := fun _ => nextItem_agrees (ih calls) }

end Workflow.Script
