import Workflow.Proofs.Publicity

/-! What no machine takes part in. None of it puts code on the heap, so all of it is steady. -/

namespace Workflow.Script

namespace Act
variable {c : ErrorClass} {message name : String} {args values : List Value} {v w : Value} {a : Addr}

@[grind ←] theorem allocate_steady {o : Object} (code : o.Public) : Steady (allocate o) := (alloc_steady code).map Value.ref

@[grind ←] theorem newList_steady {items : Array Value} : Steady (newList items) := allocate_steady (Object.public_list items)

@[grind ←] theorem newDict_steady {entries : Entries} : Steady (newDict entries) := allocate_steady (by grind)

@[grind ←] theorem newSet_steady {members : Array Value} : Steady (newSet members) := allocate_steady (by grind)

@[grind ←] theorem raise_steady {error : Value} : Steady (raise error : Act α) := .throw _

@[grind ←] theorem failWith_steady : Steady (failWith c args : Act α) :=
  (allocate_steady (by grind)).bind (fun _ => raise_steady)

@[grind ←] theorem fail_steady : Steady (fail c message : Act α) := failWith_steady

@[grind ←] theorem typeError_steady : Steady (typeError message : Act α) := fail_steady

@[grind ←] theorem valueError_steady : Steady (valueError message : Act α) := fail_steady

@[grind ←] theorem rendered_steady {write : Heap → Except RenderFault String} : Steady (rendered write) := by
  refine .get (fun h _ => ?_)
  cases write h with
  | ok s => exact .pure s
  | error fault =>
    cases fault with
    | tooDeep => exact fail_steady
    | longNumber => exact valueError_steady

@[grind ←] theorem quoted_steady : Steady (quoted v) := rendered_steady

@[grind ←] theorem plain_steady : Steady (plain v) := rendered_steady

@[grind ←] theorem equal_steady : Steady (equal v w) := by
  refine .get (fun h _ => ?_)
  cases v.equal? h depthLimit w with
  | some answer => exact .pure answer
  | none => exact fail_steady

@[grind ←] theorem matching_steady : Steady (matching v w) := .ite (.pure true) equal_steady

@[grind ←] theorem ordered_steady {test : OrderTest} : Steady (ordered test v w) := by
  refine .get (fun h _ => ?_)
  cases v.ordered h test depthLimit w with
  | ok answer => exact .pure answer
  | error fault =>
    cases fault with
    | tooDeep => exact fail_steady
    | unordered => exact typeError_steady

@[grind ←] theorem checkKey_steady : Steady (checkKey v) := by
  refine .get (fun h _ => ?_)
  cases v.unhashable? h with
  | some name => exact typeError_steady
  | none => exact .pure ()

@[grind ←] theorem position?_steady {items : List Value} {start : Nat} : Steady (position? v items start) := by
  induction items generalizing start with
  | nil => exact .pure none
  | cons w rest ih => exact matching_steady.bind (fun _ => .ite (.pure _) ih)

@[grind ←] theorem countOf_steady {items : List Value} {count : Nat} : Steady (countOf v items count) := by
  induction items generalizing count with
  | nil => exact .pure count
  | cons w rest ih => exact matching_steady.bind (fun _ => ih)

@[grind ←] theorem ofAttempt_steady {answer : Except Stop α} : Steady (ofAttempt answer) := by
  cases answer with
  | ok a => exact .pure a
  | error stop => exact .throw stop

/-! Attributes. -/

@[grind ←] theorem noAttribute_steady : Steady (noAttribute v name : Act α) := by
  cases v with
  | type c => exact fail_steady
  | _ => exact (typeName_steady _).bind (fun _ => fail_steady)

theorem getAttribute_steady : Steady (getAttribute v name) := by
  refine .get (fun h _ => ?_)
  cases v.attribute? h name with
  | some found => exact .pure found
  | none =>
    cases v with
    | ref a =>
      refine .object a (fun o _ => ?_)
      cases o with
      | record kind fields => exact .ite newDict_steady noAttribute_steady
      | _ => exact noAttribute_steady
    | _ => exact noAttribute_steady

theorem setAttribute_steady : Steady (setAttribute v name w) := by
  cases v with grind [setAttribute]

theorem deleteAttribute_steady : Steady (deleteAttribute v name) := by
  cases v with grind [deleteAttribute]

@[grind ←] theorem intOfText_steady {base : Nat} {s : String} : Steady (intOfText base s) := by grind [intOfText]

@[grind ←] theorem floatOfText_steady {s : String} : Steady (floatOfText s) := by grind [floatOfText]

/-! Names. -/

@[grind ←] theorem frame_steady : Steady (frame a) := by grind [frame]

@[grind ←] theorem undefined_steady : Steady (undefined name : Act α) := by grind [undefined]

@[grind ←] theorem unboundLocal_steady : Steady (unboundLocal name : Act α) := by grind [unboundLocal]

@[grind ←] theorem lookupFrom_steady {frames : Nat} {outside : Bool} : Steady (lookupFrom name frames outside a) := by
  induction frames generalizing outside a with grind [lookupFrom]

@[grind ←] theorem lookup_steady : Steady (lookup a name) := by grind [lookup]

@[grind ←] theorem bindFrom_steady {frames : Nat} : Steady (bindFrom name v frames a) := by
  induction frames generalizing a with grind [bindFrom]

@[grind ←] theorem bindName_steady : Steady (bindName a name v) := by grind [bindName]

@[grind ←] theorem unbindName_steady : Steady (unbindName a name) := by grind [unbindName]

/-! Parameters. -/

section
variable {f : Function} {named : List (String × Value)}

@[grind ←] theorem missing_steady {kind : String} {names : List String} : Steady (missing name kind names : Act α) := by
  grind [missing]

@[grind ←] theorem tooMany_steady {given keywordOnly : Nat} : Steady (tooMany f given keywordOnly : Act α) := by
  grind [tooMany]

@[grind ←] theorem placeKeywords_steady {filled extra : List (String × Value)} :
    Steady (placeKeywords f filled named extra) := by
  induction named generalizing filled extra with grind [placeKeywords]

@[grind ←] theorem fillParams_steady : Steady (fillParams f args named) := by
  unfold fillParams
  refine placeKeywords_steady.bind (fun found => ?_)
  dsimp only
  cases f.params.keywordRest <;> split <;> grind

end

end Act

/-! Texts of values. -/

section
variable {v : Value} {s spec typeName : String} {l : Layout} {cs : List Char}

@[grind ←] theorem unknownCode_steady {code : Char} : Steady (unknownCode code typeName : Act α) := by grind [unknownCode]

@[grind ←] theorem parseLayout_steady {numeric : Bool} : Steady (parseLayout numeric spec typeName) := by grind [parseLayout]

@[grind ←] theorem layoutText_steady : Steady (layoutText spec s) := by
  unfold layoutText
  refine parseLayout_steady.bind (fun l => ?_)
  -- each check that holds leads on to the next one
  extract_lets cs shown aligned grouped plain zeroed signed
  have shown_steady : ∀ u, Steady (shown u) := fun _ => .pure _
  have aligned_steady : ∀ u, Steady (aligned u) := by grind
  have grouped_steady : ∀ u, Steady (grouped u) := by grind
  have plain_steady : ∀ u, Steady (plain u) := by grind
  have zeroed_steady : ∀ u, Steady (zeroed u) := by grind
  have signed_steady : ∀ u, Steady (signed u) := by grind
  grind

@[grind ←] theorem layoutReal_steady {x : Float} : Steady (layoutReal typeName l x) := by grind [layoutReal]

@[grind ←] theorem layoutWhole_steady {n : Int} : Steady (layoutWhole typeName l n) := by grind [layoutWhole]

@[grind ←] theorem layoutValue_steady : Steady (layoutValue v spec) := by
  unfold layoutValue
  refine .ite Act.plain_steady (Act.typeName_steady v |>.bind (fun typeName => ?_))
  split
  · exact layoutText_steady
  · exact parseLayout_steady.bind (fun _ => layoutReal_steady)
  · split
    · exact parseLayout_steady.bind (fun l => .ite (by grind) layoutWhole_steady)
    · exact Act.typeError_steady

namespace Template
variable {args : Args} {numbering : Numbering}

@[grind ←] theorem ofFault_steady {found : Except Fault α} : Steady (ofFault found) := by cases found with grind [ofFault]

@[grind ←] theorem positional_steady {n : Nat} : Steady (positional args n) := by grind [positional]

@[grind ←] theorem argument_steady : Steady (argument args numbering cs) := by grind [argument]

@[grind ←] theorem convert_steady {conversion : Option Char} : Steady (convert v conversion) := by
  unfold convert
  split <;> grind

end Template

namespace Percent
variable {m : Mark} {supply : Supply} {p : Progress} {code : Char} {length : Nat}

@[grind ←] theorem take_steady : Steady (take supply) := by
  unfold take
  split <;> grind

@[grind ←] theorem takeDigits_steady {what : String} : Steady (takeDigits what cs) := by grind [takeDigits]

@[grind ←] theorem takeWidth_steady : Steady (takeWidth m supply cs) := by
  unfold takeWidth
  split <;> grind

@[grind ←] theorem takePrecision_steady : Steady (takePrecision m supply cs) := by
  unfold takePrecision
  split <;> grind

@[grind ←] theorem wholeOf_steady : Steady (wholeOf code v) := by
  unfold wholeOf
  split <;> grind

@[grind ←] theorem realOf_steady : Steady (realOf v) := by
  unfold realOf
  split <;> grind

@[grind ←] theorem show_steady {place : Nat} : Steady (show_ m code place v) := by
  unfold show_
  grind

end Percent

end

/-! Operators. -/

section
variable {op : BinaryOp} {v w : Value} {title : String}

@[grind ←] theorem Act.zeroDivision_steady {message : String} : Steady (Act.zeroDivision message : Act α) := by
  grind [Act.zeroDivision]

@[grind ←] theorem Act.toFloat_steady {n : Int} : Steady (Act.toFloat n) := by grind [Act.toFloat]

@[grind ←] theorem Act.real_steady {n : Numeric} : Steady (Act.real n) := by cases n with grind [Act.real]

@[grind ←] theorem floatPower_steady {x y : Float} : Steady (floatPower x y) := by grind [floatPower]

@[grind ←] theorem wholeOp_steady {n m : Int} : Steady (wholeOp op n m) := by cases op with grind [wholeOp]

@[grind ←] theorem realOp_steady {x y : Float} : Steady (realOp op x y) := by cases op with grind [realOp]

@[grind ←] theorem numberOp_steady : Steady (numberOp op v w) := by grind [numberOp]

@[grind ←] theorem unary_steady {op : UnaryOp} : Steady (unary op v) := by
  unfold unary
  split <;> grind

namespace Act
variable {length : Nat} {lower upper step index : Value} {row out : String}

@[grind ←] theorem bound?_steady : Steady (bound? v) := by
  unfold bound?
  split <;> grind

@[grind ←] theorem span_steady : Steady (span length lower upper step) := by grind [span]

@[grind ←] theorem position_steady : Steady (position row length index out) := by grind [position]

@[grind ←] theorem subscript_steady : Steady (subscript v index) := by
  unfold subscript
  split
  case h_7 =>
    refine .object _ (fun o _ => ?_)
    split <;> grind
  all_goals grind

@[grind ←] theorem replaceSpan_steady {items new : Array Value} {s : Span} : Steady (replaceSpan items new s) := by
  grind [replaceSpan]

@[grind ←] theorem deleteSubscript_steady : Steady (deleteSubscript v index) := by
  unfold deleteSubscript
  split
  case h_1 =>
    refine .object _ (fun o _ => ?_)
    split <;> grind
  all_goals grind

end Act

@[grind ←] theorem Percent.fillMark_steady {length : Nat} {p : Percent.Progress} {cs : List Char} :
    Steady (Percent.fillMark length p cs) := by
  unfold Percent.fillMark
  split
  · exact .pure _
  · extract_lets marked
    have marked_steady : ∀ found, Steady (marked found) := by grind
    clear_value marked
    split <;> grind

@[grind ←] theorem Percent.fill_steady {length fuel : Nat} {p : Percent.Progress} {cs : List Char} :
    Steady (Percent.fill length fuel p cs) := by
  fun_induction Percent.fill length fuel p cs with grind

@[grind ←] theorem formatPercent_steady {text : String} : Steady (formatPercent text v) := by
  unfold formatPercent
  refine .get (fun h _ => ?_)
  extract_lets mapping supply cs
  refine Percent.fill_steady.bind (fun shown => ?_)
  grind

@[grind ←] theorem Row.times_steady {r : Row} {count : Int} : Steady (r.times count) := by cases r with grind [Row.times]

theorem Row.join?_steady {r s : Row} {joined : Act Value} (together : r.join? s = some joined) : Steady joined := by
  unfold Row.join? at together
  split at together <;> grind

namespace Act

@[grind ←] theorem unsupported_steady : Steady (unsupported title v w : Act α) := by grind [unsupported]

@[grind ←] theorem add_steady : Steady (add title v w) := by grind [add, Row.join?_steady]

@[grind ←] theorem multiply_steady : Steady (multiply title v w) := by grind [multiply]

@[grind ←] theorem combine_steady : Steady (combine op title v w) := by grind [combine]

@[grind ←] theorem binaryAs_steady : Steady (binaryAs title op v w) := by
  unfold binaryAs
  refine numberOp_steady.bind (fun found => ?_)
  split
  · exact .pure _
  · split <;> grind

@[grind ←] theorem binary_steady : Steady (binary op v w) := by grind [binary]

end Act

end

/-! Walking, sorting and methods. -/

section
variable {v w : Value} {a : Addr} {args : Arguments} {name : String} {cs : List Char}

namespace Act

/-- A value that is walked over anew is no comprehension. -/
theorem iterator?_public {h : Heap} {it : Iterator} (found : v.iterator? h = some it) : (Object.iterator it).Public := by
  unfold Value.iterator? at found
  grind

@[grind ←] theorem iterate?_steady : Steady (iterate? v) := by grind [iterate?, iterator?_public]

@[grind ←] theorem iterate_steady : Steady (iterate v) := by grind [iterate]

@[grind ←] theorem noKeywords_steady : Steady (noKeywords name args) := by grind [noKeywords]

@[grind ←] theorem noArguments_steady : Steady (noArguments name args) := by grind [noArguments]

@[grind ←] theorem oneArgument_steady : Steady (oneArgument name args) := by grind [oneArgument]

@[grind ←] theorem between_steady {home : String} {least most : Nat} : Steady (between home name least most args) := by
  grind [between]

@[grind ←] theorem index_steady : Steady (index v) := by grind [index]

@[grind ←] theorem textOf_steady {refusal : String → String} : Steady (textOf refusal v) := by
  cases v with grind [textOf]

end Act

@[grind ←] theorem placeFor_steady {items : Array (Value × Value)} {steps low high : Nat} :
    Steady (placeFor v items steps low high) := by
  induction steps generalizing low high with grind [placeFor]

@[grind ←] theorem insertSorted_steady {items : List (Value × Value)} {sorted : Array (Value × Value)} :
    Steady (insertSorted items sorted) := by
  induction items generalizing sorted with grind [insertSorted]

@[grind ←] theorem window_steady {bounds : List Value} : Steady (window cs bounds) := by
  unfold window
  extract_lets n place upTo
  have upTo_steady : ∀ start, Steady (upTo start) := by grind
  clear_value upTo
  split <;> grind

@[grind ←] theorem edgeTest_steady {test : List Char → List Char → Bool} : Steady (edgeTest name test cs args) := by
  unfold edgeTest
  refine Act.between_steady.bind (fun given => ?_)
  split
  · extract_lets answer
    have answer_steady : ∀ parts, Steady (answer parts) := by grind
    clear_value answer
    split <;> grind
  · exact .pure _

@[grind ←] theorem stripWith_steady {cut : (Char → Bool) → List Char → List Char} : Steady (stripWith name cut cs args) := by
  grind [stripWith]

@[grind ←] theorem splitText_steady : Steady (splitText cs args) := by
  unfold splitText
  extract_lets listed cut named
  have listed_steady : ∀ parts, Steady (listed parts) := fun _ => Act.newList_steady
  clear_value listed
  have cut_steady : ∀ most, Steady (cut most) := by grind
  clear_value cut
  have named_steady : ∀ u, Steady (named u) := by grind
  clear_value named
  grind

@[grind ←] theorem textsOf_steady {items : List Value} {i : Nat} : Steady (textsOf items i) := by
  fun_induction textsOf items i with grind

@[grind ←] theorem replaceText_steady : Steady (replaceText cs args) := by
  unfold replaceText
  refine Act.between_steady.bind (fun given => ?_)
  split
  · exact Act.textOf_steady.bind (fun old => Act.textOf_steady.bind (fun new => by grind))
  · exact .pure _

@[grind ←] theorem listItems_steady : Steady (listItems a) := by grind [listItems]

@[grind ←] theorem popItemAt_steady : Steady (popItemAt a args) := by
  unfold popItemAt
  refine listItems_steady.bind (fun items => Act.between_steady.bind (fun given => ?_))
  extract_lets taken
  have taken_steady : ∀ place, Steady (taken place) := by grind
  clear_value taken
  split <;> grind

@[grind ←] theorem sortOptions_steady : Steady (sortOptions name args) := by
  unfold sortOptions
  extract_lets option reversed chosen
  have chosen_steady : ∀ u, Steady (chosen u) := by grind
  clear_value chosen
  grind

@[grind ←] theorem findItem_steady {items given : List Value} : Steady (findItem items given) := by
  unfold findItem
  split <;> grind

@[grind ←] theorem dictEntries_steady : Steady (dictEntries a) := by grind [dictEntries]

@[grind ←] theorem setMembers_steady : Steady (setMembers a) := by grind [setMembers]

@[grind ←] theorem insertMembers_steady {members : Array Value} {values : List Value} :
    Steady (insertMembers members values) := by
  induction values generalizing members with grind [insertMembers]

@[grind ←] theorem callTupleMethod_steady {method : Method} {items : List Value} :
    Steady (callTupleMethod method items args) := by
  cases method with grind [callTupleMethod]

end

/-! Builtins. -/

section
variable {v w : Value} {args : Arguments} {name : String} {n : Nat}

@[grind ←] theorem exactly_steady : Steady (exactly name n args) := by grind [exactly]

@[grind ←] theorem atMost_steady : Steady (atMost name n args) := by grind [atMost]

@[grind ←] theorem onlyNamed_steady {names : List String} : Steady (onlyNamed name names args) := by grind [onlyNamed]

@[grind ←] theorem magnitude_steady : Steady (magnitude v) := by grind [magnitude]

@[grind ←] theorem isInstance_steady : Steady (isInstance v w) := by grind [isInstance]

@[grind ←] theorem lengthOf_steady : Steady (lengthOf v) := by grind [lengthOf]

@[grind ←] theorem roundWhole_steady : Steady (roundWhole v) := by cases v with grind [roundWhole]

@[grind ←] theorem roundTo_steady {places : Int} : Steady (roundTo v places) := by cases v with grind [roundTo]

@[grind ←] theorem roundValue_steady : Steady (roundValue args) := by grind [roundValue]

@[grind ←] theorem sumUp_steady {values : List Value} : Steady (sumUp v values) := by
  induction values generalizing v with grind [sumUp]

@[grind ←] theorem baseOf_steady {base : Option Value} : Steady (baseOf base) := by cases base with grind [baseOf]

@[grind ←] theorem makeInt_steady : Steady (makeInt args) := by grind [makeInt]

@[grind ←] theorem makeFloat_steady : Steady (makeFloat args) := by grind [makeFloat]

@[grind ←] theorem makeRange_steady : Steady (makeRange args) := by
  unfold makeRange
  refine Act.noKeywords_steady.bind (fun _ => ?_)
  split <;> grind

@[grind ←] theorem makeEnumerate_steady : Steady (makeEnumerate args) := by
  unfold makeEnumerate
  split <;> grind

@[grind ←] theorem iterators_steady {values : List Value} : Steady (iterators values) := by
  induction values with grind [iterators]

@[grind ←] theorem makeText_steady : Steady (makeText args) := by grind [makeText]

@[grind ←] theorem fieldsOf_steady {params : List String} : Steady (fieldsOf name params n args) := by
  unfold fieldsOf
  extract_lets given made complete single known
  have made_steady : ∀ u, Steady (made u) := fun _ => .pure _
  clear_value made
  have complete_steady : ∀ u, Steady (complete u) := by grind
  clear_value complete
  have single_steady : ∀ u, Steady (single u) := by grind
  clear_value single
  have known_steady : ∀ u, Steady (known u) := by grind
  clear_value known
  grind

@[grind ←] theorem makeInputRequired_steady : Steady (makeInputRequired args) := by grind [makeInputRequired]

@[grind ←] theorem makeRetriable_steady : Steady (makeRetriable args) := by grind [makeRetriable]

@[grind ←] theorem makeError_steady {c : ErrorClass} : Steady (makeError c args) := by grind [makeError]

end

/-! Parts of expressions and statements. -/

section
variable {v w : Value} {found : Entries}

@[grind ←] theorem refuseInRow_steady : Steady (refuseInRow v) := by grind [refuseInRow]

@[grind ←] theorem insertEntries_steady {more : List (Value × Value)} : Steady (insertEntries found more) := by
  induction more generalizing found with grind [insertEntries]

@[grind ←] theorem calledText_steady : Steady (calledText v) := by grind [calledText]

@[grind ←] theorem evalKeywords.refuse_steady : Steady (evalKeywords.refuse v w) := by grind [evalKeywords.refuse]

@[grind ←] theorem evalKeywords.addAll_steady {found : List (String × Value)} {more : List (Value × Value)} :
    Steady (evalKeywords.addAll v found more) := by
  fun_induction evalKeywords.addAll v found more with grind

@[grind ←] theorem convertPiece_steady {conversion : Option Conversion} : Steady (convertPiece v conversion) := by
  unfold convertPiece
  split <;> grind

@[grind ←] theorem catches_steady : Steady (catches v w) := by
  unfold catches
  refine .get (fun h _ => ?_)
  extract_lets c one
  have one_steady : ∀ v, Steady (one v) := by grind
  clear_value one
  split <;> grind

end

end Workflow.Script
