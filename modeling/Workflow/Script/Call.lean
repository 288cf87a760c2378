import Workflow.Script.Scope

/-! How the arguments of a call fill the parameters of a function. -/

namespace Workflow.Script

namespace Params

def positionalNames (p : Params) : List String := (p.positionalOnly ++ p.positional).map Param.name

def keywordNames (p : Params) : List String := (p.positional ++ p.keywordOnly).map Param.name

end Params

/-- Names in quotes, joined as a sentence joins them. -/
def enumerated (names : List String) : String :=
  match names.reverse.map (fun n => s!"'{n}'") with
  | [] => ""
  | [one] => one
  | [last, first] => s!"{first} and {last}"
  | last :: others => s!"{commas others.reverse}, and {last}"

namespace Act

def missing (name kind : String) (names : List String) : Act α :=
  let s := if names.length == 1 then "" else "s"
  typeError
    s!"{name}() missing {names.length} required {kind} argument{s}: {enumerated names}"

def tooMany (f : Function) (given keywordOnly : Nat) : Act α :=
  let most := f.params.positionalNames.length
  let least := most - f.defaults.length
  let s := if most == 1 && f.defaults.isEmpty then "" else "s"
  let takes := if f.defaults.isEmpty then s!"{most}" else s!"from {least} to {most}"
  let were := if given == 1 && keywordOnly == 0 then "was" else "were"
  let t := if given == 1 then "" else "s"
  let u := if keywordOnly == 1 then "" else "s"
  let also := if keywordOnly == 0 then ""
    else s!" positional argument{t} (and {keywordOnly} keyword-only argument{u})"
  typeError
    s!"{f.name}() takes {takes} positional argument{s} but {given}{also} {were} given"

/-- Keyword arguments by name: those that fill parameters, and those left over. -/
def placeKeywords (f : Function) (filled : List (String × Value)) :
    (named extra : List (String × Value)) → Act (List (String × Value) × List (String × Value))
  | [], extra => return (filled, extra.reverse)
  | (name, v) :: rest, extra => do
    if f.params.keywordNames.contains name then
      if filled.any (·.1 == name) then
        typeError s!"{f.name}() got multiple values for argument '{name}'"
      else placeKeywords f (filled ++ [(name, v)]) rest extra
    else if f.params.keywordRest.isSome then placeKeywords f filled rest ((name, v) :: extra)
    else if (f.params.positionalOnly.map Param.name).contains name then
      typeError (s!"{f.name}() got some positional-only arguments passed as keyword " ++
        s!"arguments: '{name}'")
    else typeError s!"{f.name}() got an unexpected keyword argument '{name}'"

def fillParams (f : Function) (args : List Value) (named : List (String × Value)) :
    Act (List (String × Value)) := do
  let names := f.params.positionalNames
  let (filled, extra) ← placeKeywords f (names.zip args) named []
  if args.length > names.length && f.params.rest.isNone then
    let keywordOnly := (f.params.keywordOnly.map Param.name).filter
      (fun n => filled.any (·.1 == n))
    tooMany f args.length keywordOnly.length
  let required := names.length - f.defaults.length
  let absent := fun n => !filled.any (·.1 == n)
  let lacking := (names.take required).filter absent
  if !lacking.isEmpty then missing f.name "positional" lacking
  let usual := ((names.drop required).zip f.defaults).filter (fun (n, _) => absent n)
  let options := (f.params.keywordOnly.map Param.name).zip f.keywordDefaults
  let lacking := (options.filter (fun (n, v) => v.isNone && absent n)).map (·.1)
  if !lacking.isEmpty then missing f.name "keyword-only" lacking
  let usualOptions := options.filterMap (fun (n, v) => if absent n then v.map (n, ·) else none)
  let rest := f.params.rest.toList.map
    (fun p => (p.name, Value.tuple (args.drop names.length)))
  let others ← match f.params.keywordRest with
    | some p => do
      let entries := (extra.map (fun (n, v) => (Value.str n, v))).toArray
      pure [(p.name, ← newDict entries)]
    | none => pure []
  return filled ++ usual ++ usualOptions ++ rest ++ others

end Act

end Workflow.Script
