namespace ChainGateway.Cli

inductive Stop where
  | misuse
  | version
  | help
deriving DecidableEq, Repr

structure ValuedOption where
  name : String
  accepts : String → Bool

structure Level where
  valued : List ValuedOption
  switches : List String
  /-- Does a first argument without dashes end the level? -/
  outermost : Bool

structure Given where
  values : List (String × String)
  switches : List String
  positionals : List String
deriving DecidableEq, Repr

inductive Argument where
  | positional (text : String)
  | option (name : String) (value : Option String)
  | letters (letters : List Char)
  | terminator
deriving DecidableEq, Repr

def Argument.ofText (s : String) : Argument :=
  match s.toList with
  | ['-', '-'] => .terminator
  | '-' :: '-' :: r =>
    match r.span (· != '=') with
    | (name, _ :: value) => .option (String.ofList name) (some (String.ofList value))
    | (name, []) => .option (String.ofList name) none
  | '-' :: c :: r => .letters (c :: r)
  | _ => .positional s

namespace Given

def empty : Given := ⟨[], [], []⟩

def value? (g : Given) (name : String) : Option String := g.values.lookup name

def switch (g : Given) (name : String) : Bool := g.switches.contains name

def pushValue (g : Given) (o : ValuedOption) (value : String) : Except Stop Given :=
  if (g.value? o.name).isSome || ! o.accepts value then .error .misuse
  else .ok { g with values := (o.name, value) :: g.values }

def pushSwitch (g : Given) (name : String) : Except Stop Given :=
  if g.switch name then .error .misuse else .ok { g with switches := name :: g.switches }

def pushPositionals (g : Given) (texts : List String) : Given :=
  { g with positionals := g.positionals ++ texts }

end Given

namespace Level

def request (l : Level) (name : String) : Stop :=
  if name = "help" then .help
  else if name = "version" ∧ l.outermost then .version
  else .misuse

def requestOfLetter (l : Level) (letter : Option Char) : Stop :=
  if letter = some 'h' then .help
  else if letter = some 'V' ∧ l.outermost then .version
  else .misuse

/-- Read the arguments of a level, of which an option may wait for its value. The arguments from the
one that ends the level are left. -/
def read (l : Level) (waiting : Option ValuedOption) (g : Given) :
    List String → Except Stop (Given × List String)
  | [] => if waiting.isSome then .error .misuse else .ok (g, [])
  | text :: rest =>
    match Argument.ofText text, waiting with
    | .positional value, some o => do read l none (← g.pushValue o value) rest
    | _, some _ => .error .misuse
    | .positional text, none =>
      if l.outermost then .ok (g, text :: rest) else read l none (g.pushPositionals [text]) rest
    | .terminator, none =>
      if l.outermost then .error .misuse else .ok (g.pushPositionals rest, [])
    | .letters letters, none => .error (l.requestOfLetter letters.head?)
    | .option name value, none =>
      match l.valued.find? (·.name = name), value with
      | some o, some value => do read l none (← g.pushValue o value) rest
      | some o, none => read l (some o) g rest
      | none, some _ => .error .misuse
      | none, none =>
        if l.switches.contains name then do read l none (← g.pushSwitch name) rest
        else .error (l.request name)

end Level

end ChainGateway.Cli
