import TypeTrace.CommandLine.Switch
import TypeTrace.Text.Digit
import TypeTrace.Text.Quoted

/-!
# Reading arguments

Arguments are read in two steps. First each of them is told apart: a switch, something that looks like
a switch and is none, or a plain argument. Then switches are taken with their values in the order in
which they stand, up to the first fault; what nothing takes is left over.

A switch is known by any of its names. A long name may be cut short as long as one switch only is
meant, and takes a value behind an equals sign too. Short names may share a dash; the last of them may
have its value right behind it.
-/

namespace TypeTrace.CommandLine

inductive UsageFault where
  | ambiguous (text : String) (names : List String)
  | noValue (switch : Switch)
  | needlessValue (switch : Switch) (value : String)
  | badChoice (title value : String) (choices : List String)
  | missing (titles : List String)
  | leftOver (texts : List String)
deriving DecidableEq

def UsageFault.message : UsageFault → String
  | ambiguous text names =>
    "ambiguous option: " ++ text ++ " could match " ++ String.intercalate ", " names
  | noValue switch => "argument " ++ switch.title ++ ": expected one argument"
  | needlessValue switch value =>
    "argument " ++ switch.title ++ ": ignored explicit argument " ++ Text.quoted value
  | badChoice title value choices =>
    "argument " ++ title ++ ": invalid choice: " ++ Text.quoted value ++ " (choose from "
      ++ String.intercalate ", " (choices.map Text.quoted) ++ ")"
  | missing titles =>
    "the following arguments are required: " ++ String.intercalate ", " titles
  | leftOver texts => "unrecognized arguments: " ++ String.intercalate " " texts

/-! ### Telling arguments apart -/

/-- What an argument is: a switch by a long name, perhaps with a value, or by a short one with all that
stands behind it, something that only looks like a switch, a plain argument, or the divider behind
which all arguments are plain. -/
inductive Meaning where
  | long (switch : Switch) (value : Option String)
  | short (switch : Switch) (behind : List Char)
  | unknown
  | plain
  | divider
deriving DecidableEq

structure Argument where
  text : String
  meaning : Meaning
deriving DecidableEq

def named? (known : List Switch) (name : String) : Option Switch :=
  known.find? fun s => s.names.contains name

/-- Whether characters form a number with a minus sign, with or without a point. One line feed may
follow. -/
def isNegativeNumber (cs : List Char) : Bool :=
  let body := if cs.getLast? = some '\n' then cs.dropLast else cs
  let digits (ds : List Char) := !ds.isEmpty && ds.all Text.isDigit
  match body with
  | '-' :: number =>
    digits number ||
      match number.dropWhile Text.isDigit with
      | '.' :: fraction => digits fraction
      | _ => false
  | _ => false

/-- What an argument that has no name of its own means: unless it is a number or holds a blank, it was
meant to be a switch. -/
def meaningOfOther (cs : List Char) : Meaning :=
  if isNegativeNumber cs || cs.contains ' ' then .plain else .unknown

def splitAtEquals (cs : List Char) : List Char × Option String :=
  match cs.dropWhile (· ≠ '=') with
  | _ :: value => (cs.takeWhile (· ≠ '='), some (String.ofList value))
  | [] => (cs, none)

/-- The names that a long name can stand for when it has been cut short, each with its switch. -/
def completions (known : List Switch) (stem : List Char) : List (String × Switch) :=
  known.flatMap fun s =>
    (s.names.filter fun name => stem.isPrefixOf name.toList).map fun name => (name, s)

/-- What an argument with two dashes means. A name in full stands for itself. -/
def meaningOfLong (known : List Switch) (cs : List Char) : Except UsageFault Meaning :=
  let (stem, value) := splitAtEquals cs
  match named? known (String.ofList stem) with
  | some s => .ok (.long s value)
  | none =>
    match completions known stem with
    | [] => .ok (meaningOfOther cs)
    | [(_, s)] => .ok (.long s value)
    | several => .error (.ambiguous (String.ofList cs) (several.map Prod.fst))

/-- What an argument means that begins with a dash and a character that is none. -/
def meaningOfShort (known : List Switch) (c : Char) (cs : List Char) : Meaning :=
  match named? known (String.ofList ['-', c]) with
  | some s => .short s cs
  | none => meaningOfOther ('-' :: c :: cs)

def meaningOf (known : List Switch) (text : String) : Except UsageFault Meaning :=
  match text.toList with
  | '-' :: '-' :: cs => meaningOfLong known ('-' :: '-' :: cs)
  | '-' :: c :: cs => .ok (meaningOfShort known c cs)
  | _ => .ok .plain

def tellApart (known : List Switch) : List String → Except UsageFault (List Argument)
  | [] => .ok []
  | text :: texts =>
    if text = "--" then .ok (⟨text, .divider⟩ :: texts.map fun text => ⟨text, .plain⟩)
    else do
      let meaning ← meaningOf known text
      return ⟨text, meaning⟩ :: (← tellApart known texts)

/-! ### Taking switches -/

structure Given where
  switch : Switch
  value : Option String
deriving DecidableEq

/-- What an argument with a switch gives: switches, perhaps a rest that nothing takes, and whether the
next argument is the value of the last switch. -/
structure Bundle where
  givens : List Given
  rest : Option String
  takesNext : Bool
deriving DecidableEq

def bare (next : Option String) (s : Switch) : Except UsageFault Bundle :=
  if s.takesValue then
    match next with
    | some value => .ok ⟨[⟨s, some value⟩], none, true⟩
    | none => .error (.noValue s)
  else .ok ⟨[⟨s, none⟩], none, false⟩

def Bundle.after (s : Switch) (bundle : Bundle) : Bundle :=
  { bundle with givens := ⟨s, none⟩ :: bundle.givens }

/-- What a short name gives with what stands behind it: its value, with or without an equals sign
before it, or more short names. -/
def unbundle (known : List Switch) (next : Option String) (s : Switch) :
    List Char → Except UsageFault Bundle
  | [] => bare next s
  | c :: cs =>
    if s.takesValue then
      .ok ⟨[⟨s, some (String.ofList (if c = '=' then cs else c :: cs))⟩], none, false⟩
    else if c = '=' then .error (.needlessValue s (String.ofList cs))
    else if c = '-' then .error (.needlessValue s (String.ofList (c :: cs)))
    else
      match named? known (String.ofList ['-', c]) with
      | some t => (unbundle known next t cs).map (Bundle.after s)
      | none => .ok ⟨[⟨s, none⟩], some (String.ofList ('-' :: c :: cs)), false⟩

def ofLong (next : Option String) (s : Switch) : Option String → Except UsageFault Bundle
  | none => bare next s
  | some value =>
    if s.takesValue then .ok ⟨[⟨s, some value⟩], none, false⟩ else .error (.needlessValue s value)

/-- What an argument gives to a form, with the next plain argument to draw on; nothing, if it is no
switch. -/
def Argument.bundle? (known : List Switch) (next : Option String) (argument : Argument) :
    Option (Except UsageFault Bundle) :=
  match argument.meaning with
  | .long s value => some (ofLong next s value)
  | .short s behind => some (unbundle known next s behind)
  | _ => none

def Given.fault? (given : Given) : Option UsageFault :=
  match given.switch.choices?, given.value with
  | some choices, some value =>
    if choices.contains value then none
    else some (.badChoice given.switch.title value choices)
  | _, _ => none

/-- What reading arguments has led to: the switches that were given before any fault, what has been
left over, the command with all that stands behind it, and the fault. -/
structure Reading where
  givens : List Given
  leftOver : List String
  command : Option (String × List String)
  fault : Option UsageFault
deriving DecidableEq

namespace Reading

def empty : Reading := ⟨[], [], none, none⟩

def refused (fault : UsageFault) : Reading := { empty with fault := some fault }

def afterLeftOver (texts : List String) (r : Reading) : Reading :=
  { r with leftOver := texts ++ r.leftOver }

/-- A reading with switches before it, as far as their values are among those to choose from. -/
def afterGivens : List Given → Reading → Reading
  | [], r => r
  | given :: givens, r =>
    match given.fault? with
    | some fault => refused fault
    | none =>
      let r := afterGivens givens r
      { r with givens := given :: r.givens }

def nextValue? : List Argument → Option String
  | ⟨text, .plain⟩ :: _ => some text
  | _ => none

/-- Whether a form takes an argument as the beginning of its command: the divider too, if anything
stands behind it. -/
def beginsCommand (form : Form) (argument : Argument) (others : List Argument) : Bool :=
  !form.commands.isEmpty &&
    (argument.meaning = .plain || (argument.meaning = .divider && !others.isEmpty))

/-- Reads arguments for a form, passing over the first one if it is `spoken` for. -/
def ofArguments (form : Form) (spoken : Bool) : List Argument → Reading
  | [] => empty
  | argument :: others =>
    if spoken then ofArguments form false others
    else
      match argument.bundle? form.switches (nextValue? others) with
      | some (.error fault) => refused fault
      | some (.ok bundle) =>
        afterGivens bundle.givens
          ((ofArguments form bundle.takesNext others).afterLeftOver bundle.rest.toList)
      | none =>
        if beginsCommand form argument others then
          { empty with command := some (argument.text, others.map Argument.text) }
        else (ofArguments form false others).afterLeftOver [argument.text]

def ofTexts (form : Form) (texts : List String) : Reading :=
  match tellApart form.switches texts with
  | .error fault => refused fault
  | .ok arguments => ofArguments form false arguments

end Reading

end TypeTrace.CommandLine
