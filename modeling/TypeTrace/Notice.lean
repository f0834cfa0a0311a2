/-!
# Notices

What a run has to say besides its result: a list of notices, each with a level. Which levels are shown
is up to the reader.
-/

namespace TypeTrace

inductive Level where
  | debug | info | warning
deriving DecidableEq, Inhabited

namespace Level

def text : Level → String
  | debug => "DEBUG"
  | info => "INFO"
  | warning => "WARNING"

def rank : Level → Nat
  | debug => 0
  | info => 1
  | warning => 2

end Level

inductive Notice where
  | noConfig (path : String)
  | schemaBuilt (files types : Nat)
  | tooLarge (path : String) (limit : Int)
  | discovered (count : Nat) (root : String)
  | unresolved (path : String) (count : Nat)
  | traced (count : Nat)
deriving DecidableEq, Inhabited

namespace Notice

def level : Notice → Level
  | tooLarge .. => .warning
  | traced .. => .info
  | _ => .debug

def message : Notice → String
  | noConfig path => "No config file at " ++ path ++ ", using defaults"
  | schemaBuilt files types =>
    "Built schema from " ++ toString files ++ " file(s) with " ++ toString types ++ " types"
  | tooLarge path limit => "Skipping " ++ path ++ ": larger than " ++ toString limit ++ " KB"
  | discovered count root => "Discovered " ++ toString count ++ " document(s) under " ++ root
  | unresolved path count => path ++ ": " ++ toString count ++ " unresolved reference(s)"
  | traced count => "Traced " ++ toString count ++ " document(s)"

def line (n : Notice) : String := n.level.text ++ " " ++ n.message

end Notice

/-- A computation that leaves notices, first one first, and may fail; the notices outlive a failure. -/
abbrev Noting (ε α : Type) := EStateM ε (List Notice) α

namespace Noting

variable {ε ε' α : Type}

def note (n : Notice) : Noting ε Unit := modify (· ++ [n])

def lift (f : ε → ε') : Except ε α → Noting ε' α
  | .ok a => pure a
  | .error e => throw (f e)

def mapError (f : ε → ε') (x : Noting ε α) : Noting ε' α := fun notices =>
  match x notices with
  | .ok a notices => .ok a notices
  | .error e notices => .error (f e) notices

end Noting

end TypeTrace
