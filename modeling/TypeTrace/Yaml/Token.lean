import TypeTrace.Yaml.Mark

/-!
# YAML tokens

The words and marks of a YAML text. Where indentation opens and closes collections there are tokens
for it too.
-/

namespace TypeTrace.Yaml

inductive Directive where
  | version (major minor : Nat)
  | tag (handle stem : String)
  | other (name : String)
deriving DecidableEq

/-- What a token is. A key is `written` if it has its own question mark; a scalar is `plain` if it is
not quoted. -/
inductive TokenSort where
  | directive (value : Directive)
  | documentStart | documentEnd | streamEnd
  | blockSequenceStart | blockMappingStart | blockEnd
  | flowSequenceStart | flowSequenceEnd | flowMappingStart | flowMappingEnd
  | flowEntry | blockEntry | key (written : Bool) | value
  | «alias» (name : String)
  | anchor (name : String)
  | tag (handle : Option String) (suffix : String)
  | scalar (plain : Bool) (text : String)
deriving DecidableEq

def TokenSort.text : TokenSort → String
  | directive _ => "<directive>"
  | documentStart => "<document start>"
  | documentEnd => "<document end>"
  | streamEnd => "<stream end>"
  | blockSequenceStart => "<block sequence start>"
  | blockMappingStart => "<block mapping start>"
  | blockEnd => "<block end>"
  | flowSequenceStart => "["
  | flowSequenceEnd => "]"
  | flowMappingStart => "\x7b"
  | flowMappingEnd => "\x7d"
  | flowEntry => ","
  | blockEntry => "-"
  | key _ => "?"
  | value => ":"
  | «alias» _ => "<alias>"
  | anchor _ => "<anchor>"
  | tag .. => "<tag>"
  | scalar .. => "<scalar>"

structure Token where
  sort : TokenSort
  mark : Mark
deriving DecidableEq

/-- The place behind a token of one character, where something is missed that should follow it. A key
without a question mark takes no room. -/
def Token.behind (t : Token) : Mark :=
  match t.sort with
  | .key false => t.mark
  | _ => t.mark.next

end TypeTrace.Yaml
