import TypeTrace.Yaml.Tag

/-!
# YAML trees

A document as a tree: scalars with their texts, sequences and mappings. An alias stands for a copy of
the node that has the anchor; an alias within the collection that it stands for is a loop.
-/

namespace TypeTrace.Yaml

inductive NodeSort where
  | scalar | sequence | mapping
deriving DecidableEq, Inhabited

def NodeSort.text : NodeSort → String
  | scalar => "scalar"
  | sequence => "sequence"
  | mapping => "mapping"

inductive Node where
  | scalar (tag : Tag) (mark : Mark) (text : String)
  | sequence (tag : Tag) (mark : Mark) (items : List Node)
  | mapping (tag : Tag) (mark : Mark) (entries : List (Node × Node))
  | loop (sort : NodeSort) (tag : Tag) (mark : Mark)
deriving Inhabited

namespace Node

def tag : Node → Tag
  | scalar tag .. | sequence tag .. | mapping tag .. | loop _ tag _ => tag

def mark : Node → Mark
  | scalar _ mark _ | sequence _ mark _ | mapping _ mark _ | loop _ _ mark => mark

def sort : Node → NodeSort
  | scalar .. => .scalar
  | sequence .. => .sequence
  | mapping .. => .mapping
  | loop sort .. => sort

end Node

end TypeTrace.Yaml
