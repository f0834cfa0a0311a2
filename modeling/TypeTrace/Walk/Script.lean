import TypeTrace.Context.Observer

/-!
# Scripted observers

A script makes an observer out of data: which hooks it has, and rules that decide its answers. Every
hook that is called is logged with the scope at that moment.
-/

namespace TypeTrace.Script

structure Snapshot where
  event : Event
  kind : Kind
  label : Option String
  scope : Scope

/-- A rule: at which nodes it matches, which of its matches act (all, if no number is given), and
how. -/
structure Rule where
  event : Event
  kind : String
  label : Option String
  nth : Option Nat
  reply : Reply

def Rule.fits (rule : Rule) (event : Event) (node : Node) : Bool :=
  rule.event == event && rule.kind == node.kind.text &&
    match rule.label with
    | none => true
    | some label => node.label == some label

/-- The hooks of an observer, by name: a moment alone, or a moment and a kind. -/
structure Hooks where
  names : List String

namespace Hooks

def answers (hooks : Hooks) (event : Event) (kind : Kind) : Bool :=
  hooks.names.contains (event.text ++ "_" ++ kind.text) || hooks.names.contains event.text

def kindOf? (name : String) : Option String :=
  match name.splitOn "_" with
  | event :: first :: rest =>
    if event = "enter" ∨ event = "leave" then
      let kind := String.intercalate "_" (first :: rest)
      if kind.isEmpty then none else some kind
    else none
  | _ => none

def unknownKind? (hooks : Hooks) : Option String :=
  (hooks.names.filterMap kindOf?).find? fun kind => !Kind.namesHook kind

end Hooks

/-- The log, last call first, and the rules with the number of their matches so far. -/
structure State where
  log : List Snapshot
  rules : List (Rule × Nat)

/-- Goes through the rules: the first that acts decides, and the rules behind it do not see the
node. -/
def decide (event : Event) (node : Node) : List (Rule × Nat) → Reply × List (Rule × Nat)
  | [] => (.proceed, [])
  | (rule, matched) :: rules =>
    if rule.fits event node then
      let matched := matched + 1
      if rule.nth.all (· == matched) then (rule.reply, (rule, matched) :: rules)
      else
        let (reply, rules) := decide event node rules
        (reply, (rule, matched) :: rules)
    else
      let (reply, rules) := decide event node rules
      (reply, (rule, matched) :: rules)

def hook (hooks : Hooks) (event : Event) (node : Node) (c : TypeContext) (s : State) :
    Reply × State :=
  if hooks.answers event node.kind then
    let (reply, rules) := decide event node s.rules
    (reply, ⟨⟨event, node.kind, node.label, c.scope⟩ :: s.log, rules⟩)
  else (.proceed, s)

def observer (hooks : Hooks) : Observer State where
  enter := hook hooks .enter
  leave := hook hooks .leave

def State.initial (rules : List Rule) : State := ⟨[], rules.map (·, 0)⟩

end TypeTrace.Script
