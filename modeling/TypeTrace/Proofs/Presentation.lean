import TypeTrace.CommandLine.Run

/-! # Traces shown in different ways

How the result of a trace is shown has no bearing on what a run does. Commands that differ only in
that end in the same way, change the same files and report the same errors; and commands do so if the
switches that they are made of are the same, those of presentation left out.
-/

namespace TypeTrace.CommandLine

/-- Whether a switch only says how a trace is shown. -/
def Switch.isOfPresentation : Switch → Bool
  | .format | .summaryOnly | .noOutput | .noColour | .verbose => true
  | _ => false

/-! ## Commands without their presentation -/

namespace TraceCommand

variable {c c' : TraceCommand} {given : Given}

/-- A command with nothing said about its presentation. -/
def task (c : TraceCommand) : TraceCommand := { c with presentation := default }

theorem eq_of_task_eq (h : c.task = c'.task) : c' = { c with presentation := c'.presentation } := by
  obtain ⟨root, config, schemas, documents, output, fail, presentation⟩ := c
  cases h
  rfl

theorem task_heed_of_presentation (h : given.switch.isOfPresentation = true) (c : TraceCommand) :
    (c.heed given).task = c.task := by
  obtain ⟨switch, value⟩ := given
  cases switch with
  | format | summaryOnly | noOutput | noColour | verbose => rfl
  | _ => cases h

theorem task_heed (c : TraceCommand) (given : Given) :
    (c.task.heed given).task = (c.heed given).task := by
  obtain ⟨switch, value⟩ := given
  cases switch <;> rfl

/-- The task of a command is made of the switches that are not of presentation. -/
theorem task_foldl_heed (c : TraceCommand) (givens : List Given) :
    (givens.foldl heed c).task =
      (givens.filter fun given => !given.switch.isOfPresentation).foldl
        (fun c given => (c.heed given).task) c.task := by
  induction givens generalizing c with
  | nil => rfl
  | cons given givens ih =>
      rw [List.foldl_cons, ih]
      by_cases h : given.switch.isOfPresentation = true
      · rw [List.filter_cons_of_neg (by simp [h]), task_heed_of_presentation h]
      · rw [List.filter_cons_of_pos (by simp [h]), List.foldl_cons, task_heed]

end TraceCommand

namespace Invocation

/-- The switches that arguments give behind the command, those of presentation left out. -/
def essentials (arguments : List String) : List Given :=
  match (Reading.ofTexts .program arguments).command with
  | some (_, others) =>
    (Reading.ofTexts .trace others).givens.filter fun given => !given.switch.isOfPresentation
  | none => []

theorem early?_ne_trace (form : Form) (r : Reading) (c : TraceCommand) :
    early? form r ≠ some (.trace c) := by
  intro h
  unfold early? at h
  split at h
  · cases h
  · obtain ⟨fault, -, hfault⟩ := Option.map_eq_some_iff.mp h
    cases hfault

theorem exists_of_ofTraceArguments {leftOver texts : List String} {c : TraceCommand}
    (h : ofTraceArguments leftOver texts = .trace c) :
    c = TraceCommand.ofGivens (Reading.ofTexts .trace texts).givens := by
  unfold ofTraceArguments at h
  dsimp only at h
  split at h
  · next hearly => exact absurd (h ▸ hearly) (early?_ne_trace _ _ _)
  · cases h
  · split at h
    · cases h
      rfl
    · cases h

/-- The task of a command that arguments ask for is made of their essential switches. -/
theorem task_of_ofArguments {arguments : List String} {c : TraceCommand}
    (h : ofArguments arguments = .trace c) :
    c.task = (essentials arguments).foldl (fun c given => (c.heed given).task)
      TraceCommand.unspecified.task := by
  unfold ofArguments at h
  unfold essentials
  dsimp only at h
  split at h
  · next hearly => exact absurd (h ▸ hearly) (early?_ne_trace _ _ _)
  · cases h
  · next name others _ hcommand =>
    split at h
    · rw [exists_of_ofTraceArguments h, hcommand]
      exact TraceCommand.task_foldl_heed _ _
    · cases h

theorem task_eq_of_essentials {arguments arguments' : List String} {c c' : TraceCommand}
    (hasks : ofArguments arguments = .trace c) (hasks' : ofArguments arguments' = .trace c')
    (h : essentials arguments = essentials arguments') : c.task = c'.task := by
  rw [task_of_ofArguments hasks, task_of_ofArguments hasks', h]

end Invocation

/-! ## Runs -/

/-- Two runs have done the same, and it ended in the same way. -/
structure Outcome.DidAlike (outcome outcome' : Outcome) : Prop where
  ending : outcome.ending = outcome'.ending
  errors : outcome.errors = outcome'.errors
  changes : outcome.changes = outcome'.changes
  files : outcome.files = outcome'.files

namespace TraceCommand

variable {naming : AtomicWrite.Naming} {files : FileTree} {terminal terminal' : Bool}

theorem didAlike_deliver (c : TraceCommand) (p : Presentation) (notices notices' : List Notice)
    (config : Config) (r : TraceResult) :
    (c.deliver naming files terminal notices config r).DidAlike
      ({ c with presentation := p }.deliver naming files terminal' notices' config r) := by
  have hwrite : { c with presentation := p }.writeReport naming r = c.writeReport naming r := rfl
  unfold deliver
  rw [hwrite]
  generalize AtomicWrite.run files (c.writeReport naming r) = result
  obtain ⟨after, changes, written⟩ := result
  cases written with
  | error fault => cases fault <;> exact ⟨rfl, rfl, rfl, rfl⟩
  | ok _ => exact ⟨rfl, rfl, rfl, rfl⟩

theorem didAlike_runFrom (c : TraceCommand) (p : Presentation) (root : Path) :
    (c.runFrom naming files terminal root).DidAlike
      ({ c with presentation := p }.runFrom naming files terminal' root) := by
  have htrace : { c with presentation := p }.trace files root [] = c.trace files root [] := rfl
  unfold runFrom
  dsimp only
  rw [htrace]
  split
  · cases c.trace files root [] with
    | ok traced notices =>
        obtain ⟨config, r⟩ := traced
        exact c.didAlike_deliver p _ _ config r
    | error fault notices =>
        dsimp only
        cases report? fault with
        | none => exact ⟨rfl, rfl, rfl, rfl⟩
        | some report => exact ⟨rfl, rfl, rfl, rfl⟩
  · exact ⟨rfl, rfl, rfl, rfl⟩

theorem didAlike_run (c : TraceCommand) (p : Presentation) :
    (c.run naming files terminal).DidAlike
      ({ c with presentation := p }.run naming files terminal') := by
  unfold run
  cases files.settle c.root with
  | error fault => exact ⟨rfl, rfl, rfl, rfl⟩
  | ok root => exact c.didAlike_runFrom p root

end TraceCommand

/-- Command lines that ask for the same, however it is to be shown, and wherever the output goes, lead
to runs that do the same and end in the same way. -/
theorem presentation_changes_nothing {naming : AtomicWrite.Naming} {files : FileTree}
    {terminal terminal' : Bool} {arguments arguments' : List String} {c c' : TraceCommand}
    (hasks : Invocation.ofArguments arguments = .trace c)
    (hasks' : Invocation.ofArguments arguments' = .trace c') (hsame : c.task = c'.task) :
    (run naming files terminal arguments).DidAlike (run naming files terminal' arguments') := by
  have hpresented := TraceCommand.eq_of_task_eq hsame
  rw [run, run, hasks, hasks', hpresented]
  exact c.didAlike_run c'.presentation

def kiosk : FileTree where
  entries :=
    [(["kiosk"], .directory),
     (["kiosk", "types.graphql"], .file "type Query { paper: Query }".toUTF8.toList),
     (["kiosk", "ask.graphql"], .file "{ paper { tea } }".toUTF8.toList)]
  current := ["kiosk"]

def plainArguments : List String :=
  ["trace", "-r", ".", "-s", "types.graphql", "-d", "ask.graphql", "-o", "out", "--fail-on-unresolved"]

def variedArguments : List String :=
  ["trace", "--format=json", "-vr", ".", "-s", "types.graphql", "--summary", "-d", "ask.graphql",
   "--no-stdout", "-oout", "--no-color", "--fail-on-unresolved"]

/-- A run on a terminal and a silent one both write the report and end with 1. -/
theorem presentation_changes_nothing_in_kiosk :
    ∃ c c', Invocation.ofArguments plainArguments = .trace c ∧
      Invocation.ofArguments variedArguments = .trace c' ∧ c.task = c'.task ∧ c ≠ c' ∧
      (run .counting kiosk true plainArguments).ending.toOption = some 1 ∧
      (run .counting kiosk true plainArguments).changes.length = 4 ∧
      (run .counting kiosk true plainArguments).DidAlike (run .counting kiosk false variedArguments) := by
  let c : TraceCommand :=
    ⟨Path.ofText ".", none, [Path.ofText "types.graphql"], [Path.ofText "ask.graphql"],
      some (Path.ofText "out"), true, ⟨false, false, false, false, false⟩⟩
  let c' : TraceCommand := { c with presentation := ⟨true, true, true, true, true⟩ }
  have hasks : Invocation.ofArguments plainArguments = .trace c := by decide +kernel
  have hasks' : Invocation.ofArguments variedArguments = .trace c' := by decide +kernel
  have hessentials : Invocation.essentials plainArguments = Invocation.essentials variedArguments := by
    decide +kernel
  have hsame := Invocation.task_eq_of_essentials hasks hasks' hessentials
  have hcode : (run .counting kiosk true plainArguments).ending.toOption = some 1 := by decide +kernel
  have hchanges : (run .counting kiosk true plainArguments).changes.length = 4 := by decide +kernel
  exact ⟨c, c', hasks, hasks', hsame, by simp [c, c'], hcode, hchanges,
    presentation_changes_nothing hasks hasks' hsame⟩

end TypeTrace.CommandLine
