import TypeTrace.CommandLine.Run
import TypeTrace.Proofs.Notice
import TypeTrace.Proofs.Report.Reading
import TypeTrace.Proofs.Results

/-! # What an exit code tells

A run that makes a trace either says what is wrong and leaves all files as they were, or has a result.
With a result the report is in its file, if one was wanted, or the run says why it is not; and the exit
code, what is printed and what is written go by the same result.
-/

namespace TypeTrace.CommandLine

/-- A run has done nothing but say what is wrong. -/
structure Outcome.OnlySays (outcome : Outcome) (files : FileTree) (message : String) : Prop where
  output : outcome.output = ""
  errors : outcome.errors = [message]
  changes : outcome.changes = []
  files : outcome.files = files

variable {naming : AtomicWrite.Naming} {c : TraceCommand} {files : FileTree} {root : Path}
  {terminal : Bool}

namespace TraceCommand

/-! ## Settings and results -/

theorem settings_of_load_error {fault : Config.Fault} {notices : List Notice}
    (h : Config.load files root c.config [] = .error fault notices) :
    c.settings files root [] = .error (.config fault) notices :=
  Stateful.bind_error (Noting.mapError_eq_error.mpr ⟨fault, h, rfl⟩)

theorem failOnUnresolved_of_settings {loaded config : Config} {noted notices : List Notice}
    (hload : Config.load files root c.config [] = .ok loaded noted)
    (h : c.settings files root [] = .ok config notices) :
    config.failOnUnresolved = (loaded.failOnUnresolved || c.failOnUnresolved) := by
  obtain ⟨read, t, hread, h⟩ := Stateful.exists_of_bind_eq_ok h
  cases hload.symm.trans (Noting.mapError_eq_ok.mp hread)
  cases h
  cases hflag : c.failOnUnresolved <;> simp

theorem exists_of_trace {config : Config} {r : TraceResult} {notices : List Notice}
    (h : c.trace files root [] = .ok (config, r) notices) :
    ∃ noted, c.settings files root [] = .ok config noted := by
  obtain ⟨settings, t, hsettings, h⟩ := Stateful.exists_of_bind_eq_ok h
  obtain ⟨result, u, -, h⟩ := Stateful.exists_of_bind_eq_ok h
  cases h
  exact ⟨t, hsettings⟩

theorem trace_of_settings_error {fault : Workspace.Fault} {notices : List Notice}
    (h : c.settings files root [] = .error fault notices) :
    c.trace files root [] = .error fault notices :=
  Stateful.bind_error h

theorem trace_of_workspace_error {config : Config} {noted notices : List Notice}
    {fault : Workspace.Fault} (hsettings : c.settings files root [] = .ok config noted)
    (h : Workspace.trace files ⟨root, c.schemas, c.documents⟩ config noted =
      .error fault notices) :
    c.trace files root [] = .error fault notices := by
  rw [trace, Stateful.bind_ok hsettings]
  exact Stateful.bind_error h

end TraceCommand

/-! ## Faults -/

/-- A computation does not fail because of settings. -/
def SparesSettings {α : Type} (x : Noting Workspace.Fault α) : Prop :=
  ∀ start fault notices, x start = .error fault notices → ∀ cause, fault ≠ .config cause

theorem SparesSettings.bind {α β : Type} {x : Noting Workspace.Fault α}
    {next : α → Noting Workspace.Fault β} (h : SparesSettings x)
    (hnext : ∀ a, SparesSettings (next a)) : SparesSettings (x >>= next) := by
  intro start fault notices hfault
  rcases Stateful.of_bind_eq_error hfault with hx | ⟨a, t, -, hrest⟩
  · exact h start fault notices hx
  · exact hnext a t fault notices hrest

theorem sparesSettings_mapError {ε α : Type} {f : ε → Workspace.Fault}
    (hf : ∀ e cause, f e ≠ .config cause) (x : Noting ε α) : SparesSettings (x.mapError f) := by
  intro start fault notices h
  obtain ⟨cause, -, rfl⟩ := Noting.mapError_eq_error.mp h
  exact hf cause

theorem sparesSettings_lift {ε α : Type} {f : ε → Workspace.Fault}
    (hf : ∀ e cause, f e ≠ .config cause) (x : Except ε α) : SparesSettings (Noting.lift f x) := by
  intro start fault notices h
  obtain ⟨cause, -, rfl⟩ := Noting.lift_eq_error h
  exact hf cause

theorem sparesSettings_note (n : Notice) : SparesSettings (Noting.note n) := by
  intro start fault notices h
  cases h

theorem sparesSettings_trace (files : FileTree) (request : Workspace.Request) (config : Config) :
    SparesSettings (Workspace.trace files request config) := by
  refine (sparesSettings_lift (by simp) _).bind fun root => ?_
  refine (sparesSettings_mapError (by simp) _).bind fun schema => ?_
  refine (sparesSettings_mapError (by simp) _).bind fun documents => ?_
  refine (sparesSettings_mapError (by simp) _).bind fun traces => ?_
  refine (sparesSettings_note _).bind fun _ => (sparesSettings_lift (by simp) _).bind fun resolved => ?_
  intro start fault notices h
  cases h

/-- A fault that is reported and does not come from settings is reported as one of the trace. -/
theorem report?_eq_of_trace {fault : Workspace.Fault} {code : Nat} {words : String}
    (hfault : ∀ cause, fault ≠ .config cause) (h : report? fault = some (code, words)) :
    code = 1 ∧ words = "Trace error: " := by
  cases fault with
  | config cause => exact absurd rfl (hfault cause)
  | path cause => cases h
  | pattern cause => cases h
  | schema cause => cases cause <;> cases h <;> exact ⟨rfl, rfl⟩
  | document cause => cases cause <;> cases h <;> exact ⟨rfl, rfl⟩

theorem report?_eq_of_config {cause : Config.Fault} {code : Nat} {words : String}
    (h : report? (.config cause) = some (code, words)) :
    code = 2 ∧ words = "Configuration error: " := by
  cases cause <;> cases h <;> exact ⟨rfl, rfl⟩

namespace TraceCommand

theorem run_of_settle (h : files.settle c.root = .ok root) :
    c.run naming files terminal = c.runFrom naming files terminal root := by
  rw [run, h]

theorem onlySays_of_trace_error {fault : Workspace.Fault} {notices : List Notice} {code : Nat}
    (hroot : files.isDirectory root = true) (h : c.trace files root [] = .error fault notices)
    (hends : (c.runFrom naming files terminal root).ending = .ok code) :
    ∃ words, report? fault = some (code, words) ∧
      (c.runFrom naming files terminal root).OnlySays files (words ++ fault.message) := by
  rw [runFrom, if_pos hroot, h] at hends ⊢
  dsimp only at hends ⊢
  cases hreport : report? fault with
  | none =>
      rw [hreport] at hends
      cases hends
  | some report =>
      obtain ⟨code', words⟩ := report
      rw [hreport] at hends
      cases hends
      exact ⟨words, rfl, rfl, rfl, rfl, rfl⟩

/-! ## Delivery -/

/-- What has become of a result: what is written, what is printed, and the exit code. `content` is the
text of its report. -/
structure Delivered (c : TraceCommand) (files : FileTree) (terminal : Bool) (loaded : Config)
    (r : TraceResult) (content : String) (outcome : Outcome) (code : Nat) : Prop where
  written : ∀ directory, c.outputDirectory = some directory →
    (outcome.errors = [] ∧ AtomicWrite.Placed files (directory.child Report.fileName)
      (Utf8.bytesOf (content ++ "\n")) outcome.changes outcome.files) ∨
    (code = 1 ∧ outcome.output = "" ∧
      ∃ error : OsError, outcome.errors = ["Failed to write trace report: " ++ error.message])
  unwritten : c.outputDirectory = none →
    outcome.errors = [] ∧ outcome.changes = [] ∧ outcome.files = files
  ending : outcome.errors = [] → code =
    if 0 < r.unresolvedCount ∧ (loaded.failOnUnresolved ∨ c.failOnUnresolved) then 1 else 0
  shown : outcome.errors = [] → outcome.output =
    if c.presentation.silent then "" else if c.presentation.asData then content ++ "\n"
    else Report.listing (!c.presentation.plain && terminal) c.presentation.summaryOnly r ++ "\n"

/-- What has become of a report: it is not wanted and nothing has been done, it is in its file, or it
could not be written. -/
inductive Written (c : TraceCommand) (files : FileTree) (content : String) :
    FileTree × List Change × Except AtomicWrite.Fault Unit → Prop where
  | unwanted (h : c.outputDirectory = none) : Written c files content (files, [], .ok ())
  | placed {directory : Path} {after : FileTree} {changes : List Change}
      (h : c.outputDirectory = some directory)
      (hplaced : AtomicWrite.Placed files (directory.child Report.fileName)
        (Utf8.bytesOf (content ++ "\n")) changes after) :
      Written c files content (after, changes, .ok ())
  | failed {directory : Path} {after : FileTree} {changes : List Change}
      (fault : AtomicWrite.Fault) (h : c.outputDirectory = some directory) :
      Written c files content (after, changes, .error fault)

theorem written_writeReport (naming : AtomicWrite.Naming) (c : TraceCommand) (files : FileTree)
    {r : TraceResult} {content : String} (hfull : (Report.payload r).fullText = .ok content) :
    c.Written files content (AtomicWrite.run files (c.writeReport naming r)) := by
  unfold writeReport
  cases hdirectory : c.outputDirectory with
  | none => exact .unwanted hdirectory
  | some directory =>
      dsimp only
      rw [AtomicWrite.run, Stateful.discard_eq]
      cases hstep : Report.writeFile naming directory r (files, []) with
      | ok path s =>
          obtain ⟨after, changes⟩ := s
          have hwrite : AtomicWrite.run files (Report.writeFile naming directory r) =
              (after, changes, .ok path) := by
            rw [AtomicWrite.run, hstep]
          obtain ⟨rfl, content', hrender, hplaced⟩ := Report.writeFile_eq_ok hwrite
          cases hfull.symm.trans (Report.fullText_of_render hrender)
          exact .placed hdirectory hplaced
      | error fault s => exact .failed fault hdirectory

theorem ite_exitCode {config loaded : Config} {r : TraceResult}
    (h : config.failOnUnresolved = (loaded.failOnUnresolved || c.failOnUnresolved)) :
    exitCode config r =
      if 0 < r.unresolvedCount ∧ (loaded.failOnUnresolved ∨ c.failOnUnresolved) then 1 else 0 := by
  have hcount : 0 < r.unresolvedCount ↔ r.unresolvedCount ≠ 0 := Nat.pos_iff_ne_zero
  rw [exitCode, h]
  refine if_congr ?_ rfl rfl
  rw [hcount]
  simp [and_comm]

theorem present_eq {p : Presentation} {r : TraceResult} {content : String}
    (h : (Report.payload r).fullText = .ok content) :
    present p terminal r = if p.silent then "" else if p.asData then content ++ "\n"
      else Report.listing (!p.plain && terminal) p.summaryOnly r ++ "\n" := by
  rw [present, dataText, h]
  rfl

theorem delivered {loaded config : Config} {r : TraceResult} {content : String} {code : Nat}
    {notices : List Notice} (hfull : (Report.payload r).fullText = .ok content)
    (hflag : config.failOnUnresolved = (loaded.failOnUnresolved || c.failOnUnresolved))
    (hends : (c.deliver naming files terminal notices config r).ending = .ok code) :
    c.Delivered files terminal loaded r content (c.deliver naming files terminal notices config r)
      code := by
  have hwritten := written_writeReport naming c files hfull
  unfold deliver at hends ⊢
  generalize AtomicWrite.run files (c.writeReport naming r) = result at hwritten hends ⊢
  cases hwritten with
  | unwanted hnone =>
      cases hends
      constructor
      · simp [hnone]
      · exact fun _ => ⟨rfl, rfl, rfl⟩
      · exact fun _ => ite_exitCode hflag
      · exact fun _ => present_eq hfull
  | placed hsome hplaced =>
      cases hends
      constructor
      · rintro _ hgiven
        cases hsome.symm.trans hgiven
        exact Or.inl ⟨rfl, hplaced⟩
      · simp [hsome]
      · exact fun _ => ite_exitCode hflag
      · exact fun _ => present_eq hfull
  | failed fault hsome =>
      obtain ⟨error, rfl⟩ : ∃ error, fault = .os error := by
        cases fault with
        | os error => exact ⟨error, rfl⟩
        | path _ => cases hends
        | value _ => cases hends
      cases hends
      constructor
      · exact fun _ _ => Or.inr ⟨rfl, rfl, error, rfl⟩
      · simp [hsome]
      · intro h
        cases h
      · intro h
        cases h

/-- What the exit code of a run from its resolved root tells: there is no root, no settings or no trace,
and then nothing has been done; or there is a result, and then it says what has become of it. -/
structure Tells (c : TraceCommand) (files : FileTree) (terminal : Bool) (root : Path)
    (outcome : Outcome) (code : Nat) : Prop where
  no_root : files.isDirectory root = false → code = 2 ∧ outcome.OnlySays files
    ("Configuration error: root directory does not exist: " ++ root.text)
  no_settings : files.isDirectory root = true → ∀ fault notices,
    Config.load files root c.config [] = .error fault notices →
      code = 2 ∧ outcome.OnlySays files ("Configuration error: " ++ fault.message)
  no_trace : files.isDirectory root = true → ∀ config noted,
    c.settings files root [] = .ok config noted → ∀ fault notices,
      Workspace.trace files ⟨root, c.schemas, c.documents⟩ config noted = .error fault notices →
        code = 1 ∧ outcome.OnlySays files ("Trace error: " ++ fault.message)
  result : files.isDirectory root = true → ∀ loaded noted,
    Config.load files root c.config [] = .ok loaded noted → ∀ config r notices,
      c.trace files root [] = .ok (config, r) notices →
        ∃ content, (Report.payload r).fullText = .ok content ∧
          c.Delivered files terminal loaded r content outcome code

theorem tells_runFrom {code : Nat}
    (hends : (c.runFrom naming files terminal root).ending = .ok code) :
    c.Tells files terminal root (c.runFrom naming files terminal root) code := by
  constructor
  · intro hroot
    rw [runFrom, if_neg (by simp [hroot])] at hends ⊢
    cases hends
    exact ⟨rfl, rfl, rfl, rfl, rfl⟩
  · intro hroot fault notices hload
    have htrace := trace_of_settings_error (settings_of_load_error hload)
    obtain ⟨words, hreport, hsays⟩ := onlySays_of_trace_error hroot htrace hends
    obtain ⟨rfl, rfl⟩ := report?_eq_of_config hreport
    exact ⟨rfl, hsays⟩
  · intro hroot config noted hsettings fault notices hworkspace
    have htrace := trace_of_workspace_error hsettings hworkspace
    have hspares := sparesSettings_trace _ _ _ _ _ _ hworkspace
    obtain ⟨words, hreport, hsays⟩ := onlySays_of_trace_error hroot htrace hends
    obtain ⟨rfl, rfl⟩ := report?_eq_of_trace hspares hreport
    exact ⟨rfl, hsays⟩
  · intro hroot loaded noted hload config r notices htrace
    obtain ⟨content, hfull⟩ := Report.exists_fullText_payload r
    obtain ⟨settled, hsettings⟩ := exists_of_trace htrace
    have hflag := failOnUnresolved_of_settings hload hsettings
    rw [runFrom, if_pos hroot, htrace] at hends ⊢
    exact ⟨content, hfull, delivered hfull hflag hends⟩

/-- A run that ends with a code has resolved its root. -/
theorem exists_root_of_run {code : Nat} (hends : (c.run naming files terminal).ending = .ok code) :
    ∃ root, files.settle c.root = .ok root := by
  cases hroot : files.settle c.root with
  | ok root => exact ⟨root, rfl⟩
  | error fault =>
      rw [run, hroot] at hends
      cases hends

end TraceCommand

/-- Of every run that makes a trace and does not end with a fault that it has no answer to, the exit
code tells what has happened. -/
theorem exit_code_tells {arguments : List String} {code : Nat}
    (hasks : Invocation.ofArguments arguments = .trace c)
    (hends : (run naming files terminal arguments).ending = .ok code) :
    ∃ root, files.settle c.root = .ok root ∧
      c.Tells files terminal root (run naming files terminal arguments) code := by
  rw [run, hasks] at hends ⊢
  obtain ⟨root, hroot⟩ := TraceCommand.exists_root_of_run hends
  refine ⟨root, hroot, ?_⟩
  dsimp only at hends ⊢
  rw [TraceCommand.run_of_settle hroot] at hends ⊢
  exact TraceCommand.tells_runFrom hends

def bakery : FileTree where
  entries :=
    [(["bakery"], .directory),
     (["bakery", "types.graphql"], .file "type Query { bread: Query }".toUTF8.toList),
     (["bakery", "ask.graphql"], .file "{ bread { cake } }".toUTF8.toList)]
  current := ["bakery"]

def bakeryArguments : List String :=
  ["trace", "-r", ".", "-s", "types.graphql", "-d", "ask.graphql", "-o", "out", "--format", "json",
   "--fail-on-unresolved"]

def bakeryCommand : TraceCommand :=
  ⟨Path.ofText ".", none, [Path.ofText "types.graphql"], [Path.ofText "ask.graphql"],
    some (Path.ofText "out"), true, ⟨true, false, false, false, false⟩⟩

/-- A report with a reference that leads nowhere is written and printed, and the code is 1. -/
theorem exit_code_tells_in_bakery :
    Invocation.ofArguments bakeryArguments = .trace bakeryCommand ∧
      (run .counting bakery false bakeryArguments).ending = .ok 1 ∧
      (run .counting bakery false bakeryArguments).errors = [] ∧
      ∃ root, bakery.settle bakeryCommand.root = .ok root ∧
        bakeryCommand.Tells bakery false root (run .counting bakery false bakeryArguments) 1 := by
  have hasks : Invocation.ofArguments bakeryArguments = .trace bakeryCommand := by decide +kernel
  have hcode : (run .counting bakery false bakeryArguments).ending.toOption = some 1 := by
    decide +kernel
  have herrors : (run .counting bakery false bakeryArguments).errors = [] := by decide +kernel
  have hends := eq_ok_of_toOption hcode
  exact ⟨hasks, hends, herrors, exit_code_tells hasks hends⟩

end TypeTrace.CommandLine
