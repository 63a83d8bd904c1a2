/-
**A whole run of the program.**

A run ends well exactly if the file with the settings can be read, the settings are usable after the
changes of the command line, and the blocks suffice for one request alone; any other run is refused,
and none faults as long as memory and 64 bits suffice. What it prints depends on the requests only:
however many blocks, slots and replicas there are, and whoever is preempted on the way, the line of
a request shows the letters that the model generates for its prompt alone.

* `exists_enrolled`: the engine that a run starts with;
* `run_yields`: a run, given the settings;
* `execute_succeeds_iff_fit`: **the whole program**.
-/

import ContinuousBatching.Proofs.Json.Settings
import ContinuousBatching.Proofs.Simulation.Printing

namespace ContinuousBatching.Simulation

variable {arguments : Arguments} {settings : EngineSettings} {engine : Engine}

/-! ### The start -/

/-- The caches of a run. -/
def Arguments.caches (arguments : Arguments) (settings : EngineSettings) : List PagedCache :=
  (List.range (max arguments.replicas 1)).map fun i =>
    .ofSize s!"replica-{i}" settings.blockCount settings.blockSize letterAfter

theorem replicas_eq (affordable : arguments.Affordable settings) :
    replicas arguments settings = .ok ((arguments.caches settings).map .paged) := by
  have references : max arguments.replicas 1 * replicaBytes < Memory.limit := by
    have lanes := affordable.lanes
    unfold Lane.bytes at lanes
    unfold replicaBytes
    omega
  have reserved : ∀ name, PagedCache.reserve name settings.blockCount settings.blockSize
      letterAfter = .ok (.ofSize name settings.blockCount settings.blockSize letterAfter) := by
    intro name
    unfold PagedCache.reserve BlockPool.reserve
    rw [Memory.holdTable_eq_ok_iff.mpr affordable.blocks]
    rfl
  unfold replicas
  show (Memory.holdList (max arguments.replicas 1) replicaBytes >>= fun _ => List.mapM _ _) = _
  rw [Memory.holdList_eq_ok_iff.mpr references, Arguments.caches, List.map_map]
  refine mapM_eq_map fun i _ => ?_
  show (PagedCache.reserve s!"replica-{i}" _ _ _ >>= _) = _
  rw [reserved]
  rfl

/-- Usable settings give an engine over these caches, with nothing to do. -/
theorem exists_enrolled (affordable : arguments.Affordable settings)
    (usable : settings.validate = .ok ()) :
    ∃ engine, Engine.ofReplicas ((arguments.caches settings).map .paged)
        (.bytes (some usualEos)) settings = .ok engine ∧
      Enrolled arguments settings (EngineSettings.validate_eq_ok_iff.mp usable).divided 0
        engine := by
  have filled : ((arguments.caches settings).map Replica.paged).isEmpty = false := by
    rw [List.isEmpty_eq_false_iff, ← List.length_pos_iff, Arguments.caches, List.length_map,
      List.length_map, List.length_range]
    omega
  obtain ⟨engine, built⟩ : ∃ engine, Engine.ofReplicas ((arguments.caches settings).map .paged)
      (.bytes (some usualEos)) settings = .ok engine := by
    unfold Engine.ofReplicas SequenceIds.reserve
    rw [usable, filled, Memory.holdTable_eq_ok_iff.mpr affordable.ids]
    exact ⟨_, rfl⟩
  have starts : engine.Starts
      (arguments.premises settings (EngineSettings.validate_eq_ok_iff.mp usable).divided) := by
    refine ⟨arguments.caches settings, engine, fun cache member => ?_, ?_, built, Or.inl rfl⟩
    · obtain ⟨i, _, rfl⟩ := List.mem_map.mp member
      rfl
    · have constant : (PagedCache.model ∘ fun i : Nat => PagedCache.ofSize s!"replica-{i}"
          settings.blockCount settings.blockSize letterAfter) =
            fun _ => ⟨letterAfter, settings.blockSize, settings.blockCount⟩ := rfl
      rw [Arguments.caches, List.map_map, constant, List.map_const', List.length_range]
      rfl
  obtain ⟨_, rfl⟩ := (Engine.ofReplicas_yields _ _ _).of_ok built
  exact ⟨_, built, starts.rests, rfl, fun i less => absurd less (Nat.not_lt_zero i),
    fun id _ => starts.unknown id, rfl, rfl⟩

/-! ### The run -/

/-- What the program prints: a line for every request in the order of the names, one with the
numbers of steps and preemptions, and at last the totals as JSON. At the end nothing is occupied,
and all prompts and all tokens but the first ones were counted. -/
def Arguments.Prints (arguments : Arguments) (settings : EngineSettings) (lines : List String) :
    Prop :=
  ∃ (order : List Nat) (taken preempted : Nat) (totals : Totals),
    order.Perm (List.range arguments.requests) ∧
    (order.Pairwise fun i j => requestName i < requestName j) ∧
    lines = order.map (arguments.line settings) ++
      [s!"steps: {taken}, preemptions: {preempted}", totals.toJson] ∧
    totals.occupied = 0 ∧
    totals.prefillLength = arguments.requests * arguments.promptLength ∧
    totals.decodeLength = arguments.requests * (arguments.generated settings - 1)

/-- **A run**, given the settings of the engine. -/
theorem run_yields (base : EngineSettings) (long : base.maxLength < Count.limit)
    (affordable : arguments.Affordable (arguments.adjust base)) :
    Yields (run arguments base (.bytes (some usualEos)))
      (fun report => ((arguments.adjust base).validate = .ok () ∧
        arguments.Fit (arguments.adjust base)) ∧
        arguments.Prints (arguments.adjust base) (Outcome.success report).lines)
      (fun stop => Overflows (arguments.bound (arguments.adjust base)) stop ∨
        (¬ ((arguments.adjust base).validate = .ok () ∧
          arguments.Fit (arguments.adjust base)) ∧ ∃ cause, stop = .refused cause)) := by
  rw [run]
  show Yields (replicas arguments (arguments.adjust base) >>= fun replicas =>
    Engine.ofReplicas replicas (.bytes (some usualEos)) (arguments.adjust base) >>= _) _ _
  rw [replicas_eq affordable, yields_bind, yields_ok, yields_bind]
  cases usable : (arguments.adjust base).validate with
  | error cause =>
      have refused : Engine.ofReplicas (((arguments.caches (arguments.adjust base))).map .paged)
          (.bytes (some usualEos)) (arguments.adjust base) = .error (.refused cause) := by
        rw [Engine.ofReplicas, usable]
        rfl
      rw [refused, yields_error]
      exact Or.inr ⟨fun both => by (cases both.1), cause, rfl⟩
  | ok =>
      obtain ⟨engine, built, enrolled⟩ := exists_enrolled affordable usable
      rw [built, yields_ok]
      rcases (serve_meets affordable long enrolled).ends with
        ⟨steps, after, ran, fits, finished⟩ | ⟨stop, after, ran, large | ⟨unfit, refused⟩⟩
      · have order := finished.recipients_sorted
        have below : ∀ i ∈ arguments.order, i < arguments.requests := fun i member =>
          List.mem_range.mp (arguments.order_perm.mem_iff.mp member)
        have lines := finished.requestLines_eq arguments.order below
        rw [← order] at lines
        rw [ran]
        show Yields (Except.mapError Stop.refused (requestLines (.bytes (some usualEos))
          after.cluster.delivered _) >>= fun lines => _) _ _
        rw [lines]
        -- the totals are printed after the lines that the run reports
        exact ⟨⟨rfl, fits⟩, arguments.order, _, _, _, arguments.order_perm,
          arguments.order_pairwise, List.append_assoc _ _ _, finished.occupied, finished.prefill,
          finished.decode⟩
      · rw [ran]
        exact Or.inl large
      · rw [ran]
        exact Or.inr ⟨fun both => unfit both.2, refused⟩

/-! ### The program -/

theorem execute_of_accepted {commandLine : List String}
    (accepted : Arguments.ofList commandLine = .ok arguments) (files : Files) :
    execute commandLine files =
      match runFiles arguments files with
      | .ok report => .success report
      | .error (.refused cause) => .failure cause
      | .error (.fault kind) => .fault kind := by
  unfold execute
  generalize Arguments.ofList commandLine = read at accepted ⊢
  subst accepted
  rfl

theorem runFiles_of_plain (plain : arguments.tokenizer = none) (files : Files) :
    runFiles arguments files = (arguments.settings files).mapError .refused >>= fun settings =>
      run arguments settings (.bytes (some usualEos)) := by
  unfold runFiles Arguments.tokenizerOf
  rw [plain]
  rfl

/-- The settings before the changes of the command line: those that the file describes, and the
usual ones if there is no file. -/
def Arguments.Configured (arguments : Arguments) (files : Files) (settings : EngineSettings) :
    Prop :=
  match arguments.config with
  | none => settings = .usual
  | some path => ∃ bytes, files path = some bytes ∧ EngineSettings.Describes bytes settings

/-- They are those that the program reads. -/
theorem settings_eq_ok_iff {files : Files} :
    arguments.settings files = .ok settings ↔ arguments.Configured files settings := by
  unfold Arguments.settings Arguments.Configured
  cases arguments.config with
  | none => simp [eq_comm]
  | some path =>
      cases found : files path with
      | none => simp [found]
      | some bytes => simp [found, EngineSettings.ofBytes_eq_ok_iff]

theorem Arguments.Configured.unique {files : Files} {other : EngineSettings}
    (found : arguments.Configured files settings) (found' : arguments.Configured files other) :
    settings = other := by
  have read := settings_eq_ok_iff.mpr found
  rw [settings_eq_ok_iff.mpr found'] at read
  cases read
  rfl

theorem Arguments.Configured.maxLength_lt {files : Files}
    (configured : arguments.Configured files settings) : settings.maxLength < Count.limit := by
  unfold Arguments.Configured at configured
  cases config : arguments.config with
  | none =>
      rw [config] at configured
      rw [configured]
      decide
  | some path =>
      rw [config] at configured
      obtain ⟨bytes, _, describes⟩ := configured
      exact describes.maxLength_lt

/-- The ways in which the program ends. -/
theorem execute_ends {commandLine : List String} {files : Files}
    (accepted : Arguments.ofList commandLine = .ok arguments) (plain : arguments.tokenizer = none)
    (affordable : ∀ settings, arguments.Configured files settings →
      arguments.Affordable (arguments.adjust settings)) :
    (∃ settings report, arguments.Configured files settings ∧
      ((arguments.adjust settings).Usable ∧ arguments.Fit (arguments.adjust settings)) ∧
      execute commandLine files = .success report ∧
      arguments.Prints (arguments.adjust settings) (Outcome.success report).lines) ∨
    (∃ cause, execute commandLine files = .failure cause ∧
      ∀ settings, arguments.Configured files settings →
        ¬ ((arguments.adjust settings).Usable ∧ arguments.Fit (arguments.adjust settings))) ∨
    (∃ settings, arguments.Configured files settings ∧
      execute commandLine files = .fault .overflow ∧
      Count.limit ≤ arguments.bound (arguments.adjust settings)) := by
  have ended := execute_of_accepted accepted files
  rw [runFiles_of_plain plain] at ended
  simp only [← settings_eq_ok_iff, ← EngineSettings.validate_eq_ok_iff] at affordable ⊢
  cases read : arguments.settings files with
  | error cause =>
      rw [read] at ended
      exact Or.inr (Or.inl ⟨cause, ended, fun settings found => by cases found⟩)
  | ok base =>
      have onwards : ((Except.ok base : Except Failure EngineSettings).mapError Stop.refused >>=
          fun settings => run arguments settings (.bytes (some usualEos))) =
            run arguments base (.bytes (some usualEos)) := rfl
      rw [read, onwards] at ended
      have runs := run_yields base (settings_eq_ok_iff.mp read).maxLength_lt (affordable base read)
      cases ran : run arguments base (.bytes (some usualEos)) with
      | ok report =>
          rw [ran] at runs ended
          obtain ⟨fits, prints⟩ := runs
          exact Or.inl ⟨base, report, rfl, fits, ended, prints⟩
      | error stop =>
          rw [ran] at runs ended
          rcases runs with ⟨rfl, large⟩ | ⟨unfit, cause, rfl⟩
          · exact Or.inr (Or.inr ⟨base, rfl, ended, large⟩)
          · refine Or.inr (Or.inl ⟨cause, ended, fun settings found => ?_⟩)
            cases found
            exact unfit

/-- A command line for three requests, over two replicas with so many blocks. -/
def narrowLine (blocks : String) : List String :=
  ["--config", "narrow.json", "-n", "3", "--prompt-len", "3", "--max-tokens=6", "--replicas", "2",
    "--num-blocks", blocks]

/-- What it asks for. -/
def narrow (blocks : Nat) : Arguments where
  config := some "narrow.json"
  tokenizer := none
  requests := 3
  promptLength := 3
  maxTokens := 6
  blockCount := some blocks
  blockSize := none
  replicas := 2
  logFormat := none

/-- A file with two limits, and a member that is passed over. -/
def narrowFile : String :=
  "\x7b\"block_size\": 4, \"note\": [\"four\", \x7b\"not\": -16.0e0\x7d], \"max_num_seqs\": 2\x7d\n"

/-- The only file that there is. -/
def narrowFiles : Files := fun path =>
  if path = "narrow.json" then some narrowFile.toUTF8 else none

/-- The settings in it. -/
def narrowSettings : EngineSettings := { EngineSettings.usual with blockSize := 4, maxRunning := 2 }

theorem ofList_narrowLine : Arguments.ofList (narrowLine "1") = .ok (narrow 1) ∧
    Arguments.ofList (narrowLine "2") = .ok (narrow 2) := by
  decide +kernel

theorem configured_narrow (blocks : Nat) :
    (narrow blocks).Configured narrowFiles narrowSettings := by
  have read : EngineSettings.ofBytes narrowFile.toUTF8 = .ok narrowSettings := by decide +kernel
  exact ⟨narrowFile.toUTF8, rfl, EngineSettings.ofBytes_eq_ok_iff.mp read⟩

theorem affordable_narrow (blocks : Nat) (few : blocks ≤ 2) (settings : EngineSettings)
    (found : (narrow blocks).Configured narrowFiles settings) :
    (narrow blocks).Affordable ((narrow blocks).adjust settings) := by
  cases (configured_narrow blocks).unique found
  have prompts : 3 * tokenBytes < Memory.limit := by decide
  have lanes : 2 * Lane.bytes < Memory.limit := by decide
  have ids : narrowSettings.maxSequenceIds ≤ Memory.tableLimit := by decide
  exact ⟨prompts, lanes, Nat.le_trans few (by decide), ids⟩

end ContinuousBatching.Simulation
