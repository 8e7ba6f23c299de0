import StackTemplate.CommandLine
import StackTemplate.Proofs.DirectoryWrites

/-! A command does all of its work or none, on any file system and in any formats. Each of its
steps is followed through the world: only the one that stores a result changes a file, and it
comes when nothing else is left that could fail. What it stores was read from the files as they
were, so it is what the same command would print, even over a file that it came from. -/
namespace StackTemplate

theorem Sink.not_takesAll {sink : Sink} {taken sent : ByteArray} {refusal : Nat × Fault}
    (refused : sink taken sent = some refusal) : ¬sink.TakesAll := by
  intro takes
  cases (takes taken sent).symm.trans refused

/-- A refusal leaves a sink that takes all or nothing as it was. -/
theorem Sink.Whole.unchanged {sink : Sink} (whole : sink.Whole) {taken sent : ByteArray}
    {refusal : Nat × Fault} (refused : sink taken sent = some refusal) :
    taken ++ sent.extract 0 refusal.1 = taken := by
  rw [whole taken sent _ _ refused]
  simp

namespace CommandLine

variable {State Place : Type} (system : FileSystem State Place) (formats : Formats)

/-! ## What a command comes to -/

/-- The document that a command asks for, read and processed with the files as they are. -/
def outcome (files : State) (config : Option Text) (file : Text) : Except Error Json.Value :=
  (Config.loadOrDefault formats.readConfig (system.read files) (system.isFile files) config).result.bind
    fun options => (Document.processFile formats.readDocument (system.read files) options file).result

/-- The bytes are the document that a command asks for, written out. -/
structure Comes (files : State) (config : Option Text) (file : Text) (compact : Bool)
    (value : Json.Value) (bytes : ByteArray) : Prop where
  made : outcome system formats files config file = .ok value
  shown : ∃ text, formats.print compact value = .ok text ∧ bytes = Text.encode (text ++ ['\n'])

variable {system formats} in
theorem Comes.unique {files : State} {config : Option Text} {file : Text} {compact : Bool}
    {value other : Json.Value} {bytes written : ByteArray}
    (comes : Comes system formats files config file compact value bytes)
    (again : Comes system formats files config file compact other written) : bytes = written := by
  obtain rfl := Except.ok.inj (comes.made.symm.trans again.made)
  obtain ⟨text, shown, rfl⟩ := comes.shown
  obtain ⟨same, shown', rfl⟩ := again.shown
  rw [Except.ok.inj (shown.symm.trans shown')]

/-- What a command that processes a document can fail over: the configuration, the document or
a file it includes, its form as JSON, and the file to write. -/
inductive Fails (files : State) (config : Option Text) (file : Text) (output : Option Text)
    (compact : Bool) : Prop where
  | document {error : Error} (fails : outcome system formats files config file = .error error)
  | rendering {value : Json.Value} {complaint : Text}
      (made : outcome system formats files config file = .ok value)
      (fails : formats.print compact value = .error complaint)
  | writing {value : Json.Value} {bytes : ByteArray} {path : Text} {fault : Fault}
      (comes : Comes system formats files config file compact value bytes)
      (stored : output = some path) (fails : system.write files path bytes = .error fault)

/-! ## Steps -/

section Steps

variable {system formats} {out err : Sink} {α β : Type} {world : World State}

/-- Carries out an action: how it ends, and the world that it leaves. -/
def carry (action : Action (StateM (World State)) α) (world : World State) :
    Except Halt α × World State :=
  Id.run (action.run.run world)

theorem carry_bind (action : Action (StateM (World State)) α)
    (next : α → Action (StateM (World State)) β) (world : World State) :
    carry (action >>= next) world =
      match carry action world with
      | (.ok value, world) => carry (next value) world
      | (.error halt, world) => (.error halt, world) := by
  have step : carry (action >>= next) world =
      Id.run (ExceptT.bindCont next (carry action world).1 (carry action world).2) := rfl
  rw [step]
  rcases carry action world with ⟨_ | _, _⟩ <;> rfl

theorem carry_lift (step : StateM (World State) α) (world : World State) :
    carry (liftM step) world = (.ok (Id.run (step.run world)).1, (Id.run (step.run world)).2) :=
  rfl

theorem carry_print (bytes : ByteArray) (world : World State) :
    carry (liftM ((system.host out err).print bytes)) world =
      (.ok (out.send world.stdout bytes).1, { world with stdout := (out.send world.stdout bytes).2 }) :=
  rfl

theorem carry_warn (bytes : ByteArray) (world : World State) :
    carry (liftM ((system.host out err).warn bytes)) world =
      (.ok (err.send world.stderr bytes).1, { world with stderr := (err.send world.stderr bytes).2 }) :=
  rfl

theorem carry_write (path : Text) (bytes : ByteArray) (world : World State) :
    carry (liftM ((system.host out err).write path bytes)) world =
      match system.write world.files path bytes with
      | .ok files => (.ok (.ok ()), { world with files })
      | .error fault => (.ok (.error fault), world) := by
  rw [carry_lift]
  dsimp only [FileSystem.host, modifyGet, MonadStateOf.modifyGet, StateT.modifyGet, StateT.run]
  cases system.write world.files path bytes <;> rfl

theorem carry_proceed (context : Text) (run : Run α) (world : World State) :
    carry (proceed context run) world = (run.result.mapError (failure context), world) := by
  unfold proceed
  cases run.result <;> rfl

theorem carry_loadFrom (named : Option Text) (path : Text) (world : World State) :
    carry (loadFrom (system.host out err) formats named path) world =
      ((Config.load formats.readConfig (system.read world.files) path).result.mapError
        (failure (configContext named)), world) :=
  carry_proceed _ _ world

theorem carry_loadOptions (named : Option Text) (world : World State) :
    carry (loadOptions (system.host out err) formats named) world =
      ((Config.loadOrDefault formats.readConfig (system.read world.files) (system.isFile world.files)
        named).result.mapError (failure (configContext named)), world) := by
  cases named with
  | some path => exact carry_loadFrom _ path world
  | none =>
    have asked : carry (loadOptions (system.host out err) formats none) world =
        carry (if system.isFile world.files Config.localPath
          then loadFrom (system.host out err) formats none Config.localPath else return {}) world := rfl
    rw [asked, Config.loadOrDefault]
    cases system.isFile world.files Config.localPath with
    | true => exact carry_loadFrom none Config.localPath world
    | false => rfl

theorem carry_render (compact : Bool) (value : Json.Value) (world : World State) :
    carry (render formats compact value) world =
      (match formats.print compact value with
        | .ok text => .ok (Text.encode (text ++ ['\n']))
        | .error complaint => .error (.failed (complaint ++ ['\n'])), world) := by
  unfold render
  cases formats.print compact value <;> rfl

variable (system out err) in
/-- A notice changes nothing but what was said, and halts only if it is not taken. -/
theorem carry_notify (verbose : Bool) (text : Text) (world : World State) :
    ∃ stderr, carry (notify (system.host out err) verbose text) world = (.ok (), { world with stderr }) ∨
      carry (notify (system.host out err) verbose text) world = (.error .speechless, { world with stderr }) ∧
        ¬err.TakesAll := by
  cases verbose with
  | false => exact ⟨world.stderr, .inl rfl⟩
  | true =>
    simp only [notify, if_true, carry_bind, carry_warn, Sink.send]
    generalize Text.encode _ = bytes
    cases refused : err world.stderr bytes with
    | none => exact ⟨_, .inl rfl⟩
    | some refusal => exact ⟨_, .inr ⟨rfl, Sink.not_takesAll refused⟩⟩

variable (system out err) in
/-- A result is printed, or as much of it as is taken. -/
theorem carry_printResult (bytes : ByteArray) (world : World State) :
    ∃ stdout, carry (printResult (system.host out err) bytes) world = (.ok (), { world with stdout }) ∧
        stdout = world.stdout ++ bytes ∨
      ∃ complaint, carry (printResult (system.host out err) bytes) world =
        (.error (.failed complaint), { world with stdout }) ∧ ¬out.TakesAll ∧
          (out.Whole → stdout = world.stdout) := by
  simp only [printResult, carry_bind, carry_print, Sink.send]
  cases refused : out world.stdout bytes with
  | none => exact ⟨_, .inl ⟨rfl, rfl⟩⟩
  | some refusal =>
    exact ⟨_, .inr ⟨_, rfl, Sink.not_takesAll refused, fun whole => whole.unchanged refused⟩⟩

variable (system out err) in
/-- A result is stored, whether or not that can be told, or nothing is changed. -/
theorem carry_storeResult (file path : Text) (bytes : ByteArray) (world : World State) :
    (∃ fault complaint, system.write world.files path bytes = .error fault ∧
      carry (storeResult (system.host out err) file path bytes) world = (.error (.failed complaint), world)) ∨
    ∃ files stdout, system.write world.files path bytes = .ok files ∧
      (carry (storeResult (system.host out err) file path bytes) world = (.ok (), { world with files, stdout }) ∨
        carry (storeResult (system.host out err) file path bytes) world =
          (.error .speechless, { world with files, stdout }) ∧ ¬out.TakesAll) := by
  simp only [storeResult, carry_bind, carry_write]
  cases system.write world.files path bytes with
  | error fault => exact .inl ⟨fault, _, rfl, rfl⟩
  | ok files =>
    simp only [carry_bind, carry_print, Sink.send]
    generalize Text.encode _ = told
    cases refused : out world.stdout told with
    | none => exact .inr ⟨files, _, rfl, .inl rfl⟩
    | some refusal => exact .inr ⟨files, _, rfl, .inr ⟨rfl, Sink.not_takesAll refused⟩⟩

theorem carry_compute (work : Files → Run α) (world : World State) :
    carry (liftM ((system.host out err).compute work)) world = (.ok (work (system.read world.files)), world) :=
  rfl

theorem carry_read (path : Text) (world : World State) :
    carry (liftM ((system.host out err).read path)) world = (.ok (system.read world.files path), world) :=
  rfl

/-- Interpolating a text changes no file. -/
theorem carry_interpolateText (options : Interpolation.Options) (verbose outline : Bool) (text : Text)
    (world : World State) :
    (carry (interpolateText (system.host out err) formats options verbose outline text) world).2.files =
      world.files := by
  simp only [interpolateText, carry_bind, carry_compute, carry_proceed]
  cases (interpolate (system.read world.files) options text).result with
  | error error => rfl
  | ok fragment =>
    dsimp only [Except.mapError]
    obtain ⟨stderr, told | ⟨refused, -⟩⟩ :=
      carry_notify system out err verbose fragment.display world
    · rw [told]
      simp only [carry_render]
      cases formats.print false (if outline then fragment.outline else fragment.encode) with
      | error complaint => rfl
      | ok text =>
        obtain ⟨stdout, ⟨printed, -⟩ | ⟨complaint, cut, -⟩⟩ :=
          carry_printResult system out err (Text.encode (text ++ ['\n'])) { world with stderr }
        · simp only [printed]
        · simp only [cut]
    · rw [refused]

end Steps

/-! ## How a command ends -/

section Ends

variable {system formats} {out err : Sink} {files : State} {config : Option Text} {file : Text}
  {output : Option Text} {compact : Bool}

variable (system formats out err files config file output compact) in
/-- How a command that processes a document can end, and what it leaves behind. -/
inductive Ends : Except Halt Unit → World State → Prop where
  /-- It could not tell what it was about to do. -/
  | unheard {world : World State} (refused : ¬err.TakesAll) (same : world.files = files)
      (silent : world.stdout = .empty) : Ends (.error .speechless) world
  | failed {world : World State} {complaint : Text}
      (fails : Fails system formats files config file output compact) (same : world.files = files)
      (silent : world.stdout = .empty) : Ends (.error (.failed complaint)) world
  | printed {world : World State} {value : Json.Value} {bytes : ByteArray}
      (comes : Comes system formats files config file compact value bytes) (unnamed : output = none)
      (same : world.files = files) (told : world.stdout = bytes) : Ends (.ok ()) world
  /-- The result could not be printed as a whole. -/
  | cut {world : World State} {complaint : Text} {value : Json.Value} {bytes : ByteArray}
      (comes : Comes system formats files config file compact value bytes) (unnamed : output = none)
      (refused : ¬out.TakesAll) (same : world.files = files)
      (silent : out.Whole → world.stdout = .empty) : Ends (.error (.failed complaint)) world
  | stored {world : World State} {value : Json.Value} {bytes : ByteArray} {path : Text}
      (comes : Comes system formats files config file compact value bytes) (named : output = some path)
      (wrote : system.write files path bytes = .ok world.files) : Ends (.ok ()) world
  /-- The result is stored, but that could not be told. -/
  | untold {world : World State} {value : Json.Value} {bytes : ByteArray} {path : Text}
      (comes : Comes system formats files config file compact value bytes) (named : output = some path)
      (wrote : system.write files path bytes = .ok world.files) (refused : ¬out.TakesAll) :
      Ends (.error .speechless) world

/-- Delivering a result is the last that a command does. -/
theorem ends_deliver {value : Json.Value} {bytes : ByteArray}
    (comes : Comes system formats files config file compact value bytes) {world : World State}
    (same : world.files = files) (silent : world.stdout = .empty) :
    Ends system formats out err files config file output compact
      (carry (deliver (system.host out err) file output bytes) world).1
      (carry (deliver (system.host out err) file output bytes) world).2 := by
  subst same
  cases output with
  | none =>
    dsimp only [deliver]
    obtain ⟨stdout, ⟨printed, told⟩ | ⟨complaint, cut, refused, nothing⟩⟩ :=
      carry_printResult system out err bytes world
    · rw [printed]
      exact .printed comes rfl rfl (by rw [told, silent, ByteArray.empty_append])
    · rw [cut]
      exact .cut comes rfl refused rfl fun whole => (nothing whole).trans silent
  | some path =>
    dsimp only [deliver]
    obtain ⟨fault, complaint, refused, stopped⟩ | ⟨after, stdout, wrote, stored | ⟨untold, unheard⟩⟩ :=
      carry_storeResult system out err file path bytes world
    · rw [stopped]
      exact .failed (.writing comes rfl refused) rfl silent
    · rw [stored]
      exact .stored comes rfl wrote
    · rw [untold]
      exact .untold comes rfl wrote unheard

/-- Processing a document reads and computes before it delivers. -/
theorem ends_preprocess {options : Document.Options}
    (loaded : (Config.loadOrDefault formats.readConfig (system.read files) (system.isFile files)
      config).result = .ok options) {world : World State} (same : world.files = files)
    (silent : world.stdout = .empty) (verbose : Bool) :
    Ends system formats out err files config file output compact
      (carry (preprocess (system.host out err) formats options verbose compact file output) world).1
      (carry (preprocess (system.host out err) formats options verbose compact file output) world).2 := by
  subst same
  have processed : outcome system formats world.files config file =
      (Document.processFile formats.readDocument (system.read world.files) options file).result := by
    rw [outcome, loaded]
    rfl
  rw [Document.processFile] at processed
  simp only [preprocess, carry_bind]
  obtain ⟨stderr, told | ⟨refused, unheard⟩⟩ :=
    carry_notify system out err verbose ("Preprocessing ".toList ++ file) world
  · simp only [told, carry_read, carry_compute, carry_proceed]
    generalize (Document.processContent formats.readDocument (system.read world.files) options file
      (system.read world.files file)).result = result at processed
    cases result with
    | error error => exact .failed (.document processed) rfl silent
    | ok value =>
      dsimp only [Except.mapError]
      simp only [carry_render]
      cases shown : formats.print compact value with
      | error complaint => exact .failed (.rendering processed shown) rfl silent
      | ok text => exact ends_deliver ⟨processed, text, shown, rfl⟩ rfl silent
  · rw [refused]
    exact .unheard unheard rfl silent

/-- The configuration is loaded before anything is done. -/
theorem ends_perform {invocation : Invocation}
    (asks : invocation.command = .preprocess file output compact) {world : World State}
    (same : world.files = files) (silent : world.stdout = .empty) :
    Ends system formats out err files invocation.config file output compact
      (carry (perform (system.host out err) formats invocation) world).1
      (carry (perform (system.host out err) formats invocation) world).2 := by
  simp only [perform, carry_bind, carry_loadOptions, asks, same]
  cases loaded : (Config.loadOrDefault formats.readConfig (system.read files) (system.isFile files)
      invocation.config).result with
  | error error =>
    have unloaded : outcome system formats files invocation.config file = .error error := by
      rw [outcome, loaded]
      rfl
    exact .failed (.document unloaded) same silent
  | ok options => exact ends_preprocess loaded same silent invocation.verbose

/-- What could be made, shown and, where it is to be stored, written, fails over nothing. -/
theorem Comes.not_fails {value : Json.Value} {bytes : ByteArray}
    (comes : Comes system formats files config file compact value bytes)
    (writable : ∀ path, output = some path → ∃ after, system.write files path bytes = .ok after) :
    ¬Fails system formats files config file output compact := by
  intro fails
  cases fails with
  | document missing => cases comes.made.symm.trans missing
  | rendering made unshown =>
    obtain rfl := Except.ok.inj (comes.made.symm.trans made)
    obtain ⟨text, shown, -⟩ := comes.shown
    cases shown.symm.trans unshown
  | @writing other written path fault again named refused =>
    obtain rfl := comes.unique again
    obtain ⟨after, wrote⟩ := writable path named
    cases wrote.symm.trans refused

theorem Comes.not_fails_unnamed {value : Json.Value} {bytes : ByteArray}
    (comes : Comes system formats files config file compact value bytes) (unnamed : output = none) :
    ¬Fails system formats files config file output compact := by
  refine comes.not_fails fun path named => ?_
  cases unnamed.symm.trans named

theorem Comes.not_fails_written {value : Json.Value} {bytes : ByteArray} {path : Text} {after : State}
    (comes : Comes system formats files config file compact value bytes) (named : output = some path)
    (wrote : system.write files path bytes = .ok after) :
    ¬Fails system formats files config file output compact := by
  refine comes.not_fails fun other same => ?_
  cases named.symm.trans same
  exact ⟨after, wrote⟩

end Ends

/-! ## The whole program -/

section Program

variable {system formats} {out err : Sink}

/-- The exit code that the end of a command leads to. A failure that cannot be told has the code
of a command that was left speechless. -/
inductive Exits (err : Sink) : Except Halt Unit → Nat → Prop where
  | done : Exits err (.ok ()) 0
  | told {complaint : Text} : Exits err (.error (.failed complaint)) 1
  | unheard {complaint : Text} (refused : ¬err.TakesAll) : Exits err (.error (.failed complaint)) 101
  | speechless : Exits err (.error .speechless) 101

variable (system formats out err) in
/-- After its command the program only tells of a failure. -/
theorem exits_execute (invocation : Invocation) (files : State) :
    let ended := runFrom files (execute (system.host out err) formats invocation)
    let performed := carry (perform (system.host out err) formats invocation) { files }
    Exits err performed.1 ended.1 ∧ ended.2.files = performed.2.files ∧
      ended.2.stdout = performed.2.stdout := by
  intro ended performed
  have concluded : ended = Id.run ((conclude (system.host out err) performed.1).run performed.2) := rfl
  rw [concluded]
  obtain ⟨(complaint | _) | _, world⟩ := performed
  · let bytes := Text.encode ("Error: ".toList ++ complaint)
    have told : Id.run ((conclude (system.host out err) (.error (.failed complaint))).run world) =
        (failureCode (err.send world.stderr bytes).1,
          { world with stderr := (err.send world.stderr bytes).2 }) := rfl
    rw [told]
    unfold Sink.send
    cases refused : err world.stderr bytes with
    | none => exact ⟨.told, rfl, rfl⟩
    | some refusal =>
      exact ⟨.unheard (Sink.not_takesAll refused), rfl, rfl⟩
  · exact ⟨.speechless, rfl, rfl⟩
  · exact ⟨.done, rfl, rfl⟩

/-- An interpolation changes no file. -/
theorem files_perform_interpolate {invocation : Invocation} {text : Text} {outline : Bool}
    {base : Option Text} (asks : invocation.command = .interpolate text outline base)
    (world : World State) :
    (carry (perform (system.host out err) formats invocation) world).2.files = world.files := by
  simp only [perform, carry_bind, carry_loadOptions, asks]
  cases (Config.loadOrDefault formats.readConfig (system.read world.files) (system.isFile world.files)
      invocation.config).result with
  | error error => rfl
  | ok options => exact carry_interpolateText _ _ _ _ world

theorem run_of_accepted {reader : Reader} {arguments : List Text} {environment : Option Text}
    {invocation : Invocation} (accepted : reader arguments environment = .ok invocation) :
    run (system.host out err) formats reader arguments environment =
      execute (system.host out err) formats invocation := by
  rw [run, accepted]

variable (out err) in
/-- How the program ends that processes a document, and what it leaves behind. -/
theorem ends_execute {invocation : Invocation} {file : Text} {output : Option Text} {compact : Bool}
    (asks : invocation.command = .preprocess file output compact) (files : State) :
    let ended := runFrom files (execute (system.host out err) formats invocation)
    ∃ result world,
      Ends system formats out err files invocation.config file output compact result world ∧
        Exits err result ended.1 ∧ ended.2.files = world.files ∧ ended.2.stdout = world.stdout :=
  ⟨_, _, ends_perform asks rfl rfl, exits_execute _ _ _ _ invocation files⟩

/-- A command that processes a document and fails leaves every file as it was and prints nothing. -/
theorem Fails.ends {invocation : Invocation} {file : Text} {output : Option Text} {compact : Bool}
    (asks : invocation.command = .preprocess file output compact) {files : State}
    (fails : Fails system formats files invocation.config file output compact) :
    let ended := runFrom files (execute (system.host out err) formats invocation)
    ended.2.files = files ∧ ended.2.stdout = .empty ∧ ended.1 ≠ 0 ∧ (err.TakesAll → ended.1 = 1) := by
  intro ended
  obtain ⟨result, world, ends, exits, files', stdout⟩ := ends_execute out err asks files
  rw [files', stdout]
  generalize ended.1 = code at exits
  cases ends with
  | unheard refused same silent =>
    cases exits
    exact ⟨same, silent, by decide, fun takes => absurd takes refused⟩
  | failed _ same silent =>
    refine ⟨same, silent, ?_⟩
    cases exits with
    | told => exact ⟨by decide, fun _ => rfl⟩
    | unheard refused => exact ⟨by decide, fun takes => absurd takes refused⟩
  | printed comes unnamed => exact absurd fails (comes.not_fails_unnamed unnamed)
  | cut comes unnamed => exact absurd fails (comes.not_fails_unnamed unnamed)
  | stored comes named wrote => exact absurd fails (comes.not_fails_written named wrote)
  | untold comes named wrote => exact absurd fails (comes.not_fails_written named wrote)

/-- Exit code 1 tells that every file is as it was, and that nothing was printed where a stream that
does not take all takes nothing: something failed, or the document was to be printed and could
not be. -/
theorem unchanged_of_exit_one {invocation : Invocation} {file : Text} {output : Option Text}
    {compact : Bool} (asks : invocation.command = .preprocess file output compact) {files : State}
    (exit : (runFrom files (execute (system.host out err) formats invocation)).1 = 1) :
    (runFrom files (execute (system.host out err) formats invocation)).2.files = files ∧
      (out.Whole → (runFrom files (execute (system.host out err) formats invocation)).2.stdout = .empty) ∧
      (Fails system formats files invocation.config file output compact ∨
        output = none ∧ ¬out.TakesAll) := by
  obtain ⟨result, world, ends, exits, files', stdout⟩ := ends_execute out err asks files
  rw [files', stdout]
  rw [exit] at exits
  cases exits
  cases ends with
  | failed fails same silent => exact ⟨same, fun _ => silent, .inl fails⟩
  | cut _ unnamed refused same silent => exact ⟨same, silent, .inr ⟨unnamed, refused⟩⟩

/-- Exit code 0 tells that the document was printed, or stored where it was to be. -/
theorem comes_of_exit_zero {invocation : Invocation} {file : Text} {output : Option Text}
    {compact : Bool} (asks : invocation.command = .preprocess file output compact) {files : State}
    (exit : (runFrom files (execute (system.host out err) formats invocation)).1 = 0) :
    ∃ value bytes, Comes system formats files invocation.config file compact value bytes ∧
      match output with
      | none =>
        (runFrom files (execute (system.host out err) formats invocation)).2.files = files ∧
          (runFrom files (execute (system.host out err) formats invocation)).2.stdout = bytes
      | some path => system.write files path bytes =
          .ok (runFrom files (execute (system.host out err) formats invocation)).2.files := by
  obtain ⟨result, world, ends, exits, files', stdout⟩ := ends_execute out err asks files
  rw [files', stdout]
  rw [exit] at exits
  cases exits
  cases ends with
  | printed comes unnamed same told =>
    subst unnamed
    exact ⟨_, _, comes, same, told⟩
  | stored comes named wrote =>
    subst named
    exact ⟨_, _, comes, wrote⟩

/-- A command that processes a document succeeds if nothing of it fails and all that it says is
taken. -/
theorem exit_zero_of_not_fails {invocation : Invocation} {file : Text} {output : Option Text}
    {compact : Bool} (asks : invocation.command = .preprocess file output compact) {files : State}
    (succeeds : ¬Fails system formats files invocation.config file output compact)
    (outTakes : out.TakesAll) (errTakes : err.TakesAll) :
    (runFrom files (execute (system.host out err) formats invocation)).1 = 0 := by
  obtain ⟨result, world, ends, exits, -, -⟩ := ends_execute out err asks files
  generalize (runFrom files (execute (system.host out err) formats invocation)).1 = code at exits ⊢
  cases ends with
  | unheard refused => exact absurd errTakes refused
  | failed fails => exact absurd fails succeeds
  | printed =>
    cases exits
    rfl
  | cut _ _ refused => exact absurd outTakes refused
  | stored =>
    cases exits
    rfl
  | untold _ _ _ refused => exact absurd outTakes refused

/-- A command line does all of its work or none, on every file system in which a write that goes
through fills the one place that its path leads to, and one that is refused changes nothing. An
interpolation changes no file. Processing a document fails over its configuration, the document,
its form as JSON or the file to write; then every file is as it was, nothing is printed, and the
exit code is 1, or another one if the failure could not even be told. Besides these, exit code 1
tells that the document was to be printed and was not taken; every file is as it was then too,
and nothing is printed unless a part was taken. With exit code 0 a document to be stored is in the
place that its path leads to, no other place has changed, and what is there is what the same command
prints without that path, from the same files: also where the path leads to a file that was read. -/
theorem run_all_or_nothing (lawful : system.Lawful) (formats : Formats) {reader : Reader}
    {arguments : List Text} {environment : Option Text} {invocation : Invocation}
    (accepted : reader arguments environment = .ok invocation) (out err : Sink) (files : State) :
    let ended := runFrom files (run (system.host out err) formats reader arguments environment)
    match invocation.command with
    | .interpolate _ _ _ => ended.2.files = files
    | .preprocess file output compact =>
      (Fails system formats files invocation.config file output compact →
        ended.2.files = files ∧ ended.2.stdout = .empty ∧ ended.1 ≠ 0 ∧ (err.TakesAll → ended.1 = 1)) ∧
      (¬Fails system formats files invocation.config file output compact →
        out.TakesAll → err.TakesAll → ended.1 = 0) ∧
      (ended.1 = 1 → ended.2.files = files ∧ (out.Whole → ended.2.stdout = .empty) ∧
        (Fails system formats files invocation.config file output compact ∨
          output = none ∧ ¬out.TakesAll)) ∧
      (ended.1 = 0 → match output with
        | none => ended.2.files = files
        | some path => ∃ place bytes,
          system.resolve ended.2.files path = .ok place ∧
          system.look ended.2.files place = some (some bytes) ∧
          (∀ other, other ≠ place → system.look ended.2.files other = system.look files other) ∧
          ∀ out' err' : Sink,
            let plain := runFrom files (execute (system.host out' err') formats
              { invocation with command := .preprocess file none compact })
            (plain.1 = 0 → plain.2.stdout = bytes) ∧
              (out'.TakesAll → err'.TakesAll → plain.1 = 0)) := by
  intro ended
  have whole : ended = runFrom files (execute (system.host out err) formats invocation) := by
    rw [← run_of_accepted accepted]
  rw [whole]
  cases asks : invocation.command with
  | interpolate text outline base =>
    have unchanged := (exits_execute system formats out err invocation files).2.1
    exact unchanged.trans (files_perform_interpolate asks _)
  | preprocess file output compact =>
    refine ⟨fun fails => fails.ends asks, exit_zero_of_not_fails asks, unchanged_of_exit_one asks,
      fun exit => ?_⟩
    obtain ⟨value, bytes, comes, left⟩ := comes_of_exit_zero asks exit
    cases output with
    | none => exact left.1
    | some path =>
      obtain ⟨place, leads, held, elsewhere⟩ := lawful.write_seen left
      refine ⟨place, bytes, leads, held, elsewhere, fun out' err' => ⟨fun done => ?_, ?_⟩⟩
      · obtain ⟨_, printed, again, -, told⟩ := comes_of_exit_zero rfl done
        rw [told, again.unique comes]
      · exact exit_zero_of_not_fails rfl (comes.not_fails_unnamed rfl)

/-- A document is stored over its own template, which is named by an absolute path. -/
theorem run_all_or_nothing_over_template :
    let path : Text :=
      ['/', 'p', 'r', 'o', 'c', '/', 's', 'e', 'l', 'f', '/', 'c', 'w', 'd', '/', 't']
    let files : Directory :=
      ⟨.folder [(Directory.ownName, .folder [(['t'], .file (Text.encode ['"', '@', 'A', '"']))])]⟩
    let host := Directory.fileSystem.host .open .open
    let ended := runFrom files
      (run host .standard readInvocation [preprocessName, ['-', 'o', 't'], path] none)
    let plain := runFrom files (run host .standard readInvocation [preprocessName, path] none)
    files.resolve path = files.resolve ['t'] ∧ ended.1 = 0 ∧ plain.1 = 0 ∧
      ∃ place, ended.2.files.resolve ['t'] = .ok place ∧
        ended.2.files.look place = some (some plain.2.stdout) := by
  intro path files host ended plain
  have accepted : readInvocation [preprocessName, ['-', 'o', 't'], path] none =
      .ok ⟨.preprocess path (some ['t']) false, false, none⟩ := rfl
  have takes : Sink.open.TakesAll := fun _ _ => rfl
  obtain ⟨-, succeeds, -, stores⟩ :=
    run_all_or_nothing Directory.fileSystem_lawful .standard accepted .open .open files
  have made : outcome Directory.fileSystem .standard files none path =
      .ok (.object [(['R', 'e', 'f'], .string ['A'])]) := by
    have config : (Config.loadOrDefault Config.read files.read files.isFile none).result = .ok {} := rfl
    have held : files.read path = .ok ['"', '@', 'A', '"'] := by cbv
    have processed : (Document.processContent (Json.parse Json.documentDepth) files.read {} path
        (.ok ['"', '@', 'A', '"'])).result = .ok (.object [(['R', 'e', 'f'], .string ['A'])]) := by
      cbv
    change (Config.loadOrDefault Config.read files.read files.isFile none).result.bind _ = _
    rw [config]
    change (Document.processContent _ _ _ _ (files.read path)).result = _
    rw [held]
    exact processed
  have writable (bytes : ByteArray) : ∃ after, files.write ['t'] bytes = .ok after := ⟨_, rfl⟩
  have done : ended.1 = 0 := by
    obtain ⟨after, wrote⟩ := writable _
    exact succeeds (Comes.not_fails_written ⟨made, _, rfl, rfl⟩ rfl wrote) takes takes
  obtain ⟨place, bytes, leads, held, -, prints⟩ := stores done
  obtain ⟨same, prints⟩ := prints .open .open
  have shown : plain.2.stdout = bytes := same (prints takes takes)
  refine ⟨by cbv, done, prints takes takes, place, leads, ?_⟩
  rw [shown]
  exact held

end Program

end CommandLine

end StackTemplate
