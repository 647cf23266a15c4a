import Nexer.Config.Spelling

/-!
# Reading the records without apps

The parser reads back what a tree spells, whatever the order of the keys.  There are two
exceptions: a working directory is not accepted, and the type `http` is accepted but not set.
-/

namespace Nexer.Config

attribute [ext] Command Dummy

section Fields

variable {τ β : Type} {dump : Json → String}

/-- A loop over the entries of an object reads a field back that is spelled under its key. -/
theorem Spelled.field {parse : Key × Json → τ → Outcome τ} {entries : List (Key × Json)}
    {target : τ} {spells : β → Json → Prop} {value : β} {name : String} (field : τ → β)
    (spelled : Spelled spells entries name (field target) value) (read : Json → β → β)
    (one : ∀ entry ∈ entries, ∀ target, field (parse entry target).target =
      if entry.1.name = name then read entry.2 (field target) else field target)
    (reads : ∀ json, spells value json → read json (field target) = value)
    (once : (keys entries).Nodup) (ok : (each parse entries target).ok = true) :
    field (each parse entries target).target = value :=
  (each_field entries target one once ok).trans (spelled.read reads)

@[simp] theorem parseField_ok (parse : Json → Option β) (name : String) (expected : JsonType)
    (value : Json) (assign : β → τ) (target : τ) :
    (parseField parse name expected value assign target).ok = (parse value).isSome := by
  unfold parseField
  cases parse value <;> rfl

@[simp] theorem parseField_target (parse : Json → Option β) (name : String) (expected : JsonType)
    (value : Json) (assign : β → τ) (target : τ) :
    (parseField parse name expected value assign target).target =
      ((parse value).map assign).getD target := by
  unfold parseField
  cases parse value <;> rfl

theorem each_append {f : Json → String} : ∀ (items : List Json) (texts : List String),
    each (fun value texts => { ok := true, target := texts ++ [f value] }) items texts =
      { ok := true, target := texts ++ items.map f }
  | [], texts => by simp [each]
  | item :: rest, texts => by
      rw [each, each_append rest]
      simp [Outcome.logged]

/-- The texts of an array. -/
def textsOf (dump : Json → String) : Json → List String
  | .array _ items => items.map (forceString dump)
  | _ => []

@[simp] theorem parseStrings_ok (name : String) (value : Json) (texts : List String)
    (assign : List String → τ) :
    (parseStrings dump name value texts assign).ok = decide (value.type = .array) := by
  cases value with
  | array line items => simp [parseStrings, parseArray, each_append, Json.type]
  | _ => rfl

@[simp] theorem parseStrings_target (name : String) (value : Json) (texts : List String)
    (assign : List String → τ) :
    (parseStrings dump name value texts assign).target =
      assign (texts ++ textsOf dump value) := by
  cases value with
  | array line items => simp [parseStrings, parseArray, each_append, textsOf]
  | _ => simp [parseStrings, parseArray, textsOf]

theorem SpellsString.parse {text : String} {value : Json} (spells : SpellsString text value) :
    parseString value = some text := by
  obtain ⟨line, rfl⟩ := spells
  rfl

theorem SpellsInt.parse {number : Int32} {value : Json} (spells : SpellsInt number value) :
    parseInt value = some number := by
  obtain ⟨line, rfl⟩ := spells
  simp [parseInt]

theorem SpellsBool.parse {flag : Bool} {value : Json} (spells : SpellsBool flag value) :
    parseBool value = some flag := by
  obtain ⟨line, rfl⟩ := spells
  rfl

theorem type_of_spellsList {spells : β → Json → Prop} {fields : List β} {value : Json}
    (spelled : SpellsList spells fields value) : value.type = .array := by
  obtain ⟨line, items, rfl, -⟩ := spelled
  rfl

theorem textsOf_spelled {texts : List String} {value : Json}
    (spells : SpellsList SpellsString texts value) : textsOf dump value = texts := by
  obtain ⟨line, items, rfl, all⟩ := spells
  have same : items.map (forceString dump) = texts := by
    induction all with
    | nil => rfl
    | cons first _ ih =>
        rw [List.map_cons, ih, forceString, first.parse]
        rfl
  exact same

end Fields

section Commands

variable (dump : Json → String)

/-- Each key writes its own field, but for the directory. -/
theorem parseCommandEntry_target (key : Key) (value : Json) (command : Command) :
    (parseCommandEntry dump key value command).target =
      { file := if key.name = "file" then (parseString value).getD command.file else command.file
        args := if key.name = "args" then command.args ++ textsOf dump value else command.args
        env := if key.name = "env" ∨ key.name = "cwd" then command.env ++ textsOf dump value
          else command.env
        cwd := command.cwd
        timeout := if key.name = "timeout" then (parseInt value).getD command.timeout
          else command.timeout } := by
  unfold parseCommandEntry
  by_cases file : key.name = "file"
  · cases parsed : parseString value <;> simp [file, parsed]
  by_cases args : key.name = "args"
  · simp [args]
  by_cases env : key.name = "env"
  · simp [env]
  by_cases cwd : key.name = "cwd"
  · simp [cwd]
  by_cases timeout : key.name = "timeout"
  · cases parsed : parseInt value <;> simp [timeout, parsed]
  · simp [file, args, env, cwd, timeout, unknownKey]

/-- A command is read when it has no working directory. -/
theorem read_command {timeout : Int32} {command : Command} {value : Json}
    (spells : SpellsCommand timeout command value) :
    (∀ start, (parseCommand dump value start).ok = true ↔ value.Free "cwd") ∧
      (value.Free "cwd" → (parseCommand dump value { timeout }).target = command) := by
  cases spells with
  | @object line entries command keyed file args env cwd limit =>
      have accepted : ∀ entry ∈ entries, ∀ target,
          (parseCommandEntry dump entry.1 entry.2 target).ok = true ↔ entry.1.name ≠ "cwd" := by
        rintro ⟨⟨name, number⟩, value⟩ member target
        have known := keyed.known _ member
        simp only [List.mem_cons, List.not_mem_nil, or_false] at known
        rcases known with rfl | rfl | rfl | rfl | rfl
        · simp [parseCommandEntry, (file.value keyed.once member rfl).parse]
        · have array : value.type = .array := type_of_spellsList (args.value keyed.once member rfl)
          simp [parseCommandEntry, array]
        · have array : value.type = .array := type_of_spellsList (env.value keyed.once member rfl)
          simp [parseCommandEntry, array]
        · obtain ⟨_, rfl⟩ := cwd.value keyed.once member rfl
          simp [parseCommandEntry, Json.type]
        · simp [parseCommandEntry, (limit.value keyed.once member rfl).parse]
      have ok : ∀ start, (parseCommand dump (.object line entries) start).ok = true ↔
          "cwd" ∉ keys entries := by
        intro start
        refine (each_ok_iff entries start accepted).trans ?_
        simp [keys]
      have free : (Json.object line entries).Free "cwd" ↔ "cwd" ∉ keys entries := by
        refine (and_iff_left (freeEntries_iff.2 ?_))
        rintro ⟨⟨name, number⟩, value⟩ member
        have known := keyed.known _ member
        simp only [List.mem_cons, List.not_mem_nil, or_false] at known
        rcases known with rfl | rfl | rfl | rfl | rfl
        · exact (file.value keyed.once member rfl).free _
        · exact free_of_spellsStrings (args.value keyed.once member rfl) _
        · exact free_of_spellsStrings (env.value keyed.once member rfl) _
        · exact (cwd.value keyed.once member rfl).free _
        · exact (limit.value keyed.once member rfl).free _
      refine ⟨fun start => (ok start).trans free.symm, fun found => ?_⟩
      have absent := free.1 found
      have unset : valueAt "cwd" entries = none := valueAt_eq_none absent
      have others : ∀ entry ∈ entries, entry.1.name ≠ "cwd" :=
        fun entry member same => absent (List.mem_map.2 ⟨entry, member, same⟩)
      have target : ∀ entry ∈ entries, ∀ target, _ := fun entry (_ : entry ∈ entries) target =>
        parseCommandEntry_target dump entry.1 entry.2 target
      have accepted := (ok { timeout }).2 absent
      apply Command.ext
      · exact file.field Command.file (fun value old => (parseString value).getD old)
          (fun entry member t => congrArg Command.file (target entry member t))
          (fun _ spells => by rw [spells.parse]; rfl) keyed.once accepted
      · exact args.field Command.args (fun value old => old ++ textsOf dump value)
          (fun entry member t => congrArg Command.args (target entry member t))
          (fun _ spells => textsOf_spelled spells) keyed.once accepted
      · exact env.field Command.env (fun value old => old ++ textsOf dump value)
          (fun entry member t => (congrArg Command.env (target entry member t)).trans
            (by simp [others entry member]))
          (fun _ spells => textsOf_spelled spells) keyed.once accepted
      · have kept := @each_field _ _ _ Command.cwd "cwd" (fun _ old => old) entries { timeout }
          (fun entry member t => (congrArg Command.cwd (target entry member t)).trans
            (ite_self _).symm) keyed.once accepted
        have empty : command.cwd = "" := by simpa [Spelled, unset] using cwd
        rw [empty]
        exact kept.trans (by rw [unset]; rfl)
      · exact limit.field Command.timeout (fun value old => (parseInt value).getD old)
          (fun entry member t => congrArg Command.timeout (target entry member t))
          (fun _ spells => by rw [spells.parse]; rfl) keyed.once accepted

end Commands

theorem read_admin {admin : Admin} {value : Json} (spells : SpellsAdmin admin value) :
    (parseAdmin value { port := 19500 }).ok = true ∧
      (parseAdmin value { port := 19500 }).target = admin ∧ value.Free "cwd" := by
  cases spells with
  | @object line entries admin keyed port =>
      have listen : ∀ entry ∈ entries, entry.1.name = "listen" := fun entry member =>
        List.mem_singleton.1 (keyed.known entry member)
      have spelled : ∀ entry ∈ entries, SpellsInt admin.port entry.2 := fun entry member =>
        port.value keyed.once member (listen entry member)
      have ok : (parseAdmin (.object line entries) { port := 19500 }).ok = true := by
        refine each_accepted _ fun entry member target => ?_
        simp [listen entry member, (spelled entry member).parse]
      have read := port.field Admin.port (fun value old => (parseInt value).getD old)
        (fun entry member target => by
          simp [listen entry member, (spelled entry member).parse])
        (fun _ spells => by rw [spells.parse]; rfl) keyed.once ok
      refine ⟨ok, ?_, (keyed.free_iff (by decide) line).2 fun entry member =>
        (spelled entry member).free _⟩
      cases admin
      exact congrArg Admin.mk read

theorem parseLevel_text (level : Level) : parseLevel level.text = some level := by
  cases level <;> decide

theorem parseLoggerEntry_target (key : Key) (value : Json) (logger : Logger) :
    (parseLoggerEntry key value logger).target =
      { file := if key.name = "file" then (parseString value).getD logger.file else logger.file
        level := if key.name = "level" then ((parseString value).bind parseLevel).getD logger.level
          else logger.level } := by
  unfold parseLoggerEntry
  by_cases file : key.name = "file"
  · cases parsed : parseString value <;> simp [file, parsed]
  by_cases level : key.name = "level"
  · cases parsed : parseString value with
    | none => simp [level]
    | some name => cases known : parseLevel name <;> simp [level, known]
  · simp [file, level, unknownKey]

theorem read_logger {logger : Logger} {value : Json} (spells : SpellsLogger logger value) :
    (parseLogger value {}).ok = true ∧ (parseLogger value {}).target = logger ∧
      value.Free "cwd" := by
  cases spells with
  | @object line entries logger keyed file level =>
      have known : ∀ entry ∈ entries, entry.1.name = "file" ∨ entry.1.name = "level" := by
        simpa using keyed.known
      have ok : (parseLogger (.object line entries) {}).ok = true := by
        refine each_accepted _ fun entry member target => ?_
        rcases known entry member with named | named
        · simp [parseLoggerEntry, named, (file.value keyed.once member named).parse]
        · simp [parseLoggerEntry, named, (level.value keyed.once member named).parse,
            parseLevel_text]
      have read_file := file.field Logger.file (fun value old => (parseString value).getD old)
        (fun entry _ target => congrArg Logger.file (parseLoggerEntry_target entry.1 entry.2 target))
        (fun _ spells => by rw [spells.parse]; rfl) keyed.once ok
      have read_level := level.field Logger.level
        (fun value old => ((parseString value).bind parseLevel).getD old)
        (fun entry _ target => congrArg Logger.level (parseLoggerEntry_target entry.1 entry.2 target))
        (fun _ spells => by rw [spells.parse, Option.bind_some, parseLevel_text]; rfl)
        keyed.once ok
      refine ⟨ok, ?_, (keyed.free_iff (by decide) line).2 fun entry member => ?_⟩
      · cases logger
        exact congrArg₂ Logger.mk read_file read_level
      · rcases known entry member with named | named
        · exact (file.value keyed.once member named).free _
        · exact (level.value keyed.once member named).free _

section Dummies

/-- The type that is set: there is no assignment for `http`. -/
def setType (type : DummyType) : DummyType :=
  if type = .http then .tcp else type

def Dummy.read (dummy : Dummy) : Dummy :=
  { dummy with type := setType dummy.type }

theorem parseType_ok {type : DummyType} {value : Json} (spells : SpellsString type.text value)
    (old : DummyType) : (parseType value old).ok = true := by
  obtain ⟨line, rfl⟩ := spells
  cases type <;> rfl

theorem parseType_target {type : DummyType} {value : Json} (spells : SpellsString type.text value) :
    (parseType value .tcp).target = setType type := by
  obtain ⟨line, rfl⟩ := spells
  cases type <;> rfl

theorem parseDummyEntry_target (key : Key) (value : Json) (dummy : Dummy) :
    (parseDummyEntry key value dummy).target =
      { type := if key.name = "type" then (parseType value dummy.type).target else dummy.type
        port := if key.name = "listen" then (parseInt value).getD dummy.port else dummy.port
        echo := if key.name = "echo" then (parseBool value).getD dummy.echo else dummy.echo } := by
  unfold parseDummyEntry
  by_cases type : key.name = "type"
  · simp [type]
  by_cases port : key.name = "listen"
  · cases parsed : parseInt value <;> simp [port, parsed]
  by_cases echo : key.name = "echo"
  · cases parsed : parseBool value <;> simp [echo, parsed]
  · simp [type, port, echo, unknownKey]

theorem read_dummy {dummy : Dummy} {value : Json} (spells : SpellsDummy dummy value) :
    (parseDummy value {}).ok = true ∧ (parseDummy value {}).target = dummy.read ∧
      value.Free "cwd" := by
  cases spells with
  | @object line entries dummy keyed type port echo =>
      have known : ∀ entry ∈ entries, entry.1.name = "type" ∨ entry.1.name = "listen" ∨
          entry.1.name = "echo" := by
        simpa using keyed.known
      have ok : (parseDummy (.object line entries) {}).ok = true := by
        refine each_accepted _ fun entry member target => ?_
        rcases known entry member with named | named | named
        · simp [parseDummyEntry, named, parseType_ok (type.value keyed.once member named)]
        · simp [parseDummyEntry, named, (port.value keyed.once member named).parse]
        · simp [parseDummyEntry, named, (echo.value keyed.once member named).parse]
      have target := parseDummyEntry_target
      have read_type := (type.map setType).field Dummy.type
        (fun value old => (parseType value old).target)
        (fun entry _ t => congrArg Dummy.type (target entry.1 entry.2 t))
        (fun _ spells => by
          obtain ⟨type, same, spells⟩ := spells
          exact (parseType_target spells).trans same.symm) keyed.once ok
      have read_port := port.field Dummy.port (fun value old => (parseInt value).getD old)
        (fun entry _ t => congrArg Dummy.port (target entry.1 entry.2 t))
        (fun _ spells => by rw [spells.parse]; rfl) keyed.once ok
      have read_echo := echo.field Dummy.echo (fun value old => (parseBool value).getD old)
        (fun entry _ t => congrArg Dummy.echo (target entry.1 entry.2 t))
        (fun _ spells => by rw [spells.parse]; rfl) keyed.once ok
      refine ⟨ok, ?_, (keyed.free_iff (by decide) line).2 fun entry member => ?_⟩
      · exact Dummy.ext read_type read_port read_echo
      · rcases known entry member with named | named | named
        · exact (type.value keyed.once member named).free _
        · exact (port.value keyed.once member named).free _
        · exact (echo.value keyed.once member named).free _

theorem read_dummies {dummies : List Dummy} {value : Json}
    (spells : SpellsList SpellsDummy dummies value) :
    (parseDummies value []).ok = true ∧
      (parseDummies value []).target = dummies.map Dummy.read ∧ value.Free "cwd" := by
  obtain ⟨line, items, rfl, all⟩ := spells
  have loop : ∀ old, (parseDummies (.array line items) old).ok = true ∧
      (parseDummies (.array line items) old).target = old ++ dummies.map Dummy.read ∧
        FreeItems "cwd" items := by
    induction all with
    | nil => exact fun old => ⟨rfl, by simp [parseDummies, parseArray, each], trivial⟩
    | @cons dummy value dummies items first _ ih =>
        intro old
        obtain ⟨ok, target, free⟩ := read_dummy first
        obtain ⟨ok', target', free'⟩ := ih (old ++ [dummy.read])
        simp only [parseDummies, parseArray] at ok' target' ⊢
        rw [each]
        simp only [ok, target, if_true]
        refine ⟨ok', target'.trans ?_, free, free'⟩
        simp
  exact loop []

end Dummies

end Nexer.Config
