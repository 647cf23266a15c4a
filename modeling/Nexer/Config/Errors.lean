import Nexer.Config.Entering

/-!
# Errors of a configuration

A schema says which trees are accepted.  An accepted tree has no errors and a rejected one has
some, but for the level of the logger: an unknown one is an error in an accepted tree.
-/

namespace Nexer.Config

section Schema

/-- An object whose entries are fields with accepted values. -/
def ValidObject (fields : List (String × (Json → Prop))) : Json → Prop
  | .object _ entries => ∀ entry ∈ entries, ∃ field ∈ fields,
      field.1 = entry.1.name ∧ field.2 entry.2
  | _ => False

def ValidArray (valid : Json → Prop) : Json → Prop
  | .array _ items => ∀ item ∈ items, valid item
  | _ => False

def OfType (type : JsonType) (value : Json) : Prop := value.type = type

def adminFields : List (String × (Json → Prop)) := [("listen", OfType .integer)]

def loggerFields : List (String × (Json → Prop)) :=
  [("file", OfType .string), ("level", OfType .string)]

def commandFields : List (String × (Json → Prop)) :=
  [("file", OfType .string), ("args", OfType .array), ("env", OfType .array),
    ("cwd", OfType .array), ("timeout", OfType .integer)]

def ValidType (value : Json) : Prop :=
  ∃ line, ∃ text ∈ ["tcp", "udp", "http"], value = .string line text

def dummyFields : List (String × (Json → Prop)) :=
  [("type", ValidType), ("listen", OfType .integer), ("echo", OfType .bool)]

/-- The fields of an app other than `preamble`. -/
def appFields : List (String × (Json → Prop)) :=
  [("name", fun _ => True), ("command", ValidObject commandFields),
    ("checker", ValidObject commandFields), ("max_start_time", OfType .integer),
    ("tags", OfType .array)]

mutual

/-- A nonempty name, or an object. -/
def ValidApp : Json → Prop
  | .string _ name => name ≠ ""
  | .object _ entries => ValidAppEntries entries
  | _ => False

def ValidAppEntries : List (Key × Json) → Prop
  | [] => True
  | (key, value) :: rest =>
      (if key.name = "preamble" then ValidPreamble value
        else ∃ field ∈ appFields, field.1 = key.name ∧ field.2 value) ∧ ValidAppEntries rest

def ValidPreamble : Json → Prop
  | .array _ items => ValidApps items
  | _ => False

def ValidApps : List Json → Prop
  | [] => True
  | value :: rest => ValidApp value ∧ ValidApps rest

end

def upstreamFields : List (String × (Json → Prop)) :=
  [("host", OfType .string), ("port", OfType .integer), ("connect_timeout", OfType .integer),
    ("app", ValidApp), ("tags", OfType .array)]

def proxyFields : List (String × (Json → Prop)) :=
  [("upstream", ValidObject upstreamFields), ("listen", OfType .integer)]

def documentFields : List (String × (Json → Prop)) :=
  [("admin", ValidObject adminFields), ("logger", ValidObject loggerFields),
    ("proxies", ValidArray (ValidObject proxyFields)), ("apps", ValidArray ValidApp),
    ("dummy", ValidArray (ValidObject dummyFields))]

/-- A level that is none of `level_names`. -/
def UnknownLevel (key : Key) (value : Json) : Prop :=
  key.name = "level" ∧ ∃ line text, value = .string line text ∧ parseLevel text = none

/-- The logger of the document has a level that is none of `level_names`. -/
def UnknownLoggerLevel (document : Json) : Prop :=
  ∃ line entries, document = .object line entries ∧ ∃ entry ∈ entries, entry.1.name = "logger" ∧
    ∃ line' entries', entry.2 = .object line' entries' ∧
      ∃ entry' ∈ entries', UnknownLevel entry'.1 entry'.2

end Schema

/-- A tree is accepted when it is valid; then it has errors when it is strange, and otherwise it
has errors in any case. -/
structure Judged {τ : Type} (outcome : Outcome τ) (valid strange : Prop) : Prop where
  ok : outcome.ok = true ↔ valid
  failed : ¬valid → outcome.errors ≠ []
  accepted : valid → (outcome.errors ≠ [] ↔ strange)

section Values

variable {τ ι β : Type}

theorem Judged.congr {outcome : Outcome τ} {valid strange valid' strange' : Prop}
    (judged : Judged outcome valid strange) (same : valid ↔ valid') (same' : strange ↔ strange') :
    Judged outcome valid' strange' := by
  rwa [← same, ← same']

/-- The target of an outcome does not matter. -/
theorem Judged.retarget {τ' : Type} {outcome : Outcome τ} {valid strange : Prop}
    (judged : Judged outcome valid strange) (target : τ') :
    Judged { outcome with target } valid strange :=
  ⟨judged.ok, judged.failed, judged.accepted⟩

theorem judged_success (target : τ) : Judged { ok := true, target } True False :=
  ⟨by simp, by simp, by simp⟩

theorem judged_failure {target : τ} {errors : List ConfigError} (reported : errors ≠ []) :
    Judged { ok := false, target, errors } False False :=
  ⟨by simp, fun _ => reported, False.elim⟩

/-- One step of a loop, and the rest of it. -/
theorem Judged.andThen {first : Outcome τ} {valid strange valid' strange' : Prop}
    (judged : Judged first valid strange) {next : τ → Outcome τ}
    (rest : Judged (next first.target) valid' strange') :
    Judged (if first.ok then (next first.target).logged first.errors else first)
      (valid ∧ valid') (strange ∨ strange') := by
  by_cases here : valid
  · rw [if_pos (judged.ok.2 here)]
    simp only [here, true_and]
    refine ⟨rest.ok, fun bad none => ?_, fun good => ?_⟩
    · exact rest.failed bad (List.append_eq_nil_iff.1 none).2
    · rw [Outcome.logged, ne_eq, List.append_eq_nil_iff, not_and_or]
      exact or_congr (judged.accepted here) (rest.accepted good)
  · have rejected : ¬first.ok = true := fun ok => here (judged.ok.1 ok)
    rw [if_neg rejected]
    refine ⟨?_, fun _ => judged.failed here, fun both => absurd both.1 here⟩
    exact iff_of_false rejected fun both => here both.1

theorem each_judged {parse : ι → τ → Outcome τ} {valid strange : ι → Prop} :
    ∀ (items : List ι) (target : τ),
      (∀ item ∈ items, ∀ target, Judged (parse item target) (valid item) (strange item)) →
        Judged (each parse items target) (∀ item ∈ items, valid item)
          (∃ item ∈ items, strange item)
  | [], target, _ => (judged_success target).congr (by simp) (by simp)
  | item :: rest, target, one => by
      have first := one item (.head _) target
      have others := each_judged rest (parse item target).target fun other member =>
        one other (.tail _ member)
      rw [each]
      exact (first.andThen others).congr (by simp) (by simp)

theorem parseField_judged (parse : Json → Option β) (name : String) (expected : JsonType)
    (value : Json) (assign : β → τ) (target : τ) :
    Judged (parseField parse name expected value assign target) ((parse value).isSome = true)
      False := by
  unfold parseField
  cases parse value with
  | none => exact (judged_failure (by simp)).congr (by simp) .rfl
  | some field => exact (judged_success _).congr (by simp) .rfl

theorem parseInt_isSome (value : Json) : (parseInt value).isSome = true ↔ OfType .integer value := by
  cases value <;> simp [parseInt, OfType, Json.type]

theorem parseBool_isSome (value : Json) : (parseBool value).isSome = true ↔ OfType .bool value := by
  cases value <;> simp [parseBool, OfType, Json.type]

theorem parseString_isSome (value : Json) :
    (parseString value).isSome = true ↔ OfType .string value := by
  cases value <;> simp [parseString, OfType, Json.type]

theorem parseStrings_judged (dump : Json → String) (name : String) (value : Json)
    (texts : List String) (assign : List String → τ) :
    Judged (parseStrings dump name value texts assign) (OfType .array value) False := by
  cases value with
  | array line items =>
      simp only [parseStrings, parseArray, each_append]
      exact (judged_success _).congr (by simp [OfType, Json.type]) .rfl
  | _ => exact (judged_failure (by simp [parseArray])).congr (by simp [OfType, Json.type]) .rfl

/-- A key that stands for no field. -/
theorem unknownKey_judged (name : String) (key : Key) (value : Json) (target : τ) :
    Judged (unknownKey name key target)
      (∃ field ∈ ([] : List (String × (Json → Prop))), field.1 = key.name ∧ field.2 value) False :=
  (judged_failure (by simp)).congr (by simp) .rfl

/-- One test in the chain of names: the field with this name, and the chain for the others. -/
theorem Judged.field {name : String} {accepts : Json → Prop}
    {fields : List (String × (Json → Prop))} {key : Key} {value : Json}
    {first others : Outcome τ} {strange : Prop} (absent : name ∉ fields.map Prod.fst)
    (here : key.name = name → Judged first (accepts value) strange)
    (below : key.name ≠ name →
      Judged others (∃ field ∈ fields, field.1 = key.name ∧ field.2 value) strange) :
    Judged (if key.name = name then first else others)
      (∃ field ∈ (name, accepts) :: fields, field.1 = key.name ∧ field.2 value) strange := by
  split
  · next same =>
    refine (here same).congr ⟨fun good => ⟨_, .head _, same.symm, good⟩, ?_⟩ .rfl
    rintro ⟨field, member, named, good⟩
    rcases List.mem_cons.mp member with rfl | member
    · exact good
    · exact absurd (List.mem_map.mpr ⟨field, member, named.trans same⟩) absent
  · next other => exact (below other).congr (by simp [Ne.symm other]) .rfl

/-- An object is accepted when each of its entries is. -/
theorem parseObject_judged {name : String} {parse : Key → Json → τ → Outcome τ}
    {fields : List (String × (Json → Prop))} {strange : Key → Json → Prop}
    (one : ∀ key value target, Judged (parse key value target)
      (∃ field ∈ fields, field.1 = key.name ∧ field.2 value) (strange key value))
    (value : Json) (target : τ) :
    Judged (parseObject name parse value target) (ValidObject fields value)
      (∃ line entries, value = .object line entries ∧
        ∃ entry ∈ entries, strange entry.1 entry.2) := by
  cases value with
  | object line entries =>
      have all := each_judged entries target fun entry _ => one entry.1 entry.2
      exact all.congr .rfl (by simp)
  | _ => exact (judged_failure (by simp)).congr .rfl (by simp)

/-- The same for objects without strange entries. -/
theorem parseFields_judged {name : String} {parse : Key → Json → τ → Outcome τ}
    {fields : List (String × (Json → Prop))}
    (one : ∀ key value target, Judged (parse key value target)
      (∃ field ∈ fields, field.1 = key.name ∧ field.2 value) False)
    (value : Json) (target : τ) :
    Judged (parseObject name parse value target) (ValidObject fields value) False :=
  (parseObject_judged one value target).congr .rfl (by simp)

theorem parseArray_judged {name : String} {parse : Json → τ → Outcome τ} {valid : Json → Prop}
    (one : ∀ value target, Judged (parse value target) (valid value) False)
    (value : Json) (target : τ) :
    Judged (parseArray name parse value target) (ValidArray valid value) False := by
  cases value with
  | array line items =>
      have all := each_judged items target fun item _ => one item
      exact all.congr .rfl (by simp)
  | _ => exact (judged_failure (by simp)).congr .rfl .rfl

end Values

section Records

theorem parseAdmin_judged (value : Json) (admin : Admin) :
    Judged (parseAdmin value admin) (ValidObject adminFields value) False := by
  refine parseFields_judged (fun key value admin => ?_) value admin
  refine .field (by decide) (fun _ => ?listen) fun _ => unknownKey_judged _ _ _ _
  exact (parseField_judged _ _ _ _ _ _).congr (parseInt_isSome value) .rfl

/-- An unknown level is reported and accepted. -/
theorem parseLogger_judged (value : Json) (logger : Logger) :
    Judged (parseLogger value logger) (ValidObject loggerFields value)
      (∃ line entries, value = .object line entries ∧
        ∃ entry ∈ entries, UnknownLevel entry.1 entry.2) := by
  refine parseObject_judged (fun key value logger => ?_) value logger
  unfold parseLoggerEntry
  refine .field (by decide) (fun file => ?file) fun _ =>
    .field (by decide) (fun level => ?level) fun other => ?unknown
  case file =>
    exact (parseField_judged _ _ _ _ _ _).congr (parseString_isSome value)
      (by simp [UnknownLevel, file])
  case level =>
    cases value with
    | string line text =>
        simp only [parseString]
        cases known : parseLevel text with
        | some _ =>
            exact (judged_success _).congr (by simp [OfType, Json.type])
              (by simp [UnknownLevel, known])
        | none =>
            refine ⟨?_, ?_, ?_⟩
            · simp [OfType, Json.type]
            · simp
            · simp [UnknownLevel, level, known]
    | _ =>
        exact (judged_failure (by simp)).congr (by simp [OfType, Json.type])
          (by simp [UnknownLevel])
  case unknown => exact (unknownKey_judged _ _ value _).congr .rfl (by simp [UnknownLevel, other])

theorem parseCommand_judged (dump : Json → String) (value : Json) (command : Command) :
    Judged (parseCommand dump value command) (ValidObject commandFields value) False := by
  refine parseFields_judged (fun key value command => ?_) value command
  unfold parseCommandEntry
  refine .field (by decide) (fun _ => ?file) fun _ => .field (by decide) (fun _ => ?args) fun _ =>
    .field (by decide) (fun _ => ?env) fun _ => .field (by decide) (fun _ => ?cwd) fun _ =>
    .field (by decide) (fun _ => ?timeout) fun _ => unknownKey_judged _ _ _ _
  case file => exact (parseField_judged _ _ _ _ _ _).congr (parseString_isSome value) .rfl
  case args | env | cwd => exact parseStrings_judged _ _ _ _ _
  case timeout => exact (parseField_judged _ _ _ _ _ _).congr (parseInt_isSome value) .rfl

theorem parseType_judged (value : Json) (type : DummyType) :
    Judged (parseType value type) (ValidType value) False := by
  cases value with
  | string line text =>
      have valid : ValidType (.string line text) ↔ text = "tcp" ∨ text = "udp" ∨ text = "http" := by
        simp only [ValidType, Json.string.injEq, List.mem_cons, List.not_mem_nil, or_false]
        exact ⟨fun ⟨_, _, known, _, same⟩ => same ▸ known, fun known => ⟨line, text, known, rfl, rfl⟩⟩
      refine Judged.congr ?_ valid.symm .rfl
      unfold parseType
      by_cases tcp : text = "tcp"
      · simp only [if_pos tcp]
        exact (judged_success _).congr (by simp [tcp]) .rfl
      by_cases udp : text = "udp"
      · simp only [if_neg tcp, if_pos udp]
        exact (judged_success _).congr (by simp [udp]) .rfl
      by_cases http : text = "http"
      · simp only [if_neg tcp, if_neg udp, if_pos http]
        exact (judged_success _).congr (by simp [http]) .rfl
      · simp only [if_neg tcp, if_neg udp, if_neg http]
        exact (judged_failure (by simp)).congr (by simp [tcp, udp, http]) .rfl
  | _ => exact (judged_failure (by simp)).congr (by simp [ValidType]) .rfl

theorem parseDummy_judged (value : Json) (dummy : Dummy) :
    Judged (parseDummy value dummy) (ValidObject dummyFields value) False := by
  refine parseFields_judged (fun key value dummy => ?_) value dummy
  unfold parseDummyEntry
  refine .field (by decide) (fun _ => ?type) fun _ => .field (by decide) (fun _ => ?listen) fun _ =>
    .field (by decide) (fun _ => ?echo) fun _ => unknownKey_judged _ _ _ _
  case type => exact (parseType_judged value dummy.type).retarget _
  case listen => exact (parseField_judged _ _ _ _ _ _).congr (parseInt_isSome value) .rfl
  case echo => exact (parseField_judged _ _ _ _ _ _).congr (parseBool_isSome value) .rfl

theorem parseDummies_judged (value : Json) (dummies : List Dummy) :
    Judged (parseDummies value dummies) (ValidArray (ValidObject dummyFields) value) False :=
  parseArray_judged (fun value _ => (parseDummy_judged value {}).retarget _) value dummies

end Records

section Apps

variable {π κ σ : Type} (dump : Json → String) (store : Store π κ σ)

theorem parseAppEntry_judged (key : Key) (value : Json) (target : App π κ × σ) :
    Judged (parseAppEntry dump store key value target)
      (∃ field ∈ appFields, field.1 = key.name ∧ field.2 value) False := by
  unfold parseAppEntry
  obtain ⟨app, state⟩ := target
  dsimp only
  refine .field (by decide) (fun _ => ?name) fun _ =>
    .field (by decide) (fun _ => ?command) fun _ => .field (by decide) (fun _ => ?checker) fun _ =>
    .field (by decide) (fun _ => ?time) fun _ => .field (by decide) (fun _ => ?tags) fun _ =>
    unknownKey_judged _ _ _ _
  case name => exact judged_success _
  case command => exact (parseCommand_judged dump value app.command).retarget _
  case checker => exact (parseCommand_judged dump value { timeout := 10000 }).retarget _
  case time => exact (parseField_judged _ _ _ _ _ _).congr (parseInt_isSome value) .rfl
  case tags => exact parseStrings_judged _ _ _ _ _

/-- What `ParseApp` returns, with the errors that it has logged itself. -/
structure Resolved (outcome : Outcome (Option π × σ)) (valid : Prop) : Prop where
  found : outcome.target.1.isSome = true ↔ valid
  silent : valid → outcome.errors = []

mutual

theorem parseApp_resolved : ∀ (value : Json) (state : σ),
    Resolved (parseApp dump store value state) (ValidApp value)
  | .string _ name, state => by
      unfold parseApp
      by_cases named : name ≠ ""
      · simp only [if_pos named]
        exact ⟨by simp [ValidApp, named], by simp⟩
      · simp only [if_neg named]
        exact ⟨by simp [ValidApp, not_not.1 named], by simp⟩
  | .object _ entries, state => by
      have parsed := parseAppObject_judged entries ({}, state)
      unfold parseApp ValidApp
      by_cases valid : ValidAppEntries entries
      · have silent := parsed.accepted valid
        simp only [if_pos (parsed.ok.2 valid)]
        exact ⟨by simp [valid], fun _ => not_not.1 silent.1⟩
      · simp only [if_neg fun ok => valid (parsed.ok.1 ok)]
        exact ⟨by simp [valid], fun good => absurd good valid⟩
  | .undefined _, _ | .null _, _ | .bool _ _, _ | .integer _ _, _ | .number _ _, _
  | .array _ _, _ => by
      unfold parseApp
      exact ⟨by simp [ValidApp], by simp [ValidApp]⟩

theorem parseAppObject_judged : ∀ (entries : List (Key × Json)) (target : App π κ × σ),
    Judged (parseAppObject dump store entries target) (ValidAppEntries entries) False
  | [], target => by
      unfold parseAppObject ValidAppEntries
      exact judged_success target
  | (key, value) :: rest, target => by
      have first : Judged (if key.name = "preamble" then parsePreamble dump store value target
          else parseAppEntry dump store key value target)
          (if key.name = "preamble" then ValidPreamble value
            else ∃ field ∈ appFields, field.1 = key.name ∧ field.2 value) False := by
        split
        · exact parsePreamble_judged value target
        · exact parseAppEntry_judged dump store key value target
      unfold parseAppObject ValidAppEntries
      exact (first.andThen (parseAppObject_judged rest _)).congr .rfl (by simp)

theorem parsePreamble_judged : ∀ (value : Json) (target : App π κ × σ),
    Judged (parsePreamble dump store value target) (ValidPreamble value) False
  | .array _ items, target => by
      unfold parsePreamble ValidPreamble
      exact parsePreambles_judged items target
  | .undefined _, _ | .null _, _ | .bool _ _, _ | .integer _ _, _ | .number _ _, _
  | .string _ _, _ | .object _ _, _ => by
      unfold parsePreamble
      exact (judged_failure (by simp)).congr (by simp [ValidPreamble]) .rfl

theorem parsePreambles_judged : ∀ (items : List Json) (target : App π κ × σ),
    Judged (parsePreambles dump store items target) (ValidApps items) False
  | [], target => by
      unfold parsePreambles ValidApps
      exact judged_success target
  | value :: rest, (app, state) => by
      have first := parseApp_resolved value state
      unfold parsePreambles ValidApps
      generalize parseApp dump store value state = parsed at first ⊢
      obtain ⟨_, ⟨preamble, state⟩, errors⟩ := parsed
      cases preamble with
      | none =>
          have invalid : ¬ValidApp value := by simpa using first.found
          exact (judged_failure (by simp)).congr (by simp [invalid]) .rfl
      | some preamble =>
          have valid : ValidApp value := by simpa using first.found
          obtain rfl : errors = [] := first.silent valid
          have others := parsePreambles_judged rest
            ({ app with preamble := app.preamble ++ [preamble] }, state)
          exact others.congr (by simp [valid]) .rfl

end

theorem parseUpstream_judged (value : Json) (target : Upstream π × σ) :
    Judged (parseUpstream dump store value target) (ValidObject upstreamFields value) False := by
  refine parseFields_judged (fun key value target => ?_) value target
  obtain ⟨upstream, state⟩ := target
  unfold parseUpstreamEntry
  dsimp only
  refine .field (by decide) (fun _ => ?host) fun _ => .field (by decide) (fun _ => ?port) fun _ =>
    .field (by decide) (fun _ => ?timeout) fun _ => .field (by decide) (fun _ => ?app) fun _ =>
    .field (by decide) (fun _ => ?tags) fun _ => unknownKey_judged _ _ _ _
  case host => exact (parseField_judged _ _ _ _ _ _).congr (parseString_isSome value) .rfl
  case port | timeout =>
    exact (parseField_judged _ _ _ _ _ _).congr (parseInt_isSome value) .rfl
  case app =>
    have resolved := parseApp_resolved dump store value state
    by_cases found : (parseApp dump store value state).target.1.isSome = true
    · rw [if_pos found, resolved.silent (resolved.found.1 found)]
      exact (judged_success _).congr (by simp [resolved.found.1 found]) .rfl
    · rw [if_neg found]
      exact (judged_failure (by simp)).congr (by simp [← resolved.found, found]) .rfl
  case tags => exact parseStrings_judged _ _ _ _ _

theorem parseProxy_judged (value : Json) (target : Proxy π × σ) :
    Judged (parseProxy dump store value target) (ValidObject proxyFields value) False := by
  refine parseFields_judged (fun key value target => ?_) value target
  obtain ⟨proxy, state⟩ := target
  unfold parseProxyEntry
  dsimp only
  refine .field (by decide) (fun _ => ?upstream) fun _ =>
    .field (by decide) (fun _ => ?listen) fun _ => unknownKey_judged _ _ _ _
  case upstream =>
    exact (parseUpstream_judged dump store value (proxy.upstream, state)).retarget _
  case listen => exact (parseField_judged _ _ _ _ _ _).congr (parseInt_isSome value) .rfl

theorem parseProxies_judged (value : Json) (config : Config π σ) :
    Judged (parseProxies dump store value config) (ValidArray (ValidObject proxyFields) value)
      False := by
  refine parseArray_judged (fun value config => ?_) value config
  exact (parseProxy_judged dump store value ({}, config.store)).retarget _

theorem parseApps_judged (value : Json) (config : Config π σ) :
    Judged (parseApps dump store value config) (ValidArray ValidApp value) False := by
  refine parseArray_judged (fun value config => ?_) value config
  have resolved := parseApp_resolved dump store value config.store
  generalize parseApp dump store value config.store = parsed at resolved ⊢
  obtain ⟨_, ⟨app, state⟩, errors⟩ := parsed
  cases app with
  | none =>
      have invalid : ¬ValidApp value := by simpa using resolved.found
      exact (judged_failure (by simp)).congr (by simp [invalid]) .rfl
  | some app =>
      have valid : ValidApp value := by simpa using resolved.found
      obtain rfl : errors = [] := resolved.silent valid
      exact (judged_success _).congr (by simp [valid]) .rfl

/-- The level of a logger under this key is unknown. -/
def StrangeLogger (key : Key) (value : Json) : Prop :=
  key.name = "logger" ∧ ∃ line entries, value = .object line entries ∧
    ∃ entry ∈ entries, UnknownLevel entry.1 entry.2

theorem parseEntry_judged (key : Key) (value : Json) (config : Config π σ) :
    Judged (parseEntry dump store key value config)
      (∃ field ∈ documentFields, field.1 = key.name ∧ field.2 value) (StrangeLogger key value) := by
  unfold parseEntry
  refine .field (by decide) (fun admin => ?admin) fun _ =>
    .field (by decide) (fun logger => ?logger) fun other => ?others
  case admin =>
    exact ((parseAdmin_judged value config.admin).retarget _).congr .rfl
      (by simp [StrangeLogger, admin])
  case logger =>
    exact ((parseLogger_judged value config.logger).retarget _).congr .rfl
      (by simp [StrangeLogger, logger])
  case others =>
    refine Judged.congr ?_ .rfl (by simp [StrangeLogger, other] : False ↔ _)
    refine .field (by decide) (fun _ => ?proxies) fun _ => .field (by decide) (fun _ => ?apps) fun _ =>
      .field (by decide) (fun _ => ?dummy) fun _ => ?unknown
    case proxies => exact parseProxies_judged dump store value config
    case apps => exact parseApps_judged dump store value config
    case dummy => exact (parseDummies_judged value config.dummies).retarget _
    case unknown => exact (judged_failure (by simp)).congr (by simp) .rfl

theorem parse_judged (value : Json) (config : Config π σ) :
    Judged (parse dump store value config) (ValidObject documentFields value)
      (UnknownLoggerLevel value) := by
  have all := @parseObject_judged _ "config" _ _ _ (parseEntry_judged dump store) value config
  cases value with
  | undefined line => exact (judged_failure (by simp)).congr .rfl (by simp [UnknownLoggerLevel])
  | _ => exact all

/-- A configuration is rejected if and only if errors are logged, unless it is valid but for an
unknown level of the logger. -/
theorem errors_iff_rejected (value : Json) (config : Config π σ) :
    ((parse dump store value config).ok = false ↔ (parse dump store value config).errors ≠ []) ↔
      ¬(ValidObject documentFields value ∧ UnknownLoggerLevel value) := by
  obtain ⟨ok, failed, accepted⟩ := parse_judged dump store value config
  rw [← Bool.not_eq_true, ok]
  constructor
  · rintro same ⟨valid, strange⟩
    exact same.2 ((accepted valid).2 strange) valid
  · intro plain
    refine ⟨failed, fun reported valid => plain ⟨valid, (accepted valid).1 reported⟩⟩

end Apps

/-- `{"logger": {"level": "LOUD"}}` -/
def loudLogger : Json :=
  .object 1 [(⟨"logger", 1⟩, .object 1 [(⟨"level", 1⟩, .string 1 "LOUD")])]

theorem loudLogger_accepted :
    (parse (fun _ => "") registry loudLogger { store := {} }).ok = true ∧
      (parse (fun _ => "") registry loudLogger { store := {} }).errors = [.bad "log level" 1] := by
  decide

end Nexer.Config
