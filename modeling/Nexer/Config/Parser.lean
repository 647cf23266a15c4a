import Nexer.Config.Records

/-!
# The configuration parser

One definition for each overload of `ConfigParser::Parse`.  A call returns
whether it succeeded, what it has written, also when it fails, and the errors it
has logged.  `dump` is the text that jsini prints for a value.
-/

namespace Nexer.Config

/-- A logged error. -/
inductive ConfigError where
  /-- `Error pasing config` -/
  | unparsed
  /-- `Bad %s (line %u: expected %s, got %s)` -/
  | mismatch (name : String) (line : Nat) (expected got : JsonType)
  /-- `Bad %s (line %u)` -/
  | bad (name : String) (line : Nat)
  /-- `Unknown config entry: %s (line %u)` -/
  | unknownEntry (key : Key)
  /-- `Unknown %s config: %s (line %u)` -/
  | unknown (name : String) (key : Key)
  /-- `Unknown dummy server protocol: %s (line %u)` -/
  | unknownProtocol (text : String) (line : Nat)
  deriving DecidableEq

/-- `ConfigParser::Error` for a value. -/
def errorOf (value : Json) (name : String) (expected : JsonType) : ConfigError :=
  if expected ≠ .undefined ∧ expected ≠ value.type then
    .mismatch name value.lineno expected value.type
  else .bad name value.lineno

structure Outcome (τ : Type) where
  ok : Bool
  target : τ
  errors : List ConfigError := []

section Values

variable {τ β : Type}

/-- The outcome after earlier errors. -/
def Outcome.logged (earlier : List ConfigError) (outcome : Outcome τ) : Outcome τ :=
  { outcome with errors := earlier ++ outcome.errors }

/-- The loops of `Parse(value, name, fn)`, over entries and over elements. -/
def each {ι : Type} (parse : ι → τ → Outcome τ) : List ι → τ → Outcome τ
  | [], target => { ok := true, target }
  | item :: rest, target =>
      let first := parse item target
      if first.ok then (each parse rest first.target).logged first.errors else first

/-- `Parse(value, name, fn)` for objects. -/
def parseObject (name : String) (parse : Key → Json → τ → Outcome τ) (value : Json)
    (target : τ) : Outcome τ :=
  match value with
  | .object _ entries => each (fun entry => parse entry.1 entry.2) entries target
  | _ => { ok := false, target, errors := [errorOf value name .object] }

/-- `Parse(value, name, fn)` for arrays. -/
def parseArray (name : String) (parse : Json → τ → Outcome τ) (value : Json)
    (target : τ) : Outcome τ :=
  match value with
  | .array _ items => each parse items target
  | _ => { ok := false, target, errors := [errorOf value name .array] }

def parseInt : Json → Option Int32
  | .integer _ value => some (Int32.ofInt value)
  | _ => none

def parseBool : Json → Option Bool
  | .bool _ value => some value
  | _ => none

def parseString : Json → Option String
  | .string _ value => some value
  | _ => none

/-- `Parse(src, dst, true)`. -/
def forceString (dump : Json → String) (value : Json) : String :=
  (parseString value).getD (dump value)

/-- `if (!(ok = Parse(value, field))) Error(value, name, expected);` -/
def parseField (parse : Json → Option β) (name : String) (expected : JsonType) (value : Json)
    (assign : β → τ) (target : τ) : Outcome τ :=
  match parse value with
  | some field => { ok := true, target := assign field }
  | none => { ok := false, target, errors := [errorOf value name expected] }

/-- A list of strings, appended to those that are there. -/
def parseStrings (dump : Json → String) (name : String) (value : Json) (texts : List String)
    (assign : List String → τ) : Outcome τ :=
  let parsed := parseArray name
    (fun value texts => { ok := true, target := texts ++ [forceString dump value] }) value texts
  { ok := parsed.ok, target := assign parsed.target, errors := parsed.errors }

/-- `else Error(key, name);` -/
def unknownKey (name : String) (key : Key) (target : τ) : Outcome τ :=
  { ok := false, target, errors := [.unknown name key] }

end Values

/-- `level_names`. -/
def levelNames : List (String × Level) :=
  [("TRACE ", .trace), ("DEBUG ", .debug), ("INFO ", .info), ("WARN ", .warn),
    ("ERROR ", .error), ("FATAL ", .fatal), ("CRITICAL ", .critical)]

/-- `Logger::ParseLevel`. -/
def parseLevel (name : String) : Option Level :=
  (levelNames.find? fun entry =>
    name.toList.length = entry.1.toList.length - 1 ∧
      name.toList = entry.1.toList.take name.toList.length).map (·.2)

def parseAdmin (value : Json) (admin : Admin) : Outcome Admin :=
  parseObject "admin" (fun key value admin =>
    if key.name = "listen" then
      parseField parseInt "admin port" .integer value (fun port => { admin with port }) admin
    else unknownKey "admin" key admin) value admin

/-- The level is read as a text first; an unknown one is reported only. -/
def parseLoggerEntry (key : Key) (value : Json) (logger : Logger) : Outcome Logger :=
  if key.name = "file" then
    parseField parseString "log file" .string value (fun file => { logger with file }) logger
  else if key.name = "level" then
    match parseString value with
    | none => { ok := false, target := logger, errors := [errorOf value "log level" .string] }
    | some name =>
        match parseLevel name with
        | some level => { ok := true, target := { logger with level } }
        | none => { ok := true, target := logger, errors := [errorOf value "log level" .undefined] }
  else unknownKey "logger" key logger

def parseLogger (value : Json) (logger : Logger) : Outcome Logger :=
  parseObject "logger" parseLoggerEntry value logger

section Commands

variable (dump : Json → String)

/-- The directory is parsed like the environment. -/
def parseCommandEntry (key : Key) (value : Json) (command : Command) : Outcome Command :=
  if key.name = "file" then
    parseField parseString "command file" .string value (fun file => { command with file }) command
  else if key.name = "args" then
    parseStrings dump "command args" value command.args fun args => { command with args }
  else if key.name = "env" then
    parseStrings dump "command env" value command.env fun env => { command with env }
  else if key.name = "cwd" then
    parseStrings dump "command env" value command.env fun env => { command with env }
  else if key.name = "timeout" then
    parseField parseInt "command timeout" .integer value
      (fun timeout => { command with timeout }) command
  else unknownKey "command" key command

def parseCommand (value : Json) (command : Command) : Outcome Command :=
  parseObject "command" (parseCommandEntry dump) value command

end Commands

section Dummies

def parseType (value : Json) (type : DummyType) : Outcome DummyType :=
  match value with
  | .string line text =>
      if text = "tcp" then { ok := true, target := .tcp }
      else if text = "udp" then { ok := true, target := .udp }
      -- `return true` stands before the assignment
      else if text = "http" then { ok := true, target := type }
      else { ok := false, target := type, errors := [.unknownProtocol text line] }
  | _ =>
      { ok := false, target := type, errors := [errorOf value "dummy server protocol" .string] }

def parseDummyEntry (key : Key) (value : Json) (dummy : Dummy) : Outcome Dummy :=
  if key.name = "type" then
    let parsed := parseType value dummy.type
    { parsed with target := { dummy with type := parsed.target } }
  else if key.name = "listen" then
    parseField parseInt "dummy server port" .integer value (fun port => { dummy with port }) dummy
  else if key.name = "echo" then
    parseField parseBool "admin port" .integer value (fun echo => { dummy with echo }) dummy
  else unknownKey "dummy" key dummy

def parseDummy (value : Json) (dummy : Dummy) : Outcome Dummy :=
  parseObject "dummy" parseDummyEntry value dummy

def parseDummies (value : Json) (dummies : List Dummy) : Outcome (List Dummy) :=
  parseArray "dummies" (fun value dummies =>
    let parsed := parseDummy value {}
    { parsed with target := dummies ++ [parsed.target] }) value dummies

end Dummies

variable {π κ σ : Type} (dump : Json → String) (store : Store π κ σ)

/-- The keys of an app other than `preamble`. -/
def parseAppEntry (key : Key) (value : Json) (target : App π κ × σ) :
    Outcome (App π κ × σ) :=
  let (app, state) := target
  if key.name = "name" then
    { ok := true, target := ({ app with name := forceString dump value }, state) }
  else if key.name = "command" then
    let parsed := parseCommand dump value app.command
    { parsed with target := ({ app with command := parsed.target }, state) }
  else if key.name = "checker" then
    let parsed := parseCommand dump value { timeout := 10000 }
    let created := store.newCommand parsed.target state
    { parsed with target := ({ app with checker := some created.1 }, created.2) }
  else if key.name = "max_start_time" then
    parseField parseInt "app max_start_time" .integer value
      (fun maxStartTime => ({ app with maxStartTime }, state)) target
  else if key.name = "tags" then
    parseStrings dump "app tags" value app.tags fun tags => ({ app with tags }, state)
  else unknownKey "app" key target

mutual

/-- `ParseApp`, with `nullptr` as `none`. -/
def parseApp : Json → σ → Outcome (Option π × σ)
  | .string _ name, state =>
      if name ≠ "" then
        let found := store.getApp name state
        { ok := true, target := (some found.1, found.2) }
      else { ok := false, target := (none, state) }
  | .object _ entries, state =>
      let parsed := parseAppObject entries ({}, state)
      if parsed.ok then
        let settled := store.settle parsed.target.1 parsed.target.2
        { ok := true, target := (some settled.1, settled.2), errors := parsed.errors }
      else { ok := false, target := (none, parsed.target.2), errors := parsed.errors }
  | value, state =>
      { ok := false, target := (none, state), errors := [errorOf value "app" .object] }

/-- The loop of `Parse(value, app)`. -/
def parseAppObject : List (Key × Json) → App π κ × σ → Outcome (App π κ × σ)
  | [], target => { ok := true, target }
  | (key, value) :: rest, target =>
      let first :=
        if key.name = "preamble" then parsePreamble value target
        else parseAppEntry dump store key value target
      if first.ok then (parseAppObject rest first.target).logged first.errors else first

def parsePreamble : Json → App π κ × σ → Outcome (App π κ × σ)
  | .array _ items, target => parsePreambles items target
  | value, target =>
      { ok := false, target, errors := [errorOf value "app preamble" .array] }

def parsePreambles : List Json → App π κ × σ → Outcome (App π κ × σ)
  | [], target => { ok := true, target }
  | value :: rest, (app, state) =>
      let parsed := parseApp value state
      match parsed.target with
      | (some preamble, state) =>
          (parsePreambles rest ({ app with preamble := app.preamble ++ [preamble] }, state)).logged
            parsed.errors
      | (none, state) =>
          { ok := false, target := (app, state),
            errors := parsed.errors ++ [errorOf value "app preamble" .undefined] }

end

def parseUpstreamEntry (key : Key) (value : Json) (target : Upstream π × σ) :
    Outcome (Upstream π × σ) :=
  let (upstream, state) := target
  if key.name = "host" then
    parseField parseString "upstream host" .string value
      (fun host => ({ upstream with host }, state)) target
  else if key.name = "port" then
    parseField parseInt "upstream port" .integer value
      (fun port => ({ upstream with port }, state)) target
  else if key.name = "connect_timeout" then
    parseField parseInt "upstream connect timeout" .integer value
      (fun connectTimeout => ({ upstream with connectTimeout }, state)) target
  else if key.name = "app" then
    let parsed := parseApp dump store value state
    let assigned := ({ upstream with app := parsed.target.1 }, parsed.target.2)
    if parsed.target.1.isSome then { ok := true, target := assigned, errors := parsed.errors }
    else
      { ok := false, target := assigned,
        errors := parsed.errors ++ [errorOf value "upstream app" .undefined] }
  else if key.name = "tags" then
    parseStrings dump "upstream tags" value upstream.tags fun tags =>
      ({ upstream with tags }, state)
  else unknownKey "upstream" key target

def parseUpstream (value : Json) (target : Upstream π × σ) : Outcome (Upstream π × σ) :=
  parseObject "upstream" (parseUpstreamEntry dump store) value target

def parseProxyEntry (key : Key) (value : Json) (target : Proxy π × σ) :
    Outcome (Proxy π × σ) :=
  let (proxy, state) := target
  if key.name = "upstream" then
    let parsed := parseUpstream dump store value (proxy.upstream, state)
    { parsed with target := ({ proxy with upstream := parsed.target.1 }, parsed.target.2) }
  else if key.name = "listen" then
    parseField parseInt "forward listening port" .integer value
      (fun port => ({ proxy with port }, state)) target
  else unknownKey "proxy" key target

def parseProxy (value : Json) (target : Proxy π × σ) : Outcome (Proxy π × σ) :=
  parseObject "proxy" (parseProxyEntry dump store) value target

/-- `proxies.emplace_back()`, and the parser writes to the last one. -/
def parseProxies (value : Json) (config : Config π σ) : Outcome (Config π σ) :=
  parseArray "proxies" (fun value config =>
    let parsed := parseProxy dump store value ({}, config.store)
    { parsed with target :=
      { config with
        proxies := config.proxies ++ [parsed.target.1]
        store := parsed.target.2 } }) value config

def parseApps (value : Json) (config : Config π σ) : Outcome (Config π σ) :=
  parseArray "apps" (fun value config =>
    let parsed := parseApp dump store value config.store
    match parsed.target with
    | (some app, state) =>
        { ok := true, errors := parsed.errors,
          target := { config with entries := config.entries ++ [app], store := state } }
    | (none, state) =>
        { ok := false, target := { config with store := state },
          errors := parsed.errors ++ [errorOf value "app" .undefined] }) value config

def parseEntry (key : Key) (value : Json) (config : Config π σ) : Outcome (Config π σ) :=
  if key.name = "admin" then
    let parsed := parseAdmin value config.admin
    { parsed with target := { config with admin := parsed.target } }
  else if key.name = "logger" then
    let parsed := parseLogger value config.logger
    { parsed with target := { config with logger := parsed.target } }
  else if key.name = "proxies" then parseProxies dump store value config
  else if key.name = "apps" then parseApps dump store value config
  else if key.name = "dummy" then
    let parsed := parseDummies value config.dummies
    { parsed with target := { config with dummies := parsed.target } }
  else { ok := false, target := config, errors := [.unknownEntry key] }

/-- `ConfigParser::Parse`. -/
def parse (value : Json) (config : Config π σ) : Outcome (Config π σ) :=
  match value with
  | .undefined _ => { ok := false, target := config, errors := [.unparsed] }
  | _ => parseObject "config" (parseEntry dump store) value config

end Nexer.Config
