import Mathlib.Data.List.Forall2
import Nexer.Config.Loops

/-!
# Documents and how they are spelled

A document is a configuration in which an app is referred to by its name or by its definition.  A
tree spells it when every key has the value of its field; a key may be left out when its field
has the default.
-/

namespace Nexer.Config

/-- How a document refers to an app. -/
inductive AppRef where
  | mention (name : String)
  | inline (name : String) (command : Command) (checker : Option Command) (maxStartTime : Int32)
      (preamble : List AppRef) (tags : List String)

abbrev Document := Config AppRef Unit

/-- `level_names` without the blanks. -/
def Level.text : Level → String
  | trace => "TRACE"
  | debug => "DEBUG"
  | info => "INFO"
  | warn => "WARN"
  | error => "ERROR"
  | fatal => "FATAL"
  | critical => "CRITICAL"

def DummyType.text : DummyType → String
  | udp => "udp"
  | tcp => "tcp"
  | http => "http"

section Values

variable {β : Type}

def SpellsString (text : String) (value : Json) : Prop :=
  ∃ line, value = .string line text

def SpellsInt (number : Int32) (value : Json) : Prop :=
  ∃ line, value = .integer line number.toInt

def SpellsBool (flag : Bool) (value : Json) : Prop :=
  ∃ line, value = .bool line flag

/-- An array that spells a list, element by element. -/
def SpellsList (spells : β → Json → Prop) (fields : List β) (value : Json) : Prop :=
  ∃ line items, value = .array line items ∧ List.Forall₂ spells fields items

/-- The key has the value of the field, or is left out. -/
def Spelled (spells : β → Json → Prop) (entries : List (Key × Json)) (name : String)
    (default field : β) : Prop :=
  (valueAt name entries).elim (field = default) (spells field)

/-- An object that has each of its keys once, and no others than these. -/
structure Keyed (known : List String) (entries : List (Key × Json)) : Prop where
  once : (keys entries).Nodup
  known : ∀ entry ∈ entries, entry.1.name ∈ known

theorem Spelled.value {spells : β → Json → Prop} {entries : List (Key × Json)} {name : String}
    {default field : β} (spelled : Spelled spells entries name default field)
    (once : (keys entries).Nodup) {entry : Key × Json} (member : entry ∈ entries)
    (named : entry.1.name = name) : spells field entry.2 := by
  have found : valueAt name entries = some entry.2 :=
    (valueAt_eq_some once entry.2).2 ⟨entry.1, named, member⟩
  simpa [Spelled, found] using spelled

theorem Spelled.read {spells : β → Json → Prop} {entries : List (Key × Json)} {name : String}
    {default field : β} (spelled : Spelled spells entries name default field)
    {read : Json → β → β} (reads : ∀ value, spells field value → read value default = field) :
    ((valueAt name entries).map (read · default)).getD default = field := by
  unfold Spelled at spelled
  cases found : valueAt name entries with
  | none =>
      rw [found] at spelled
      exact spelled.symm
  | some value =>
      rw [found] at spelled
      exact reads value spelled

theorem Spelled.map {γ : Type} {spells : β → Json → Prop} {entries : List (Key × Json)}
    {name : String} {default field : β} (spelled : Spelled spells entries name default field)
    (f : β → γ) : Spelled (fun image value => ∃ field, image = f field ∧ spells field value)
      entries name (f default) (f field) := by
  unfold Spelled at spelled ⊢
  cases found : valueAt name entries with
  | none =>
      rw [found] at spelled
      exact congrArg f spelled
  | some value =>
      rw [found] at spelled
      exact ⟨field, rfl, spelled⟩

/-- What holds of all values of the object holds of the one under the key. -/
theorem Spelled.and {spells : β → Json → Prop} {P : Json → Prop} {entries : List (Key × Json)}
    {name : String} {default field : β} (spelled : Spelled spells entries name default field)
    (all : ∀ entry ∈ entries, P entry.2) :
    Spelled (fun field value => spells field value ∧ P value) entries name default field := by
  unfold Spelled at spelled ⊢
  cases found : valueAt name entries with
  | none =>
      rw [found] at spelled
      exact spelled
  | some value =>
      rw [found] at spelled
      obtain ⟨entry, member, rfl⟩ := mem_of_valueAt found
      exact ⟨spelled, all entry member⟩

end Values

inductive SpellsAdmin : Admin → Json → Prop where
  | object {line : Nat} {entries : List (Key × Json)} {admin : Admin}
      (keyed : Keyed ["listen"] entries)
      (port : Spelled SpellsInt entries "listen" 19500 admin.port) :
      SpellsAdmin admin (.object line entries)

inductive SpellsLogger : Logger → Json → Prop where
  | object {line : Nat} {entries : List (Key × Json)} {logger : Logger}
      (keyed : Keyed ["file", "level"] entries)
      (file : Spelled SpellsString entries "file" "" logger.file)
      (level : Spelled (fun level => SpellsString level.text) entries "level" .info logger.level) :
      SpellsLogger logger (.object line entries)

/-- A checker has another default for its time limit. -/
inductive SpellsCommand (timeout : Int32) : Command → Json → Prop where
  | object {line : Nat} {entries : List (Key × Json)} {command : Command}
      (keyed : Keyed ["file", "args", "env", "cwd", "timeout"] entries)
      (file : Spelled SpellsString entries "file" "" command.file)
      (args : Spelled (SpellsList SpellsString) entries "args" [] command.args)
      (env : Spelled (SpellsList SpellsString) entries "env" [] command.env)
      (cwd : Spelled SpellsString entries "cwd" "" command.cwd)
      (limit : Spelled SpellsInt entries "timeout" timeout command.timeout) :
      SpellsCommand timeout command (.object line entries)

inductive SpellsDummy : Dummy → Json → Prop where
  | object {line : Nat} {entries : List (Key × Json)} {dummy : Dummy}
      (keyed : Keyed ["type", "listen", "echo"] entries)
      (type : Spelled (fun type => SpellsString type.text) entries "type" .tcp dummy.type)
      (port : Spelled SpellsInt entries "listen" 0 dummy.port)
      (echo : Spelled SpellsBool entries "echo" false dummy.echo) :
      SpellsDummy dummy (.object line entries)

mutual

/-- A reference is the name as a text, or an object. -/
def SpellsApp : AppRef → Json → Prop
  | .mention name, value => name ≠ "" ∧ SpellsString name value
  | .inline name command checker maxStartTime preamble tags, value =>
      ∃ line entries, value = .object line entries ∧
        Keyed ["name", "command", "checker", "max_start_time", "preamble", "tags"] entries ∧
        Spelled SpellsString entries "name" "" name ∧
        Spelled (SpellsCommand 0) entries "command" {} command ∧
        Spelled (fun checker value => ∃ command, checker = some command ∧
          SpellsCommand 10000 command value) entries "checker" none checker ∧
        Spelled SpellsInt entries "max_start_time" 0 maxStartTime ∧
        (valueAt "preamble" entries).elim (preamble = []) (fun value =>
          ∃ line items, value = .array line items ∧ SpellsApps preamble items) ∧
        Spelled (SpellsList SpellsString) entries "tags" [] tags

def SpellsApps : List AppRef → List Json → Prop
  | [], items => items = []
  | ref :: refs, items => ∃ first rest, items = first :: rest ∧ SpellsApp ref first ∧
      SpellsApps refs rest

end

inductive SpellsUpstream : Upstream AppRef → Json → Prop where
  | object {line : Nat} {entries : List (Key × Json)} {upstream : Upstream AppRef}
      (keyed : Keyed ["host", "port", "connect_timeout", "app", "tags"] entries)
      (host : Spelled SpellsString entries "host" "" upstream.host)
      (port : Spelled SpellsInt entries "port" 0 upstream.port)
      (connectTimeout : Spelled SpellsInt entries "connect_timeout" 30000 upstream.connectTimeout)
      (app : Spelled (fun app value => ∃ ref, app = some ref ∧ SpellsApp ref value) entries "app"
        none upstream.app)
      (tags : Spelled (SpellsList SpellsString) entries "tags" [] upstream.tags) :
      SpellsUpstream upstream (.object line entries)

inductive SpellsProxy : Proxy AppRef → Json → Prop where
  | object {line : Nat} {entries : List (Key × Json)} {proxy : Proxy AppRef}
      (keyed : Keyed ["upstream", "listen"] entries)
      (upstream : Spelled SpellsUpstream entries "upstream" {} proxy.upstream)
      (port : Spelled SpellsInt entries "listen" 0 proxy.port) :
      SpellsProxy proxy (.object line entries)

/-- The entries of a document. -/
structure SpellsDocument (document : Document) (entries : List (Key × Json)) : Prop where
  keyed : Keyed ["admin", "logger", "proxies", "apps", "dummy"] entries
  admin : Spelled SpellsAdmin entries "admin" { port := 19500 } document.admin
  logger : Spelled SpellsLogger entries "logger" {} document.logger
  proxies : Spelled (SpellsList SpellsProxy) entries "proxies" [] document.proxies
  apps : Spelled (SpellsList SpellsApp) entries "apps" [] document.entries
  dummies : Spelled (SpellsList SpellsDummy) entries "dummy" [] document.dummies

mutual

/-- No object of the tree has this key. -/
def Json.Free (name : String) : Json → Prop
  | .array _ items => FreeItems name items
  | .object _ entries => name ∉ keys entries ∧ FreeEntries name entries
  | _ => True

def FreeItems (name : String) : List Json → Prop
  | [] => True
  | value :: rest => value.Free name ∧ FreeItems name rest

def FreeEntries (name : String) : List (Key × Json) → Prop
  | [] => True
  | (_, value) :: rest => value.Free name ∧ FreeEntries name rest

end

theorem freeItems_iff {name : String} {items : List Json} :
    FreeItems name items ↔ ∀ value ∈ items, value.Free name := by
  induction items with
  | nil => simp [FreeItems]
  | cons value rest ih => simp [FreeItems, ih]

theorem freeEntries_iff {name : String} {entries : List (Key × Json)} :
    FreeEntries name entries ↔ ∀ entry ∈ entries, entry.2.Free name := by
  induction entries with
  | nil => simp [FreeEntries]
  | cons entry rest ih =>
      obtain ⟨key, value⟩ := entry
      simp [FreeEntries, ih]

/-- Where no key of the object is this one, its values decide. -/
theorem Keyed.free_iff {known : List String} {entries : List (Key × Json)}
    (keyed : Keyed known entries) {name : String} (unknown : name ∉ known) (line : Nat) :
    (Json.object line entries).Free name ↔ ∀ entry ∈ entries, entry.2.Free name := by
  have absent : name ∉ keys entries := by
    intro member
    obtain ⟨entry, found, rfl⟩ := List.mem_map.1 member
    exact unknown (keyed.known entry found)
  simp [Json.Free, absent, freeEntries_iff]

theorem SpellsString.free {text : String} {value : Json} (spells : SpellsString text value)
    (name : String) : value.Free name := by
  obtain ⟨line, rfl⟩ := spells
  exact trivial

theorem SpellsInt.free {number : Int32} {value : Json} (spells : SpellsInt number value)
    (name : String) : value.Free name := by
  obtain ⟨line, rfl⟩ := spells
  exact trivial

theorem SpellsBool.free {flag : Bool} {value : Json} (spells : SpellsBool flag value)
    (name : String) : value.Free name := by
  obtain ⟨line, rfl⟩ := spells
  exact trivial

theorem free_of_spellsStrings {texts : List String} {value : Json}
    (spells : SpellsList SpellsString texts value) (name : String) : value.Free name := by
  obtain ⟨line, items, rfl, all⟩ := spells
  apply freeItems_iff.2
  have free := all.flip.imp fun _ _ spells => And.intro (SpellsString.free spells name) spells
  exact ((List.forall₂_and_left _ _).1 free).1

end Nexer.Config
