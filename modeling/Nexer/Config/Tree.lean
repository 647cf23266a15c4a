import Nexer.Config.Spelling

/-!
# The apps that a tree describes

What a tree says of proxies and apps, read off its keys without the parser.  The working
directory of a command is a text.  Commands can be read in another way, too, which is what the
parser does with a directory.
-/

namespace Nexer.Config

section Fields

variable {β : Type} (dump : Json → String)

/-- A text as it stands, any other value as jsini prints it. -/
def Json.text : Json → String
  | .string _ text => text
  | value => dump value

def Json.asString : Json → Option String
  | .string _ text => some text
  | _ => none

def Json.asInteger : Json → Option Int32
  | .integer _ value => some (Int32.ofInt value)
  | _ => none

def Json.elements : Json → List Json
  | .array _ items => items
  | _ => []

def Json.members : Json → List (Key × Json)
  | .object _ entries => entries
  | _ => []

/-- The value under a key as a field of a record. -/
def fieldAt (read : Json → Option β) (name : String) (default : β) (entries : List (Key × Json)) :
    β :=
  ((valueAt name entries).bind read).getD default

def elementsAt (name : String) (entries : List (Key × Json)) : List Json :=
  ((valueAt name entries).map Json.elements).getD []

def textsAt (name : String) (entries : List (Key × Json)) : List String :=
  (elementsAt name entries).map (Json.text dump)

def nameAt (entries : List (Key × Json)) : String :=
  ((valueAt "name" entries).map (Json.text dump)).getD ""

end Fields

section Apps

variable (dump : Json → String) (read : Int32 → Json → Command)

/-- The command that a value describes. -/
def Json.command (timeout : Int32) (value : Json) : Command where
  file := fieldAt Json.asString "file" "" value.members
  args := textsAt dump "args" value.members
  env := textsAt dump "env" value.members
  cwd := fieldAt Json.asString "cwd" "" value.members
  timeout := fieldAt Json.asInteger "timeout" timeout value.members

mutual

/-- The app that a value stands for: the one of a name, or a definition. -/
def Json.ref : Json → AppRef
  | .string _ name => .mention name
  | .object _ entries =>
      .inline (nameAt dump entries) (((valueAt "command" entries).map (read 0)).getD {})
        ((valueAt "checker" entries).map (read 10000))
        (fieldAt Json.asInteger "max_start_time" 0 entries) (preambleRefs entries)
        (textsAt dump "tags" entries)
  | _ => .mention ""

def preambleRefs : List (Key × Json) → List AppRef
  | [] => []
  | (key, value) :: rest => if key.name = "preamble" then value.elementRefs else preambleRefs rest

def Json.elementRefs : Json → List AppRef
  | .array _ items => refs items
  | _ => []

def refs : List Json → List AppRef
  | [] => []
  | value :: rest => value.ref :: refs rest

end

def Json.upstream (value : Json) : Upstream AppRef where
  host := fieldAt Json.asString "host" "" value.members
  port := fieldAt Json.asInteger "port" 0 value.members
  connectTimeout := fieldAt Json.asInteger "connect_timeout" 30000 value.members
  app := (valueAt "app" value.members).map (Json.ref dump read)
  tags := textsAt dump "tags" value.members

def Json.proxy (value : Json) : Proxy AppRef where
  port := fieldAt Json.asInteger "listen" 0 value.members
  upstream := ((valueAt "upstream" value.members).map (Json.upstream dump read)).getD {}

end Apps

mutual

/-- The definitions in an app: it may be one itself, with others in its preamble. -/
def Json.inlines : Json → List (List (Key × Json))
  | .object _ entries => entries :: preambleInlines entries
  | _ => []

def preambleInlines : List (Key × Json) → List (List (Key × Json))
  | [] => []
  | (key, value) :: rest =>
      if key.name = "preamble" then value.elementInlines else preambleInlines rest

def Json.elementInlines : Json → List (List (Key × Json))
  | .array _ items => itemInlines items
  | _ => []

def itemInlines : List Json → List (List (Key × Json))
  | [] => []
  | value :: rest => value.inlines ++ itemInlines rest

end

/-- The apps of the upstreams and those under `apps`. -/
def appValues (entries : List (Key × Json)) : List Json :=
  (elementsAt "proxies" entries).flatMap (fun proxy =>
      ((valueAt "upstream" proxy.members).bind fun upstream =>
        valueAt "app" upstream.members).toList) ++
    elementsAt "apps" entries

/-- All definitions in a document. -/
def inlinesIn (entries : List (Key × Json)) : List (List (Key × Json)) :=
  (appValues entries).flatMap Json.inlines

/-- The names that are defined in a document. -/
def namesIn (dump : Json → String) (entries : List (Key × Json)) : List String :=
  ((inlinesIn entries).map (nameAt dump)).filter (· ≠ "")

section Equations

variable (dump : Json → String) (read : Int32 → Json → Command)

theorem refs_eq (items : List Json) : refs dump read items = items.map (Json.ref dump read) := by
  induction items with
  | nil => rfl
  | cons value rest ih => rw [refs, ih, List.map_cons]

theorem preambleRefs_eq (entries : List (Key × Json)) : preambleRefs dump read entries =
    (elementsAt "preamble" entries).map (Json.ref dump read) := by
  induction entries with
  | nil => rfl
  | cons entry rest ih =>
      obtain ⟨key, value⟩ := entry
      rw [preambleRefs, elementsAt, valueAt_cons]
      by_cases here : key.name = "preamble"
      · rw [if_pos here, if_pos here]
        cases value with
        | array line items => exact refs_eq dump read items
        | _ => rfl
      · rw [if_neg here, if_neg here]
        exact ih

theorem itemInlines_eq (items : List Json) : itemInlines items = items.flatMap Json.inlines := by
  induction items with
  | nil => rfl
  | cons value rest ih => rw [itemInlines, ih, List.flatMap_cons]

theorem preambleInlines_eq (entries : List (Key × Json)) : preambleInlines entries =
    (elementsAt "preamble" entries).flatMap Json.inlines := by
  induction entries with
  | nil => rfl
  | cons entry rest ih =>
      obtain ⟨key, value⟩ := entry
      rw [preambleInlines, elementsAt, valueAt_cons]
      by_cases here : key.name = "preamble"
      · rw [if_pos here, if_pos here]
        cases value with
        | array line items => exact itemInlines_eq items
        | _ => rfl
      · rw [if_neg here, if_neg here]
        exact ih

end Equations

theorem sizeOf_element {name : String} {entries : List (Key × Json)} {item : Json}
    (found : item ∈ elementsAt name entries) : sizeOf item < sizeOf entries := by
  unfold elementsAt at found
  cases there : valueAt name entries with
  | none => simp [there] at found
  | some value =>
      obtain ⟨⟨key, value⟩, member, rfl⟩ := mem_of_valueAt there
      have small := List.sizeOf_lt_of_mem member
      cases value with
      | array line items =>
          have smaller : sizeOf item < sizeOf items := by
            refine List.sizeOf_lt_of_mem ?_
            simpa [there, Json.elements] using found
          simp only [Prod.mk.sizeOf_spec, Json.array.sizeOf_spec] at small
          omega
      | _ => simp [there, Json.elements] at found

/-- Induction on the apps in a tree: a definition comes after the apps in its preamble. -/
theorem Json.app_induction {motive : Json → Prop}
    (mention : ∀ value, (∀ line entries, value ≠ .object line entries) → motive value)
    (inline : ∀ line entries, (∀ item ∈ elementsAt "preamble" entries, motive item) →
      motive (.object line entries)) (value : Json) : motive value := by
  induction size : sizeOf value using Nat.strongRecOn generalizing value with
  | ind size ih =>
      cases value with
      | object line entries =>
          refine inline line entries fun item found => ih (sizeOf item) ?_ item rfl
          have smaller := sizeOf_element found
          simp only [Json.object.sizeOf_spec] at size
          omega
      | _ => exact mention _ nofun

end Nexer.Config
