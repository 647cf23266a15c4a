import Nexer.Config.Parts

/-!
# The parts of a document in order

The entries of a document have different keys, so that the parts read under `proxies` and under
`apps` have different roots.  The elements of `apps` are labelled, by their places or otherwise.
-/

namespace Nexer.Config

variable (dump : Json → String)

/-- The parts that are read under a key. -/
def partsOf (labels : List Nat) (entry : Key × Json) : List Part :=
  match entry.2 with
  | .array _ items =>
      if entry.1.name = "proxies" then
        List.zipWith (readProxy dump) (List.range items.length) items
      else if entry.1.name = "apps" then List.zipWith (readApp dump) labels items
      else []
  | _ => []

/-- The elements of `apps` have a label each. -/
def Labelled (labels : List Nat) (entry : Key × Json) : Prop :=
  labels.Nodup ∧ ∀ line items, entry.1.name = "apps" → entry.2 = .array line items →
    labels.length = items.length

/-- No part has been read under this key. -/
def Unread (parts : List Part) (name : String) : Prop :=
  (name = "proxies" → ∀ part ∈ parts, ∀ index, part.ledger.root ≠ .proxy index) ∧
    (name = "apps" → ∀ part ∈ parts, ∀ index, part.ledger.root ≠ .entry index)

variable {dump} {touched : List Symbol} {config : Config AppId Registry} {parts : List Part}
variable {labels : List Nat}

theorem forall_zipWith {read : Nat → Json → Part} {P : Part → Prop}
    (holds : ∀ index item, P (read index item)) :
    ∀ (labels : List Nat) (items : List Json), ∀ part ∈ List.zipWith read labels items, P part
  | [], _, _, found => by simp at found
  | _ :: _, [], _, found => by simp at found
  | index :: labels, item :: items, part, found => by
      rcases List.mem_cons.1 found with rfl | later
      · exact holds index item
      · exact forall_zipWith holds labels items part later

theorem root_of_partsOf {entry : Key × Json} {part : Part} (found : part ∈ partsOf dump labels entry) :
    (entry.1.name = "proxies" ∧ ∃ index, part.ledger.root = .proxy index) ∨
      (entry.1.name = "apps" ∧ ∃ index, part.ledger.root = .entry index) := by
  unfold partsOf at found
  split at found
  · split at found
    · exact .inl ⟨‹_›, @forall_zipWith _ (fun part => ∃ index, part.ledger.root = .proxy index)
        (fun index item => ⟨index, readProxy_root dump index item⟩) _ _ part found⟩
    · split at found
      · exact .inr ⟨‹_›, @forall_zipWith _ (fun part => ∃ index, part.ledger.root = .entry index)
          (fun index item => ⟨index, readApp_root dump index item⟩) _ _ part found⟩
      · cases found
  · cases found

/-- The parts under one key leave the others unread. -/
theorem Unread.append {entry : Key × Json} {name : String} (unread : Unread parts name)
    (different : entry.1.name ≠ name) : Unread (parts ++ partsOf dump labels entry) name := by
  constructor
  · rintro rfl part found index same
    rcases List.mem_append.1 found with before | now
    · exact unread.1 rfl part before index same
    · rcases root_of_partsOf now with ⟨here, -⟩ | ⟨-, other, root⟩
      · exact different here
      · exact absurd (root.symm.trans same) (by simp)
  · rintro rfl part found index same
    rcases List.mem_append.1 found with before | now
    · exact unread.2 rfl part before index same
    · rcases root_of_partsOf now with ⟨-, other, root⟩ | ⟨here, -⟩
      · exact absurd (root.symm.trans same) (by simp)
      · exact different here

theorem gathered_proxies (gathered : Gathered touched config parts) {value : Json} {key : Key}
    (named : key.name = "proxies") (unread : Unread parts "proxies")
    (ok : (parseProxies dump registry value config).ok = true) :
    ∃ touched', Gathered touched' (parseProxies dump registry value config).target
      (parts ++ partsOf dump labels (key, value)) := by
  cases value with
  | array line items =>
      obtain ⟨touched', all⟩ := gathered_each (readProxy_root dump) (by simp)
        (fun index item gathered fresh _ => gathered.proxy fresh item)
        (List.range items.length) items (by simp) List.nodup_range
        (fun index _ part found => unread.1 rfl part found index) gathered ok
      have under : partsOf dump labels (key, .array line items) =
          List.zipWith (readProxy dump) (List.range items.length) items := if_pos named
      exact ⟨touched', under ▸ all⟩
  | _ => cases ok

theorem gathered_apps (gathered : Gathered touched config parts) {value : Json} {key : Key}
    (named : key.name = "apps") (unread : Unread parts "apps")
    (labelled : Labelled labels (key, value))
    (ok : (parseApps dump registry value config).ok = true) :
    ∃ touched', Gathered touched' (parseApps dump registry value config).target
      (parts ++ partsOf dump labels (key, value)) := by
  cases value with
  | array line items =>
      obtain ⟨touched', all⟩ := gathered_each (readApp_root dump) (by simp)
        (fun index item gathered fresh ok => by
          obtain ⟨touched', added⟩ := gathered.entry fresh item
          refine ⟨touched', ?_⟩
          generalize parseApp dump registry item _ = parsed at added ok ⊢
          obtain ⟨_, ⟨found, state⟩, _⟩ := parsed
          cases found with
          | some app => exact added
          | none => cases ok)
        labels items (labelled.2 line items named rfl) labelled.1
        (fun index _ part found => unread.2 rfl part found index) gathered ok
      have under : partsOf dump labels (key, .array line items) =
          List.zipWith (readApp dump) labels items := by simp [partsOf, named]
      exact ⟨touched', under ▸ all⟩
  | _ => cases ok

theorem partsOf_other {entry : Key × Json} (proxies : entry.1.name ≠ "proxies")
    (apps : entry.1.name ≠ "apps") : partsOf dump labels entry = [] := by
  unfold partsOf
  split <;> simp [proxies, apps]

/-- An entry of the document adds the parts under its key. -/
theorem gathered_entry (gathered : Gathered touched config parts) {entry : Key × Json}
    (unread : Unread parts entry.1.name) (labelled : Labelled labels entry)
    (ok : (parseEntry dump registry entry.1 entry.2 config).ok = true) :
    ∃ touched', Gathered touched' (parseEntry dump registry entry.1 entry.2 config).target
      (parts ++ partsOf dump labels entry) := by
  unfold parseEntry at ok ⊢
  by_cases proxies : entry.1.name = "proxies"
  · rw [proxies] at unread
    simp only [proxies, String.reduceEq, if_false, if_true] at ok ⊢
    exact gathered_proxies gathered proxies unread ok
  by_cases apps : entry.1.name = "apps"
  · rw [apps] at unread
    simp only [apps, String.reduceEq, if_false, if_true] at ok ⊢
    exact gathered_apps gathered apps unread labelled ok
  rw [partsOf_other proxies apps, List.append_nil]
  obtain ⟨represents, rooted, read, listed⟩ := gathered
  simp only [if_neg proxies, if_neg apps] at ok ⊢
  split
  · exact ⟨touched, represents, rooted, read, listed⟩
  · split
    · exact ⟨touched, represents, rooted, read, listed⟩
    · split
      · exact ⟨touched, represents, rooted, read, listed⟩
      · exact ⟨touched, represents, rooted, read, listed⟩

/-- The parts of an entry, with the elements of `apps` labelled in some way. -/
def Reads (dump : Json → String) (entry : Key × Json) (parts : List Part) : Prop :=
  ∃ labels, Labelled labels entry ∧ parts = partsOf dump labels entry

/-- The entries of a document, each with its key, add the parts of the document. -/
theorem gathered_entries {entries : List (Key × Json)} {read : List (List Part)}
    (reads : List.Forall₂ (Reads dump) entries read) : ∀ {touched config parts},
      (keys entries).Nodup → (∀ entry ∈ entries, Unread parts entry.1.name) →
      Gathered touched config parts →
      (each (fun entry => parseEntry dump registry entry.1 entry.2) entries config).ok = true →
        ∃ touched', Gathered touched'
          (each (fun entry => parseEntry dump registry entry.1 entry.2) entries config).target
          (parts ++ read.flatten) := by
  induction reads with
  | nil =>
      intro touched config parts _ _ gathered _
      exact ⟨touched, by simpa [each] using gathered⟩
  | @cons entry here rest later labelled _ ih =>
      intro touched config parts once unread gathered ok
      obtain ⟨labels, labelled, rfl⟩ := labelled
      obtain ⟨accepted, others, same⟩ := each_cons_ok ok
      obtain ⟨different, once⟩ := List.nodup_cons.1 once
      obtain ⟨touched', added⟩ := gathered_entry gathered (unread entry (.head _)) labelled accepted
      have left : ∀ other ∈ rest, Unread (parts ++ partsOf dump labels entry) other.1.name := by
        intro other member
        refine (unread other (.tail _ member)).append fun same => different ?_
        exact List.mem_map.2 ⟨other, member, same.symm⟩
      obtain ⟨touched', all⟩ := ih once left added others
      rw [same]
      exact ⟨touched', by simpa using all⟩

/-- The elements of `apps` labelled by their places. -/
def places (entry : Key × Json) : List Nat :=
  match entry.2 with
  | .array _ items => List.range items.length
  | _ => []

theorem labelled_places (entry : Key × Json) : Labelled (places entry) entry := by
  constructor
  · unfold places
    split
    · exact List.nodup_range
    · exact .nil
  · intro line items _ array
    simp [places, array]

variable (dump) in
/-- The parts of a document. -/
def documentParts (entries : List (Key × Json)) : List Part :=
  (entries.map fun entry => partsOf dump (places entry) entry).flatten

theorem reads_places (entries : List (Key × Json)) :
    List.Forall₂ (Reads dump) entries
      (entries.map fun entry => partsOf dump (places entry) entry) := by
  rw [List.forall₂_map_right_iff, List.forall₂_same]
  exact fun entry _ => ⟨places entry, labelled_places entry, rfl⟩

/-- An accepted document gives a configuration that holds what its parts say. -/
theorem gathered_document {entries : List (Key × Json)} {read : List (List Part)}
    (reads : List.Forall₂ (Reads dump) entries read) (once : (keys entries).Nodup) {line : Nat}
    (ok : (parse dump registry (.object line entries) { store := {} }).ok = true) :
    ∃ touched, Gathered touched
      (parse dump registry (.object line entries) { store := {} }).target read.flatten :=
  gathered_entries reads once (fun _ _ => ⟨by simp, by simp⟩) .initial ok

end Nexer.Config
