import Nexer.Config.Parser

/-!
# The loops of the parser

A loop that is accepted has been through all of its steps.  Over the entries of an object, each
with its key, it writes in each part of its target what the value of one key says.
-/

namespace Nexer.Config

section Steps

variable {τ ι β : Type}

theorem each_cons_ok {parse : ι → τ → Outcome τ} {item : ι} {rest : List ι}
    {target : τ} (ok : (each parse (item :: rest) target).ok = true) :
    (parse item target).ok = true ∧ (each parse rest (parse item target).target).ok = true ∧
      (each parse (item :: rest) target).target =
        (each parse rest (parse item target).target).target := by
  have turn : each parse (item :: rest) target = if (parse item target).ok then
      (each parse rest (parse item target).target).logged (parse item target).errors
        else parse item target := by rw [each]
  cases first : (parse item target).ok with
  | true =>
      rw [turn, if_pos first] at ok ⊢
      exact ⟨rfl, ok, rfl⟩
  | false =>
      rw [turn, first, if_neg Bool.false_ne_true, first] at ok
      cases ok

/-- A loop is accepted when each of its steps is. -/
theorem each_ok_iff {parse : ι → τ → Outcome τ} {accepts : ι → Prop} :
    ∀ (items : List ι) (target : τ),
      (∀ item ∈ items, ∀ target, (parse item target).ok = true ↔ accepts item) →
        ((each parse items target).ok = true ↔ ∀ item ∈ items, accepts item)
  | [], target, _ => by simp [each]
  | item :: rest, target, one => by
      have others : ∀ item ∈ rest, ∀ target, (parse item target).ok = true ↔ accepts item :=
        fun other member => one other (.tail _ member)
      rw [List.forall_mem_cons, ← one item (.head _) target]
      constructor
      · intro ok
        obtain ⟨here, later, -⟩ := each_cons_ok ok
        exact ⟨here, (each_ok_iff rest _ others).1 later⟩
      · rintro ⟨here, later⟩
        have rest_ok := (each_ok_iff rest (parse item target).target others).2 later
        rw [each, if_pos here]
        exact rest_ok

theorem each_accepted {parse : ι → τ → Outcome τ} {items : List ι} (target : τ)
    (one : ∀ item ∈ items, ∀ target, (parse item target).ok = true) :
    (each parse items target).ok = true :=
  (@each_ok_iff _ _ _ (fun _ => True) items target fun item member target =>
    iff_true_intro (one item member target)).2 fun _ _ => trivial

/-- The order of the steps does not matter for that. -/
theorem each_ok_perm {parse : ι → τ → Outcome τ}
    (one : ∀ item target target', (parse item target).ok = (parse item target').ok)
    {items items' : List ι} (perm : items'.Perm items) (target target' : τ) :
    (each parse items target).ok = (each parse items' target').ok := by
  rw [Bool.eq_iff_iff,
    each_ok_iff _ _ fun item _ other => Bool.eq_iff_iff.1 (one item other target),
    each_ok_iff _ _ fun item _ other => Bool.eq_iff_iff.1 (one item other target)]
  simp only [perm.mem_iff]

/-- A loop keeps what its steps keep. -/
theorem each_keeps {parse : ι → τ → Outcome τ} {field : τ → β}
    (one : ∀ item target, field (parse item target).target = field target) :
    ∀ (items : List ι) (target : τ), field (each parse items target).target = field target
  | [], target => by rw [each]
  | item :: rest, target => by
      rw [each]
      split
      · exact (each_keeps one rest _).trans (one item target)
      · exact one item target

end Steps

section Keys

variable {τ β : Type}

/-- The value under a key. -/
def valueAt (name : String) (entries : List (Key × Json)) : Option Json :=
  (entries.find? (·.1.name = name)).map (·.2)

theorem valueAt_cons (name : String) (entry : Key × Json) (rest : List (Key × Json)) :
    valueAt name (entry :: rest) =
      if entry.1.name = name then some entry.2 else valueAt name rest := by
  unfold valueAt
  rw [List.find?_cons]
  by_cases here : entry.1.name = name <;> simp [here]

theorem valueAt_eq_none {name : String} {entries : List (Key × Json)}
    (absent : name ∉ keys entries) : valueAt name entries = none := by
  simp only [keys, List.mem_map, not_exists, not_and] at absent
  simp only [valueAt, Option.map_eq_none_iff, List.find?_eq_none, decide_eq_true_eq]
  exact absent

theorem valueAt_eq_some {name : String} {entries : List (Key × Json)}
    (once : (keys entries).Nodup) (value : Json) :
    valueAt name entries = some value ↔ ∃ key, key.name = name ∧ (key, value) ∈ entries := by
  induction entries with
  | nil => simp [valueAt]
  | cons entry rest ih =>
      obtain ⟨different, others⟩ := List.nodup_cons.1 once
      obtain ⟨key', value'⟩ := entry
      rw [valueAt_cons]
      by_cases here : key'.name = name
      · subst here
        simp only [if_true, Option.some.injEq, List.mem_cons, Prod.mk.injEq]
        constructor
        · rintro rfl
          exact ⟨key', rfl, .inl ⟨rfl, rfl⟩⟩
        · rintro ⟨key, named, ⟨rfl, rfl⟩ | later⟩
          · rfl
          · exact absurd (List.mem_map.2 ⟨_, later, named⟩) different
      · simp only [if_neg here, ih others, List.mem_cons, Prod.mk.injEq]
        constructor
        · rintro ⟨key, named, later⟩
          exact ⟨key, named, .inr later⟩
        · rintro ⟨key, named, ⟨rfl, rfl⟩ | later⟩
          · exact absurd named here
          · exact ⟨key, named, later⟩

theorem mem_of_valueAt {name : String} {entries : List (Key × Json)} {value : Json}
    (found : valueAt name entries = some value) : ∃ entry ∈ entries, entry.2 = value := by
  obtain ⟨entry, here, rfl⟩ := Option.map_eq_some_iff.1 found
  exact ⟨entry, List.mem_of_find?_eq_some here, rfl⟩

/-- A part of the target that one key writes is what is read under that key. -/
theorem each_field {parse : Key × Json → τ → Outcome τ} {field : τ → β} {name : String}
    {read : Json → β → β} : ∀ (entries : List (Key × Json)) (target : τ),
      (∀ entry ∈ entries, ∀ target, field (parse entry target).target =
        if entry.1.name = name then read entry.2 (field target) else field target) →
      (keys entries).Nodup → (each parse entries target).ok = true →
        field (each parse entries target).target =
          ((valueAt name entries).map (read · (field target))).getD (field target)
  | [], target, _, _, _ => by simp [each, valueAt]
  | entry :: rest, target, one, once, ok => by
      obtain ⟨different, once⟩ := List.nodup_cons.1 once
      obtain ⟨-, later, same⟩ := each_cons_ok ok
      rw [same, each_field rest _ (fun other member => one other (.tail _ member)) once later,
        one entry (.head _), valueAt_cons]
      by_cases here : entry.1.name = name
      · have absent : name ∉ keys rest := here ▸ different
        simp [here, valueAt_eq_none absent]
      · simp [here]

theorem flatMap_of_key {f : Key × Json → List β} {name : String} {read : Json → List β}
    (one : ∀ entry, f entry = if entry.1.name = name then read entry.2 else []) :
    ∀ entries : List (Key × Json), (keys entries).Nodup →
      entries.flatMap f = ((valueAt name entries).map read).getD []
  | [], _ => by simp [valueAt]
  | entry :: rest, once => by
      obtain ⟨different, once⟩ := List.nodup_cons.1 once
      rw [List.flatMap_cons, flatMap_of_key one rest once, one, valueAt_cons]
      by_cases here : entry.1.name = name
      · have absent : name ∉ keys rest := here ▸ different
        simp [here, valueAt_eq_none absent]
      · simp [here]

end Keys

end Nexer.Config
