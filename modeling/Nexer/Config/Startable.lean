import Nexer.Config.Loops

/-!
# The dummies of a configuration

A loop of the parser keeps what its steps keep, whether or not they fail.  So every dummy
has a type that `StartDummyServer` knows: `http` is accepted, but leaves the type as it
was.
-/

namespace Nexer.Config

section Steps

variable {ι τ : Type}

/-- A loop keeps an invariant of its steps. -/
theorem each_invariant {parse : ι → τ → Outcome τ} (Holds : τ → Prop)
    (one : ∀ item target, Holds target → Holds (parse item target).target) :
    ∀ (items : List ι) (target : τ), Holds target → Holds (each parse items target).target
  | [], target, holds => by rwa [each]
  | item :: rest, target, holds => by
      rw [each]
      split
      · exact each_invariant Holds one rest _ (one item target holds)
      · exact one item target holds

theorem parseObject_invariant {parse : Key → Json → τ → Outcome τ} (Holds : τ → Prop)
    (one : ∀ key value target, Holds target → Holds (parse key value target).target)
    (name : String) (value : Json) (target : τ) (holds : Holds target) :
    Holds (parseObject name parse value target).target := by
  unfold parseObject
  split
  · exact each_invariant Holds (fun entry : Key × Json => one entry.1 entry.2) _ target holds
  · exact holds

theorem parseArray_invariant {parse : Json → τ → Outcome τ} (Holds : τ → Prop)
    (one : ∀ value target, Holds target → Holds (parse value target).target)
    (name : String) (value : Json) (target : τ) (holds : Holds target) :
    Holds (parseArray name parse value target).target := by
  unfold parseArray
  split
  · exact each_invariant Holds one _ target holds
  · exact holds

end Steps

/-- A dummy that `StartDummyServer` knows. -/
def Dummy.Known (dummy : Dummy) : Prop := dummy.type ≠ .http

theorem parseField_invariant {τ β : Type} {parse : Json → Option β} {assign : β → τ} {target : τ}
    (Holds : τ → Prop) (holds : Holds target) (assigned : ∀ field, Holds (assign field))
    (name : String) (expected : JsonType) (value : Json) :
    Holds (parseField parse name expected value assign target).target := by
  unfold parseField
  split
  · exact assigned _
  · exact holds

theorem parseType_known (value : Json) {type : DummyType} (known : type ≠ .http) :
    (parseType value type).target ≠ .http := by
  unfold parseType
  split
  · split
    · nofun
    · split
      · nofun
      · split <;> exact known
  · exact known

theorem parseDummy_known (value : Json) (dummy : Dummy) (known : dummy.Known) :
    (parseDummy value dummy).target.Known := by
  refine parseObject_invariant Dummy.Known (fun key value dummy known => ?_) "dummy" value dummy known
  unfold parseDummyEntry
  split
  · exact parseType_known value known
  · split
    · exact parseField_invariant Dummy.Known known
        (fun port => show Dummy.Known { dummy with port } from known) _ _ value
    · split
      · exact parseField_invariant Dummy.Known known
          (fun echo => show Dummy.Known { dummy with echo } from known) _ _ value
      · exact known

def Startable (dummies : List Dummy) : Prop := ∀ dummy ∈ dummies, dummy.Known

theorem parseDummies_startable (value : Json) (dummies : List Dummy) (known : Startable dummies) :
    Startable (parseDummies value dummies).target := by
  have one (value : Json) (dummies : List Dummy) (known : Startable dummies) :
      Startable (dummies ++ [(parseDummy value {}).target]) := by
    intro dummy member
    rcases List.mem_append.mp member with before | last
    · exact known dummy before
    · rw [List.mem_singleton.mp last]
      exact parseDummy_known value {} nofun
  exact parseArray_invariant Startable one "dummies" value dummies known

variable {π κ σ : Type} (dump : Json → String) (store : Store π κ σ)

theorem parseEntry_startable (key : Key) (value : Json) (config : Config π σ)
    (startable : Startable config.dummies) :
      Startable (parseEntry dump store key value config).target.dummies := by
  unfold parseEntry
  split
  · exact startable
  split
  · exact startable
  split
  · refine parseArray_invariant (fun config => Startable config.dummies)
      (fun value config startable => ?_) "proxies" value config startable
    exact startable
  split
  · refine parseArray_invariant (fun config => Startable config.dummies)
      (fun value config startable => ?_) "apps" value config startable
    dsimp only
    split <;> exact startable
  split
  · exact parseDummies_startable value config.dummies startable
  · exact startable

/-- No document makes a configuration with a dummy that `StartDummyServer` does not know. -/
theorem parse_startable (document : Json) (config : Config π σ) (startable : Startable config.dummies) :
    Startable (parse dump store document config).target.dummies := by
  unfold parse
  split
  · exact startable
  · exact parseObject_invariant (fun config => Startable config.dummies)
      (parseEntry_startable dump store) "config" document config startable

end Nexer.Config
