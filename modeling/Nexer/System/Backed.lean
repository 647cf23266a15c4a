import Nexer.Manager.Checked
import Nexer.System.Answers

/-!
# No connect without a checked upstream

A proxy connects to its upstream only after the manager has answered that the upstream
process is there.  For an app with a checker this answer goes back to a checker of the
app that ended well after the connection was accepted, whichever other connections, of
this proxy or of others, have asked for the same app before.
-/

namespace Nexer.System

open Nexer.Transition

variable {α Index : Type} [DecidableEq α] [DecidableEq Index]
variable {config : α → Manager.AppConfig α} {upstream : Index → Option α}
variable {closures : Nat ≃ Key Index}
variable {state following : Proxies Index} {manager later : Manager.State α}
variable {past out : List (Happening α Index)} {key : Key Index} {app : α}

/-- No read of no bytes arrives from a process of an app with a checker while callbacks
of the app are queued; and the callbacks are not traversed twice. -/
def checkedOnly (config : α → Manager.AppConfig α) (manager : Manager.State α)
    (label : Manager.Label α) : Prop :=
  Manager.restartsOutside manager label ∧ Manager.emptyReadsUnwaited config manager label

instance : ∀ manager label, Decidable (checkedOnly config manager label) :=
  fun _ _ => inferInstanceAs (Decidable (_ ∧ _))

/-- The event of an accepted connection. -/
def acceptedAt (key : Key Index) (address : Proxy.Address) : Happening α Index :=
  .inl (key.1, .accepted key.2 address)

/-- A checker of the app ended with code 0 and no signal. -/
def CleanCheckOf (app : α) (event : Happening α Index) : Prop :=
  ∃ entry, event = .inr entry ∧ Manager.CleanCheck app entry

/-- The connection has been handed on to `Connect`. -/
def Connects (state : Proxies Index) (key : Key Index) : Prop :=
  stageOf state key = some .connecting ∨ stageOf state key = some .connected

/-- Callbacks of a connection are queued after it was accepted. -/
def QueuedAfter (closures : Nat ≃ Key Index) (before : List (Happening α Index))
    (event : Happening α Index) : Prop :=
  ∀ app ticket caller, event = .inr (.queued app ⟨ticket, .caller caller⟩) →
    ∃ address, acceptedAt (closures caller) address ∈ before

omit [DecidableEq α] [DecidableEq Index] in
theorem acceptedKey_eq_some {events : List (ProxyEvent Index)} (found : acceptedKey events = some key) :
    ∃ address, (key.1, .accepted key.2 address) ∈ events := by
  obtain ⟨⟨index, event⟩, member, same⟩ := List.exists_of_findSome?_eq_some found
  obtain ⟨connection, accepted, rfl⟩ := Option.map_eq_some_iff.mp same
  cases event <;> cases accepted
  exact ⟨_, member⟩

omit [DecidableEq α] in
/-- Every connection of the proxies was accepted. -/
theorem accepted_of_reaches {guard : Proxies Index → ProxyLabel Index → Prop}
    {events : List (ProxyEvent Index)}
    (reached : Machine.Reaches (proxies upstream) guard (fun _ => none) state events)
    (there : (stageOf state key).isSome) : ∃ address, (key.1, .accepted key.2 address) ∈ events := by
  induction reached with
  | start => cases there
  | @next before following past out label _ _ moved ih =>
      have advance := advance_of_step moved
      generalize stageOf following = after at advance there
      generalize accepted : acceptedKey out = keys at advance
      cases advance with
      | accept other address unused =>
          by_cases same : key = other
          · subst same
            obtain ⟨address, member⟩ := acceptedKey_eq_some accepted
            exact ⟨address, List.mem_append_right _ member⟩
          · obtain ⟨address, member⟩ := ih (by simpa [same] using there)
            exact ⟨address, List.mem_append_left _ member⟩
      | checked other error stage waiting | connected other success waiting =>
          have earlier : (stageOf before key).isSome := by
            by_cases same : key = other
            · subst same
              rw [waiting]
              rfl
            · simpa [same] using there
          obtain ⟨address, member⟩ := ih earlier
          exact ⟨address, List.mem_append_left _ member⟩
      | quiet =>
          obtain ⟨address, member⟩ := ih there
          exact ⟨address, List.mem_append_left _ member⟩

theorem Runs.orderly (run : Runs config upstream closures (checkedOnly config) (state, manager) past) :
    Runs config upstream closures Manager.restartsOutside (state, manager) past :=
  run.mono fun _ _ => And.left

section Reached

variable (acyclic : Manager.Acyclic config)

include acyclic

/-- The manager queues the callback of a connection that was accepted. -/
theorem queuedAfter_of_step
    (run : Runs config upstream closures (checkedOnly config) (state, manager) past)
    {label : Manager.Label α} {events : List (Manager.Event α)}
    (moved : Manager.step config manager label = some (later, events)) {ticket caller : Nat}
    (member : .queued app ⟨ticket, .caller caller⟩ ∈ events) :
    ∃ address, acceptedAt (closures caller) address ∈ past := by
  obtain ⟨rest, pending, -⟩ := Manager.reported_of_move (Manager.move_of_step moved) _ member
  have debt := accounts acyclic run.orderly (app, closures caller)
  have waits : waitsFor upstream state (app, closures caller) = true := by
    by_contra unwaited
    simp [owedFor, Manager.owed, pending, Bool.eq_false_of_not_eq_true unwaited] at debt
  have there : (stageOf state (closures caller)).isSome := by
    simp [(waitsFor_iff.mp waits).2]
  obtain ⟨address, accepted⟩ :=
    accepted_of_reaches (parts_of_runs (fun _ _ _ => ⟨trivial, trivial⟩) run).1 there
  exact ⟨address, Service.mem_clientEvents.mp accepted⟩

theorem queuedAfter_of_runs
    (run : Runs config upstream closures (checkedOnly config) (state, manager) past) :
    Historically (QueuedAfter closures) past := by
  refine run.invariant (fun _ past => Historically (QueuedAfter closures) past) historically_nil ?_
  intro before after past out label reached holds _ moved
  refine holds.append fun front event rest split app ticket caller same => ?_
  subst same
  have member : .queued app ⟨ticket, .caller caller⟩ ∈ Service.serverEvents out := by
    rw [Service.mem_serverEvents, split]
    simp
  have queued : ∃ address, acceptedAt (closures caller) address ∈ past := by
    cases Service.moved_of_machine moved with
    | silent => simp at member
    | asks client next server later label check events taken _ _ _ _ took =>
        have required : Manager.step config server (.require check.1 (closures.symm check.2)) =
          some (later, taken) := took
        exact queuedAfter_of_step acyclic reached required (by simpa using member)
    | works client server later label events _ _ stepped =>
        have worked : Manager.step config server label = some (later, events) := stepped
        exact queuedAfter_of_step acyclic reached worked (by simpa using member)
    | answers client next server later label check error events taken _ _ stepped =>
        have worked : Manager.step config server label = some (later, events) := stepped
        exact queuedAfter_of_step acyclic reached worked (by simpa using member)
  obtain ⟨address, accepted⟩ := queued
  exact ⟨address, List.mem_append_left _ accepted⟩

/-- When a callback is answered with success, a checker has ended well since its
connection was accepted. -/
theorem backed_of_answer
    (run : Runs config upstream closures (checkedOnly config) (state, manager) past)
    (has_checker : (config app).checker.isSome) {label : Manager.Label α}
    {events : List (Manager.Event α)} {caller : Nat}
    (moved : Manager.step config manager label = some (later, events))
    (answered : Manager.answeredCaller events = some ((app, caller), 0)) :
    ∃ address, Since (acceptedAt (closures caller) address) (CleanCheckOf app) past := by
  have managed := (parts_of_runs (fun _ _ _ => ⟨trivial, trivial⟩) run).2
  have justified := Manager.justified_of_reaches (managed.mono fun _ _ => And.right)
  have move := Manager.move_of_step moved
  obtain ⟨ticket, rfl⟩ := Manager.out_of_answered move answered
  obtain ⟨-, -, others, rest, pending⟩ := Manager.reported_of_move move _ (List.mem_singleton_self _)
  have vouched := justified.answering _ (pending ▸ List.mem_cons_self ..) app _ rfl has_checker
  have since := Service.since_of_serverEvents (vouched _ (List.mem_cons_self ..))
  obtain ⟨before, after, split, clean⟩ := since
  obtain ⟨address, accepted⟩ :=
    queuedAfter_of_runs acyclic run before _ after split app ticket caller rfl
  obtain ⟨first, middle, rfl⟩ := List.append_of_mem accepted
  obtain ⟨entry, member, good⟩ := clean
  exact ⟨address, first, middle ++ .inr (.queued app ⟨ticket, .caller caller⟩) :: after,
    by simp [split], entry, by simp [member], good⟩

end Reached

omit [DecidableEq α] in
/-- A connection whose upstream has an app goes on to connect with a good answer only. -/
theorem connects_of_step {label : ProxyLabel Index} {events : List (ProxyEvent Index)}
    (moved : proxies upstream state label = some (following, events))
    (wanted : (upstream key.1).isSome) (connects : Connects following key) :
    Connects state key ∨ label = (key.1, some (.checked key.2 0)) := by
  have advance := advance_of_step moved
  unfold Connects at connects ⊢
  generalize stageOf following = after at advance connects
  generalize acceptedKey events = keys at advance
  cases advance with
  | accept other address unused =>
      by_cases same : key = other
      · subst same
        simp [wanted] at connects
      · exact .inl (by simpa [same] using connects)
  | checked other error stage waiting result =>
      by_cases same : key = other
      · subst same
        rcases result with ⟨-, rfl⟩ | rfl
        · exact .inr rfl
        · simp at connects
      · exact .inl (by simpa [same] using connects)
  | connected other success waiting =>
      by_cases same : key = other
      · subst same
        exact .inl (.inl waiting)
      · exact .inl (by simpa [same] using connects)
  | quiet => exact .inl connects

/-- A checker has ended well since a connection was accepted that has been handed on. -/
theorem since_of_connects (acyclic : Manager.Acyclic config)
    (run : Runs config upstream closures (checkedOnly config) (state, manager) past)
    (wanted : upstream key.1 = some app) (has_checker : (config app).checker.isSome)
    (connects : Connects state key) :
    ∃ address, Since (acceptedAt key address) (CleanCheckOf app) past := by
  have known : (upstream key.1).isSome := by simp [wanted]
  refine run.invariant (fun pair past => Connects pair.1 key →
    ∃ address, Since (acceptedAt key address) (CleanCheckOf app) past) ?_ ?_ connects
  · intro connects
    simp [Connects, stageOf] at connects
  intro before after past out label reached holds allowed moved connects
  have enough (since : ∃ address, Since (acceptedAt key address) (CleanCheckOf app) past) :
      ∃ address, Since (acceptedAt key address) (CleanCheckOf app) (past ++ out) := by
    obtain ⟨address, since⟩ := since
    exact ⟨address, since.append out⟩
  apply enough
  cases Service.moved_of_machine moved with
  | silent client next server label events own _ stepped
  | asks client next server later label check events taken own _ stepped =>
      rcases connects_of_step stepped known connects with already | rfl
      · exact holds already
      · cases own
  | works => exact holds connects
  | answers client next server later label check error events taken inner _ stepped answered took =>
      rcases connects_of_step took known connects with already | told
      · exact holds already
      · obtain ⟨⟨⟨other, caller⟩, code⟩, found, same⟩ := Option.map_eq_some_iff.mp answered
        obtain ⟨rfl, rfl⟩ := Prod.mk.inj same
        have worked : Manager.step config server label = some (later, events) := stepped
        have prior : Runs config upstream closures (checkedOnly config) (client, server) past :=
          reached
        obtain ⟨asked, -⟩ := waits_of_answer acyclic prior.orderly allowed.1 worked found
        simp only [checks, Prod.mk.injEq, Option.some.injEq, Proxy.Label.checked.injEq] at told
        obtain ⟨index, connection, rfl⟩ := told
        have same : closures caller = key := Prod.ext index connection
        subst same
        obtain rfl := Option.some.inj (asked.symm.trans wanted)
        exact backed_of_answer acyclic prior has_checker worked found

/--
A connection that has been handed on to `Connect`, and whose upstream has an app with a
checker, was accepted before some checker of this app ended with code 0 and no signal.
-/
theorem connects_checked (acyclic : Manager.Acyclic config)
    (run : Runs config upstream closures (checkedOnly config) (state, manager) past)
    (wanted : upstream key.1 = some app) (has_checker : (config app).checker.isSome)
    (connects : Connects state key) :
    ∃ address, Since (acceptedAt key address) (CleanCheckOf app) past :=
  since_of_connects acyclic run wanted has_checker connects

/-- The checker was started for another proxy, and after it the connection is handed on. -/
theorem connects_checked_run : ∃ state manager past,
    Runs Manager.checkedApp twoProxies Equiv.boolProdNatEquivNat.symm
        (checkedOnly Manager.checkedApp) (state, manager) past ∧
      ∃ address, Since (acceptedAt (true, 0) address) (CleanCheckOf 0) past := by
  obtain ⟨⟨state, manager⟩, reached, checked⟩ := Machine.exists_reaches
    (checks Manager.checkedApp twoProxies Equiv.boolProdNatEquivNat.symm).machine
    (managed (checkedOnly Manager.checkedApp)) (fun _ => none, .initial (Fin 1)) checkedTwice
    checkedTwiceEvents (fun pair => decide (stageOf pair.1 (true, 0) = some .connecting)) (by decide)
  simp only [decide_eq_true_eq] at checked
  exact ⟨state, manager, _, reached,
    connects_checked Manager.acyclic_checkedApp reached rfl rfl (.inl checked)⟩

end Nexer.System
