import Mathlib.Data.List.Forall2
import Nexer.Config.Parser

/-!
# The parser at two stores

The parser reaches apps and checkers through its store only.  Two stores whose
operations agree, up to a relation that grows with what has been parsed, make
two runs on one tree agree, also runs that fail: the same success, the same
errors and related results.
-/

namespace Nexer.Config

/-- The same success, the same errors, and related targets. -/
structure Agree {τ τ' : Type} (rel : τ → τ' → Prop) (one : Outcome τ) (two : Outcome τ') :
    Prop where
  ok : one.ok = two.ok
  errors : one.errors = two.errors
  target : rel one.target two.target

section Loops

variable {τ τ' β : Type} {rel : τ → τ' → Prop}

theorem Agree.logged {one : Outcome τ} {two : Outcome τ'} (agree : Agree rel one two)
    (earlier : List ConfigError) : Agree rel (one.logged earlier) (two.logged earlier) := by
  constructor
  · exact agree.ok
  · exact congrArg (earlier ++ ·) agree.errors
  · exact agree.target

/-- One step of a loop, and the rest of it. -/
theorem Agree.andThen {first : Outcome τ} {first' : Outcome τ'} (agree : Agree rel first first')
    {next : τ → Outcome τ} {next' : τ' → Outcome τ'}
    (rest : ∀ t t', rel t t' → Agree rel (next t) (next' t')) :
    Agree rel (if first.ok then (next first.target).logged first.errors else first)
      (if first'.ok then (next' first'.target).logged first'.errors else first') := by
  rw [← agree.ok, ← agree.errors]
  cases first.ok with
  | true => exact (rest _ _ agree.target).logged _
  | false => exact agree

theorem each_agree {ι : Type} {one : ι → τ → Outcome τ} {two : ι → τ' → Outcome τ'}
    (step : ∀ item t t', rel t t' → Agree rel (one item t) (two item t')) :
    ∀ (items : List ι) (t : τ) (t' : τ'), rel t t' →
      Agree rel (each one items t) (each two items t')
  | [], _, _, related => ⟨rfl, rfl, related⟩
  | item :: rest, t, t', related => (step item t t' related).andThen (each_agree step rest)

theorem parseObject_agree {one : Key → Json → τ → Outcome τ}
    {two : Key → Json → τ' → Outcome τ'}
    (step : ∀ key value t t', rel t t' → Agree rel (one key value t) (two key value t'))
    (name : String) (value : Json) {t : τ} {t' : τ'} (related : rel t t') :
    Agree rel (parseObject name one value t) (parseObject name two value t') := by
  cases value with
  | object line entries => exact each_agree (fun entry => step entry.1 entry.2) entries t t' related
  | _ => exact ⟨rfl, rfl, related⟩

theorem parseArray_agree {one : Json → τ → Outcome τ} {two : Json → τ' → Outcome τ'}
    (step : ∀ value t t', rel t t' → Agree rel (one value t) (two value t'))
    (name : String) (value : Json) {t : τ} {t' : τ'} (related : rel t t') :
    Agree rel (parseArray name one value t) (parseArray name two value t') := by
  cases value with
  | array line items => exact each_agree step items t t' related
  | _ => exact ⟨rfl, rfl, related⟩

theorem parseField_agree {parse : Json → Option β} {name : String} {expected : JsonType}
    {value : Json} {assign : β → τ} {assign' : β → τ'} {t : τ} {t' : τ'} (related : rel t t')
    (assigned : ∀ field, rel (assign field) (assign' field)) :
    Agree rel (parseField parse name expected value assign t)
      (parseField parse name expected value assign' t') := by
  unfold parseField
  cases parse value with
  | none => exact ⟨rfl, rfl, related⟩
  | some field => exact ⟨rfl, rfl, assigned field⟩

theorem parseStrings_agree {dump : Json → String} {name : String} {value : Json}
    {texts texts' : List String} {assign : List String → τ} {assign' : List String → τ'}
    (same : texts = texts') (assigned : ∀ texts, rel (assign texts) (assign' texts)) :
    Agree rel (parseStrings dump name value texts assign)
      (parseStrings dump name value texts' assign') := by
  subst same
  exact ⟨rfl, rfl, assigned _⟩

/-- A branch that depends on the document only. -/
theorem Agree.ite {test : Prop} [Decidable test] {first others : Outcome τ}
    {first' others' : Outcome τ'} (here : test → Agree rel first first')
    (below : ¬test → Agree rel others others') :
    Agree rel (if test then first else others) (if test then first' else others') := by
  split
  · exact here ‹_›
  · exact below ‹_›

theorem unknownKey_agree {name : String} {key : Key} {t : τ} {t' : τ'} (related : rel t t') :
    Agree rel (unknownKey name key t) (unknownKey name key t') :=
  ⟨rfl, rfl, related⟩

end Loops

section Records

variable {π κ π' κ' σ σ' : Type}

structure SameApp (link : π → π' → Prop) (held : Option κ → Option κ' → Prop)
    (app : App π κ) (app' : App π' κ') : Prop where
  name : app.name = app'.name
  command : app.command = app'.command
  checker : held app.checker app'.checker
  maxStartTime : app.maxStartTime = app'.maxStartTime
  preamble : List.Forall₂ link app.preamble app'.preamble
  tags : app.tags = app'.tags

structure SameUpstream (link : π → π' → Prop) (upstream : Upstream π) (upstream' : Upstream π') :
    Prop where
  host : upstream.host = upstream'.host
  port : upstream.port = upstream'.port
  connectTimeout : upstream.connectTimeout = upstream'.connectTimeout
  app : Option.Rel link upstream.app upstream'.app
  tags : upstream.tags = upstream'.tags

structure SameProxy (link : π → π' → Prop) (proxy : Proxy π) (proxy' : Proxy π') : Prop where
  port : proxy.port = proxy'.port
  upstream : SameUpstream link proxy.upstream proxy'.upstream

structure SameConfig (link : π → π' → Prop) (config : Config π σ) (config' : Config π' σ') :
    Prop where
  admin : config.admin = config'.admin
  logger : config.logger = config'.logger
  proxies : List.Forall₂ (SameProxy link) config.proxies config'.proxies
  dummies : config.dummies = config'.dummies
  entries : List.Forall₂ link config.entries config'.entries

end Records

/-- Two stores whose operations agree.  `Grows` relates the world of a call to a
later one, `Link` the pointers to one app, `Held` the checkers of an app that has
been parsed since the first of two worlds and is not yet settled. -/
structure Simulation {π κ σ π' κ' σ' : Type} (store : Store π κ σ) (store' : Store π' κ' σ')
    (World : Type) where
  State : World → σ → σ' → Prop
  Grows : World → World → Prop
  Link : World → π → π' → Prop
  Held : World → World → Option κ → Option κ' → Prop
  refl : ∀ w, Grows w w
  trans : ∀ {w₁ w₂ w₃}, Grows w₁ w₂ → Grows w₂ w₃ → Grows w₁ w₃
  link_mono : ∀ {w w' p p'}, Grows w w' → Link w p p' → Link w' p p'
  held_mono : ∀ {base w w' c c'}, Grows w w' → Held base w c c' → Held base w' c c'
  held_none : ∀ w, Held w w none none
  getApp : ∀ {w s s'} name, name ≠ "" → State w s s' → ∃ w', Grows w w' ∧
    State w' (store.getApp name s).2 (store'.getApp name s').2 ∧
    Link w' (store.getApp name s).1 (store'.getApp name s').1
  newCommand : ∀ {base w s s'} command, Grows base w → State w s s' → ∃ w', Grows w w' ∧
    State w' (store.newCommand command s).2 (store'.newCommand command s').2 ∧
    Held base w' (some (store.newCommand command s).1) (some (store'.newCommand command s').1)
  settle : ∀ {base w s s' app app'}, Grows base w → State w s s' →
    SameApp (Link w) (Held base w) app app' → ∃ w', Grows base w' ∧
    State w' (store.settle app s).2 (store'.settle app' s').2 ∧
    Link w' (store.settle app s).1 (store'.settle app' s').1

namespace Simulation

variable {π κ π' κ' σ σ' World α α' : Type} {store : Store π κ σ} {store' : Store π' κ' σ'}
  (sim : Simulation store store' World) {base w : World}

/-- Results that are related in a world that comes after `base`. -/
def Since (base : World) (rel : World → α → α' → Prop) (t : α × σ) (t' : α' × σ') : Prop :=
  ∃ w, sim.Grows base w ∧ sim.State w t.2 t'.2 ∧ rel w t.1 t'.1

/-- An app that is being parsed, at two stores. -/
def Draft (base w : World) (app : App π κ) (app' : App π' κ') : Prop :=
  SameApp (sim.Link w) (sim.Held base w) app app'

theorem draft_mono {w' : World} {app : App π κ} {app' : App π' κ'} (grows : sim.Grows w w')
    (draft : sim.Draft base w app app') : sim.Draft base w' app app' :=
  { draft with
    checker := sim.held_mono grows draft.checker
    preamble := draft.preamble.imp fun _ _ link => sim.link_mono grows link }

theorem draft_nil : sim.Draft w w {} {} where
  name := rfl
  command := rfl
  checker := sim.held_none w
  maxStartTime := rfl
  preamble := .nil
  tags := rfl

variable (dump : Json → String)

/-- Every key of an app but `preamble`. -/
theorem parseAppEntry_agree (key : Key) (value : Json) (t : App π κ × σ) (t' : App π' κ' × σ')
    (related : sim.Since base (sim.Draft base) t t') :
    Agree (sim.Since base (sim.Draft base)) (parseAppEntry dump store key value t)
      (parseAppEntry dump store' key value t') := by
  obtain ⟨app, s⟩ := t
  obtain ⟨app', s'⟩ := t'
  obtain ⟨w, grows, state, draft⟩ := related
  unfold parseAppEntry
  dsimp only
  refine .ite (fun _ => ?name) fun _ => .ite (fun _ => ?command) fun _ =>
    .ite (fun _ => ?checker) fun _ => .ite (fun _ => ?time) fun _ => .ite (fun _ => ?tags) fun _ =>
    unknownKey_agree ⟨w, grows, state, draft⟩
  case name => exact ⟨rfl, rfl, w, grows, state, { draft with name := rfl }⟩
  case command =>
    have same := congrArg (parseCommand dump value) draft.command
    exact ⟨congrArg (·.ok) same, congrArg (·.errors) same, w, grows, state,
      { draft with command := congrArg (·.target) same }⟩
  case checker =>
    obtain ⟨w', later, stored, held⟩ :=
      sim.newCommand (parseCommand dump value { timeout := 10000 }).target grows state
    exact ⟨rfl, rfl, w', sim.trans grows later, stored,
      { sim.draft_mono later draft with checker := held }⟩
  case time =>
    apply parseField_agree ⟨w, grows, state, draft⟩
    intro maxStartTime
    exact ⟨w, grows, state, { draft with maxStartTime := rfl }⟩
  case tags =>
    apply parseStrings_agree draft.tags
    intro tags
    exact ⟨w, grows, state, { draft with tags := rfl }⟩

mutual

theorem parseApp_agree : ∀ (value : Json) {base : World} {s : σ} {s' : σ'},
    sim.State base s s' →
    Agree (sim.Since base fun w => Option.Rel (sim.Link w)) (parseApp dump store value s)
      (parseApp dump store' value s')
  | .string _ name, base, s, s', state => by
      unfold parseApp
      by_cases named : name ≠ ""
      · simp only [if_pos named]
        obtain ⟨w, grows, stored, link⟩ := sim.getApp name named state
        exact ⟨rfl, rfl, w, grows, stored, .some link⟩
      · simp only [if_neg named]
        exact ⟨rfl, rfl, base, sim.refl base, state, .none⟩
  | .object _ entries, base, s, s', state => by
      have begun : sim.Since base (sim.Draft base) ({}, s) ({}, s') :=
        ⟨base, sim.refl base, state, sim.draft_nil⟩
      have parsed := parseAppObject_agree entries begun
      obtain ⟨same, errors, w, grows, stored, draft⟩ := parsed
      unfold parseApp
      simp only [← same, ← errors]
      split
      · obtain ⟨w', later, settled, link⟩ := sim.settle grows stored draft
        exact ⟨rfl, rfl, w', later, settled, .some link⟩
      · exact ⟨rfl, rfl, w, grows, stored, .none⟩
  | .undefined _, base, _, _, state | .null _, base, _, _, state | .bool _ _, base, _, _, state
  | .integer _ _, base, _, _, state | .number _ _, base, _, _, state
  | .array _ _, base, _, _, state => by
      unfold parseApp
      exact ⟨rfl, rfl, base, sim.refl base, state, .none⟩

theorem parseAppObject_agree : ∀ (entries : List (Key × Json)) {base : World}
    {t : App π κ × σ} {t' : App π' κ' × σ'}, sim.Since base (sim.Draft base) t t' →
    Agree (sim.Since base (sim.Draft base)) (parseAppObject dump store entries t)
      (parseAppObject dump store' entries t')
  | [], _, _, _, related => by
      unfold parseAppObject
      exact ⟨rfl, rfl, related⟩
  | (key, value) :: rest, base, t, t', related => by
      unfold parseAppObject
      have first : Agree (sim.Since base (sim.Draft base))
          (if key.name = "preamble" then parsePreamble dump store value t
            else parseAppEntry dump store key value t)
          (if key.name = "preamble" then parsePreamble dump store' value t'
            else parseAppEntry dump store' key value t') := by
        split
        · exact parsePreamble_agree value related
        · exact sim.parseAppEntry_agree dump key value t t' related
      exact first.andThen fun _ _ related => parseAppObject_agree rest related

theorem parsePreamble_agree : ∀ (value : Json) {base : World} {t : App π κ × σ}
    {t' : App π' κ' × σ'}, sim.Since base (sim.Draft base) t t' →
    Agree (sim.Since base (sim.Draft base)) (parsePreamble dump store value t)
      (parsePreamble dump store' value t')
  | .array _ items, _, _, _, related => by
      unfold parsePreamble
      exact parsePreambles_agree items related
  | .undefined _, _, _, _, related | .null _, _, _, _, related | .bool _ _, _, _, _, related
  | .integer _ _, _, _, _, related | .number _ _, _, _, _, related
  | .string _ _, _, _, _, related | .object _ _, _, _, _, related => by
      unfold parsePreamble
      exact ⟨rfl, rfl, related⟩

theorem parsePreambles_agree : ∀ (items : List Json) {base : World} {t : App π κ × σ}
    {t' : App π' κ' × σ'}, sim.Since base (sim.Draft base) t t' →
    Agree (sim.Since base (sim.Draft base)) (parsePreambles dump store items t)
      (parsePreambles dump store' items t')
  | [], _, _, _, related => by
      unfold parsePreambles
      exact ⟨rfl, rfl, related⟩
  | value :: rest, base, (app, s), (app', s'), related => by
      obtain ⟨w, grows, state, draft⟩ := related
      obtain ⟨same, errors, w', later, stored, found⟩ := parseApp_agree value state
      unfold parsePreambles
      simp only [← errors]
      generalize parseApp dump store value s = first at stored found ⊢
      generalize parseApp dump store' value s' = first' at stored found ⊢
      obtain ⟨ok, ⟨preamble, s₁⟩, logged⟩ := first
      obtain ⟨ok', ⟨preamble', s₁'⟩, logged'⟩ := first'
      have grown := sim.draft_mono later draft
      cases found with
      | none => exact ⟨rfl, rfl, w', sim.trans grows later, stored, grown⟩
      | some link =>
          apply Agree.logged
          apply parsePreambles_agree rest
          exact ⟨w', sim.trans grows later, stored,
            { grown with preamble := List.rel_append grown.preamble (.cons link .nil) }⟩

end

theorem parseUpstreamEntry_agree (key : Key) (value : Json) (t : Upstream π × σ)
    (t' : Upstream π' × σ')
    (related : sim.Since base (fun w => SameUpstream (sim.Link w)) t t') :
    Agree (sim.Since base fun w => SameUpstream (sim.Link w))
      (parseUpstreamEntry dump store key value t)
      (parseUpstreamEntry dump store' key value t') := by
  obtain ⟨upstream, s⟩ := t
  obtain ⟨upstream', s'⟩ := t'
  obtain ⟨w, grows, state, same⟩ := related
  unfold parseUpstreamEntry
  dsimp only
  refine .ite (fun _ => ?host) fun _ => .ite (fun _ => ?port) fun _ =>
    .ite (fun _ => ?timeout) fun _ => .ite (fun _ => ?app) fun _ => .ite (fun _ => ?tags) fun _ =>
    unknownKey_agree ⟨w, grows, state, same⟩
  case host =>
    apply parseField_agree ⟨w, grows, state, same⟩
    intro host
    exact ⟨w, grows, state, { same with host := rfl }⟩
  case port =>
    apply parseField_agree ⟨w, grows, state, same⟩
    intro port
    exact ⟨w, grows, state, { same with port := rfl }⟩
  case timeout =>
    apply parseField_agree ⟨w, grows, state, same⟩
    intro connectTimeout
    exact ⟨w, grows, state, { same with connectTimeout := rfl }⟩
  case app =>
    obtain ⟨-, errors, w', later, stored, found⟩ := sim.parseApp_agree dump value state
    simp only [← errors]
    generalize parseApp dump store value s = first at stored found ⊢
    generalize parseApp dump store' value s' = first' at stored found ⊢
    obtain ⟨ok, ⟨app, s₁⟩, logged⟩ := first
    obtain ⟨ok', ⟨app', s₁'⟩, logged'⟩ := first'
    cases found with
    | none => exact ⟨rfl, rfl, w', sim.trans grows later, stored, { same with app := .none }⟩
    | some link =>
        exact ⟨rfl, rfl, w', sim.trans grows later, stored, { same with app := .some link }⟩
  case tags =>
    apply parseStrings_agree same.tags
    intro tags
    exact ⟨w, grows, state, { same with tags := rfl }⟩

theorem parseProxyEntry_agree (key : Key) (value : Json) (t : Proxy π × σ) (t' : Proxy π' × σ')
    (related : sim.Since base (fun w => SameProxy (sim.Link w)) t t') :
    Agree (sim.Since base fun w => SameProxy (sim.Link w))
      (parseProxyEntry dump store key value t) (parseProxyEntry dump store' key value t') := by
  obtain ⟨proxy, s⟩ := t
  obtain ⟨proxy', s'⟩ := t'
  obtain ⟨w, grows, state, same⟩ := related
  unfold parseProxyEntry
  dsimp only
  refine .ite (fun _ => ?upstream) fun _ => .ite (fun _ => ?listen) fun _ =>
    unknownKey_agree ⟨w, grows, state, same⟩
  case upstream =>
    have begun : sim.Since base (fun w => SameUpstream (sim.Link w)) (proxy.upstream, s)
        (proxy'.upstream, s') := ⟨w, grows, state, same.upstream⟩
    obtain ⟨ok, errors, w', later, stored, linked⟩ :=
      parseObject_agree (sim.parseUpstreamEntry_agree dump) "upstream" value begun
    exact ⟨ok, errors, w', later, stored, same.port, linked⟩
  case listen =>
    apply parseField_agree ⟨w, grows, state, same⟩
    intro port
    exact ⟨w, grows, state, rfl, same.upstream⟩

theorem parseProxy_agree (value : Json) {t : Proxy π × σ} {t' : Proxy π' × σ'}
    (related : sim.Since base (fun w => SameProxy (sim.Link w)) t t') :
    Agree (sim.Since base fun w => SameProxy (sim.Link w))
      (parseProxy dump store value t) (parseProxy dump store' value t') :=
  parseObject_agree (sim.parseProxyEntry_agree dump) "proxy" value related

theorem sameUpstream_mono {w' : World} {upstream : Upstream π} {upstream' : Upstream π'}
    (grows : sim.Grows w w') (same : SameUpstream (sim.Link w) upstream upstream') :
    SameUpstream (sim.Link w') upstream upstream' := by
  obtain ⟨host, port, connectTimeout, app, tags⟩ := same
  refine ⟨host, port, connectTimeout, ?_, tags⟩
  generalize upstream.app = one at app ⊢
  generalize upstream'.app = two at app ⊢
  cases app with
  | none => exact .none
  | some link => exact .some (sim.link_mono grows link)

theorem sameConfig_mono {w' : World} {config : Config π σ} {config' : Config π' σ'}
    (grows : sim.Grows w w') (same : SameConfig (sim.Link w) config config') :
    SameConfig (sim.Link w') config config' :=
  { same with
    proxies := same.proxies.imp fun _ _ proxy =>
      ⟨proxy.port, sim.sameUpstream_mono grows proxy.upstream⟩
    entries := same.entries.imp fun _ _ link => sim.link_mono grows link }

/-- Two configurations after the same steps. -/
def Configs (base : World) (config : Config π σ) (config' : Config π' σ') : Prop :=
  ∃ w, sim.Grows base w ∧ sim.State w config.store config'.store ∧
    SameConfig (sim.Link w) config config'

theorem parseProxies_agree (value : Json) {config : Config π σ} {config' : Config π' σ'}
    (related : sim.Configs base config config') :
    Agree (sim.Configs base) (parseProxies dump store value config)
      (parseProxies dump store' value config') := by
  unfold parseProxies
  refine parseArray_agree ?_ "proxies" value related
  rintro item config config' ⟨w, grows, state, same⟩
  have begun : sim.Since w (fun w => SameProxy (sim.Link w)) ({}, config.store)
      ({}, config'.store) := ⟨w, sim.refl w, state, rfl, rfl, rfl, rfl, .none, rfl⟩
  obtain ⟨ok, errors, w', later, stored, linked⟩ := sim.parseProxy_agree dump item begun
  have grown := sim.sameConfig_mono later same
  exact ⟨ok, errors, w', sim.trans grows later, stored,
    { grown with proxies := List.rel_append grown.proxies (.cons linked .nil) }⟩

theorem parseApps_agree (value : Json) {config : Config π σ} {config' : Config π' σ'}
    (related : sim.Configs base config config') :
    Agree (sim.Configs base) (parseApps dump store value config)
      (parseApps dump store' value config') := by
  unfold parseApps
  refine parseArray_agree ?_ "apps" value related
  rintro item config config' ⟨w, grows, state, same⟩
  obtain ⟨-, errors, w', later, stored, found⟩ := sim.parseApp_agree dump item state
  have grown := sim.sameConfig_mono later same
  simp only [← errors]
  generalize parseApp dump store item config.store = first at stored found ⊢
  generalize parseApp dump store' item config'.store = first' at stored found ⊢
  obtain ⟨ok, ⟨app, s⟩, logged⟩ := first
  obtain ⟨ok', ⟨app', s'⟩, logged'⟩ := first'
  cases found with
  | none => exact ⟨rfl, rfl, w', sim.trans grows later, stored, grown.admin, grown.logger,
      grown.proxies, grown.dummies, grown.entries⟩
  | some link =>
      exact ⟨rfl, rfl, w', sim.trans grows later, stored, grown.admin, grown.logger,
        grown.proxies, grown.dummies, List.rel_append grown.entries (.cons link .nil)⟩

theorem parseEntry_agree (key : Key) (value : Json) (config : Config π σ)
    (config' : Config π' σ') (related : sim.Configs base config config') :
    Agree (sim.Configs base) (parseEntry dump store key value config)
      (parseEntry dump store' key value config') := by
  unfold parseEntry
  have configs := related
  obtain ⟨w, grows, state, same⟩ := related
  refine .ite (fun _ => ?admin) fun _ => .ite (fun _ => ?logger) fun _ =>
    .ite (fun _ => sim.parseProxies_agree dump value configs) fun _ =>
    .ite (fun _ => sim.parseApps_agree dump value configs) fun _ =>
    .ite (fun _ => ?dummy) fun _ => ⟨rfl, rfl, configs⟩
  case admin =>
    have parsed := congrArg (parseAdmin value) same.admin
    exact ⟨congrArg (·.ok) parsed, congrArg (·.errors) parsed, w, grows, state,
      congrArg (·.target) parsed, same.logger, same.proxies, same.dummies, same.entries⟩
  case logger =>
    have parsed := congrArg (parseLogger value) same.logger
    exact ⟨congrArg (·.ok) parsed, congrArg (·.errors) parsed, w, grows, state,
      same.admin, congrArg (·.target) parsed, same.proxies, same.dummies, same.entries⟩
  case dummy =>
    have parsed := congrArg (parseDummies value) same.dummies
    exact ⟨congrArg (·.ok) parsed, congrArg (·.errors) parsed, w, grows, state,
      same.admin, same.logger, same.proxies, congrArg (·.target) parsed, same.entries⟩

theorem parse_agree (value : Json) {config : Config π σ} {config' : Config π' σ'}
    (related : sim.Configs base config config') :
    Agree (sim.Configs base) (parse dump store value config)
      (parse dump store' value config') := by
  have looped := parseObject_agree (sim.parseEntry_agree dump) "config" value related
  cases value with
  | undefined line => exact ⟨rfl, rfl, related⟩
  | _ => exact looped

end Simulation

end Nexer.Config
