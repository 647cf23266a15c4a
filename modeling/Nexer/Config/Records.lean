import Nexer.Config.Json

/-!
# The configuration records

The structures of `config.h` with their defaults.  Apps and checkers are pointed
to, so that the records are generic in these two kinds of pointers; a `Store`
says how the parser obtains them.  `registry` is the store of the program.
-/

namespace Nexer.Config

structure Command where
  file : String := ""
  args : List String := []
  env : List String := []
  cwd : String := ""
  timeout : Int32 := 0
  deriving DecidableEq

structure App (π κ : Type) where
  name : String := ""
  command : Command := {}
  checker : Option κ := none
  maxStartTime : Int32 := 0
  preamble : List π := []
  tags : List String := []
  deriving DecidableEq

structure Upstream (π : Type) where
  host : String := ""
  port : Int32 := 0
  connectTimeout : Int32 := 30000
  app : Option π := none
  tags : List String := []
  deriving DecidableEq

structure Proxy (π : Type) where
  port : Int32 := 0
  upstream : Upstream π := {}
  deriving DecidableEq

structure Admin where
  port : Int32 := 0
  deriving DecidableEq

/-- `Logger::Level`. -/
inductive Level where
  | trace
  | debug
  | info
  | warn
  | error
  | fatal
  | critical
  deriving DecidableEq

structure Logger where
  file : String := ""
  level : Level := .info
  deriving DecidableEq

inductive DummyType where
  | udp
  | tcp
  | http
  deriving DecidableEq

structure Dummy where
  type : DummyType := .tcp
  port : Int32 := 0
  echo : Bool := false
  deriving DecidableEq

end Nexer.Config

namespace Nexer

open Config in
/-- `Config`.  `entries` is not in the source: what `ParseApp` returned for the
elements of `apps`.  `apps_` and `app_map_` are part of the store. -/
structure Config (π σ : Type) where
  admin : Admin := { port := 19500 }
  logger : Logger := {}
  proxies : List (Proxy π) := []
  dummies : List Dummy := []
  entries : List π := []
  store : σ
  deriving DecidableEq

end Nexer

namespace Nexer.Config

/-- How the parser reaches apps and checkers. -/
structure Store (π κ σ : Type) where
  /-- `Config::GetApp`. -/
  getApp : String → σ → π × σ
  /-- The end of `ParseApp`: the parsed app is moved to its place. -/
  settle : App π κ → σ → π × σ
  /-- `new config::Command()`, together with what is parsed into it. -/
  newCommand : Command → σ → κ × σ

abbrev AppId := Nat
abbrev CommandId := Nat

/-- `apps_` and `app_map_`, with the objects on the heap, by their addresses. -/
structure Registry where
  apps : List AppId := []
  appMap : List (String × AppId) := []
  objects : List (App AppId CommandId) := []
  commands : List Command := []
  deriving DecidableEq

namespace Registry

/-- `new config::App()` with `apps_.push_back`. -/
def newApp (app : App AppId CommandId) (registry : Registry) : AppId × Registry :=
  (registry.objects.length,
    { registry with
      objects := registry.objects ++ [app]
      apps := registry.apps ++ [registry.objects.length] })

/-- `Config::GetApp`. -/
def getApp (name : String) (registry : Registry) : AppId × Registry :=
  match if name ≠ "" then registry.appMap.lookup name else none with
  | some app => (app, registry)
  | none =>
      let created := registry.newApp { name }
      (created.1,
        if name ≠ "" then
          { created.2 with appMap := (name, created.1) :: created.2.appMap }
        else created.2)

/-- `*app = std::move(tmp)`. -/
def assign (app : AppId) (tmp : App AppId CommandId) (registry : Registry) : Registry :=
  { registry with objects := registry.objects.set app tmp }

/-- The end of `ParseApp`. -/
def settle (tmp : App AppId CommandId) (registry : Registry) : AppId × Registry :=
  if tmp.name ≠ "" then
    let found := registry.getApp tmp.name
    (found.1, found.2.assign found.1 tmp)
  else registry.newApp tmp

def newCommand (command : Command) (registry : Registry) : CommandId × Registry :=
  (registry.commands.length, { registry with commands := registry.commands ++ [command] })

end Registry

/-- The store of the program. -/
def registry : Store AppId CommandId Registry where
  getApp := Registry.getApp
  settle := Registry.settle
  newCommand := Registry.newCommand

/-- An object on the heap. -/
inductive Object where
  | app (app : AppId)
  | command (command : CommandId)
  deriving DecidableEq

/-- What `~Config` deletes, in order. -/
def deleted (config : Config AppId Registry) : List Object :=
  config.store.apps.flatMap fun app =>
    ((config.store.objects[app]?.bind (·.checker)).map Object.command).toList ++ [.app app]

end Nexer.Config
