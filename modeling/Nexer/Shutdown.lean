import Nexer.Http.Server
import Nexer.Proxy.Drained

/-!
# Closing the servers

`Nexer::Close` closes the proxies and the admin server while their connections stay
open.  A server that outlives its connections is never used after its deletion; nothing
in the program makes it wait for them.
-/

namespace Nexer

open Nexer.Transition

/-- Neither a proxy nor an HTTP server is used after its deletion, if it is deleted when
all of its connections are done. -/
theorem servers_alive {app : Bool} {proxy : Proxy.State} {proxied : List Proxy.Event}
    {parser : Http.Parser} {statusName : Nat → Bytes} {handler : Option Http.Handler}
    {server : Http.ServerState parser} {served : List Http.ServerEvent}
    (proxyReached : Machine.Reaches (Proxy.step app) Proxy.Drained .initial proxy proxied)
    (serverReached : Machine.Reaches (Http.serverStep parser statusName handler) Http.Deserted
      (.initial parser) server served) :
    (∀ index, .deadServer index ∉ proxied) ∧ ∀ index, .deadServer index ∉ served :=
  ⟨(Proxy.over_of_reaches proxyReached).sound, (Http.server_alive serverReached).2⟩

/-- Both are closed with an open connection, which is gone before the close callback. -/
theorem servers_alive_run :
    ∃ proxied served,
      (∃ proxy, Machine.Reaches (Proxy.step false) Proxy.Drained .initial proxy proxied ∧
        proxy.server = .destroyed) ∧
      (∃ server, Machine.Reaches (Http.serverStep Http.scanner (fun _ => []) none) Http.Deserted
        (.initial Http.scanner) server served ∧ server.server = .destroyed) ∧
      .deadServer 0 ∉ proxied ∧ .deadServer 0 ∉ served := by
  obtain ⟨proxy, proxyReached, gone⟩ := Machine.exists_reaches (Proxy.step false) Proxy.Drained
    .initial
    [.accept 0, .close, .forwarder 0 (.eof .accepted), .forwarder 0 (.closed .accepted),
      .connected 0 true, .closed]
    [.accepted 0 0, .removed 0, .discarded 0] (fun proxy => decide (proxy.server = .destroyed))
    (by decide)
  obtain ⟨server, serverReached, closed⟩ := Machine.exists_reaches
    (Http.serverStep Http.scanner (fun _ => []) none) Http.Deserted (.initial Http.scanner)
    [.accept, .close, .connection 0 .eof, .connection 0 .closed, .closed]
    [.accepted 0, .connection 0 .closing, .connection 0 .closed]
    (fun server => decide (server.server = .destroyed)) (by decide)
  obtain ⟨proxied, served⟩ := servers_alive proxyReached serverReached
  exact ⟨_, _, ⟨proxy, proxyReached, by simpa using gone⟩,
    ⟨server, serverReached, by simpa using closed⟩, proxied 0, served 0⟩

/-- The connections are still open when the servers are deleted: a client of the proxy
leaves afterwards, and one of the HTTP server sends its next request. -/
theorem dead_servers :
    (∃ state past, Machine.Reaches (Proxy.step false) Machine.always .initial state past ∧
      .deadServer 0 ∈ past) ∧
    ∃ state past, Machine.Reaches
        (Http.serverStep Http.scanner (fun _ => []) (some fun _ => {})) Machine.always
        (.initial Http.scanner) state past ∧
      .deadServer 0 ∈ past := by
  obtain ⟨proxy, proxyReached, -⟩ := Machine.exists_reaches (Proxy.step false) Machine.always
    .initial
    [.accept 0, .connected 0 true, .close, .closed, .forwarder 0 (.eof .accepted),
      .forwarder 0 (.closed .accepted), .forwarder 0 (.closed .connected)]
    [.accepted 0 0, .setOutgoing 0 0, .deadServer 0] (fun _ => true) (by decide)
  obtain ⟨server, serverReached, -⟩ := Machine.exists_reaches
    (Http.serverStep Http.scanner (fun _ => []) (some fun _ => {})) Machine.always
    (.initial Http.scanner)
    [.accept, .close, .closed, .connection 0 (.read (ascii "GET / HTTP/1.1\r\n\r\n"))]
    [.accepted 0, .deadServer 0] (fun _ => true) (by decide)
  exact ⟨⟨proxy, _, proxyReached, by decide⟩, server, _, serverReached, by decide⟩

end Nexer
