import Nexer.Http.Message

/-!
# A parser of requests without a body

It reports what llhttp reports of such requests, byte by byte.  The runs on concrete
bytes below are taken with it.
-/

namespace Nexer.Http

namespace Scanner

/-- What the next byte belongs to. -/
inductive Place where
  | method
  | target
  | version
  | line
  | name
  | blank
  | value
  | lineEnd
  | headEnd
  | failed
  deriving DecidableEq

def lineFeed : UInt8 := 10
def carriageReturn : UInt8 := 13
def space : UInt8 := 32
def colon : UInt8 := 58

def scan (byte : UInt8) : Place → Place × List Callback
  | .method => if byte = space then (.target, []) else (.method, [])
  | .target => if byte = space then (.version, []) else (.target, [.url [byte]])
  | .version => if byte = lineFeed then (.line, []) else (.version, [])
  | .line => if byte = carriageReturn then (.headEnd, []) else (.name, [.headerField [byte]])
  | .name => if byte = colon then (.blank, []) else (.name, [.headerField [byte]])
  | .blank =>
      if byte = space then (.blank, [])
      else if byte = carriageReturn then (.lineEnd, [])
      else (.value, [.headerValue [byte]])
  | .value => if byte = carriageReturn then (.lineEnd, []) else (.value, [.headerValue [byte]])
  | .lineEnd => if byte = lineFeed then (.line, []) else (.failed, [])
  | .headEnd =>
      if byte = lineFeed then (.method, [.headersComplete, .messageComplete]) else (.failed, [])
  | .failed => (.failed, [])

def scanAll : Bytes → Place → Place × List Callback
  | [], place => (place, [])
  | byte :: rest, place =>
      let (next, first) := scan byte place
      let (last, later) := scanAll rest next
      (last, first ++ later)

end Scanner

def scanner : Parser where
  State := Scanner.Place
  init := .method
  execute := fun place bytes =>
    let (next, callbacks) := Scanner.scanAll bytes place
    (next, callbacks, if next = .failed then 1 else 0)

end Nexer.Http
