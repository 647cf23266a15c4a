import Nexer.Text.Bytes

/-!
# URLs

`ParseUrl` reads the scheme, host and port when the string contains `://`, and then
the path, the query and the fragment.
-/

namespace Nexer

structure Url where
  scheme : Bytes := []
  host : Bytes := []
  port : Bytes := []
  path : Bytes := []
  query : Bytes := []
  fragment : Bytes := []
  deriving DecidableEq

namespace Url

def hash : UInt8 := 35
def slash : UInt8 := 47
def colon : UInt8 := 58
def question : UInt8 := 63

/-- `strstr(s, "://")`: what stands before the first occurrence and after it. -/
def strstr : Bytes → Option (Bytes × Bytes)
  | [] => none
  | byte :: rest =>
      if [colon, slash, slash].isPrefixOf (byte :: rest) then some ([], rest.drop 2)
      else (strstr rest).map fun parts => (byte :: parts.1, parts.2)

/-- The loops that read up to one of the delimiters. -/
def upTo (delimiters : List UInt8) (bytes : Bytes) : Bytes × Bytes :=
  bytes.span fun byte => byte ∉ delimiters

/-- The scheme, the host and the port, and what follows them. -/
def parseAuthority (bytes : Bytes) : Bytes × Bytes × Bytes × Bytes :=
  match strstr bytes with
  | none => ([], [], [], bytes)
  | some (scheme, rest) =>
      let (host, rest) := upTo [colon, slash, question, hash] rest
      match rest with
      | [] => (scheme, host, [], [])
      | byte :: after =>
          if byte = colon then
            let (port, rest) := upTo [slash, question, hash] after
            (scheme, host, port, rest)
          else (scheme, host, [], rest)

/-- The text after a mark, up to one of the delimiters. -/
def parseMarked (mark : UInt8) (delimiters : List UInt8) : Bytes → Bytes × Bytes
  | [] => ([], [])
  | byte :: rest => if byte = mark then upTo delimiters rest else ([], byte :: rest)

/-- `ParseUrl`. -/
def parse (text : Bytes) : Url :=
  let (scheme, host, port, rest) := parseAuthority (cString text)
  let root := if rest.head?.any (· ≠ slash) then [slash] else []
  let (path, rest) := upTo [question, hash] rest
  let (query, rest) := parseMarked question [hash] rest
  let (fragment, _) := parseMarked hash [] rest
  { scheme, host, port, path := root ++ path, query, fragment }

end Url

end Nexer
