import ModelStore.Url.Host
import ModelStore.Url.Reference

/-! URLs. The scheme and the host are in small letters, a port that goes with the scheme is
left out, dot segments of the path are resolved unless there is neither scheme nor
authority, and path and query are percent-encoded, keeping what is encoded already. -/

namespace ModelStore

structure Url where
  scheme : List Char
  userinfo : List Char
  host : List Char
  port : Option Int
  path : List Char
  query : Option (List Char)

namespace Url

open Text

def maxLength : Nat := 65536

def isVisible (c : Char) : Bool := 0x20 ≤ c.toNat && c.toNat ≠ 0x7F

/-- Characters that a query may hold as they are. -/
def isQueryChar (c : Char) : Bool :=
  0x20 < c.toNat && c.toNat < 0x7F && !(c == '\x22' || c == '#' || c == '<' || c == '>')

/-- Characters that a path may hold as they are. -/
def isPathChar (c : Char) : Bool :=
  isQueryChar c && !(c == '?' || c == '\x60' || c == '\x7b' || c == '\x7d')

def isUserinfoChar (c : Char) : Bool :=
  isPathChar c && !(c == '/' || c == ';' || c == '=' || c == '@' || c == '[' || c == '\\' ||
    c == ']' || c == '^' || c == '|')

def dot : List Char := ['.']

def dots : List Char := ['.', '.']

/-- One step of resolving dot segments; `out` holds the segments so far, the last first. -/
def resolveStep (out : List (List Char)) (segment : List Char) : List (List Char) :=
  if segment = dot then out
  else if segment = dots then (if out = [[]] then out else out.drop 1)
  else segment :: out

def resolveDots (cs : List Char) : List Char :=
  joinChars '/' ((cutChars '/' cs).foldl resolveStep []).reverse

def hasAuthority (u : Url) : Bool := !u.userinfo.isEmpty || !u.host.isEmpty || u.port.isSome

def isRelative (u : Url) : Bool := u.scheme.isEmpty && !u.hasAuthority

/-- A path after an authority begins with a slash; one on its own must not look like an
authority or a scheme. -/
def pathFault? (u : Url) : Option UrlFault :=
  if u.hasAuthority && !u.path.isEmpty && u.path.head? != some '/' then some .pathNotRooted
  else if u.isRelative && (afterLeading? ['/', '/'] u.path).isSome then some .pathWithoutHost
  else if u.isRelative && u.path.head? == some ':' then some .pathWithColon
  else none

/-- The URL with path and query in their encoded form. -/
def encoded (u : Url) : Url :=
  let path := if u.isRelative then u.path else resolveDots u.path
  { u with
    path := encodeKeeping isPathChar path
    query := u.query.map (encodeKeeping isQueryChar) }

def checked (u : Url) : Except UrlFault Url :=
  match u.pathFault? with
  | some f => .error f
  | none => .ok u.encoded

def defaultPorts : List (String × Int) :=
  [("ftp", 21), ("http", 80), ("https", 443), ("ws", 80), ("wss", 443)]

def portOf (scheme : List Char) (a : Authority) : Except UrlFault (Option Int) :=
  match a.port? with
  | some port => .ok (port.filter fun n => !defaultPorts.contains (String.ofList scheme, n))
  | none => .error (.portUnreadable (String.ofList a.port))

def ofReference (r : Reference) : Except UrlFault Url := do
  let a := Authority.ofChars r.authority
  let host ← Host.encode a.host
  let port ← portOf r.scheme a
  checked ⟨r.scheme.map lower, a.userinfo, host, port, r.path, r.query⟩

/-- The first control character of a text, with its place. -/
def control? (cs : List Char) : Option (Char × Nat) := cs.zipIdx.find? fun e => !isVisible e.1

def ofText (s : String) : Except UrlFault Url :=
  let cs := s.toList
  if maxLength < cs.length then .error .tooLong
  else
    match control? cs with
    | some (c, place) => .error (.controlCharacter c place)
    | none => ofReference (Reference.ofChars cs)

def target (u : Url) : List Char :=
  (if u.path.isEmpty then ['/'] else u.path) ++
    match u.query with
    | some query => '?' :: query
    | none => []

def withQuery (u : Url) (query : Option (List Char)) : Except UrlFault Url :=
  if query.any fun q => maxLength < q.length then .error (.partTooLong "query")
  else checked { u with query }

def withTarget (u : Url) (target : List Char) : Except UrlFault Url :=
  let (path, query) := splitFirst '?' target
  if maxLength < path.length then .error (.partTooLong "path")
  else { u with path }.withQuery query

def authority (u : Url) : List Char :=
  (if u.userinfo.isEmpty then [] else encodeKeeping isUserinfoChar u.userinfo ++ ['@']) ++
    (if u.host.contains ':' then '[' :: u.host ++ [']'] else u.host) ++
    match u.port with
    | some n => ':' :: (Number.integerText n).toList
    | none => []

def text (u : Url) : List Char :=
  (if u.scheme.isEmpty then [] else u.scheme ++ [':']) ++
    (if u.hasAuthority then '/' :: '/' :: u.authority else []) ++ u.path ++
    match u.query with
    | some query => '?' :: query
    | none => []

/-- Whether the text of the URL begins with what may be a scheme. -/
def isTyped (u : Url) : Bool :=
  match splitFirst ':' u.text with
  | (type, some _) => !type.isEmpty && !type.contains '/'
  | (_, none) => false

/-- User name and password, unless both are empty. -/
def credentials? (u : Url) : Option (String × String) :=
  let (user, password) := splitFirst ':' u.userinfo
  let user := decodeChars user
  let password := decodeChars (password.getD [])
  if user.isEmpty ∧ password.isEmpty then none
  else some (String.ofList user, String.ofList password)

end Url

end ModelStore
