import ModelStore.Number.Numeral
import ModelStore.Text.Cut

/-! The parts of a URL as they are written. A scheme ends at the first colon. Two slashes
announce the authority, which runs to the next slash, query or fragment. Within it a host
follows the last `@`, in brackets or up to a colon, and what is left is the port. -/

namespace ModelStore

open Text

/-- Who and where: the user information, the host with its brackets, and the port. -/
structure Authority where
  userinfo : List Char
  host : List Char
  port : List Char

namespace Authority

def ends (c : Char) : Bool := c == '/' || c == '?' || c == '#'

/-- The authority at the front of a text, which two slashes announce, and the rest. -/
def take : List Char → List Char × List Char
  | '/' :: '/' :: rest => (rest.takeWhile fun c => !ends c, rest.dropWhile fun c => !ends c)
  | cs => ([], cs)

/-- A host at the front of a text, and the rest. Brackets go up to the last closing one. -/
def takeHost (cs : List Char) : List Char × List Char :=
  match cs, splitLast ']' cs with
  | '[' :: _, (some inside, after) => (inside ++ [']'], after)
  | _, _ => (cs.takeWhile (· ≠ ':'), cs.dropWhile (· ≠ ':'))

def ofChars (cs : List Char) : Authority :=
  let (userinfo, located) := splitLast '@' cs
  let (host, rest) := takeHost located
  let port := match rest with
    | ':' :: port => port
    | port => port
  ⟨userinfo.getD [], host, port⟩

/-- The number of the port, if it is given; it may be any whole number. -/
def port? (a : Authority) : Option (Option Int) :=
  if a.port.isEmpty then some none else (Number.integer? (String.ofList a.port)).map some

end Authority

structure Reference where
  scheme : List Char
  authority : List Char
  path : List Char
  query : Option (List Char)

namespace Reference

def isAsciiLetter (c : Char) : Bool := ('a' ≤ c && c ≤ 'z') || ('A' ≤ c && c ≤ 'Z')

def isSchemeChar (c : Char) : Bool :=
  isAsciiLetter c || isAsciiDigit c || c == '+' || c == '-' || c == '.'

def isScheme (cs : List Char) : Bool := cs.head?.any isAsciiLetter && cs.all isSchemeChar

/-- A scheme, which may be empty, and what follows its colon. -/
def takeScheme (cs : List Char) : List Char × List Char :=
  match splitFirst ':' cs with
  | (scheme, some rest) => if scheme.isEmpty || isScheme scheme then (scheme, rest) else ([], cs)
  | (_, none) => ([], cs)

/-- The parts of a text. The fragment is left out. -/
def ofChars (cs : List Char) : Reference :=
  let (scheme, rest) := takeScheme cs
  let (authority, rest) := Authority.take rest
  let (path, query) := splitFirst '?' (splitFirst '#' rest).1
  ⟨scheme, authority, path, query⟩

end Reference

end ModelStore
