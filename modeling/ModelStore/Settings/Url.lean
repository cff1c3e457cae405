import ModelStore.Settings
import ModelStore.Text.Case
import ModelStore.Url.Address
import ModelStore.Url.Reference

/-! The parts of a settings URL. The scheme is read in small letters, the authority runs from
two slashes to the next slash, query or fragment, and the database is the first segment
of the path, taken as it is written. -/

namespace ModelStore

structure UrlParts where
  scheme : List Char
  authority : List Char
  path : List Char

namespace UrlParts

open Text

/-- A scheme, which must not be empty, and what follows its colon. -/
def takeScheme (cs : List Char) : List Char × List Char :=
  match splitFirst ':' cs with
  | (scheme, some rest) =>
    if Reference.isScheme scheme then (scheme.map lower, rest) else ([], cs)
  | (_, none) => ([], cs)

/-- Characters whose compatibility form has one that separates the parts of a URL. -/
def disguised : List Nat :=
  [0x2047, 0x2048, 0x2049, 0x2100, 0x2101, 0x2105, 0x2106, 0x2A74, 0xFE13, 0xFE16, 0xFE55,
    0xFE56, 0xFE5F, 0xFE6B, 0xFF03, 0xFF0F, 0xFF1A, 0xFF1F, 0xFF20]

/-- Whether a host with its port is an address in brackets, with nothing before them and
only a port after them. A host without brackets must itself be such an address. -/
def isBracketed (located : List Char) : Bool :=
  match splitFirst '[' located with
  | (before, some rest) =>
    let (address, after) := splitFirst ']' rest
    let after := after.getD []
    before.isEmpty && (after.isEmpty || after.head? == some ':') && Address.isBracketed address
  | (_, none) => Address.isBracketed (located.takeWhile (· ≠ ':'))

/-- Brackets come in pairs, and are for addresses. -/
def bracketsOk (authority : List Char) : Bool :=
  let opened := authority.contains '['
  let closed := authority.contains ']'
  opened == closed && (!opened || isBracketed (splitLast '@' authority).2)

def authorityOk (authority : List Char) : Bool :=
  bracketsOk authority && !authority.any fun c => disguised.contains c.toNat

def isRemoved (c : Char) : Bool := c == '\t' || c == '\r' || c == '\n'

def ofText (url : String) : Except Fault UrlParts :=
  let cs := (url.toList.dropWhile fun c => c.toNat ≤ 0x20).filter fun c => !isRemoved c
  let (scheme, rest) := takeScheme cs
  let (authority, rest) := Authority.take rest
  if authorityOk authority then
    .ok ⟨scheme, authority, (splitFirst '?' (splitFirst '#' rest).1).1⟩
  else .error (.shape .wrongValue)

def server (u : UrlParts) : String :=
  String.ofList ((if u.scheme.isEmpty then [] else u.scheme ++ [':']) ++
    (if u.authority.isEmpty then [] else '/' :: '/' :: u.authority))

/-- The first segment of the path; none when there is no segment. -/
def database? (u : UrlParts) : Option String :=
  match cutChars '/' (trim (· = '/') u.path) with
  | [] :: _ => none
  | first :: _ => some (String.ofList first)
  | [] => none

end UrlParts

namespace Settings

def defaultDatabase : String := "test"

def serverUrl (s : Settings) : Except Fault String :=
  match s.url.filter (· ≠ "") with
  | some url => (UrlParts.ofText url).map UrlParts.server
  | none =>
    .ok (s.protocol ++ "://" ++ s.host ++ ":" ++ Number.integerText s.port)

/-- The database that the settings name, else that of the URL, else the default one. -/
def databaseName (s : Settings) : Except Fault String :=
  match s.database.filter (· ≠ "") with
  | some name => .ok name
  | none =>
    match s.url.filter (· ≠ "") with
    | some url => (UrlParts.ofText url).map fun u => u.database?.getD defaultDatabase
    | none => .ok defaultDatabase

def auth? (s : Settings) : Option (String × String) :=
  match s.username, s.password with
  | some user, some password =>
    if user ≠ "" ∧ password ≠ "" then some (user, password) else none
  | _, _ => none

end Settings

end ModelStore
