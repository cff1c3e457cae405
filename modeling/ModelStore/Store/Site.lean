import ModelStore.Settings.Url
import ModelStore.Store.Exchange
import ModelStore.Url.Basic

/-! The server of a store, as requests reach it. Each call's address is taken below the base
address, whose target ends in a slash; a query of the base goes on with the path of the
call, and gives way to a call's own parameters. A request is signed with a user name and a
password if the settings or the base address have them. -/

namespace ModelStore

structure Site where
  base : Url
  credentials : Option (String × String)

structure Request where
  call : Call
  url : Url

namespace Request

def path (r : Request) : String :=
  if r.url.path.isEmpty then "/" else String.ofList r.url.path

/-- The path as messages of the store's errors give it. -/
def shownPath (r : Request) : String := Text.decode r.path

def params (r : Request) : List (String × String) := UrlQuery.decode (r.url.query.getD [])

/-- What keeps an answer from directing on to a place: it is no URL, or it leaves the host to
the request and has a path that cannot follow a host. -/
def misdirection? (r : Request) (place : String) : Option Exchange :=
  match Url.ofText place with
  | .error f => some (.failed ⟨.protocol, "Invalid URL in location header: " ++ f.message ++ "."⟩)
  | .ok u =>
    if u.scheme.isEmpty || !u.host.isEmpty then none
    else ({ u with host := r.url.host }.pathFault?).map fun f => .refused (.url f)

/-- What a reply makes of a request. An answer can be taken in only if the address of the
request says how it is reached. -/
def exchange (r : Request) : Reply → Exchange
  | .failed f => .failed f
  | .unreadable f => .refused f
  | .answered a =>
    if r.url.isTyped then
      (a.redirection?.bind r.misdirection?).getD (.answered r.shownPath a)
    else .refused (.shape .wrongValue)

end Request

namespace Site

def closed (u : Url) : Except UrlFault Url :=
  if u.target.getLast? = some '/' then .ok u else u.withTarget (u.target ++ ['/'])

def ofText (server : String) (own : Option (String × String)) : Except UrlFault Site := do
  let base ← Url.ofText server >>= closed
  .ok ⟨base, own.or base.credentials?⟩

/-- Where a call goes. A host of its own is looked at and left out. -/
def address (s : Site) (c : Call) : Except UrlFault Url := do
  let asked ← Url.ofText c.path
  let url ← s.base.withTarget (s.base.target ++ asked.target.dropWhile (· = '/'))
  match c.query? with
  | some query => url.withQuery query
  | none => .ok url

def request (s : Site) (c : Call) : Except Fault Request := do
  let url ← (s.address c).mapError .url
  let c ← c.encode
  .ok ⟨c, url⟩

end Site

def Settings.site (s : Settings) : Except Fault Site := do
  let server ← s.serverUrl
  (Site.ofText server s.auth?).mapError .url

end ModelStore
