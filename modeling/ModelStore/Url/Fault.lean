import ModelStore.Text.Quoted

/-! Why a text is no URL. -/

namespace ModelStore

inductive UrlFault where
  | tooLong
  | partTooLong (part : String)
  | controlCharacter (c : Char) (place : Nat)
  | portUnreadable (port : String)
  | ipv4Unreadable (host : String)
  | ipv6Unreadable (host : String)
  | nameUnreadable (host : String)
  | pathNotRooted
  | pathWithoutHost
  | pathWithColon
deriving DecidableEq

namespace UrlFault

def message : UrlFault → String
  | tooLong => "URL too long"
  | partTooLong part => "URL component '" ++ part ++ "' too long"
  | controlCharacter c place =>
    "Invalid non-printable ASCII character in URL, " ++ Text.quote (String.ofList [c]) ++
      " at position " ++ toString place ++ "."
  | portUnreadable port => "Invalid port: " ++ Text.quote port
  | ipv4Unreadable host => "Invalid IPv4 address: " ++ Text.quote host
  | ipv6Unreadable host => "Invalid IPv6 address: " ++ Text.quote host
  | nameUnreadable host => "Invalid IDNA hostname: " ++ Text.quote host
  | pathNotRooted => "For absolute URLs, path must be empty or begin with '/'"
  | pathWithoutHost => "Relative URLs cannot have a path starting with '//'"
  | pathWithColon => "Relative URLs cannot have a path starting with ':'"

end UrlFault

end ModelStore
