import Glopfile.HeaderText
import Glopfile.Whatwg.PercentEncode

/-!
# URLs

The basic URL parser of the URL standard, without a base URL, its serializer and the setter of
`pathname`. The states are functions of the URL so far, the buffer and the rest of the input, of
which a later state never goes back to an earlier one; where the standard decreases the pointer
the next state is given what was read. Validation errors that do not end parsing are left out.

Domains are mapped by tables of Unicode, so the host parser is a parameter. Hosts are kept
serialized.
-/

namespace Whatwg

/-- The code points of a domain: ASCII, and none that is forbidden there. -/
def isDomainChar (c : Char) : Bool :=
  0x20 < c.toNat && c.toNat < 0x7f && !"#/:<>?@[\\]^|%".toList.contains c

def isIpv6Char (c : Char) : Bool := c.isDigit || "abcdef:".toList.contains c

/-- A domain or an IPv4 address, or an IPv6 address in brackets. -/
inductive HostText : List Char → Prop
  | domain {text : List Char} (hne : text ≠ []) (hchars : ∀ c ∈ text, isDomainChar c = true) :
      HostText text
  | ipv6 {pieces : List Char} (hchars : ∀ c ∈ pieces, isIpv6Char c = true) :
      HostText ('[' :: pieces ++ [']'])

/-- The host parser of the standard, followed by the host serializer. -/
structure HostParser where
  parse (isNotSpecial : Bool) (input : List Char) : Option (List Char)
  hostText : ∀ input host, parse false input = some host → HostText host
  /-- Parsing and serializing once more does not change the host. -/
  parse_serialized : ∀ input host, parse false input = some host → parse false host = some host

inductive Path
  | opaquePath (text : List Char)
  | list (segments : List (List Char))
  deriving DecidableEq, Repr

def Path.IsList (path : Path) : Prop := ∃ segments, path = .list segments

structure Url where
  scheme : String
  username : List Char
  password : List Char
  host : Option (List Char)
  port : Option ℕ
  path : Path
  query : Option (List Char)
  fragment : Option (List Char)
  deriving DecidableEq, Repr

namespace Url

def new (scheme : String) : Url := ⟨scheme, [], [], none, none, .list [], none, none⟩

def isSpecial (url : Url) : Bool :=
  ["ftp", "file", "http", "https", "ws", "wss"].contains url.scheme

def defaultPort (url : Url) : Option ℕ :=
  [("ftp", 21), ("http", 80), ("https", 443), ("ws", 80), ("wss", 443)].lookup url.scheme

def isSlash (url : Url) (c : Char) : Bool := c = '/' || (url.isSpecial && c = '\\')

def isDelimiter (url : Url) (c : Char) : Bool := url.isSlash c || c = '?' || c = '#'

def querySet (url : Url) : PercentEncodeSet :=
  if url.isSpecial then specialQueryPercentEncodeSet else queryPercentEncodeSet

end Url

def isSingleDot (segment : List Char) : Bool :=
  [".", "%2e"].contains (String.ofList (segment.map Char.toLower))

def isDoubleDot (segment : List Char) : Bool :=
  ["..", ".%2e", "%2e.", "%2e%2e"].contains (String.ofList (segment.map Char.toLower))

def isWindowsDriveLetter : List Char → Bool
  | [letter, c] => letter.isAlpha && (c = ':' || c = '|')
  | _ => false

def isNormalizedWindowsDriveLetter : List Char → Bool
  | [letter, c] => letter.isAlpha && c = ':'
  | _ => false

namespace Url

def appendSegment (url : Url) (segment : List Char) : Url :=
  match url.path with
  | .opaquePath _ => url
  | .list segments => { url with path := .list (segments ++ [segment]) }

def shorten (url : Url) : Url :=
  match url.path with
  | .opaquePath _ => url
  | .list segments =>
    if url.scheme = "file" && segments.length = 1 && segments.all isNormalizedWindowsDriveLetter
    then url
    else { url with path := .list segments.dropLast }

/-- The buffer is a whole segment, and `slash` says whether a slash ended it. -/
def endSegment (url : Url) (buffer : List Char) (slash : Bool) : Url :=
  if isDoubleDot buffer then
    if slash then url.shorten else url.shorten.appendSegment []
  else if isSingleDot buffer then
    if slash then url else url.appendSegment []
  else if url.scheme = "file" && url.path = .list [] && isWindowsDriveLetter buffer then
    url.appendSegment (buffer.take 1 ++ [':'])
  else url.appendSegment buffer

end Url

def fragmentState (url : Url) (input : List Char) : Url :=
  { url with fragment := some (fragmentPercentEncodeSet.encode input) }

def queryState (url : Url) (buffer : List Char) : List Char → Url
  | [] => { url with query := some (url.querySet.encode buffer) }
  | c :: input =>
    if c = '#' then fragmentState { url with query := some (url.querySet.encode buffer) } input
    else queryState url (buffer ++ [c]) input

def opaquePathState (url : Url) (buffer : List Char) : List Char → Url
  | [] => { url with path := .opaquePath buffer }
  | c :: input =>
    if c = '?' then queryState { url with path := .opaquePath buffer } [] input
    else if c = '#' then fragmentState { url with path := .opaquePath buffer } input
    else if c = ' ' && (input.head? = some '?' || input.head? = some '#') then
      opaquePathState url (buffer ++ "%20".toList) input
    else opaquePathState url (buffer ++ c0ControlPercentEncodeSet.encodeChar c) input

def pathState (stateOverride : Bool) (url : Url) (buffer : List Char) : List Char → Url
  | [] => url.endSegment buffer false
  | c :: input =>
    if url.isSlash c then pathState stateOverride (url.endSegment buffer true) [] input
    else if !stateOverride && c = '?' then queryState (url.endSegment buffer false) [] input
    else if !stateOverride && c = '#' then fragmentState (url.endSegment buffer false) input
    else pathState stateOverride url (buffer ++ pathPercentEncodeSet.encodeChar c) input

def pathStartState (stateOverride : Bool) (url : Url) : List Char → Url
  | [] =>
    if url.isSpecial then pathState stateOverride url [] []
    else if stateOverride && url.host = none then url.appendSegment []
    else url
  | c :: input =>
    if url.isSlash c then pathState stateOverride url [] input
    else if url.isSpecial then pathState stateOverride url [] (c :: input)
    else if !stateOverride && c = '?' then queryState url [] input
    else if !stateOverride && c = '#' then fragmentState url input
    else pathState stateOverride url [] (c :: input)

/-- A port that is the default one is left out. -/
def Url.setPort (url : Url) (buffer : List Char) : Option Url :=
  if buffer = [] then some url
  else
    let port := Nat.ofDigitChars 10 buffer 0
    if 2 ^ 16 - 1 < port then none
    else some { url with port := if url.defaultPort = some port then none else some port }

def portState (url : Url) (buffer : List Char) : List Char → Option Url
  | [] => (url.setPort buffer).map fun url => pathStartState false url []
  | c :: input =>
    if c.isDigit then portState url (buffer ++ [c]) input
    else if url.isDelimiter c then
      (url.setPort buffer).map fun url => pathStartState false url (c :: input)
    else none

section Parser
variable (host : HostParser)

def setHost (url : Url) (buffer : List Char) : Option Url :=
  (host.parse (!url.isSpecial) buffer).map fun text => { url with host := some text }

def hostState (url : Url) (insideBrackets : Bool) (buffer : List Char) : List Char → Option Url
  | [] =>
    if url.isSpecial && buffer = [] then none
    else (setHost host url buffer).map fun url => pathStartState false url []
  | c :: input =>
    if c = ':' && !insideBrackets then
      if buffer = [] then none else (setHost host url buffer).bind fun url => portState url [] input
    else if url.isDelimiter c then
      if url.isSpecial && buffer = [] then none
      else (setHost host url buffer).map fun url => pathStartState false url (c :: input)
    else
      let insideBrackets := if c = '[' then true else if c = ']' then false else insideBrackets
      hostState url insideBrackets (buffer ++ [c]) input

def credential (state : Url × Bool) (c : Char) : Url × Bool :=
  let (url, passwordTokenSeen) := state
  if c = ':' && !passwordTokenSeen then (url, true)
  else
    let encoded := userinfoPercentEncodeSet.encodeChar c
    if passwordTokenSeen then ({ url with password := url.password ++ encoded }, true)
    else ({ url with username := url.username ++ encoded }, false)

def authorityState (url : Url) (atSignSeen passwordTokenSeen : Bool) (buffer : List Char) :
    List Char → Option Url
  | [] => if atSignSeen && buffer = [] then none else hostState host url false [] buffer
  | c :: input =>
    if c = '@' then
      let buffer := if atSignSeen then "%40".toList ++ buffer else buffer
      let (url, passwordTokenSeen) := buffer.foldl credential (url, passwordTokenSeen)
      authorityState url true passwordTokenSeen [] input
    else if url.isDelimiter c then
      if atSignSeen && buffer = [] then none
      else hostState host url false [] (buffer ++ c :: input)
    else authorityState url atSignSeen passwordTokenSeen (buffer ++ [c]) input

def specialAuthorityIgnoreSlashesState (url : Url) : List Char → Option Url
  | [] => authorityState host url false false [] []
  | c :: input =>
    if c = '/' || c = '\\' then specialAuthorityIgnoreSlashesState url input
    else authorityState host url false false [] (c :: input)

def pathOrAuthorityState (url : Url) : List Char → Option Url
  | [] => some (pathState false url [] [])
  | c :: input =>
    if c = '/' then authorityState host url false false [] input
    else some (pathState false url [] (c :: input))

/-- A drive letter is not a host but the first segment. -/
def endFileHost (url : Url) (buffer input : List Char) : Option Url :=
  if isWindowsDriveLetter buffer then some (pathState false url buffer input)
  else if buffer = [] then some (pathStartState false { url with host := some [] } input)
  else
    (setHost host url buffer).map fun url =>
      let url := if url.host = some "localhost".toList then { url with host := some [] } else url
      pathStartState false url input

def fileHostState (url : Url) (buffer : List Char) : List Char → Option Url
  | [] => endFileHost host url buffer []
  | c :: input =>
    if url.isDelimiter c then endFileHost host url buffer (c :: input)
    else fileHostState url (buffer ++ [c]) input

def fileSlashState (url : Url) : List Char → Option Url
  | [] => some (pathState false url [] [])
  | c :: input =>
    if url.isSlash c then fileHostState host url [] input
    else some (pathState false url [] (c :: input))

def fileState (url : Url) (input : List Char) : Option Url :=
  let url := { url with host := some [] }
  match input with
  | [] => some (pathState false url [] [])
  | c :: input =>
    if url.isSlash c then fileSlashState host url input
    else some (pathState false url [] (c :: input))

/-- The scheme is read. What is special is taken to have its slashes. -/
def afterScheme (url : Url) (input : List Char) : Option Url :=
  if url.scheme = "file" then fileState host url input
  else if url.isSpecial then specialAuthorityIgnoreSlashesState host url input
  else
    match input with
    | '/' :: input => pathOrAuthorityState host url input
    | input => some (opaquePathState url [] input)

def schemeState (buffer : List Char) : List Char → Option Url
  | [] => none
  | c :: input =>
    if c.isAlphanum || "+-.".toList.contains c then schemeState (buffer ++ [c.toLower]) input
    else if c = ':' then afterScheme host (.new (String.ofList buffer)) input
    else none

def schemeStartState : List Char → Option Url
  | [] => none
  | c :: input => if c.isAlpha then schemeState host [c.toLower] input else none

def isC0ControlOrSpace (c : Char) : Bool := c.toNat ≤ 0x20

def isTabOrNewline (c : Char) : Bool := "\t\n\r".toList.contains c

def strip (input : List Char) : List Char :=
  ((input.dropWhile isC0ControlOrSpace).reverse.dropWhile isC0ControlOrSpace).reverse

def removeTabAndNewline (input : List Char) : List Char := input.filter fun c => !isTabOrNewline c

def parse (input : List Char) : Option Url :=
  schemeStartState host (removeTabAndNewline (strip input))

end Parser

def Path.serialize : Path → List Char
  | .opaquePath text => text
  | .list segments => segments.flatMap fun segment => '/' :: segment

namespace Url

def credentials (url : Url) : List Char :=
  if url.username = [] && url.password = [] then []
  else url.username ++ (if url.password = [] then [] else ':' :: url.password) ++ ['@']

def portText (url : Url) : List Char :=
  match url.port with
  | none => []
  | some port => ':' :: HeaderText.decimal port

def pathDot (url : Url) : List Char :=
  match url.path with
  | .list ([] :: _ :: _) => "/.".toList
  | _ => []

def queryText (url : Url) : List Char :=
  match url.query with
  | none => []
  | some query => '?' :: query

def fragmentText (url : Url) : List Char :=
  match url.fragment with
  | none => []
  | some fragment => '#' :: fragment

def serialize (url : Url) : List Char :=
  url.scheme.toList ++ ':' ::
    (match url.host with
      | some host => "//".toList ++ url.credentials ++ host ++ url.portText
      | none => url.pathDot) ++
    url.path.serialize ++ url.queryText ++ url.fragmentText

def setPath (url : Url) (value : List Char) : Url :=
  match url.path with
  | .opaquePath _ => url
  | .list _ => pathStartState true { url with path := .list [] } (removeTabAndNewline value)

end Url

end Whatwg
