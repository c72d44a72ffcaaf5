import TokenFeedback.Address

/-!
# Names of servers

A server is known by a domain name or by an address.

* `isDomainName`: labels with dots between them, at most 253 characters; the last label is not a
  number. One dot may follow the last label.
* `ServerName.ofText?`: a text that is a domain name is kept as it is; otherwise it has to be an
  address.
-/

namespace TokenFeedback

/-- A label is made of letters, digits, hyphens and underscores. -/
def isLabelCharacter (c : Char) : Bool := c.isAlphanum || c == '-' || c == '_'

/-- One to 63 characters, no hyphen at either end. -/
def isLabel (label : List Char) : Bool :=
  1 ≤ label.length && label.length ≤ 63 && label.all isLabelCharacter &&
    label.head? != some '-' && label.getLast? != some '-'

/-- The labels of a name, without the empty one behind a last dot. -/
def labels (name : List Char) : List (List Char) :=
  let all := Text.pieces '.' name
  if all.getLast? = some [] then all.dropLast else all

def isDomainName (name : List Char) : Bool :=
  name.length ≤ 253 && (labels name).all isLabel &&
    match (labels name).getLast? with
    | some last => !last.all Char.isDigit
    | none => false

/-- The name of a server. -/
inductive ServerName where
  | domain (name : String)
  | v4 (address : Ipv4)
  | v6 (address : Ipv6)

namespace ServerName

def ofText? (s : String) : Option ServerName :=
  if isDomainName s.toList then some (.domain s)
  else
    match Ipv4.ofText? s with
    | some a => some (.v4 a)
    | none => (Ipv6.ofText? s).map .v6

def text : ServerName → String
  | .domain name => name
  | .v4 a => a.text
  | .v6 a => a.text

def debugText : ServerName → String
  | .domain name => Text.wrapped "DnsName" (Text.quoted name)
  | .v4 a => Text.wrapped "IpAddress" a.debugText
  | .v6 a => Text.wrapped "IpAddress" a.debugText

/-- Is a certificate for the domain `name` one for this server? Upper and lower case are the
same, and so are a name with a last dot and one without. -/
def isCoveredBy (s : ServerName) (name : String) : Bool :=
  match s with
  | .domain own =>
    (labels own.toList).map (·.map Char.toLower) == (labels name.toList).map (·.map Char.toLower)
  | .v4 _ => false
  | .v6 _ => false

end ServerName

end TokenFeedback
