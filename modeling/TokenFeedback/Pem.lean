import TokenFeedback.Base64
import TokenFeedback.Text.Outline

/-!
# PEM files

A PEM file is text with sections in it. A section stands between a line that begins it and a line
that ends it, both with its label; the lines between are base64 text. What stands outside of
sections is commentary.

* `Pem.lines`: a line ends at each line feed and at each carriage return.
* `Pem.sections`: the sections with a known label, in order, and the errors between them.
* `Pem.render`: a section as it is usually written.

A begin line inside a section gives it another label and keeps its text.
-/

namespace TokenFeedback.Pem

/-- The sections that are decoded; those with any other label are passed over. -/
inductive Kind where
  | certificate
  | publicKey
  | rsaPrivateKey
  | privateKey
  | ecPrivateKey
  | revocationList
  | certificateRequest
  | echConfig
  deriving Repr, DecidableEq

namespace Kind

def all : List Kind :=
  [.certificate, .publicKey, .rsaPrivateKey, .privateKey, .ecPrivateKey, .revocationList,
    .certificateRequest, .echConfig]

def label : Kind → String
  | .certificate => "CERTIFICATE"
  | .publicKey => "PUBLIC KEY"
  | .rsaPrivateKey => "RSA PRIVATE KEY"
  | .privateKey => "PRIVATE KEY"
  | .ecPrivateKey => "EC PRIVATE KEY"
  | .revocationList => "X509 CRL"
  | .certificateRequest => "CERTIFICATE REQUEST"
  | .echConfig => "ECHCONFIG"

/-- The kind of the sections with this label. -/
def ofLabel? (label : Bytes) : Option Kind := all.find? fun k => textBytes k.label == label

end Kind

/-- A decoded section. -/
structure Section where
  kind : Kind
  der : Bytes
  deriving Repr, DecidableEq

/-- What is wrong with a file. -/
inductive Error where
  | missingSectionEnd (label : Bytes)
  | illegalSectionStart (line : Bytes)
  | base64 (error : Base64.Error)
  | noItemsFound
  deriving Repr, DecidableEq

/-- Bytes as decimal numbers. -/
def decimalList (bytes : Bytes) : String := Text.listing (bytes.map fun b => s!"{b}")

def Error.message : Error → String
  | .missingSectionEnd label => "missing section end marker: " ++ decimalList label
  | .illegalSectionStart line => "illegal section start: " ++ decimalList line
  | .base64 e => "base64 decode error: " ++ e.message
  | .noItemsFound => "no items found"

def isLineEnd (b : UInt8) : Bool := b == 10 || b == 13

/-- The lines of a text, without the characters that end them. -/
def lines : Bytes → List Bytes
  | [] => []
  | b :: rest =>
    if isLineEnd b then [] :: lines rest
    else
      match lines rest with
      | [] => [[b]]
      | line :: later => (b :: line) :: later

def beginMark : Bytes := textBytes "-----BEGIN "
def endMark : Bytes := textBytes "-----END "
def dashes : Bytes := textBytes "-----"

/-- What is left of a line behind a mark. -/
def after? (mark line : Bytes) : Option Bytes :=
  if mark.isPrefixOf line then some (line.drop mark.length) else none

/-- The label of a begin line, from what stands behind the mark: that must end in five dashes,
blanks between and behind them allowed. -/
def labelOf? (rest : Bytes) : Option Bytes :=
  let tail := rest.reverse.takeWhile fun b => b == 45 || b == 32
  if tail.count 45 = 5 then
    let fromFirstDash := tail.reverse.dropWhile (· == 32)
    some (rest.take (rest.length - fromFirstDash.length))
  else none

/-- Does this line end the section with this label? -/
def endsSection (label line : Bytes) : Bool :=
  (endMark ++ label ++ dashes).isPrefixOf line

/-- What a line does to a reader of the file. -/
inductive Line where
  | beginning (label : Option Bytes)
  | ending
  | content
  deriving Repr, DecidableEq

/-- Sorts a line by the label of the section that it stands in. -/
def classify (label : Option Bytes) (line : Bytes) : Line :=
  match after? beginMark line with
  | some rest => .beginning (labelOf? rest)
  | none =>
    match label with
    | some l => if endsSection l line then .ending else .content
    | none => .content

/-- The section that ends here: nothing if its label is not known. -/
def close? (label text : Bytes) : Option (Except Error Section) :=
  (Kind.ofLabel? label).map fun kind =>
    match Base64.decode text with
    | .ok der => .ok ⟨kind, der⟩
    | .error e => .error (.base64 e)

/-- The sections and errors of the remaining lines, from the label of the section that the reader
stands in and the text that it has collected. Behind an error the reader starts afresh. -/
def sectionsFrom (label : Option Bytes) (text : Bytes) : List Bytes → List (Except Error Section)
  | [] =>
    match label with
    | some l => [.error (.missingSectionEnd l)]
    | none => []
  | line :: rest =>
    match classify label line, label with
    | .beginning none, _ => .error (.illegalSectionStart line) :: sectionsFrom none [] rest
    | .beginning (some l), _ => sectionsFrom (some l) text rest
    | .ending, some l => (close? l text).toList ++ sectionsFrom none [] rest
    | .content, some l => sectionsFrom (some l) (text ++ line) rest
    | _, none => sectionsFrom none text rest

/-- The sections of a file with a known label, in order, and the errors between them. -/
def sections (file : Bytes) : List (Except Error Section) := sectionsFrom none [] (lines file)

/-- The text in lines of 64 characters. -/
def wrapped (text : Bytes) : Bytes :=
  match text with
  | [] => []
  | b :: rest => b :: rest.take 63 ++ [10] ++ wrapped (rest.drop 63)
termination_by text.length
decreasing_by simp only [List.length_drop, List.length_cons]; omega

/-- A section as it is usually written. -/
def render (s : Section) : Bytes :=
  let label := textBytes s.kind.label
  beginMark ++ label ++ dashes ++ [10] ++ wrapped (Base64.encode s.der) ++
    endMark ++ label ++ dashes ++ [10]

end TokenFeedback.Pem
