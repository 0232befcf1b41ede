import SecureHome.Toolchain.SetRelease

/-! Package identity: a digest of delimited rows of paths and file digests, the envelope its
sources pass, and the attestation that binds a digest. -/

namespace SecureHome.Toolchain
open Lib

/-- One source file. `bytes` are exactly as read. -/
structure SourceFile where
  path : JsString
  bytes : List UInt8
  deriving DecidableEq, Repr

inductive RefusalKind where
  | envelope
  | attestation
  deriving DecidableEq, Repr

/-- Why something was refused. `path` is there where one applies. -/
structure Refusal where
  kind : RefusalKind
  path : Option JsString := none
  rule : String
  detail : JsString
  deriving DecidableEq, Repr

section Identity

def packageFormat : String := "okf-package-v1"

-- `sha256` gives a digest in lowercase hexadecimal.
variable (sha256 : List UInt8 → String)

def fileDigest (bytes : List UInt8) : String := sha256 bytes

def byPathBytes (one other : List UInt8) : Int := compareBytes one other

/-- A row of the manifest, before its delimiters. -/
structure Row where
  path : List UInt8
  digest : List UInt8
  deriving DecidableEq, Repr

def Row.bytes (row : Row) : List UInt8 := row.path ++ 0x00 :: (row.digest ++ [0x0a])

def rowOfMember (member : SourceFile) : Row := ⟨encode member.path, encode (units (fileDigest sha256 member.bytes))⟩

/-- The rows of a member set, ascending by the bytes of their paths. -/
def rowsOf (members : List SourceFile) : List Row :=
  (members.map (rowOfMember sha256)).mergeSort fun one other => decide (byPathBytes one.path other.path ≤ 0)

def manifestBytes (members : List SourceFile) : List UInt8 :=
  encode (units s!"{packageFormat}\n") ++ (rowsOf sha256 members).flatMap Row.bytes

def bundleDigest (members : List SourceFile) : String := sha256 (manifestBytes sha256 members)

end Identity

section Envelope

-- `nfc` is the platform's Unicode normalization.
variable (nfc : JsString → JsString)

def byteOrderMark : List UInt8 := [0xef, 0xbb, 0xbf]

/-- What the envelope has against a path. `seen` are the paths before it. -/
def pathRefusals (seen : List JsString) (path : JsString) : List Refusal :=
  let bad (rule detail : String) : Refusal := ⟨.envelope, some path, rule, units detail⟩
  (if 0x5c ∈ path then [bad "envelope.path.posix" "path uses a backslash separator"] else []) ++
  (if path.head? = some 0x2f then [bad "envelope.path.absolute" "path is absolute"] else []) ++
  (if (path.splitOn 0x2f).any fun segment => segment == units "." || segment == units ".." then
    [bad "envelope.path.traversal" "path contains a \".\" or \"..\" segment"] else []) ++
  (if nfc path ≠ path then [bad "envelope.path.nfc" "path is not NFC-normalized"] else []) ++
  (if path ∈ seen then [bad "envelope.path.duplicate" "duplicate normalized path"] else [])

/-- What it has against the bytes. Bytes that are no text are looked at no further. -/
def byteRefusals (path : JsString) (bytes : List UInt8) : List Refusal :=
  let bad (rule detail : String) : Refusal := ⟨.envelope, some path, rule, units detail⟩
  (if bytes.take 3 = byteOrderMark then [bad "envelope.bom" "source begins with a UTF-8 byte-order mark"] else []) ++
  if (decode bytes).isNone then [bad "envelope.utf8" "source is not valid UTF-8"]
  else
    (if 0x0d ∈ bytes then [bad "envelope.line-endings" "source contains a carriage return; ADR-0015 requires LF"] else []) ++
    (if bytes ≠ [] ∧ bytes.getLast? ≠ some 0x0a then
      [bad "envelope.trailing-newline" "source does not end with a newline"] else [])

/-- Rejected, never normalized. -/
def checkEnvelopeFrom (seen : List JsString) : List SourceFile → List Refusal
  | [] => []
  | member :: members =>
    pathRefusals nfc seen member.path ++ byteRefusals member.path member.bytes ++ checkEnvelopeFrom (seen ++ [member.path]) members

def checkEnvelope (members : List SourceFile) : List Refusal := checkEnvelopeFrom nfc [] members

end Envelope

section Attestation

/-- A repository's content-review attestation. -/
structure ContentReview where
  policy : JsString
  «by» : JsString
  «at» : JsString
  sourceDigest : JsString
  deriving DecidableEq, Repr

def policyV1 : String := "portable-knowledge-prohibited-content-v1"

def recognizedPolicies : List JsString := [units policyV1]

/-- `[A-Za-z0-9._-]`. -/
def isActorUnit (unit : UInt16) : Bool :=
  isDigitUnit unit || isLowerUnit unit || (0x41 ≤ unit.toNat && unit.toNat ≤ 0x5a) || unit == 0x2e || unit == 0x5f || unit == 0x2d

/-- `^human:[A-Za-z0-9._-]+$`. -/
def isActor (value : JsString) : Bool :=
  let name := value.drop 6
  value.take 6 == units "human:" && !name.isEmpty && name.all isActorUnit

/-- Like a template, with a digit for every zero of it. -/
def fits (template : String) (value : JsString) : Bool :=
  (units template).length == value.length &&
    ((units template).zip value).all fun (shape, unit) => if shape = 0x30 then isDigitUnit unit else unit == shape

/-- `^\d{4}-\d{2}-\d{2}T\d{2}:\d{2}:\d{2}(?:\.\d+)?Z$`. -/
def isIsoInstant (value : JsString) : Bool :=
  fits "0000-00-00T00:00:00" (value.take 19) &&
    match value.drop 19 with
    | 0x2e :: fraction => fraction.getLast? == some 0x5a && !fraction.dropLast.isEmpty && fraction.dropLast.all isDigitUnit
    | zone => zone == units "Z"

/-- `^sha256:[0-9a-f]{64}$`. -/
def isSourceDigest (value : JsString) : Bool := value.take 7 == units "sha256:" && bareSha256 (value.drop 7)

/-- Proof A. No refusal means that the attestation binds. -/
def checkProofA (review : Option ContentReview) (currentDigest : String) : List Refusal :=
  let bad (rule : String) (detail : JsString) : Refusal := { kind := .attestation, rule, detail }
  match review with
  | none => [bad "attestation.present"
      (units "no content-review attestation; the semantically undecidable classes are unestablished")]
  | some review =>
    (if review.policy ∉ recognizedPolicies then
      [bad "attestation.policy" (units "policy \"" ++ review.policy ++ units "\" is not a recognized policy version")] else []) ++
    (if !isActor review.by then
      [bad "attestation.actor" (units "\"by\" is not a valid human actor: " ++ review.by)] else []) ++
    (if !isIsoInstant review.at then [bad "attestation.at" (units "\"at\" is not an ISO-8601 instant")] else []) ++
    if !isSourceDigest review.sourceDigest then
      [bad "attestation.digest.shape" (units "\"sourceDigest\" is not a sha256:<hex> digest")]
    else if review.sourceDigest ≠ units s!"sha256:{currentDigest}" then
      [bad "attestation.digest.binding" (units "attestation binds " ++ review.sourceDigest ++
        units s!"; current source is sha256:{currentDigest}. Any byte change invalidates the review")]
    else []

end Attestation

end SecureHome.Toolchain
