import SecureHome.Core.Decisions

/-! Digest-bound snapshot construction. The digest is of the supplied bytes, before they
are parsed. Parsing and the contract schemas are the platform's. -/

namespace SecureHome.Core
open Contracts

/-- The contract identity a document carries, and what it declares. -/
structure ParsedDocument (Document : Type) where
  contractId : String
  contractVersion : String
  value : Document

/-- `JSON.parse`, what a parsed value says its contract is, and the schemas. -/
structure AuthoritySchemas (Json : Type) where
  parseJson : String → Except String Json
  /-- The text of `contract_id`, or `(none)` where there is none. -/
  observedId : Json → String
  safeParse : (source : AuthoritySourceName) → Json → Except String (ParsedDocument source.Document)

/-- The contract a source is declared to satisfy. -/
def expectedId : AuthoritySourceName → String
  | .profile => "execution-profile"
  | .pathPolicy => "path-policy"
  | .gateRegistry => "gate-registry"

def captureAuthority {Json : Type} (digestOf : String → String) (schemas : AuthoritySchemas Json)
    (expected : AuthoritySourceName) : AuthorityBytes → Capture expected.Document
  | .failed source failure => .faulted ⟨source, s!"acquisition reported failed: {failure}"⟩
  | .ok source bytes =>
    let digest := digestOf bytes
    match schemas.parseJson bytes with
    | .error message => .refused ⟨.invalidAuthority, source, none, s!"authority bytes are not JSON: {message}"⟩
    | .ok parsed =>
      let observedId := schemas.observedId parsed
      if observedId ≠ expectedId expected then
        .refused ⟨.contractMismatch, source, some observedId,
          s!"source declares contract \"{expectedId expected}\" but bytes carry \"{observedId}\""⟩
      else
        match schemas.safeParse expected parsed with
        | .error issues => .refused ⟨.invalidAuthority, source, none,
            s!"authority bytes fail contract validation for \"{expectedId expected}\": {issues}"⟩
        | .ok document => .captured ⟨source, digest,
            ⟨document.contractId, document.contractVersion, digest⟩, document.value⟩

end SecureHome.Core
