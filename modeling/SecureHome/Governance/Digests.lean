import SecureHome.Governance.Canonical

/-! The digests that governance nodes are bound by. -/

namespace SecureHome.Governance
open Lib

/-- A property of a property, if there is one. -/
def readIn (value : Option Value) (name : String) : Option Value := value.bind (read · name)

def versionOne : NumberText := ⟨units "1", by decide, by decide⟩

/-- The rule inputs a node is identified by. -/
def semanticIdentity (node : Value) : List (String × Option Value) :=
  let isGate := isText (read node "kind") "gate"
  [("schemaVersion", some (.number versionOne)), ("id", read node "id"), ("kind", read node "kind"),
    ("predicate", if isGate then read node "predicate" else some .null),
    ("sources", if isGate then read node "sources" else some .null),
    ("requires", if isGate then some .null else read node "requires"),
    ("authorityAnchor", orElse (read node "authorityAnchor") (some .null)),
    ("completionPolicy", if isGate then some .null else orElse (readIn (read node "delivery") "completionPolicy") (some .null)),
    ("reviewedOrderingIntent", orElse (read node "reviewedOrderingIntent") (some .null))]

/-- An object of the properties that are there. -/
def objectOf (fields : List (String × Option Value)) : Value :=
  .object (fields.filterMap fun field => field.2.map (units field.1, ·))

variable (sha256Text : JsString → JsString)

def digestPreimage (preimage : Value) : JsString := sha256Text (canonicalSerialize preimage)

def semanticIdentityDigest (node : Value) : JsString := digestPreimage sha256Text (objectOf (semanticIdentity node))

def replacementPreimage (oldNode newNode : Value) : Value :=
  objectOf [("schemaVersion", some (.number versionOne)), ("oldId", read oldNode "id"), ("newId", read newNode "id"),
    ("oldSemanticIdentityDigest", some (.string (semanticIdentityDigest sha256Text oldNode))),
    ("newSemanticIdentityDigest", some (.string (semanticIdentityDigest sha256Text newNode)))]

def replacementDigest (oldNode newNode : Value) : JsString := digestPreimage sha256Text (replacementPreimage sha256Text oldNode newNode)

end SecureHome.Governance
