import SecureHome.Core.Decisions

/-! Pre-spend eligibility, decided from the captured snapshots alone. -/

namespace SecureHome.Core
open Contracts

/-- A gate's identity: `^[a-z][a-z0-9_-]{0,63}$`. -/
def gateId (gate : String) : Bool :=
  match gate.toList with
  | [] => false
  | first :: rest =>
    first.isLower && rest.length ≤ 63 &&
      rest.all fun character => character.isLower || character.isDigit || character == '_' || character == '-'

/-- The first requested gate that is no gate identity, or was already asked for. -/
def gateRefusal : List String → List String → Option Refusal
  | _, [] => none
  | seen, gate :: rest =>
    if !gateId gate then
      some ⟨.undeclaredGate, gate, none, "requested gate identity is not a valid gate id"⟩
    else if gate ∈ seen then
      some ⟨.duplicateGate, gate, none, "requested gate identity appears more than once"⟩
    else gateRefusal (gate :: seen) rest

/-- No incomplete snapshot set is eligible. -/
def decideEligibility (snapshots : AuthoritySnapshots) (requestedGates : List String) : Decision Unit :=
  match snapshots.profile, snapshots.pathPolicy with
  | none, _ => .refusal ⟨.missingAuthority, "execution-profile", none, "no execution profile in the snapshot set"⟩
  | some _, none =>
    .refusal ⟨.missingAuthority, "path-policy", none,
      "no path policy in the snapshot set — the policy is required authority"⟩
  | some _, some _ =>
    match gateRefusal [] requestedGates with
    | some refusal => .refusal refusal
    | none =>
      if requestedGates = [] then .proceed ()
      else
        match snapshots.gateRegistry with
        | none =>
          .refusal ⟨.missingAuthority, "gate-registry", none,
            "gates were requested but no gate registry is in the snapshot set"⟩
        | some registry =>
          match requestedGates.find? fun gate => (registry.value.read gate).isNone with
          | some gate =>
            .refusal ⟨.undeclaredGate, gate, none, "requested gate identity is absent from the captured registry"⟩
          | none => .proceed ()

theorem gateRefusal_none {seen requested : List String} (accepted : gateRefusal seen requested = none) :
    requested.Nodup ∧ ∀ gate ∈ requested, gate ∉ seen := by
  induction requested generalizing seen with
  | nil => exact ⟨.nil, fun _ absent => nomatch absent⟩
  | cons gate rest ih =>
    unfold gateRefusal at accepted
    split at accepted
    · cases accepted
    · split at accepted
      · cases accepted
      next fresh =>
        obtain ⟨distinct, apart⟩ := ih accepted
        refine ⟨List.nodup_cons.mpr ⟨fun again => apart gate again (List.mem_cons_self ..), distinct⟩, fun other listed => ?_⟩
        rcases List.mem_cons.mp listed with rfl | listed
        · exact fresh
        · exact fun earlier => apart other listed (List.mem_cons_of_mem _ earlier)

/-- An eligible run asks for no gate twice. -/
theorem decideEligibility_distinct {snapshots : AuthoritySnapshots} {requested : List String} {eligible : Unit}
    (proceeds : decideEligibility snapshots requested = .proceed eligible) : requested.Nodup := by
  unfold decideEligibility at proceeds
  split at proceeds
  · cases proceeds
  · cases proceeds
  · split at proceeds
    · cases proceeds
    next accepted => exact (gateRefusal_none accepted).1

end SecureHome.Core
