import OpenUI.Agent.Esim.Manager

/-!
# `OpenUI.Agent.Esim.Device`: requests as the helper reads them

The manager makes a request with `json!`, and `DeviceEnv` adds what every request gets: the
protocol version, where the card is, and the deadline.
-/

set_option autoImplicit false

namespace OpenUI.Agent.Esim

open OpenUI.Json

/-- `HELPER_PROTOCOL`. -/
def helperProtocol : Nat := 2

/-- The request as the manager makes it. -/
def Request.body : Request → Value
  | .inventory => .obj [("op", .str "inventory")]
  | .switch kind iccid eid active =>
    .obj [("op", .str kind.asStr), ("iccid", .str iccid), ("expect_eid", .str eid),
      ("expect_enabled", Value.ofOption active)]
  | .delete iccid eid => .obj [("op", .str "delete"), ("iccid", .str iccid),
      ("expect_eid", .str eid)]
  | .nickname iccid eid name =>
    .obj [("op", .str "nickname"), ("iccid", .str iccid), ("expect_eid", .str eid),
      ("nickname", .str name)]
  | .notify eid seqs =>
    .obj [("op", .str "notify"), ("expect_eid", .str eid), ("seqs", Value.ofNumbers seqs)]
  | .download code eid confirmation =>
    .obj ([("op", .str "download"), ("activation_code", .str code), ("expect_eid", .str eid)]
      ++ (match confirmation with
        | some c => [("confirmation_code", .str c)]
        | none => []))

/-- `DeviceEnv`: where the card is. The node is a `u32`, and the slot is clamped to the two there
are. -/
structure DeviceEnv where
  node : Nat
  slot : Nat
  node_lt : node < UInt32.size
  slot_range : 1 ≤ slot ∧ slot ≤ 2

/-- `DeviceEnv::helper` and `start_download`, the request they write to the helper's input. -/
def DeviceEnv.line (env : DeviceEnv) (deadline : Nat) (request : Request) : Value :=
  (((request.body.set "protocol" (.num helperProtocol)).set "node" (.num env.node)).set
    "slot" (.num env.slot)).set "deadline_ms" (.num deadline)

end OpenUI.Agent.Esim
