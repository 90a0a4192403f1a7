/-!
# The capabilities of the operator

* `developmentCapabilities`  the names that a scope, a binding or a step of a plan may use, each
with its tier;
* `sensitiveParts`           the names that no path may hold.
-/

namespace LifeAI

inductive Tier where
  | readOnly | localWrite | localExecution | remoteWrite
  deriving DecidableEq

/-- the name that a step of a plan claims its risk by -/
def Tier.name : Tier → String
  | .readOnly => "READ_ONLY"
  | .localWrite => "LOCAL_WRITE"
  | .localExecution => "LOCAL_EXECUTION"
  | .remoteWrite => "REMOTE_WRITE"

/-- `RISK_ORDER` -/
def Tier.order : Tier → Nat
  | .readOnly => 0
  | .localWrite => 1
  | .localExecution => 2
  | .remoteWrite => 3

def namedTier (name : String) : Option Tier :=
  [Tier.readOnly, .localWrite, .localExecution, .remoteWrite].find? (·.name = name)

/-- `DEVELOPMENT_CAPABILITIES` -/
def developmentCapabilities : List (String × Tier) :=
  [("repo_status", .readOnly), ("repo_branch", .readOnly), ("repo_head", .readOnly),
    ("repo_merge_base", .readOnly), ("repo_diff", .readOnly), ("repo_log", .readOnly),
    ("list_files", .readOnly), ("search_text", .readOnly), ("read_file", .readOnly),
    ("inspect_git_history", .readOnly), ("create_file", .localWrite),
    ("patch_file", .localWrite), ("delete_file", .localWrite),
    ("run_focused_test", .localExecution), ("run_static_check", .localExecution),
    ("run_migration_check", .localExecution), ("run_full_suite", .localExecution),
    ("stage_scoped_changes", .localWrite), ("commit_scoped_changes", .localWrite),
    ("push_branch", .remoteWrite)]

/-- `name in DEVELOPMENT_CAPABILITIES` -/
def knownCapability (name : String) : Bool := developmentCapabilities.any (·.1 = name)

/-- `required_risk not in risk_order or risk_order[actual_risk] > risk_order[required_risk]` -/
def understates (required : String) (actual : Tier) : Bool :=
  (namedTier required).all (·.order < actual.order)

/-- `SENSITIVE_PARTS` -/
def sensitiveParts : List String :=
  [".env", ".ssh", ".aws", ".gnupg", "credentials", "secrets", "id_rsa", "id_ed25519"]

end LifeAI
