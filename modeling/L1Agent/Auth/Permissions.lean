import Mathlib.Data.List.Dedup
import Mathlib.Data.List.Sort
import Mathlib.Data.String.Basic

/-! # Roles and permissions (`auth/permissions.py`)

Sets of names are lists here, by what they hold.

A role has its permissions from a table (`rolePermissions`), a user those of the roles that are
granted, and a token those that it was made with.  A name that is of no role or permission is
dropped (`validRoles`, `validPermissions`).
-/
namespace L1Agent
namespace Auth

inductive Role where
  | viewer
  | operator
  | approver
  | sopAuthor
  | sopApprover
  | tenantAdmin
  | auditor
  deriving DecidableEq, Repr

def Role.value : Role → String
  | viewer => "viewer"
  | operator => "operator"
  | approver => "approver"
  | sopAuthor => "sop_author"
  | sopApprover => "sop_approver"
  | tenantAdmin => "tenant_admin"
  | auditor => "auditor"

def Role.all : List Role :=
  [viewer, operator, approver, sopAuthor, sopApprover, tenantAdmin, auditor]

inductive Permission where
  | incidentsRead
  | systemRead
  | metricsRead
  | auditRead
  | tokensManage
  | rolesManage
  | connectorsManage
  | sopsAuthor
  | sopsApprove
  | runsOperate
  | actionsApprove
  | actionsStop
  | policyManage
  deriving DecidableEq, Repr

def Permission.value : Permission → String
  | incidentsRead => "incidents.read"
  | systemRead => "system.read"
  | metricsRead => "metrics.read"
  | auditRead => "audit.read"
  | tokensManage => "tokens.manage"
  | rolesManage => "roles.manage"
  | connectorsManage => "connectors.manage"
  | sopsAuthor => "sops.author"
  | sopsApprove => "sops.approve"
  | runsOperate => "runs.operate"
  | actionsApprove => "actions.approve"
  | actionsStop => "actions.stop"
  | policyManage => "policy.manage"

def Permission.all : List Permission :=
  [incidentsRead, systemRead, metricsRead, auditRead, tokensManage, rolesManage, connectorsManage,
    sopsAuthor, sopsApprove, runsOperate, actionsApprove, actionsStop, policyManage]

theorem Permission.mem_all (p : Permission) : p ∈ Permission.all := by
  cases p <;> decide

/-- The names tell the permissions apart. -/
theorem Permission.value_injective {p q : Permission} (h : p.value = q.value) : p = q := by
  cases p <;> cases q <;> first | rfl | (revert h; decide)

/-- `ROLE_PERMISSIONS` -/
def rolePermissions : Role → List Permission
  | .viewer => [.incidentsRead]
  | .operator => [.incidentsRead, .systemRead, .metricsRead, .runsOperate, .actionsStop]
  | .approver => [.incidentsRead, .actionsApprove]
  | .sopAuthor => [.incidentsRead, .sopsAuthor]
  | .sopApprover => [.incidentsRead, .sopsApprove]
  | .tenantAdmin =>
    [.incidentsRead, .systemRead, .metricsRead, .tokensManage, .rolesManage, .connectorsManage,
      .actionsStop, .policyManage]
  | .auditor => [.incidentsRead, .auditRead]

/-- `sorted({n for n in names if n in known})` -/
def knownNames (known names : List String) : List String :=
  ((names.filter (· ∈ known)).dedup).insertionSort (· ≤ ·)

theorem mem_knownNames {known names : List String} {name : String} :
    name ∈ knownNames known names ↔ name ∈ names ∧ name ∈ known := by
  simp [knownNames, List.mem_insertionSort]

/-- `valid_roles` -/
def validRoles (names : List String) : List String := knownNames (Role.all.map Role.value) names

/-- `permissions_for` -/
def permissionsFor (roles : List String) : List Permission :=
  (validRoles roles).flatMap fun name =>
    ((Role.all.find? fun role => role.value = name).map rolePermissions).getD []

/-- `valid_permissions` -/
def validPermissions (names : List String) : List String :=
  knownNames (Permission.all.map Permission.value) names

/-- `frozenset(Permission(p) for p in valid_permissions(names))` -/
def permissionsNamed (names : List String) : List Permission :=
  Permission.all.filter fun p => p.value ∈ validPermissions names

theorem mem_permissionsNamed {names : List String} {p : Permission} :
    p ∈ permissionsNamed names ↔ p.value ∈ names := by
  have hall : p.value ∈ Permission.all.map Permission.value := List.mem_map_of_mem p.mem_all
  unfold permissionsNamed validPermissions
  rw [List.mem_filter, decide_eq_true_eq, mem_knownNames]
  exact ⟨fun h => h.2.1, fun h => ⟨p.mem_all, h, hall⟩⟩

/-- What a principal may do comes from one of its roles. -/
theorem mem_permissionsFor {roles : List String} {p : Permission} (h : p ∈ permissionsFor roles) :
    ∃ role : Role, role.value ∈ roles ∧ p ∈ rolePermissions role := by
  obtain ⟨name, hname, hp⟩ := List.mem_flatMap.mp h
  cases hfound : Role.all.find? fun role => role.value = name with
  | none =>
    rw [hfound] at hp
    exact absurd hp List.not_mem_nil
  | some role =>
    rw [hfound] at hp
    have hvalue : role.value = name := by simpa using List.find?_some hfound
    refine ⟨role, ?_, hp⟩
    rw [hvalue]
    exact (mem_knownNames.mp hname).1

end Auth
end L1Agent
