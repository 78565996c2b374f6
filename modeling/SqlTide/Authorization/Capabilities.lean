import SqlTide.Authorization.AccessPolicy

/-!
# The capabilities that are shown to a user

`capabilities` sums up what a user may do, `decide` decides one operation. They agree where the
roles were compiled from an accepted policy document: what is listed is what is allowed.
-/

namespace SqlTide.Authorization

open Foundations List

structure CapabilityRequest where
  authenticated : Auth.AuthenticatedRequest
  projectName : String
  targetName : Option String
  pipelineNames : List String
  policy : Option CompiledAccessPolicy

structure EffectiveCapabilities where
  systemAdmin : Bool
  projectName : String
  targetName : Option String
  permissions : List Permission
  pipelinePermissions : List (Permission × List String)
  staleRoles : List String := []
  deriving DecidableEq, Repr

def scopedPermissionGranted (grants : List CompiledAccessGrant) (permission : Permission) : Bool :=
  grants.any fun grant => grant.scope.isSome ∧ permission ∈ grant.permissions

/-- The pipelines that are covered with one more grant. -/
def collectPipelines (permission : Permission) (pipelineNames : List String)
    (covered : Finset String) (grant : CompiledAccessGrant) : Finset String :=
  if permission ∉ grant.permissions then covered
  else
    let covered :=
      if grant.scope = some .project then covered ∪ pipelineNames.toFinset else covered
    if grant.scope = none then covered ∪ grant.pipelines.toFinset else covered

/-- `_covered_pipelines`. -/
def pipelinesCovered (grants : List CompiledAccessGrant) (permission : Permission)
    (pipelineNames : List String) : List String :=
  sortedNames (grants.foldl (collectPipelines permission pipelineNames) ∅)

section
variable (store : ControlStore) (request : CapabilityRequest)

/-- The assignments of the user that hold for the target. -/
def CapabilityRequest.assignments : List ProjectRoleAssignment :=
  (store.listProjectRoleAssignments request.authenticated.principal.userId
    request.projectName).filter fun assignment =>
      assignment.targetName = none ∨ assignment.targetName = request.targetName

def CapabilityRequest.roleByName (name : String) : Option CompiledAccessRole :=
  request.policy.bind fun policy => policy.roleByName name

def CapabilityRequest.assignedNames : Finset String :=
  ((request.assignments store).map (·.roleName)).toFinset

def CapabilityRequest.grants : List CompiledAccessGrant :=
  ((sortedNames (request.assignedNames store)).filterMap request.roleByName).flatMap (·.grants)

def capabilities : EffectiveCapabilities :=
  if adminRole ∈ request.authenticated.roles then
    { systemAdmin := true
      projectName := request.projectName
      targetName := request.targetName
      permissions := sortedPermissions (projectPermissions ∪ targetPermissions)
      pipelinePermissions := (sortedPermissions Authorization.pipelinePermissions).map
        fun permission => (permission, request.pipelineNames.insertionSort (· ≤ ·)) }
  else
    { systemAdmin := false
      projectName := request.projectName
      targetName := request.targetName
      permissions := (sortedPermissions (projectPermissions ∪ targetPermissions)).filter
        (scopedPermissionGranted (request.grants store))
      pipelinePermissions := ((sortedPermissions Authorization.pipelinePermissions).map
        fun permission => (permission,
          pipelinesCovered (request.grants store) permission request.pipelineNames)).filter
            fun entry => entry.2 ≠ []
      staleRoles := sortedNames
        ((request.assignedNames store).filter fun name => request.roleByName name = none) }

end

section
variable (request : CapabilityRequest)

/-- The user asks for an operation on pipelines. -/
def CapabilityRequest.onPipelines (permission : Permission) (pipelines : List String) :
    AuthorizationRequest :=
  ⟨request.authenticated, permission, request.projectName, request.targetName, none, pipelines,
    request.policy⟩

/-- The user asks for an operation of a scope. -/
def CapabilityRequest.inScope (permission : Permission) (scope : GrantScope)
    (pipelines : List String) : AuthorizationRequest :=
  ⟨request.authenticated, permission, request.projectName, request.targetName, some scope,
    pipelines, request.policy⟩

end

variable {store : ControlStore}

/-- A role of the user's for the project and the target of a request has a matching grant. -/
def RoleMatches (store : ControlStore) (request : AuthorizationRequest)
    (policy : CompiledAccessPolicy) : Prop :=
  ∃ assignment ∈ matchingAssignments store request, ∃ role,
    policy.roleByName assignment.roleName = some role ∧
      ∃ grant ∈ role.grants, isMatchingScopedGrant grant request = true

variable {policy : CompiledAccessPolicy} {permission : Permission}

variable {request : AuthorizationRequest} {pipelines : List String}

theorem matching_ne_nil_iff :
    sortedNames (((assignedRoles store request policy).filter fun role =>
      role.grants.any (isMatchingScopedGrant · request)).map (·.name)).toFinset ≠ [] ↔
      RoleMatches store request policy := by
  simp only [ne_eq, sortedNames_eq_nil, toFinset_eq_empty_iff, map_eq_nil_iff, filter_eq_nil_iff,
    any_eq_true, not_forall, not_not, RoleMatches, assignedRoles, mem_filterMap, exists_prop]
  constructor
  · rintro ⟨role, ⟨assignment, hassignment, hname⟩, hgrant⟩
    exact ⟨assignment, hassignment, role, hname, hgrant⟩
  · rintro ⟨assignment, hassignment, role, hname, hgrant⟩
    exact ⟨role, ⟨assignment, hassignment, hname⟩, hgrant⟩

/-- An operation of a scope is allowed to whoever has a role with a matching grant. -/
theorem decide_allowed_iff_roleMatches {scope : GrantScope}
    (hadmin : adminRole ∉ request.authenticated.roles)
    (hscope : request.grantScope = some scope) (hpolicy : request.policy = some policy) :
    (decide store request).allowed = true ↔ RoleMatches store request policy := by
  unfold decide
  rw [if_neg hadmin, hpolicy]
  simp only [hscope, Option.isSome_some, if_true]
  split_ifs with hassignments hroles
  · have hnone : ¬ RoleMatches store request policy := by
      rintro ⟨assignment, hassignment, -⟩
      rw [hassignments] at hassignment
      cases hassignment
    simp [decision, hnone]
  · have hnone : ¬ RoleMatches store request policy := by
      rintro ⟨assignment, hassignment, role, hname, -⟩
      have hmem : role ∈ assignedRoles store request policy :=
        mem_filterMap.mpr ⟨assignment, hassignment, hname⟩
      rw [hroles] at hmem
      cases hmem
    simp [decision, hnone]
  all_goals
    simp only [decision, decide_eq_true_eq]
    exact matching_ne_nil_iff

theorem mem_sortedPermissions {permissions : List Permission} :
    permission ∈ sortedPermissions permissions ↔ permission ∈ permissions := mem_sortedBy

section
variable {request : CapabilityRequest} {policy : CompiledAccessPolicy}

/-- The grants that are summed up are those of the roles that a decision looks at. -/
theorem mem_grants (hpolicy : request.policy = some policy) {grant : CompiledAccessGrant} :
    grant ∈ request.grants store ↔
      ∃ assignment ∈ request.assignments store, ∃ role,
        policy.roleByName assignment.roleName = some role ∧ grant ∈ role.grants := by
  simp only [CapabilityRequest.grants, mem_flatMap, mem_filterMap, mem_sortedNames,
    CapabilityRequest.assignedNames, mem_toFinset, mem_map, CapabilityRequest.roleByName,
    hpolicy, Option.bind_some]
  constructor
  · rintro ⟨role, ⟨name, ⟨assignment, hassignment, rfl⟩, hname⟩, hgrant⟩
    exact ⟨assignment, hassignment, role, hname, hgrant⟩
  · rintro ⟨assignment, hassignment, role, hname, hgrant⟩
    exact ⟨role, ⟨_, ⟨assignment, hassignment, rfl⟩, hname⟩, hgrant⟩

variable {permission : Permission}

theorem mem_pipelinesCovered {grants : List CompiledAccessGrant}
    {pipelineNames : List String} {pipeline : String} :
    pipeline ∈ pipelinesCovered grants permission pipelineNames ↔
      ∃ grant ∈ grants, permission ∈ grant.permissions ∧
        (grant.scope = none ∧ pipeline ∈ grant.pipelines ∨
          grant.scope = some .project ∧ pipeline ∈ pipelineNames) := by
  have hstep : ∀ (covered : Finset String) (grant : CompiledAccessGrant),
      pipeline ∈ collectPipelines permission pipelineNames covered grant ↔
        pipeline ∈ covered ∨ permission ∈ grant.permissions ∧
          (grant.scope = none ∧ pipeline ∈ grant.pipelines ∨
            grant.scope = some .project ∧ pipeline ∈ pipelineNames) := by
    intro covered grant
    by_cases hpermission : permission ∈ grant.permissions
    · cases hgrant : grant.scope with
      | none => simp [collectPipelines, hpermission, hgrant]
      | some scope => cases scope <;> simp [collectPipelines, hpermission, hgrant]
    · simp [collectPipelines, hpermission]
  have hloop : ∀ covered : Finset String,
      pipeline ∈ grants.foldl (collectPipelines permission pipelineNames) covered ↔
        pipeline ∈ covered ∨ ∃ grant ∈ grants, permission ∈ grant.permissions ∧
          (grant.scope = none ∧ pipeline ∈ grant.pipelines ∨
            grant.scope = some .project ∧ pipeline ∈ pipelineNames) := by
    induction grants with
    | nil => simp
    | cons grant grants ih =>
      intro covered
      rw [foldl_cons, ih, hstep, or_assoc]
      simp only [mem_cons, exists_eq_or_imp]
  rw [pipelinesCovered, mem_sortedNames, hloop]
  simp

variable (hadmin : adminRole ∉ request.authenticated.roles) (hpolicy : request.policy = some policy)
include hadmin hpolicy

/-- A permission is listed where a scoped grant of one of the roles has it. -/
theorem mem_permissions :
    permission ∈ (capabilities store request).permissions ↔
      permission ∈ projectPermissions ∪ targetPermissions ∧
        ∃ assignment ∈ request.assignments store, ∃ role,
          policy.roleByName assignment.roleName = some role ∧
            ∃ grant ∈ role.grants, grant.scope.isSome ∧ permission ∈ grant.permissions := by
  have hgranted : scopedPermissionGranted (request.grants store) permission = true ↔
      ∃ assignment ∈ request.assignments store, ∃ role,
        policy.roleByName assignment.roleName = some role ∧
          ∃ grant ∈ role.grants, grant.scope.isSome ∧ permission ∈ grant.permissions := by
    simp only [scopedPermissionGranted, any_eq_true, decide_eq_true_eq, mem_grants hpolicy]
    constructor
    · rintro ⟨grant, ⟨assignment, hassignment, role, hname, hgrant⟩, hgranted⟩
      exact ⟨assignment, hassignment, role, hname, grant, hgrant, hgranted⟩
    · rintro ⟨assignment, hassignment, role, hname, grant, hgrant, hgranted⟩
      exact ⟨grant, ⟨assignment, hassignment, role, hname, hgrant⟩, hgranted⟩
  rw [capabilities, if_neg hadmin, mem_filter, mem_sortedPermissions, hgranted]

/-- A pipeline is listed where a grant of one of the roles names it or is for the project. -/
theorem mem_pipelinePermissions {pipeline : String} :
    (∃ covered, (permission, covered) ∈ (capabilities store request).pipelinePermissions ∧
      pipeline ∈ covered) ↔
      permission ∈ pipelinePermissions ∧
        ∃ assignment ∈ request.assignments store, ∃ role,
          policy.roleByName assignment.roleName = some role ∧
            ∃ grant ∈ role.grants, permission ∈ grant.permissions ∧
              (grant.scope = none ∧ pipeline ∈ grant.pipelines ∨
                grant.scope = some .project ∧ pipeline ∈ request.pipelineNames) := by
  have hcovered : pipeline ∈ pipelinesCovered (request.grants store) permission
      request.pipelineNames ↔
        ∃ assignment ∈ request.assignments store, ∃ role,
          policy.roleByName assignment.roleName = some role ∧
            ∃ grant ∈ role.grants, permission ∈ grant.permissions ∧
              (grant.scope = none ∧ pipeline ∈ grant.pipelines ∨
                grant.scope = some .project ∧ pipeline ∈ request.pipelineNames) := by
    simp only [mem_pipelinesCovered, mem_grants hpolicy]
    constructor
    · rintro ⟨grant, ⟨assignment, hassignment, role, hname, hgrant⟩, hcovers⟩
      exact ⟨assignment, hassignment, role, hname, grant, hgrant, hcovers⟩
    · rintro ⟨assignment, hassignment, role, hname, grant, hgrant, hcovers⟩
      exact ⟨grant, ⟨assignment, hassignment, role, hname, hgrant⟩, hcovers⟩
  rw [capabilities, if_neg hadmin, ← hcovered]
  simp only [mem_filter, mem_map, mem_sortedPermissions, Prod.mk.injEq]
  constructor
  · rintro ⟨covered, ⟨⟨other, hother, rfl, rfl⟩, -⟩, hpipeline⟩
    exact ⟨hother, hpipeline⟩
  · rintro ⟨hpermission, hpipeline⟩
    refine ⟨_, ⟨⟨permission, hpermission, rfl, rfl⟩, ?_⟩, hpipeline⟩
    simpa using ne_nil_of_mem hpipeline

end

/-- A grant that is valid has a permission at some scope exactly if it matches the request at the
scope of the permission. -/
theorem matches_inScope_iff {request : CapabilityRequest} {pipelineNames : Finset String}
    {grant : CompiledAccessGrant} (hgrant : grant.Valid pipelineNames) :
    isMatchingScopedGrant grant (request.inScope permission
        (if permission ∈ targetPermissions then .target else .project) pipelines) = true ↔
      permission ∈ projectPermissions ∪ targetPermissions ∧
        grant.scope.isSome ∧ permission ∈ grant.permissions := by
  by_cases hmem : permission ∈ grant.permissions
  · have hgrantable := hgrant.permissions permission hmem
    rw [CompiledAccessGrant.grantable] at hgrantable
    simp only [isMatchingScopedGrant, CapabilityRequest.inScope, hmem, not_true_eq_false, if_false,
      mem_union_iff]
    cases hscope : grant.scope with
    | none => simp
    | some scope =>
      rw [hscope] at hgrantable
      cases scope with
      | project =>
        have hproject : permission ∈ projectPermissions := hgrantable
        by_cases htarget : permission ∈ targetPermissions <;> simp [hproject, htarget]
      | target =>
        have htarget : permission ∈ targetPermissions := hgrantable
        simp [htarget]
  · simp [isMatchingScopedGrant, CapabilityRequest.inScope, hmem]

theorem decide_onPipelines_iff {request : CapabilityRequest}
    (hadmin : adminRole ∉ request.authenticated.roles) (hpolicy : request.policy = some policy) :
    (decide store (request.onPipelines permission pipelines)).allowed = true ↔
      pipelines ≠ [] ∧ ∀ pipeline ∈ pipelines,
        RoleCovers store (request.onPipelines permission pipelines) policy pipeline := by
  have hrequest : (request.onPipelines permission pipelines).policy = some policy := hpolicy
  rw [decide_allowed_iff rfl, hrequest]
  simp only [CapabilityRequest.onPipelines, hadmin, false_or, Option.some.injEq, exists_eq_left']

/-- What is shown to a user is what the user is allowed, and pipelines are allowed together exactly
if there are some and each of them is allowed alone. -/
theorem capabilities_agree (store : ControlStore) (request : CapabilityRequest)
    (document : Document) (pipelineNames : Finset String) (roles : List CompiledAccessRole)
    (fingerprint : String) (hroles : buildCompiledRoles pipelineNames document = .ok roles)
    (hpolicy : request.policy = some ⟨roles, fingerprint⟩)
    (hadmin : adminRole ∉ request.authenticated.roles) :
    (∀ permission pipelines, permission ∈ (capabilities store request).permissions ↔
      (decide store (request.inScope permission
        (if permission ∈ targetPermissions then .target else .project) pipelines)).allowed = true) ∧
    (∀ permission ∈ pipelinePermissions, ∀ pipeline ∈ request.pipelineNames,
      (∃ covered, (permission, covered) ∈ (capabilities store request).pipelinePermissions ∧
        pipeline ∈ covered) ↔
      (decide store (request.onPipelines permission [pipeline])).allowed = true) ∧
    ∀ permission pipelines,
      (decide store (request.onPipelines permission pipelines)).allowed = true ↔
        pipelines ≠ [] ∧ ∀ pipeline ∈ pipelines,
          (decide store (request.onPipelines permission [pipeline])).allowed = true := by
  have hvalid := valid_of_buildCompiledRoles hroles
  refine ⟨?_, ?_, ?_⟩
  · intro permission pipelines
    rw [mem_permissions hadmin hpolicy,
      decide_allowed_iff_roleMatches (by exact hadmin) rfl hpolicy]
    constructor
    · rintro ⟨hlisted, assignment, hassignment, role, hname, grant, hgrant, hscoped⟩
      refine ⟨assignment, hassignment, role, hname, grant, hgrant, ?_⟩
      have hrole := hvalid role (mem_reverse.mp (mem_of_find?_eq_some hname))
      exact (matches_inScope_iff (hrole grant hgrant)).mpr ⟨hlisted, hscoped⟩
    · rintro ⟨assignment, hassignment, role, hname, grant, hgrant, hmatch⟩
      have hrole := hvalid role (mem_reverse.mp (mem_of_find?_eq_some hname))
      obtain ⟨hlisted, hscoped⟩ := (matches_inScope_iff (hrole grant hgrant)).mp hmatch
      exact ⟨hlisted, assignment, hassignment, role, hname, grant, hgrant, hscoped⟩
  · intro permission hpermission pipeline hpipeline
    rw [mem_pipelinePermissions hadmin hpolicy, decide_onPipelines_iff hadmin hpolicy]
    constructor
    · rintro ⟨-, assignment, hassignment, role, hname, grant, hgrant, hgranted, hcovers⟩
      refine ⟨by simp, fun other hother => ?_⟩
      obtain rfl := mem_singleton.mp hother
      exact ⟨assignment, hassignment, role, hname, grant, hgrant, hgranted,
        hcovers.imp_right And.left⟩
    · rintro ⟨-, hcovered⟩
      obtain ⟨assignment, hassignment, role, hname, grant, hgrant, hgranted, hcovers⟩ :=
        hcovered pipeline (by simp)
      exact ⟨hpermission, assignment, hassignment, role, hname, grant, hgrant, hgranted,
        hcovers.imp_right fun hscope => ⟨hscope, hpipeline⟩⟩
  · intro permission pipelines
    simp only [decide_onPipelines_iff hadmin hpolicy]
    constructor
    · rintro ⟨hsome, hall⟩
      refine ⟨hsome, fun pipeline hpipeline => ⟨by simp, ?_⟩⟩
      intro other hother
      obtain rfl := mem_singleton.mp hother
      exact hall other hpipeline
    · rintro ⟨hsome, hall⟩
      exact ⟨hsome, fun pipeline hpipeline => (hall pipeline hpipeline).2 pipeline (by simp)⟩

/-- A policy document with one role. -/
def analystDocument : Document :=
  .mapping [(some "roles", .mapping [(some "analyst", .mapping [(some "grants", .sequence [
    .mapping [(some "scope", .text "target"), (some "permissions", .sequence [
      .text "source.messages.read", .text "automation.manage"])],
    .mapping [(some "pipelines", .sequence [.text "ingest"]),
      (some "permissions", .sequence [.text "quality.test.run"])]])])])]

def analystRoles : List CompiledAccessRole :=
  [⟨"analyst", none, [
    ⟨[.qualityTestRun], ["ingest"], none⟩,
    ⟨[.automationManage, .sourceMessagesRead], [], some .target⟩]⟩]

def analyst : Auth.AuthenticatedRequest := ⟨⟨"u1", "ana", none, none, .local⟩, ["viewer"], none⟩

/-- The role for one target, and a role that the policy does not have. -/
def analystStore : ControlStore :=
  ⟨[⟨"a1", "u1", "analytics", "analyst", some "production", none, 0, none, none⟩,
    ⟨"a2", "u1", "analytics", "auditor", none, none, 0, none, none⟩]⟩

def analystRequest : CapabilityRequest :=
  ⟨analyst, "analytics", some "production", ["ingest", "sales"], some ⟨analystRoles, "f1"⟩⟩

/-- The analyst tests the one pipeline, and not both. -/
theorem capabilities_agree_analyst :
    (capabilities analystStore analystRequest).permissions =
        [.automationManage, .sourceMessagesRead] ∧
      (∃ covered, (Permission.qualityTestRun, covered) ∈
        (capabilities analystStore analystRequest).pipelinePermissions ∧ "ingest" ∈ covered) ∧
      ¬ (decide analystStore
        (analystRequest.onPipelines .qualityTestRun ["ingest", "sales"])).allowed = true := by
  have hroles : buildCompiledRoles {"ingest", "sales"} analystDocument = .ok analystRoles := by
    decide +kernel
  obtain ⟨-, hpipelines, htogether⟩ := capabilities_agree analystStore analystRequest
    analystDocument {"ingest", "sales"} analystRoles "f1" hroles rfl (by decide)
  refine ⟨by decide +kernel, ?_, ?_⟩
  · apply (hpipelines .qualityTestRun (by decide) "ingest" (by decide)).mpr
    decide +kernel
  · intro hallowed
    have hsales := ((htogether .qualityTestRun ["ingest", "sales"]).mp hallowed).2 "sales"
      (by decide)
    revert hsales
    decide +kernel

end SqlTide.Authorization
