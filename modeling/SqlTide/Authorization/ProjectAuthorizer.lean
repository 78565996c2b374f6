import SqlTide.Auth.AuthenticationService

/-!
# Deciding an operation against a policy

A decision is made from the current assignments of a user and the roles of the compiled policy. The
affected pipelines are all covered, or the operation is denied.
-/

namespace SqlTide.Authorization

open Foundations List

inductive Permission
  | projectReload
  | sourceMessagesRead
  | qualityTestRun
  | qualityAuditRun
  | buildDirectRun
  | deploymentCreate
  | buildCancel
  | buildKill
  | deploymentPromote
  | deploymentCleanup
  | pipelineDestroy
  | targetReset
  | automationManage
  | accountManage
  | roleAssign
  deriving DecidableEq, Repr

def Permission.value : Permission → String
  | .projectReload => "project.reload"
  | .sourceMessagesRead => "source.messages.read"
  | .qualityTestRun => "quality.test.run"
  | .qualityAuditRun => "quality.audit.run"
  | .buildDirectRun => "build.direct.run"
  | .deploymentCreate => "deployment.create"
  | .buildCancel => "build.cancel"
  | .buildKill => "build.kill"
  | .deploymentPromote => "deployment.promote"
  | .deploymentCleanup => "deployment.cleanup"
  | .pipelineDestroy => "pipeline.destroy"
  | .targetReset => "target.reset"
  | .automationManage => "automation.manage"
  | .accountManage => "account.manage"
  | .roleAssign => "role.assign"

inductive GrantScope
  | project
  | target
  deriving DecidableEq, Repr

structure CompiledAccessGrant where
  permissions : List Permission
  pipelines : List String := []
  scope : Option GrantScope := none
  deriving DecidableEq, Repr

structure CompiledAccessRole where
  name : String
  description : Option String
  grants : List CompiledAccessGrant
  deriving DecidableEq, Repr

structure CompiledAccessPolicy where
  roles : List CompiledAccessRole
  fingerprint : String
  deriving DecidableEq, Repr

structure ProjectRoleAssignment where
  assignmentId : String
  userId : String
  projectName : String
  roleName : String
  targetName : Option String
  assignedBy : Option String
  assignedAt : ℕ
  revokedBy : Option String := none
  revokedAt : Option ℕ := none
  deriving DecidableEq, Repr

/-- The role assignments of the control store, in the order in which it lists them. -/
structure ControlStore where
  projectRoleAssignments : List ProjectRoleAssignment
  deriving DecidableEq, Repr

/-- `ControlStore.list_project_role_assignments`, without the revoked ones. -/
def ControlStore.listProjectRoleAssignments (store : ControlStore) (userId projectName : String) :
    List ProjectRoleAssignment :=
  store.projectRoleAssignments.filter fun assignment =>
    assignment.userId = userId ∧ assignment.projectName = projectName ∧ assignment.revokedAt = none

structure AuthorizationRequest where
  authenticated : Auth.AuthenticatedRequest
  permission : Permission
  projectName : String
  targetName : Option String
  grantScope : Option GrantScope
  affectedPipelines : List String
  policy : Option CompiledAccessPolicy

inductive AuthorizationReason
  | systemAdmin
  | granted
  | policyAbsent
  | noMatchingAssignment
  | staleAssignment
  | emptyPipelineScope
  | missingPermission
  | missingPipelines
  deriving DecidableEq, Repr

def AuthorizationReason.value : AuthorizationReason → String
  | .systemAdmin => "system_admin"
  | .granted => "granted"
  | .policyAbsent => "policy_absent"
  | .noMatchingAssignment => "no_matching_assignment"
  | .staleAssignment => "stale_assignment"
  | .emptyPipelineScope => "empty_pipeline_scope"
  | .missingPermission => "missing_permission"
  | .missingPipelines => "missing_pipelines"

structure AuthorizationDecision where
  allowed : Bool
  reason : AuthorizationReason
  permission : Permission
  projectName : String
  targetName : Option String
  affectedPipelines : List String
  matchedRoles : List String := []
  missingPipelines : List String := []
  deriving DecidableEq, Repr

def adminRole : String := "admin"

def isMatchingPipelineGrant (grant : CompiledAccessGrant) (request : AuthorizationRequest) : Bool :=
  grant.scope = none ∧ request.permission ∈ grant.permissions

def isMatchingProjectGrant (grant : CompiledAccessGrant) (request : AuthorizationRequest) : Bool :=
  grant.scope = some .project ∧ request.permission ∈ grant.permissions

def isMatchingScopedGrant (grant : CompiledAccessGrant) (request : AuthorizationRequest) : Bool :=
  if request.permission ∉ grant.permissions then false
  else if grant.scope = request.grantScope then true
  else request.grantScope = some .target ∧ grant.scope = some .project

/-- `role_by_name`: of two roles of one name the later one stays. -/
def CompiledAccessPolicy.roleByName (policy : CompiledAccessPolicy) (name : String) :
    Option CompiledAccessRole :=
  policy.roles.reverse.find? fun role => role.name = name

/-- The pipelines that are covered with one more grant. -/
def coverGrant (request : AuthorizationRequest) (affected covered : Finset String)
    (grant : CompiledAccessGrant) : Finset String :=
  let covered :=
    if isMatchingPipelineGrant grant request then covered ∪ (grant.pipelines.toFinset ∩ affected)
    else covered
  if isMatchingProjectGrant grant request then covered ∪ affected else covered

/-- The affected pipelines that the grants of a role cover. -/
def coveredByGrants (request : AuthorizationRequest) (affected : Finset String)
    (grants : List CompiledAccessGrant) : Finset String :=
  grants.foldl (coverGrant request affected) ∅

/-- The roles of `covered_by_role`. -/
def coveringRoles (request : AuthorizationRequest) (roles : List CompiledAccessRole) :
    List CompiledAccessRole :=
  roles.filter fun role =>
    coveredByGrants request request.affectedPipelines.toFinset role.grants ≠ ∅

/-- What the roles cover together. -/
def coveredPipelines (request : AuthorizationRequest) (roles : List CompiledAccessRole) :
    Finset String :=
  roles.foldr
    (fun role covered =>
      coveredByGrants request request.affectedPipelines.toFinset role.grants ∪ covered)
    ∅

section
variable (store : ControlStore) (request : AuthorizationRequest)

def decision (allowed : Bool) (reason : AuthorizationReason) (matchedRoles : List String := [])
    (missingPipelines : List String := []) : AuthorizationDecision :=
  ⟨allowed, reason, request.permission, request.projectName, request.targetName,
    sortedNames request.affectedPipelines.toFinset, matchedRoles, missingPipelines⟩

/-- The assignments that hold for the target of a request. -/
def matchingAssignments : List ProjectRoleAssignment :=
  (store.listProjectRoleAssignments request.authenticated.principal.userId
    request.projectName).filter fun assignment =>
      assignment.targetName = none ∨ assignment.targetName = request.targetName

def assignedRoles (policy : CompiledAccessPolicy) : List CompiledAccessRole :=
  (matchingAssignments store request).filterMap fun assignment =>
    policy.roleByName assignment.roleName

def decide : AuthorizationDecision :=
  let affectedPipelines := request.affectedPipelines.toFinset
  if adminRole ∈ request.authenticated.roles then
    decision request true .systemAdmin [adminRole]
  else match request.policy with
  | none => decision request false .policyAbsent
  | some policy =>
    if matchingAssignments store request = [] then
      decision request false .noMatchingAssignment [] (sortedNames affectedPipelines)
    else if assignedRoles store request policy = [] then
      decision request false .staleAssignment [] (sortedNames affectedPipelines)
    else if request.grantScope.isSome then
      let matching := (assignedRoles store request policy).filter fun role =>
        role.grants.any (isMatchingScopedGrant · request)
      let matchingRoles := sortedNames (matching.map (·.name)).toFinset
      decision request (matchingRoles ≠ [])
        (if matchingRoles ≠ [] then .granted else .missingPermission) matchingRoles
    else if affectedPipelines = ∅ then
      decision request false .emptyPipelineScope
    else
      let covering := coveringRoles request (assignedRoles store request policy)
      let missingPipelines := sortedNames (affectedPipelines \ coveredPipelines request covering)
      decision request (missingPipelines = [])
        (if missingPipelines = [] then .granted else .missingPipelines)
        (sortedNames (covering.map (·.name)).toFinset) missingPipelines

end

variable {store : ControlStore} {request : AuthorizationRequest} {affected : Finset String}
  {grants : List CompiledAccessGrant} {pipeline : String}

/-- A grant covers a pipeline by its name, or every pipeline of the project. -/
def GrantCovers (request : AuthorizationRequest) (grant : CompiledAccessGrant) (pipeline : String) :
    Prop :=
  request.permission ∈ grant.permissions ∧
    (grant.scope = none ∧ pipeline ∈ grant.pipelines ∨ grant.scope = some .project)

theorem mem_coverGrant {covered : Finset String} {grant : CompiledAccessGrant} :
    pipeline ∈ coverGrant request affected covered grant ↔
      pipeline ∈ covered ∨ pipeline ∈ affected ∧ GrantCovers request grant pipeline := by
  unfold coverGrant isMatchingPipelineGrant isMatchingProjectGrant GrantCovers
  by_cases hpermission : request.permission ∈ grant.permissions
  · cases hgrant : grant.scope with
    | none => simp [hpermission, and_comm]
    | some scope => cases scope <;> simp [hpermission]
  · simp [hpermission]

theorem mem_coveredByGrants : pipeline ∈ coveredByGrants request affected grants ↔
    pipeline ∈ affected ∧ ∃ grant ∈ grants, GrantCovers request grant pipeline := by
  have hloop : ∀ covered : Finset String,
      pipeline ∈ grants.foldl (coverGrant request affected) covered ↔
        pipeline ∈ covered ∨
          pipeline ∈ affected ∧ ∃ grant ∈ grants, GrantCovers request grant pipeline := by
    induction grants with
    | nil => simp
    | cons grant grants ih =>
      intro covered
      rw [foldl_cons, ih, mem_coverGrant]
      simp only [mem_cons, exists_eq_or_imp]
      tauto
  rw [coveredByGrants, hloop]
  simp

theorem mem_matchingAssignments {assignment : ProjectRoleAssignment} :
    assignment ∈ matchingAssignments store request ↔
      assignment ∈ store.projectRoleAssignments ∧
        assignment.userId = request.authenticated.principal.userId ∧
        assignment.projectName = request.projectName ∧ assignment.revokedAt = none ∧
        (assignment.targetName = none ∨ assignment.targetName = request.targetName) := by
  simp only [matchingAssignments, ControlStore.listProjectRoleAssignments, mem_filter,
    decide_eq_true_eq, and_assoc]

/-- A role of the user's for the project and the target of a request covers the pipeline. -/
def RoleCovers (store : ControlStore) (request : AuthorizationRequest)
    (policy : CompiledAccessPolicy)
    (pipeline : String) : Prop :=
  ∃ assignment ∈ matchingAssignments store request, ∃ role,
    policy.roleByName assignment.roleName = some role ∧
      ∃ grant ∈ role.grants, GrantCovers request grant pipeline

theorem mem_coveredPipelines {roles : List CompiledAccessRole} :
    pipeline ∈ coveredPipelines request (coveringRoles request roles) ↔
      pipeline ∈ request.affectedPipelines ∧
        ∃ role ∈ roles, ∃ grant ∈ role.grants, GrantCovers request grant pipeline := by
  induction roles with
  | nil => simp [coveredPipelines, coveringRoles]
  | cons role roles ih =>
    have hcons : pipeline ∈ coveredPipelines request (coveringRoles request (role :: roles)) ↔
        pipeline ∈ coveredByGrants request request.affectedPipelines.toFinset role.grants ∨
          pipeline ∈ coveredPipelines request (coveringRoles request roles) := by
      by_cases hempty : coveredByGrants request request.affectedPipelines.toFinset role.grants = ∅
      · rw [coveringRoles, filter_cons_of_neg (by simpa using hempty), hempty]
        simp [coveringRoles]
      · rw [coveringRoles, filter_cons_of_pos (by simpa using hempty), coveredPipelines,
          foldr_cons, Finset.mem_union]
        rfl
    rw [hcons, ih, mem_coveredByGrants, mem_toFinset]
    simp only [mem_cons, exists_eq_or_imp]
    exact and_or_left.symm

variable {policy : CompiledAccessPolicy}

theorem mem_coveredPipelines_assigned (h : pipeline ∈ request.affectedPipelines) :
    pipeline ∈ coveredPipelines request
        (coveringRoles request (assignedRoles store request policy)) ↔
      RoleCovers store request policy pipeline := by
  rw [mem_coveredPipelines, RoleCovers]
  constructor
  · rintro ⟨-, role, hrole, hgrant⟩
    obtain ⟨assignment, hassignment, hname⟩ := mem_filterMap.mp hrole
    exact ⟨assignment, hassignment, role, hname, hgrant⟩
  · rintro ⟨assignment, hassignment, role, hname, hgrant⟩
    exact ⟨h, role, mem_filterMap.mpr ⟨assignment, hassignment, hname⟩, hgrant⟩

theorem assignedRoles_ne_nil
    (h : RoleCovers store request policy pipeline) : assignedRoles store request policy ≠ [] := by
  obtain ⟨assignment, hassignment, role, hname, -⟩ := h
  exact ne_nil_of_mem (mem_filterMap.mpr ⟨assignment, hassignment, hname⟩)

theorem matchingAssignments_ne_nil
    (h : RoleCovers store request policy pipeline) : matchingAssignments store request ≠ [] := by
  obtain ⟨assignment, hassignment, -⟩ := h
  exact ne_nil_of_mem hassignment

theorem affected_subset_coveredPipelines :
    request.affectedPipelines.toFinset ⊆ coveredPipelines request
        (coveringRoles request (assignedRoles store request policy)) ↔
      ∀ pipeline ∈ request.affectedPipelines, RoleCovers store request policy pipeline := by
  constructor
  · intro h pipeline hpipeline
    exact (mem_coveredPipelines_assigned hpipeline).mp (h (mem_toFinset.mpr hpipeline))
  · intro h pipeline hpipeline
    rw [mem_toFinset] at hpipeline
    exact (mem_coveredPipelines_assigned hpipeline).mpr (h pipeline hpipeline)

/-- An operation on pipelines is allowed to an administrator, and to whoever has roles that cover
every affected pipeline, of which there is one. -/
theorem decide_allowed_iff (hscope : request.grantScope = none) :
    (decide store request).allowed = true ↔
      adminRole ∈ request.authenticated.roles ∨ request.affectedPipelines ≠ [] ∧
        ∃ policy, request.policy = some policy ∧
          ∀ pipeline ∈ request.affectedPipelines, RoleCovers store request policy pipeline := by
  by_cases hadmin : adminRole ∈ request.authenticated.roles
  · simp [decide, decision, hadmin]
  · unfold decide
    rw [if_neg hadmin]
    simp only [hadmin, false_or]
    cases hpolicy : request.policy with
    | none => simp [decision]
    | some policy =>
      have hempty : request.affectedPipelines.toFinset = ∅ ↔ request.affectedPipelines = [] :=
        toFinset_eq_empty_iff _
      simp only [hscope, Option.isSome_none, Bool.false_eq_true, if_false, hempty,
        Option.some.injEq, exists_eq_left']
      by_cases hpipelines : request.affectedPipelines = []
      · split_ifs <;> simp [decision, hpipelines]
      · obtain ⟨affected, haffected⟩ := exists_mem_of_ne_nil _ hpipelines
        split_ifs with hassignments hroles
        · have hdenied : ¬ ∀ pipeline ∈ request.affectedPipelines,
              RoleCovers store request policy pipeline :=
            fun h => matchingAssignments_ne_nil (h affected haffected) hassignments
          simp [decision, hdenied]
        · have hdenied : ¬ ∀ pipeline ∈ request.affectedPipelines,
              RoleCovers store request policy pipeline :=
            fun h => assignedRoles_ne_nil (h affected haffected) hroles
          simp [decision, hdenied]
        all_goals simp [decision, hpipelines, affected_subset_coveredPipelines]

end SqlTide.Authorization
