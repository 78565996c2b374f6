import SqlTide.Authorization.ProjectAuthorizer

/-!
# The roles of an access policy

A loaded policy document is checked and normalized role by role. Every grant of an accepted
document is for pipelines of the project or for one scope, and gives no permission that its kind of
grant cannot give.
-/

namespace SqlTide.Authorization

open Foundations SqlText

/-- A loaded document; a key of a mapping is a text or something else. -/
inductive Document
  | null
  | text (value : String)
  | sequence (items : List Document)
  | mapping (entries : List (Option String × Document))
  | other

/-- Every error is located at the start of the policy file. -/
structure AccessPolicyError where
  message : String
  deriving DecidableEq, Repr

def protectedRoleNames : List String := ["admin", "viewer"]

def topLevelKeys : List String := ["roles"]

def roleKeys : List String := ["description", "grants"]

def grantKeys : List String := ["pipelines", "scope", "permissions"]

def systemOnlyPermissions : List Permission := [.accountManage, .roleAssign]

def pipelinePermissions : List Permission :=
  [.qualityTestRun, .qualityAuditRun, .buildDirectRun, .deploymentCreate, .buildCancel,
    .deploymentPromote, .pipelineDestroy]

def projectPermissions : List Permission :=
  [.projectReload, .sourceMessagesRead, .qualityTestRun, .qualityAuditRun, .automationManage]

def targetPermissions : List Permission :=
  [.sourceMessagesRead, .buildKill, .deploymentCleanup, .targetReset, .automationManage]

def Permission.all : List Permission :=
  [.projectReload, .sourceMessagesRead, .qualityTestRun, .qualityAuditRun, .buildDirectRun,
    .deploymentCreate, .buildCancel, .buildKill, .deploymentPromote, .deploymentCleanup,
    .pipelineDestroy, .targetReset, .automationManage, .accountManage, .roleAssign]

def Permission.ofValue (value : String) : Option Permission :=
  Permission.all.find? fun permission => permission.value = value

theorem Permission.ofValue_value (permission : Permission) :
    Permission.ofValue permission.value = some permission := by
  cases permission <;> decide

def GrantScope.value : GrantScope → String
  | .project => "project"
  | .target => "target"

def GrantScope.ofValue (value : String) : Option GrantScope :=
  [GrantScope.project, .target].find? fun scope => scope.value = value

def sortedPermissions (permissions : List Permission) : List Permission :=
  sortedBy (fun permission => [permission.value]) permissions

def permissionList (permissions : List Permission) : String :=
  ", ".intercalate (permissions.map (·.value))

def blank (value : String) : Bool := pythonStrip value.toList = []

section
variable {α : Type}

def fail (message : String) : Except AccessPolicyError α := .error ⟨message⟩

def stringMapping (value : Document) (context : String) :
    Except AccessPolicyError (List (String × Document)) :=
  match value with
  | .mapping entries =>
    if entries.all (·.1.isSome) then
      .ok (entries.filterMap fun entry => entry.1.map fun key => (key, entry.2))
    else fail (context ++ " must be a string-keyed mapping")
  | _ => fail (context ++ " must be a string-keyed mapping")

def lookup (values : List (String × Document)) (key : String) : Option Document :=
  (values.find? fun entry => entry.1 = key).map (·.2)

def sequence (value : Document) (context : String) : Except AccessPolicyError (List Document) :=
  match value with
  | .sequence items => .ok items
  | _ => fail (context ++ " must be a sequence")

def optionalString (value : Document) (context : String) :
    Except AccessPolicyError (Option String) :=
  match value with
  | .null => .ok none
  | .text value =>
    if blank value then fail (context ++ " must be a non-empty string") else .ok (some value)
  | _ => fail (context ++ " must be a non-empty string")

def rejectUnknownKeys (values : List (String × Document)) (allowed : List String)
    (context : String) : Except AccessPolicyError Unit :=
  let unknown := sortedNames ((values.map (·.1)).toFinset \ allowed.toFinset)
  if unknown ≠ [] then fail (context ++ " contains unknown key(s): " ++ ", ".intercalate unknown)
  else .ok ()

def uniqueStrings (value : Document) (context : String) : Except AccessPolicyError (List String) :=
  sequence value context >>= fun values =>
  (values.mapM fun item =>
    match item with
    | .text item =>
      if blank item then fail (context ++ " must contain non-empty strings") else .ok item
    | _ => fail (context ++ " must contain non-empty strings")) >>= fun strings =>
  if ¬ strings.Nodup then fail (context ++ " contains duplicate values")
  else if strings = [] then fail (context ++ " must not be empty")
  else .ok strings

/-- `_permissions`. -/
def permissionsOf (value : Document) (context : String) :
    Except AccessPolicyError (List Permission) :=
  uniqueStrings value (context ++ " permissions") >>= fun names =>
  (names.mapM fun name =>
    match Permission.ofValue name with
    | none => fail (context ++ " contains unknown permission '" ++ name ++ "'")
    | some permission =>
      if permission ∈ systemOnlyPermissions then
        fail (context ++ " cannot grant system-only permission '" ++ permission.value ++ "'")
      else .ok permission) >>= fun permissions =>
  .ok (sortedPermissions permissions)

/-- `_scope`. -/
def scopeOf (value : Document) (context : String) : Except AccessPolicyError GrantScope :=
  match value with
  | .text value =>
    match GrantScope.ofValue value with
    | some scope => .ok scope
    | none => fail (context ++ " scope must be 'project' or 'target', received '" ++ value ++ "'")
  | _ => fail (context ++ " scope must be 'project' or 'target'")

end

section
variable (pipelineNames : Finset String)

def scopePermissions : GrantScope → List Permission
  | .project => projectPermissions
  | .target => targetPermissions

def pipelineGrant (context : String) (permissions : List Permission) (value : Document) :
    Except AccessPolicyError CompiledAccessGrant :=
  uniqueStrings value (context ++ " pipelines") >>= fun pipelines =>
  let unknown := sortedNames (pipelines.toFinset \ pipelineNames)
  let invalid := permissions.filter (· ∉ pipelinePermissions)
  if unknown ≠ [] then
    fail (context ++ " references unknown pipelines: " ++ ", ".intercalate unknown)
  else if invalid ≠ [] then
    fail (context ++ " cannot grant pipeline permission(s): " ++ permissionList invalid)
  else .ok ⟨permissions, sortedNames pipelines.toFinset, none⟩

def scopedGrant (context : String) (permissions : List Permission) (value : Document) :
    Except AccessPolicyError CompiledAccessGrant :=
  scopeOf value context >>= fun scope =>
  let invalid := permissions.filter (· ∉ scopePermissions scope)
  if invalid ≠ [] then
    fail (context ++ " cannot grant " ++ permissionList invalid ++ " at " ++ scope.value ++
      " scope")
  else .ok ⟨permissions, [], some scope⟩

def buildGrant (roleName : String) (grantIndex : ℕ) (value : Document) :
    Except AccessPolicyError CompiledAccessGrant :=
  let context := "role '" ++ roleName ++ "' grant " ++ toString (grantIndex + 1)
  stringMapping value context >>= fun grant =>
  rejectUnknownKeys grant grantKeys context >>= fun _ =>
  match lookup grant "pipelines", lookup grant "scope" with
  | some pipelines, none =>
    permissionsOf ((lookup grant "permissions").getD .null) context >>= fun permissions =>
    pipelineGrant pipelineNames context permissions pipelines
  | none, some scope =>
    permissionsOf ((lookup grant "permissions").getD .null) context >>= fun permissions =>
    scopedGrant context permissions scope
  | _, _ => fail (context ++ " must contain exactly one of 'pipelines' or 'scope'")

def grantSortKey (grant : CompiledAccessGrant) : String ×ₗ List String ×ₗ List String :=
  toLex (match grant.scope with
    | none => "pipelines"
    | some scope => scope.value, toLex (grant.pipelines, grant.permissions.map (·.value)))

def buildRole (roleName : String) (value : Document) :
    Except AccessPolicyError CompiledAccessRole :=
  let context := "role '" ++ roleName ++ "'"
  if blank roleName ∨ roleName.toList ≠ pythonStrip roleName.toList then
    fail "role names must be non-empty and must not contain surrounding whitespace"
  else if roleName ∈ protectedRoleNames then
    fail (context ++ " is protected and cannot be declared in access.yml")
  else
    stringMapping value context >>= fun role =>
    rejectUnknownKeys role roleKeys context >>= fun _ =>
    optionalString ((lookup role "description").getD .null) (context ++ " description") >>=
      fun description =>
    sequence ((lookup role "grants").getD .null) (context ++ " grants") >>= fun grants =>
    if grants.isEmpty then fail (context ++ " must contain at least one grant")
    else
      (grants.zipIdx.mapM fun grant => buildGrant pipelineNames roleName grant.2 grant.1) >>=
        fun compiledGrants =>
      .ok ⟨roleName, description,
        compiledGrants.insertionSort fun a b => grantSortKey a ≤ grantSortKey b⟩

def buildCompiledRoles (document : Document) : Except AccessPolicyError (List CompiledAccessRole) :=
  stringMapping document "access policy" >>= fun root =>
  rejectUnknownKeys root topLevelKeys "access policy" >>= fun _ =>
  stringMapping ((lookup root "roles").getD .null) "roles" >>= fun roles =>
  (sortedNames (roles.map (·.1)).toFinset).mapM fun roleName =>
    buildRole pipelineNames roleName ((lookup roles roleName).getD .null)

end

/-- The permissions that a grant can give. -/
def CompiledAccessGrant.grantable (grant : CompiledAccessGrant) : List Permission :=
  match grant.scope with
  | none => pipelinePermissions
  | some scope => scopePermissions scope

/-- A grant is for pipelines of the project or for a scope, with permissions of its kind. -/
structure CompiledAccessGrant.Valid (pipelineNames : Finset String) (grant : CompiledAccessGrant) :
    Prop where
  permissions : ∀ permission ∈ grant.permissions, permission ∈ grant.grantable
  pipelines : ∀ pipeline ∈ grant.pipelines, pipeline ∈ pipelineNames

variable {pipelineNames : Finset String}

variable {permissions : List Permission} {value : Document} {grant : CompiledAccessGrant}

theorem mem_of_filter_not_mem_eq_nil {allowed : List Permission}
    (h : permissions.filter (· ∉ allowed) = []) {permission : Permission}
    (hpermission : permission ∈ permissions) : permission ∈ allowed := by
  have hnot := List.filter_eq_nil_iff.mp h permission hpermission
  simpa using hnot

variable {context roleName : String}

theorem valid_of_pipelineGrant
    (h : pipelineGrant pipelineNames context permissions value = .ok grant) :
    grant.Valid pipelineNames := by
  obtain ⟨pipelines, -, h⟩ := bind_eq_ok.mp h
  simp only [fail] at h
  split_ifs at h with hunknown hinvalid
  cases h
  rw [ne_eq, not_not] at hunknown hinvalid
  constructor
  · exact fun permission hpermission => mem_of_filter_not_mem_eq_nil hinvalid hpermission
  · intro pipeline hpipeline
    rw [mem_sortedNames] at hpipeline
    exact Finset.sdiff_eq_empty_iff_subset.mp (sortedNames_eq_nil.mp hunknown) hpipeline

theorem valid_of_scopedGrant
    (h : scopedGrant context permissions value = .ok grant) : grant.Valid pipelineNames := by
  obtain ⟨scope, -, h⟩ := bind_eq_ok.mp h
  simp only [fail] at h
  split_ifs at h with hinvalid
  cases h
  rw [ne_eq, not_not] at hinvalid
  constructor
  · exact fun permission hpermission => mem_of_filter_not_mem_eq_nil hinvalid hpermission
  · simp

theorem valid_of_buildGrant {grantIndex : ℕ}
    (h : buildGrant pipelineNames roleName grantIndex value = .ok grant) :
    grant.Valid pipelineNames := by
  obtain ⟨entries, -, h⟩ := bind_eq_ok.mp h
  obtain ⟨-, -, h⟩ := bind_eq_ok.mp h
  split at h
  · obtain ⟨permissions, -, h⟩ := bind_eq_ok.mp h
    exact valid_of_pipelineGrant h
  · obtain ⟨permissions, -, h⟩ := bind_eq_ok.mp h
    exact valid_of_scopedGrant h
  · cases h

theorem valid_of_buildRole {role : CompiledAccessRole}
    (h : buildRole pipelineNames roleName value = .ok role) :
    role.name = roleName ∧ ∀ grant ∈ role.grants, grant.Valid pipelineNames := by
  simp only [buildRole, fail] at h
  split_ifs at h
  obtain ⟨entries, -, h⟩ := bind_eq_ok.mp h
  obtain ⟨-, -, h⟩ := bind_eq_ok.mp h
  obtain ⟨description, -, h⟩ := bind_eq_ok.mp h
  obtain ⟨grants, -, h⟩ := bind_eq_ok.mp h
  split_ifs at h
  obtain ⟨compiledGrants, hgrants, h⟩ := bind_eq_ok.mp h
  cases h
  refine ⟨rfl, ?_⟩
  intro grant hgrant
  rw [List.mem_insertionSort] at hgrant
  obtain ⟨source, -, hbuilt⟩ := (mem_of_mapM_eq_ok hgrants grant).mp hgrant
  exact valid_of_buildGrant hbuilt

/-- Every grant of an accepted policy is one that its kind can give. -/
theorem valid_of_buildCompiledRoles {document : Document} {roles : List CompiledAccessRole}
    (h : buildCompiledRoles pipelineNames document = .ok roles) :
    ∀ role ∈ roles, ∀ grant ∈ role.grants, grant.Valid pipelineNames := by
  obtain ⟨root, -, h⟩ := bind_eq_ok.mp h
  obtain ⟨-, -, h⟩ := bind_eq_ok.mp h
  obtain ⟨entries, -, h⟩ := bind_eq_ok.mp h
  intro role hrole
  obtain ⟨roleName, -, hbuilt⟩ := (mem_of_mapM_eq_ok h role).mp hrole
  exact (valid_of_buildRole hbuilt).2

end SqlTide.Authorization
