import Mathlib.Data.String.Basic
import Mathlib.Tactic

/-!
# Deployment-suffixed physical names

A physical relation is named by its logical name, two underscores and the id of the deployment
that prepared it. A name is read at its last pair of underscores.
-/

namespace SqlTide.Planner

/-- `rpartition("__")`, where there is such a pair. -/
def rpartition : List Char → Option (List Char × List Char)
  | [] => none
  | c :: cs =>
    match rpartition cs with
    | some (before, after) => some (c :: before, after)
    | none => if ['_', '_'] <+: c :: cs then some ([], cs.tail) else none

/-- The zeros of the decimal digits in all scripts. -/
def decimalZeros : List ℕ :=
  [0x30, 0x660, 0x6f0, 0x7c0, 0x966, 0x9e6, 0xa66, 0xae6, 0xb66, 0xbe6, 0xc66, 0xce6, 0xd66, 0xde6,
    0xe50, 0xed0, 0xf20, 0x1040, 0x1090, 0x17e0, 0x1810, 0x1946, 0x19d0, 0x1a80, 0x1a90, 0x1b50,
    0x1bb0, 0x1c40, 0x1c50, 0xa620, 0xa8d0, 0xa900, 0xa9d0, 0xa9f0, 0xaa50, 0xabf0, 0xff10,
    0x104a0, 0x10d30, 0x11066, 0x110f0, 0x11136, 0x111d0, 0x112f0, 0x11450, 0x114d0, 0x11650,
    0x116c0, 0x11730, 0x118e0, 0x11950, 0x11c50, 0x11d50, 0x11da0, 0x16a60, 0x16ac0, 0x16b50,
    0x1d7ce, 0x1d7d8, 0x1d7e2, 0x1d7ec, 0x1d7f6, 0x1e140, 0x1e2f0, 0x1e950, 0x1fbf0]

/-- `\d` of a pattern over text. -/
def isDecimalDigit (c : Char) : Bool :=
  decimalZeros.any fun first => first ≤ c.toNat && c.toNat < first + 10

/-- `DEPLOYMENT_ID_PATTERN`: `\d{8}T\d{6}Z_[A-Za-z0-9]+`, for the whole text. -/
def matchesDeploymentIdPattern (text : List Char) : Bool :=
  (text.take 8).length = 8 && (text.take 8).all isDecimalDigit &&
    (text.drop 8).take 1 = ['T'] &&
    ((text.drop 9).take 6).length = 6 && ((text.drop 9).take 6).all isDecimalDigit &&
    (text.drop 15).take 2 = ['Z', '_'] &&
    text.drop 17 ≠ [] && (text.drop 17).all Char.isAlphanum

def isDeploymentPhysicalName (physicalName : String) : Bool :=
  match rpartition physicalName.toList with
  | none => false
  | some (logicalName, deploymentId) => logicalName ≠ [] && matchesDeploymentIdPattern deploymentId

/-- `deployment_id_from_physical_name`; it fails on a name without a pair of underscores. -/
def deploymentIdFromPhysicalName (physicalName : String) : Option String :=
  (rpartition physicalName.toList).map fun parts => String.ofList parts.2

def logicalNameFromPhysicalName (physicalName : String) : String :=
  ((rpartition physicalName.toList).map fun parts => String.ofList parts.1).getD physicalName

/-- The name is its parts with two underscores between them. -/
theorem rpartition_eq_some {name before after : List Char}
    (h : rpartition name = some (before, after)) : name = before ++ '_' :: '_' :: after := by
  induction name generalizing before with
  | nil => simp [rpartition] at h
  | cons c cs ih =>
    unfold rpartition at h
    split at h
    · rename_i before' after' hrest
      obtain ⟨rfl, rfl⟩ := Prod.mk.inj (Option.some.inj h)
      rw [ih hrest, List.cons_append]
    · split_ifs at h with hpair
      obtain ⟨rfl, rfl⟩ := Prod.mk.inj (Option.some.inj h)
      obtain ⟨rest, hrest⟩ := hpair
      obtain ⟨rfl, rfl⟩ := List.cons.inj hrest
      rfl

/-- Two names with the same logical name and the same deployment are one. -/
theorem physicalName_eq_of_parts {name name' : String}
    (hname : isDeploymentPhysicalName name = true) (hname' : isDeploymentPhysicalName name' = true)
    (hlogical : logicalNameFromPhysicalName name = logicalNameFromPhysicalName name')
    (hid : deploymentIdFromPhysicalName name = deploymentIdFromPhysicalName name') :
    name = name' := by
  have hparts : ∀ name, isDeploymentPhysicalName name = true →
      ∃ parts, rpartition name.toList = some parts := by
    intro name hname
    cases hrpartition : rpartition name.toList with
    | none => simp [isDeploymentPhysicalName, hrpartition] at hname
    | some parts => exact ⟨parts, rfl⟩
  obtain ⟨⟨before, after⟩, hpartition⟩ := hparts name hname
  obtain ⟨⟨before', after'⟩, hpartition'⟩ := hparts name' hname'
  simp only [logicalNameFromPhysicalName, deploymentIdFromPhysicalName, hpartition, hpartition',
    Option.map_some, Option.getD_some, Option.some.injEq, String.ofList_inj] at hlogical hid
  rw [← String.toList_inj, rpartition_eq_some hpartition, rpartition_eq_some hpartition',
    hlogical, hid]

end SqlTide.Planner
