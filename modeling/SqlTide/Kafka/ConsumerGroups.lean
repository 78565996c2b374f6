import SqlTide.Kafka.ManagedSources
import SqlTide.SqlText.Primitives

/-!
# Default consumer groups

The default group of a source joins the names of its scope by underscores, which the names may hold
themselves. Two sources share a group exactly if the words of their names, read in order, are the
same; then the reset of one source's group takes the committed offsets of the other as well.
-/

namespace SqlTide.Kafka

open Compiler List SqlText

structure PopulationManagedSource where
  resource : AdapterManagedSource
  database : String
  deriving DecidableEq, Repr

/-- `PopulationSourcePreparation`, as far as the reset reads it. -/
structure SourcePreparation where
  createdRelationNames : List String
  managedSources : List PopulationManagedSource
  deriving DecidableEq, Repr

/-- What the admin client of a cluster answers to the deletion of a group. -/
inductive DeletionOutcome
  | deleted
  | absent
  | failed (error : String)
  deriving DecidableEq, Repr

structure ConsumerGroupOffsetReset where
  consumerGroup : String
  landingRelationName : String
  deleted : Bool
  error : Option String
  notice : Option String
  deriving DecidableEq, Repr

def PopulationManagedSource.group (source : PopulationManagedSource) : String :=
  databaseScopedConsumerGroup source.resource.consumerGroup source.database

/-- `RAW_TABLE_NAME_PREFIX + resource.name.removeprefix(KAFKA_TABLE_NAME_PREFIX)`. -/
def PopulationManagedSource.landingRelationName (source : PopulationManagedSource) : String :=
  rawTableNamePrefix ++ String.ofList
    ((source.resource.name.toList.dropPrefix? "kafka__".toList).getD source.resource.name.toList)

/-- `_notice`. -/
def resetNotice (consumerGroup landingRelationName : String) : DeletionOutcome → Option String
  | .failed error => some ("Could not reset committed offsets for consumer group '" ++
      consumerGroup ++ "' ahead of creating " ++ landingRelationName ++ ": " ++ error ++
      ". If this landing table replaces a previous one, ingestion may resume from stale " ++
      "offsets; reset the group manually.")
  | .deleted => some ("Reset committed offsets for consumer group '" ++ consumerGroup ++
      "' ahead of creating " ++ landingRelationName ++
      "; ingestion starts from the earliest retained messages.")
  | .absent => none

section
variable {κ ω : Type} [DecidableEq κ] (cluster : String → κ)
  (admin : κ → String → DeletionOutcome)

/-- The committed offsets of the groups of each cluster. -/
abbrev CommittedOffsets (κ ω : Type) := κ → String → Option ω

/-- `reset_one_consumer_group`; the deletion takes away what the group has committed. -/
def resetOneConsumerGroup (source : PopulationManagedSource) (offsets : CommittedOffsets κ ω) :
    ConsumerGroupOffsetReset × CommittedOffsets κ ω :=
  let outcome := admin (cluster source.resource.brokerList) source.group
  ({ consumerGroup := source.group
     landingRelationName := source.landingRelationName
     deleted := outcome = .deleted
     error := match outcome with
       | .failed error => some error
       | _ => none
     notice := resetNotice source.group source.landingRelationName outcome },
   fun place group =>
     if outcome = .deleted ∧ place = cluster source.resource.brokerList ∧ group = source.group then
       none
     else offsets place group)

def resetFreshLandingOffsets (preparation : SourcePreparation) (offsets : CommittedOffsets κ ω) :
    List ConsumerGroupOffsetReset × CommittedOffsets κ ω :=
  preparation.managedSources.foldl
    (fun state source =>
      if source.landingRelationName ∈ preparation.createdRelationNames then
        let reset := resetOneConsumerGroup cluster admin source state.2
        (state.1 ++ [reset.1], reset.2)
      else state)
    ([], offsets)

variable {cluster admin}

/-- A reset leaves alone the groups of which no source is prepared. -/
theorem resetFreshLandingOffsets_unmoved {preparation : SourcePreparation}
    {offsets : CommittedOffsets κ ω} {group : String}
    (h : ∀ source ∈ preparation.managedSources, source.group ≠ group) (place : κ) :
    (resetFreshLandingOffsets cluster admin preparation offsets).2 place group =
      offsets place group := by
  have hloop : ∀ (sources : List PopulationManagedSource)
      (state : List ConsumerGroupOffsetReset × CommittedOffsets κ ω),
      (∀ source ∈ sources, source.group ≠ group) →
      (sources.foldl (fun state source =>
        if source.landingRelationName ∈ preparation.createdRelationNames then
          let reset := resetOneConsumerGroup cluster admin source state.2
          (state.1 ++ [reset.1], reset.2)
        else state) state).2 place group = state.2 place group := by
    intro sources
    induction sources with
    | nil => exact fun _ _ => rfl
    | cons source sources ih =>
      intro state hsources
      rw [foldl_cons, ih _ fun other hother => hsources other (mem_cons_of_mem _ hother)]
      have hother := (hsources source (by simp)).symm
      split_ifs
      · simp [resetOneConsumerGroup, hother]
      · rfl
  exact hloop _ _ h

end

/-- What the default group of a source is made of. -/
structure SourceScope where
  projectName : String
  targetName : String
  logicalName : String
  database : String
  deriving DecidableEq, Repr

/-- `_SOURCE_NAME_PATTERN.fullmatch(name)`. -/
def isSourceName (name : String) : Bool :=
  match name.toList with
  | [] => false
  | first :: rest => (first.isAlpha || first = '_') &&
      rest.all fun character => character.isAlphanum || character = '_'

/-- The names that the compiler accepts. A project name is a literal without surrounding
whitespace; the name of a target is a key of the configuration. -/
structure SourceScope.Accepted (scope : SourceScope) : Prop where
  projectName : scope.projectName ≠ "" ∧ pythonStrip scope.projectName.toList =
    scope.projectName.toList ∧ ¬ "$\x7b".toList <:+: scope.projectName.toList
  targetName : scope.targetName ≠ "" ∧ ¬ "$\x7b".toList <:+: scope.targetName.toList
  logicalName : isSourceName scope.logicalName = true
  database : scope.database ≠ ""

/-- The pieces of a text between its underscores. -/
def words (text : String) : List (List Char) := text.toList.splitOn '_'

/-- The database as it is written in the group. -/
def normalizedDatabase (database : String) : String :=
  String.ofList (database.toList.map fun character => if character = '-' then '_' else character)

def SourceScope.words (scope : SourceScope) : List (List Char) :=
  Kafka.words scope.projectName ++ Kafka.words scope.targetName ++
    Kafka.words scope.logicalName ++ Kafka.words (normalizedDatabase scope.database)

theorem words_injective : Function.Injective words := by
  intro text text' h
  have hjoined := congrArg (['_'].intercalate ·) h
  simp only [words, intercalate_splitOn] at hjoined
  exact String.toList_injective hjoined

theorem words_append (text text' : String) :
    words (text ++ "_" ++ text') = words text ++ words text' := by
  have hsplit : (text ++ "_" ++ text').toList = text.toList ++ '_' :: text'.toList := by simp
  rw [words, hsplit, splitOn_append_cons_self]
  rfl

/-- The default group, in its database. -/
def SourceScope.group (scope : SourceScope) : String :=
  "streambuild" ++ "_" ++ scope.projectName ++ "_" ++ scope.targetName ++ "_" ++
    scope.logicalName ++ "_" ++ normalizedDatabase scope.database

theorem words_streambuild : words "streambuild" = ["streambuild".toList] :=
  splitOn_eq_singleton (by decide +kernel)

theorem words_group (scope : SourceScope) :
    words scope.group = "streambuild".toList :: scope.words := by
  unfold SourceScope.group SourceScope.words
  simp only [words_append, words_streambuild, append_assoc, cons_append, nil_append]

variable {scope scope' : SourceScope}

theorem group_eq_iff : scope.group = scope'.group ↔ scope.words = scope'.words := by
  rw [← words_injective.eq_iff, words_group, words_group, cons_inj_right]

/-- Within one build target the sources have groups of their own. -/
theorem logicalName_of_group (hproject : scope.projectName = scope'.projectName)
    (htarget : scope.targetName = scope'.targetName) (hdatabase : scope.database = scope'.database)
    (hgroup : scope.group = scope'.group) : scope = scope' := by
  have hwords := group_eq_iff.mp hgroup
  rw [SourceScope.words, SourceScope.words, hproject, htarget, hdatabase] at hwords
  have hname := words_injective (append_cancel_left (append_cancel_right hwords))
  cases scope
  cases scope'
  simp_all

/-- A source of the scope with the default group. -/
def SourceScope.Realizes (scope : SourceScope) (source : PopulationManagedSource) : Prop :=
  ∃ request : ManagedSourceRequest, request.projectName = some scope.projectName ∧
    request.targetName = some scope.targetName ∧ request.logicalName = scope.logicalName ∧
    request.consumerGroup = none ∧ realizeManagedSource request = .ok source.resource ∧
    source.database = scope.database

theorem defaultConsumerGroup_eq {request : ManagedSourceRequest} {project target : String}
    (hproject : request.projectName = some project) (htarget : request.targetName = some target) :
    defaultConsumerGroup request =
      "streambuild" ++ "_" ++ project ++ "_" ++ target ++ "_" ++ request.logicalName := by
  have hjoined : "_".intercalate [project, target, request.logicalName] =
      project ++ "_" ++ target ++ "_" ++ request.logicalName := rfl
  unfold defaultConsumerGroup
  rw [hproject, htarget]
  apply String.toList_injective
  simp [hjoined]

theorem SourceScope.Realizes.group {source : PopulationManagedSource}
    (h : scope.Realizes source) : source.group = scope.group := by
  obtain ⟨request, hproject, htarget, hname, hgroup, hrealized, hdatabase⟩ := h
  have hconsumer : source.resource.consumerGroup = defaultConsumerGroup request := by
    simp only [(realizeManagedSource_eq_ok hrealized).2.1, consumerGroupOf, hgroup]
  unfold PopulationManagedSource.group databaseScopedConsumerGroup SourceScope.group
    normalizedDatabase
  rw [hconsumer, defaultConsumerGroup_eq hproject htarget, hname, hdatabase]

/-- Two sources have groups of their own, and when the landing table of one of them is created, the
committed offsets of the other stay as they are. -/
def ConsumerGroupsApart (scope scope' : SourceScope) : Prop :=
  ∀ source source' : PopulationManagedSource, scope.Realizes source → scope'.Realizes source' →
    source.group ≠ source'.group ∧
      ∀ (cluster : String → String) (admin : String → String → DeletionOutcome)
        (created : List String) (offsets : CommittedOffsets String ℕ) (place : String),
        (resetFreshLandingOffsets cluster admin ⟨created, [source]⟩ offsets).2 place
          source'.group = offsets place source'.group

/-- A source of the scope that the adapter realizes. -/
def SourceScope.request (scope : SourceScope) : ManagedSourceRequest where
  logicalName := scope.logicalName
  sourceKind := managedSourceKindKafka
  brokerList := "kafka:9092"
  topic := scope.logicalName
  consumerGroup := none
  format := supportedKafkaFormat
  projectName := some scope.projectName
  targetName := some scope.targetName

theorem SourceScope.exists_realizes (scope : SourceScope) : ∃ source, scope.Realizes source := by
  have hvalid : validateManagedSourceRequest scope.request = .ok () :=
    validateManagedSourceRequest_eq_ok.mpr ⟨rfl, rfl, by simp [SourceScope.request]⟩
  obtain ⟨resource, hrealized⟩ : ∃ resource, realizeManagedSource scope.request = .ok resource := by
    rw [realizeManagedSource, hvalid]
    exact ⟨_, rfl⟩
  exact ⟨⟨resource, scope.database⟩, scope.request, rfl, rfl, rfl, rfl, hrealized, rfl⟩

/-- Different sources are kept apart exactly if the words of their names are not the same. -/
theorem consumerGroupsApart_iff (scope scope' : SourceScope) :
    (scope ≠ scope' → ConsumerGroupsApart scope scope') ↔
      scope = scope' ∨ scope.words ≠ scope'.words := by
  constructor
  · intro h
    by_cases hsame : scope = scope'
    · exact .inl hsame
    · right
      intro hwords
      obtain ⟨source, hsource⟩ := scope.exists_realizes
      obtain ⟨source', hsource'⟩ := scope'.exists_realizes
      apply (h hsame source source' hsource hsource').1
      rw [hsource.group, hsource'.group, group_eq_iff.mpr hwords]
  · rintro (hsame | hwords) hne
    · exact absurd hsame hne
    · intro source source' hsource hsource'
      have hgroups : source.group ≠ source'.group := by
        rw [hsource.group, hsource'.group]
        exact fun heq => hwords (group_eq_iff.mp heq)
      refine ⟨hgroups, ?_⟩
      intro cluster admin created offsets place
      apply resetFreshLandingOffsets_unmoved
      intro other hother
      rw [mem_singleton.mp hother]
      exact hgroups

/-- An underscore in the project name and one in the target name are the same to the group. -/
theorem not_consumerGroupsApart : ¬ ∀ scope scope' : SourceScope, scope.Accepted →
    scope'.Accepted → scope ≠ scope' → ConsumerGroupsApart scope scope' := by
  intro h
  have hall :=
    h ⟨"shop_eu", "prod", "orders", "analytics"⟩ ⟨"shop", "eu_prod", "orders", "analytics"⟩
    ⟨by decide +kernel, by decide +kernel, by decide +kernel, by decide⟩
    ⟨by decide +kernel, by decide +kernel, by decide +kernel, by decide⟩
  rcases (consumerGroupsApart_iff _ _).mp hall with hsame | hwords
  · exact absurd hsame (by decide)
  · exact hwords (by decide +kernel)

end SqlTide.Kafka
