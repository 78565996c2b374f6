import SqlTide.Compiler.DesiredState

/-!
# Managed Kafka sources

The resource that the ClickHouse adapter realizes for a managed source. Without an authored
consumer group it consumes as the group of its project, its target and its name.
-/

namespace SqlTide.Kafka

open Foundations

structure AdapterColumn where
  name : String
  type : String
  defaultExpression : Option String := none
  deriving DecidableEq, Repr

structure AdapterManagedSource where
  sourceKind : String
  name : String
  columns : List AdapterColumn
  brokerList : String
  topic : String
  consumerGroup : String
  format : String
  settings : List (String × String) := []
  namingMacroFingerprint : Option String := none
  deriving DecidableEq, Repr

/-- `AdapterManagedSourceRealizationRequest`; the retention is that of the landing table. -/
structure ManagedSourceRequest where
  logicalName : String
  sourceKind : String
  brokerList : String
  topic : String
  consumerGroup : Option String
  format : String
  projectName : Option String := none
  targetName : Option String := none
  settings : List (String × String) := []
  namingMacroFingerprint : Option String := none
  deriving DecidableEq, Repr

/-- `AdapterConfigurationError`. -/
structure ConfigurationError where
  message : String
  deriving DecidableEq, Repr

def managedSourceKindKafka : String := "kafka"

def supportedKafkaFormat : String := "JSONAsString"

def frameworkKafkaSettingKeys : List String :=
  ["kafka_broker_list", "kafka_topic_list", "kafka_group_name", "kafka_format"]

def defaultConsumerGroup (request : ManagedSourceRequest) : String :=
  "streambuild_" ++ "_".intercalate
    ([request.projectName, request.targetName, some request.logicalName].filterMap id)

def databaseScopedConsumerGroup (consumerGroup database : String) : String :=
  consumerGroup ++ "_" ++
    String.ofList (database.toList.map fun character => if character = '-' then '_' else character)

def validateManagedSourceRequest (request : ManagedSourceRequest) :
    Except ConfigurationError Unit :=
  let overlappingKeys := sortedBy (fun key => [key])
    ((request.settings.map (·.1)).filter (· ∈ frameworkKafkaSettingKeys))
  if request.sourceKind ≠ managedSourceKindKafka then
    .error ⟨"ClickHouse cannot realize managed source kind '" ++ request.sourceKind ++ "'"⟩
  else if request.format ≠ supportedKafkaFormat then
    .error ⟨"ClickHouse Kafka landing currently supports only the '" ++ supportedKafkaFormat ++
      "' format; got '" ++ request.format ++ "'"⟩
  else if overlappingKeys ≠ [] then
    .error ⟨"Kafka settings override map cannot redefine typed Kafka settings: " ++
      ", ".intercalate overlappingKeys⟩
  else .ok ()

/-- `request.consumer_group or _default_consumer_group(request)`. -/
def consumerGroupOf (request : ManagedSourceRequest) : String :=
  match request.consumerGroup with
  | some group => if group = "" then defaultConsumerGroup request else group
  | none => defaultConsumerGroup request

/-- `realize_clickhouse_source`, the Kafka table of its resources. -/
def realizeManagedSource (request : ManagedSourceRequest) :
    Except ConfigurationError AdapterManagedSource :=
  (validateManagedSourceRequest request).map fun _ =>
    { sourceKind := request.sourceKind
      name := Compiler.kafkaTableName request.logicalName
      columns := [{ name := "message", type := "String" }]
      brokerList := request.brokerList
      topic := request.topic
      consumerGroup := consumerGroupOf request
      format := request.format
      settings := request.settings
      namingMacroFingerprint := request.namingMacroFingerprint }

variable {request : ManagedSourceRequest} {source : AdapterManagedSource}

theorem validateManagedSourceRequest_eq_ok :
    validateManagedSourceRequest request = .ok () ↔
      request.sourceKind = managedSourceKindKafka ∧ request.format = supportedKafkaFormat ∧
        ∀ setting ∈ request.settings, setting.1 ∉ frameworkKafkaSettingKeys := by
  have hkeys : sortedBy (fun key => [key])
      ((request.settings.map (·.1)).filter (· ∈ frameworkKafkaSettingKeys)) = [] ↔
        ∀ setting ∈ request.settings, setting.1 ∉ frameworkKafkaSettingKeys := by
    rw [List.eq_nil_iff_forall_not_mem]
    simp only [mem_sortedBy, List.mem_filter, List.mem_map, decide_eq_true_eq, not_and,
      forall_exists_index, and_imp]
    constructor
    · exact fun h setting hsetting => h setting.1 setting hsetting rfl
    · rintro h key setting hsetting rfl
      exact h setting hsetting
  rw [validateManagedSourceRequest]
  split_ifs with hkind hformat hoverlap
  · simp [hkind]
  · simp [hformat]
  · refine iff_of_false (by simp) ?_
    rintro ⟨-, -, hfree⟩
    exact hoverlap (hkeys.mpr hfree)
  · simp only [ne_eq, not_not] at hkind hformat hoverlap
    simp only [true_iff]
    exact ⟨hkind, hformat, hkeys.mp hoverlap⟩

theorem realizeManagedSource_eq_ok (h : realizeManagedSource request = .ok source) :
    validateManagedSourceRequest request = .ok () ∧
      source.consumerGroup = consumerGroupOf request ∧
      source.name = Compiler.kafkaTableName request.logicalName := by
  rw [realizeManagedSource] at h
  cases hvalid : validateManagedSourceRequest request with
  | error e =>
    rw [hvalid] at h
    cases h
  | ok valid =>
    rw [hvalid] at h
    cases h
    exact ⟨rfl, rfl, rfl⟩

end SqlTide.Kafka
