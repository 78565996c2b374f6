import SqlTide.Foundations.PythonDict
import SqlTide.Kafka.ManagedSources
import SqlTide.SqlText.Primitives

/-!
# Drift of the settings of a managed source

The Kafka table of a source is rendered with its settings as quoted literals. A build reads them
back from the catalog, where some of them can be masked, and compares the settings that the project
declares. A setting that the project no longer declares is not compared.
-/

namespace SqlTide.Kafka

open Foundations List SqlText

def maskedSettingValue : String := "[HIDDEN]"

/-- A literal as the renderer writes it, without escapes. -/
def settingLiteral (value : String) : String := "'" ++ value ++ "'"

/-- The settings of the rendered table, in their order. -/
def tableSettings (resource : AdapterManagedSource) (database : String) : List (String × String) :=
  [("kafka_broker_list", resource.brokerList), ("kafka_topic_list", resource.topic),
    ("kafka_group_name", databaseScopedConsumerGroup resource.consumerGroup database),
    ("kafka_format", resource.format)] ++ resource.settings

structure CatalogRelation where
  name : String
  engine : String
  columns : List AdapterColumn
  settings : List (String × String)
  deriving DecidableEq, Repr

/-- The relation of a deployed source: the literals of its rendered settings, masked by their
name. -/
def deployedRelation (masked : String → Bool) (resource : AdapterManagedSource)
    (database : String) : CatalogRelation where
  name := resource.name
  engine := "Kafka"
  columns := resource.columns
  settings := (tableSettings resource database).map fun setting =>
    (setting.1, if masked setting.1 then settingLiteral maskedSettingValue
      else settingLiteral setting.2)

/-- `text.strip("'")`. -/
def stripQuotes (characters : List Char) : List Char :=
  (characters.dropWhile (· = '\'')).rdropWhile (· = '\'')

def unquoted (value : String) : String :=
  String.ofList (stripQuotes (pythonStrip value.toList))

def actualSettings (relation : CatalogRelation) : List (String × String) :=
  relation.settings.map fun setting => (setting.1, unquoted setting.2)

/-- The settings of a source apart from its consumer group. -/
def declaredSettings (resource : AdapterManagedSource) : List (String × String) :=
  [("kafka_broker_list", resource.brokerList), ("kafka_topic_list", resource.topic),
    ("kafka_format", resource.format)] ++ resource.settings

def managedSourceDrift (resource : AdapterManagedSource) (relation : CatalogRelation) :
    List String :=
  (dictItems (declaredSettings resource)).filterMap fun setting =>
    let actual := dictGet (actualSettings relation) setting.1
    if actual = some setting.2 ∨ actual = some maskedSettingValue then none else some setting.1

/-- `clickhouse_catalog_resource_matches`, for a managed source. -/
def clickhouseCatalogResourceMatches (resource : AdapterManagedSource) (relation : CatalogRelation)
    (database : String) : Bool :=
  if resource.columns ≠ [] ∧ resource.columns ≠ relation.columns then false
  else relation.engine = "Kafka" ∧
    dictEq (actualSettings relation) (tableSettings resource database)

variable {masked : String → Bool} {database : String}

theorem pythonStrip_settingLiteral (value : String) :
    pythonStrip (settingLiteral value).toList = (settingLiteral value).toList := by
  have hquote : pythonIsspace '\'' = false := by decide
  have htext : (settingLiteral value).toList = '\'' :: (value.toList ++ ['\'']) := by
    simp [settingLiteral]
  rw [htext, pythonStrip, dropWhile_cons_of_neg (by simp [hquote]), ← cons_append,
    rdropWhile_concat_neg _ _ _ (by simp [hquote])]

/-- The value of a deployed setting as it is read back: less the quotes at its ends. -/
def readBack (value : String) : String := String.ofList (stripQuotes value.toList)

theorem unquoted_settingLiteral (value : String) :
    unquoted (settingLiteral value) = readBack value := by
  have htext : (settingLiteral value).toList = '\'' :: (value.toList ++ ['\'']) := by
    simp [settingLiteral]
  rw [unquoted, pythonStrip_settingLiteral, htext, readBack, stripQuotes, stripQuotes,
    dropWhile_cons_of_pos (by simp)]
  congr 1
  rw [dropWhile_append]
  split_ifs with hempty
  · rw [isEmpty_iff.mp hempty]
    rfl
  · exact rdropWhile_concat_pos _ _ _ (by simp)

theorem readBack_maskedSettingValue : readBack maskedSettingValue = maskedSettingValue := by
  decide +kernel

theorem dictGet_actualSettings (resource : AdapterManagedSource) (key : String) :
    dictGet (actualSettings (deployedRelation masked resource database)) key =
      (dictGet (tableSettings resource database) key).map fun value =>
        if masked key then maskedSettingValue else readBack value := by
  have hread : actualSettings (deployedRelation masked resource database) =
      (tableSettings resource database).map fun setting => (setting.1,
        if masked setting.1 then maskedSettingValue else readBack setting.2) := by
    rw [actualSettings, deployedRelation, map_map]
    refine map_congr_left fun setting _ => ?_
    by_cases hmasked : masked setting.1 = true
    · simp [hmasked, unquoted_settingLiteral, readBack_maskedSettingValue]
    · simp [hmasked, unquoted_settingLiteral]
  rw [hread]
  exact dictGet_map (fun key value => if masked key then maskedSettingValue else readBack value) _ _

/-- No declared setting repeats one that the adapter writes itself. -/
def OwnSettings (resource : AdapterManagedSource) : Prop :=
  ∀ setting ∈ resource.settings, setting.1 ∉ frameworkKafkaSettingKeys

variable {resource : AdapterManagedSource}

theorem ownSettings_of_realizeManagedSource {request : ManagedSourceRequest}
    (h : realizeManagedSource request = .ok resource) : OwnSettings resource := by
  rw [realizeManagedSource] at h
  cases hvalid : validateManagedSourceRequest request with
  | error e =>
    rw [hvalid] at h
    cases h
  | ok valid =>
    rw [hvalid] at h
    cases h
    exact (validateManagedSourceRequest_eq_ok.mp hvalid).2.2

theorem dictGet_settings_group (h : OwnSettings resource) :
    dictGet resource.settings "kafka_group_name" = none := by
  rw [dictGet_eq_none, mem_map]
  rintro ⟨setting, hsetting, hkey⟩
  exact h setting hsetting (by rw [hkey]; decide +kernel)

theorem dictGet_declaredSettings_group
    (h : OwnSettings resource) : dictGet (declaredSettings resource) "kafka_group_name" = none := by
  rw [declaredSettings, dictGet_append, dictGet_settings_group h, Option.none_or]
  rfl

theorem dictGet_tableSettings_group (h : OwnSettings resource) :
    dictGet (tableSettings resource database) "kafka_group_name" =
      some (databaseScopedConsumerGroup resource.consumerGroup database) := by
  rw [tableSettings, dictGet_append, dictGet_settings_group h, Option.none_or]
  rfl

theorem dictGet_tableSettings (resource : AdapterManagedSource) {key : String}
    (h : key ≠ "kafka_group_name") :
    dictGet (tableSettings resource database) key = dictGet (declaredSettings resource) key := by
  rw [tableSettings, declaredSettings, dictGet_append, dictGet_append]
  congr 1
  simp [dictGet, find?_cons, Ne.symm h]

end SqlTide.Kafka
